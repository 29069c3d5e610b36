import CommandLine.Proofs.Usage.Layout

/-!
# Names in usage messages

A usage message shows an argument by all its names.  Each of them leads back to that argument, unless
it is a short name that another argument has for its long one; for long names win, and the message
does not tell.
-/

namespace CommandLine

open Usage (Describes Shows block fragments written)

/-- The names that a message shows for an argument, in the tag or behind the description. -/
def Parser.Advertises (wrap : Text.Wrapper) (p : Parser) (d : Declaration)
    (names : List String) : Prop :=
  ∃ note before after, p.usageWith wrap = before ++ written (block wrap d) ++ after ∧
    Describes d names note (fragments wrap (Usage.description d)) (block wrap d)

theorem Usage.Shows.mem_names_iff {d : Declaration} {names : List String} {tag note name : String}
    (hshows : Shows d names tag note) :
    name ∈ names ↔ d.long = name ∨ d.short = some name := by
  cases hshows with
  | abbreviated hshort hne hlong => simp [hshort, eq_comm]
  | separate hshort hwhole => simp [hshort, eq_comm]
  | single hshort => simp [hshort, eq_comm]

namespace Table

theorem WellNamed.eq_of_getElem? {t : Table} (hnamed : t.WellNamed) {d : Declaration} {i j : Nat}
    (hi : t.named[i]? = some d) (hj : t.named[j]? = some d) : i = j := by
  have hnodup : (t.named.map Declaration.long).Nodup := by
    have hlong := hnamed.longNames
    rw [all, List.map_append] at hlong
    exact hlong.of_append_left
  have hlt : i < (t.named.map Declaration.long).length := by
    rw [List.length_map]
    exact (List.getElem?_eq_some_iff.mp hi).1
  apply (List.getElem?_inj hlt hnodup).mp
  rw [List.getElem?_map, List.getElem?_map, hi, hj]

theorem WellNamed.position_eq_some_iff {t : Table} (hnamed : t.WellNamed) {d : Declaration}
    {i : Nat} (hd : t.named[i]? = some d) {name : String} :
    t.position name = some i ↔ t.find name = some d := by
  unfold Table.find
  rw [Option.bind_eq_some_iff]
  constructor
  · intro hposition
    exact ⟨i, hposition, hd⟩
  · rintro ⟨j, hposition, hj⟩
    rwa [hnamed.eq_of_getElem? hd hj]

end Table

namespace Parser

/-- The names that a message shows for an argument are its own.  The long one leads to it; the short
one leads to it or, if there is such an argument, to the one that has it for its long name. -/
theorem usage_names_found {wrap : Text.Wrapper} (hkeeps : wrap.Keeps) {p : Parser}
    (hbuilt : p.table.Built) {i : Nat} {d : Declaration} (hd : p.table.named[i]? = some d) :
    ∃ names, p.Advertises wrap d names ∧
      (∀ name, name ∈ names ↔ d.long = name ∨ d.short = some name) ∧
        p.table.position d.long = some i ∧
          ∀ name ∈ names,
            (p.table.position name = some i ↔
              ∀ other ∈ p.table.named, other.long = name → other = d) ∧
            ∀ j other, p.table.named[j]? = some other → other.long = name →
              p.table.position name = some j := by
  have hwell := hbuilt.wellNamed
  have hmem : d ∈ p.table.named := List.mem_of_getElem? hd
  obtain ⟨names, note, before, after, husage, hdescribes⟩ := usage_describes hkeeps hbuilt hmem
  have hlong : ∀ j other, p.table.named[j]? = some other → p.table.position other.long = some j := by
    intro j other hother
    rw [hwell.position_eq_some_iff hother]
    exact Table.find_long_of_nodup hwell.longNames (List.mem_of_getElem? hother)
  refine ⟨names, ⟨note, before, after, husage, hdescribes⟩,
    fun name => hdescribes.shows.mem_names_iff, hlong i d hd, ?_⟩
  intro name hname
  constructor
  · rw [hwell.position_eq_some_iff hd]
    rcases hdescribes.shows.mem_names_iff.mp hname with rfl | hshort
    · refine iff_of_true (Table.find_long_of_nodup hwell.longNames hmem) ?_
      intro other hother hsame
      exact hbuilt.coherent.eq_of_long (List.mem_append_left _ hother)
        (List.mem_append_left _ hmem) hsame
    · exact hwell.find_short_iff hmem hshort
  · rintro j other hother rfl
    exact hlong j other hother

/-- The command line of a player, with a short name for the volume that is the long name of a
toggle. -/
def player : Parser where
  table := .ofDraftsD
    [⟨"volume", "volume", .single (.integer ⟨false, 32⟩), [.short "v"]⟩,
      ⟨"v", "verbose", .single .toggle, []⟩]

theorem player_built : player.table.Built := by
  dsimp only [player]
  exact Table.ofDraftsD_built _

theorem exists_player_volume :
    ∃ volume, player.table.named[0]? = some volume ∧ volume.long = "volume" ∧
      volume.short = some "v" := by
  have hlong : player.table.named[0]?.map Declaration.long = some "volume" := by decide
  have hshort : player.table.named[0]?.bind Declaration.short = some "v" := by decide
  obtain ⟨volume, hvolume, hname⟩ := Option.map_eq_some_iff.mp hlong
  rw [hvolume] at hshort
  exact ⟨volume, hvolume, hname, hshort⟩

theorem player_finds_volume :
    player.table.Built ∧ Text.wrapped.Keeps ∧
      ∃ volume names, player.table.named[0]? = some volume ∧
        player.Advertises Text.wrapped volume names ∧ "volume" ∈ names ∧
          player.table.position "volume" = some 0 := by
  obtain ⟨volume, hvolume, hlong, -⟩ := exists_player_volume
  obtain ⟨names, hadvertises, hnames, hposition, -⟩ :=
    usage_names_found Text.wrapped_keeps player_built hvolume
  rw [hlong] at hposition
  exact ⟨player_built, Text.wrapped_keeps, volume, names, hvolume, hadvertises,
    (hnames _).mpr (.inl hlong), hposition⟩

/-- The message shows `-v[olume]`, and yet `-v` means the toggle. -/
theorem player_reaches_toggle :
    player.table.Built ∧ ∃ volume names, player.table.named[0]? = some volume ∧
      player.Advertises Text.wrapped volume names ∧ "v" ∈ names ∧
        player.table.position "v" = some 1 := by
  obtain ⟨volume, hvolume, -, hshort⟩ := exists_player_volume
  obtain ⟨names, note, before, after, husage, hdescribes⟩ :=
    usage_describes Text.wrapped_keeps player_built (List.mem_of_getElem? hvolume)
  exact ⟨player_built, volume, names, hvolume, ⟨note, before, after, husage, hdescribes⟩,
    hdescribes.shows.mem_names_iff.mpr (.inr hshort), by decide⟩

end Parser

end CommandLine
