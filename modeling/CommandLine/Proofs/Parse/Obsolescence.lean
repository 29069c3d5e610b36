import CommandLine.Proofs.Parse.Destination

/-!
# Obsolete arguments

The use of an obsolete argument ends a parse, or leaves a warning that names the argument.  This
holds of options, wherever they stand.  Positional values reach their argument without being looked
at in this respect, so it passes unnoticed if that argument is obsolete.
-/

namespace CommandLine

open Expansion (Expands)

/-! ### Warnings -/

theorem obsolescenceNotice_toList (name message : String) :
    (obsolescenceNotice name message).toList =
      "Command-line argument '-".toList ++
        (name.toList ++ ("' is obsolete. ".toList ++ message.toList)) := by
  have hnotice : obsolescenceNotice name message =
      "Command-line argument '-" ++ name ++ "' is obsolete. " ++ message := rfl
  rw [hnotice]
  simp only [String.toList_append, List.append_assoc]

/-- A warning tells which argument it is about, since no name holds a blank. -/
theorem name_eq_of_obsolescenceNotice_eq {first second message other : String}
    (hfirst : NameFault.find? first = none) (hsecond : NameFault.find? second = none)
    (hnotice : obsolescenceNotice first message = obsolescenceNotice second other) :
    first = second := by
  have hword : ∀ name : String, NameFault.find? name = none → ∀ rest : List Char,
      (name.toList ++ ("' is obsolete. ".toList ++ rest)).takeWhile (!Text.isBlank ·) =
        name.toList ++ "'".toList := by
    intro name hname rest
    have hnoBlank : ∀ c ∈ name.toList, (!Text.isBlank c) = true := by
      intro c hc
      rw [NameFault.isBlank_eq_false hname c hc]
      rfl
    rw [List.takeWhile_append_of_pos hnoBlank]
    simp [Text.isBlank]
  have htexts := congrArg String.toList hnotice
  rw [obsolescenceNotice_toList, obsolescenceNotice_toList] at htexts
  have hrest := congrArg (List.takeWhile (!Text.isBlank ·)) (List.append_cancel_left htexts)
  rw [hword first hfirst, hword second hsecond] at hrest
  exact String.toList_inj.mp (List.append_cancel_right hrest)

theorem Declaration.notice?_eq_some_iff {d : Declaration} {warning : String} :
    d.notice? = some warning ↔
      ∃ o, d.obsolescence = some o ∧ obsolescenceNotice d.long o.message = warning :=
  Option.map_eq_some_iff

/-- The warnings after some tokens are those about the named arguments among them. -/
theorem Table.Built.mem_warnings_iff {t : Table} (hbuilt : t.Built) {tokens : List Token}
    {warning : String} :
    warning ∈ (State.after t tokens).warnings ↔
      ∃ d ∈ t.named, t.occurrences d tokens ≠ [] ∧ d.notice? = some warning := by
  have hcoherent := hbuilt.coherent
  constructor
  · intro hwarning
    obtain ⟨token, htoken, hnotice⟩ := List.mem_filterMap.mp hwarning
    cases token with
    | positional text => contradiction
    | responseFile path => contradiction
    | named written name value =>
        obtain ⟨d, hfind, hd⟩ := Option.bind_eq_some_iff.mp hnotice
        have hresolve : t.resolve (.named written name value) = some (d, value) := by
          simp [Table.resolve, hfind]
        have hvalue := Table.mem_occurrences_iff.mpr ⟨_, htoken, d, hresolve, rfl⟩
        exact ⟨d, Table.mem_named_of_find hfind, List.ne_nil_of_mem hvalue, hd⟩
  · rintro ⟨d, hd, hseen, hnotice⟩
    have hall : d ∈ t.all := List.mem_append_left _ hd
    obtain ⟨value, hvalue⟩ := List.exists_mem_of_ne_nil _ hseen
    obtain ⟨token, htoken, owner, hresolve, hlong⟩ := Table.mem_occurrences_iff.mp hvalue
    obtain rfl := hcoherent.eq_of_long (Table.mem_all_of_resolve hresolve) hall hlong
    have hisNamed := hbuilt.wellNamed.isNamed_of_resolve hd hresolve
    refine List.mem_filterMap.mpr ⟨token, htoken, ?_⟩
    cases token with
    | named written name text => rw [Table.notice?_of_resolve_named hresolve, hnotice]
    | positional text => contradiction
    | responseFile path => contradiction

/-! ### Uses of obsolete arguments -/

/-- If the argument is obsolete, then not fatally, and one of the warnings names it. -/
def Declaration.HeededBy (d : Declaration) (warnings : List String) : Prop :=
  ∀ o, d.obsolescence = some o →
    o.fatal = false ∧ obsolescenceNotice d.long o.message ∈ warnings

/-- No warning is about the argument for positional values. -/
theorem Table.Built.not_heededBy_of_positional {t : Table} (hbuilt : t.Built)
    {d : Declaration} (hd : t.positional = some d) (hobsolete : d.obsolescence ≠ none)
    (tokens : List Token) : ¬ d.HeededBy (State.after t tokens).warnings := by
  intro hheeded
  obtain ⟨o, ho⟩ := Option.ne_none_iff_exists'.mp hobsolete
  obtain ⟨e, he, -, hnotice⟩ := hbuilt.mem_warnings_iff.mp (hheeded o ho).2
  obtain ⟨other, -, htext⟩ := Declaration.notice?_eq_some_iff.mp hnotice
  have hdAll : d ∈ t.all := by simp [Table.all, hd]
  have heAll : e ∈ t.all := List.mem_append_left _ he
  have hlong : e.long = d.long :=
    name_eq_of_obsolescenceNotice_eq (hbuilt.validNames e heAll) (hbuilt.validNames d hdAll) htext
  obtain rfl := hbuilt.coherent.eq_of_long heAll hdAll hlong
  have hpositional := hbuilt.wellNamed.positional e hd
  rw [hbuilt.wellNamed.named e he] at hpositional
  contradiction

namespace Parser

theorem takeArguments_heeded {p : Parser} (hbuilt : p.table.Built) {files : FileSystem}
    {arguments flat : List String}
    (hok : p.takeArguments files arguments =
      .ok (.after p.table (Token.ofArguments p.responseFiles flat)))
    (hflat : Expands (p.source files) arguments flat) {d : Declaration}
    (hd : d ∈ p.table.named) (hseen : p.values flat d ≠ []) :
    d.HeededBy (State.after p.table (Token.ofArguments p.responseFiles flat)).warnings := by
  intro o ho
  constructor
  · have hall : d ∈ p.table.all := List.mem_append_left _ hd
    obtain ⟨count, token, value, hevent, hresolve⟩ :=
      exists_event_of_values hbuilt.coherent hok hflat hall hseen
    have hfault := (named_fault_eq_none_of_takeArguments hbuilt hok hd hevent hresolve).1
    simpa [Fault.obsolete?, ho] using hfault
  · exact hbuilt.mem_warnings_iff.mpr
      ⟨d, hd, hseen, Declaration.notice?_eq_some_iff.mpr ⟨o, ho, rfl⟩⟩

/-- After a successful parse every use of an obsolete named argument has left a warning and was
not fatal, and so has every use of any argument unless the one for positional values is obsolete
and used. -/
theorem parse_heeds_obsolescence {p : Parser} (hbuilt : p.table.Built) {files : FileSystem}
    {arguments : List String} {destination final : Record} {outcome : Outcome}
    (hparse : p.parse files arguments destination = (final, .ok outcome)) :
    ∃ flat, Expands (p.source files) arguments flat ∧
      (∀ d ∈ p.table.named, p.values flat d ≠ [] → d.HeededBy outcome.warnings) ∧
        ((∀ d ∈ p.table.all, p.values flat d ≠ [] → d.HeededBy outcome.warnings) ↔
          ∀ d, p.table.positional = some d → d.obsolescence ≠ none → p.values flat d = []) := by
  obtain ⟨s, htake, -, rfl⟩ := parse_ok hparse
  obtain ⟨flat, hflat, rfl, -⟩ := takeArguments_ok hbuilt.coherent htake
  have hnamed : ∀ d ∈ p.table.named, p.values flat d ≠ [] →
      d.HeededBy (State.after p.table (Token.ofArguments p.responseFiles flat)).warnings := by
    intro d hd hseen
    exact takeArguments_heeded hbuilt htake hflat hd hseen
  refine ⟨flat, hflat, hnamed, ?_⟩
  constructor
  · intro hall d hd hobsolete
    by_contra hseen
    have hmem : d ∈ p.table.all := by simp [Table.all, hd]
    exact hbuilt.not_heededBy_of_positional hd hobsolete _ (hall d hmem hseen)
  · intro hunused d hd hseen
    rcases List.mem_append.mp hd with hmem | hmem
    · exact hnamed d hmem hseen
    · -- a positional value was given, so its argument is not obsolete
      intro o ho
      have hpositional : p.table.positional = some d := by simpa using hmem
      exact absurd (hunused d hpositional (by simp [ho])) hseen

/-- The command line of a program that lists files, with nothing in it that should be used. -/
def lister : Parser where
  table := .ofDraftsD
    [⟨"verbose", "verbose", .single .toggle, [.short "v", .obsolete "Read the log instead."]⟩,
      ⟨"files", "files", .collection .text .list,
        [.positional, .fatallyObsolete "Search the index."]⟩]

theorem lister_built : lister.table.Built := by
  dsimp only [lister]
  exact Table.ofDraftsD_built _

theorem lister_expands {arguments : List String} (hplain : Token.Plain false arguments) :
    Expands (lister.source (.empty "/")) arguments arguments :=
  .of_plain hplain

theorem lister_heeds_verbose :
    (lister.parse (.empty "/") ["-v-", ""] .empty).2 =
        .ok ⟨false, ["Command-line argument '-verbose' is obsolete. Read the log instead."]⟩ ∧
      ∀ d ∈ lister.table.all, lister.values ["-v-", ""] d ≠ [] →
        d.HeededBy
          ["Command-line argument '-verbose' is obsolete. Read the log instead."] := by
  have hparse : (lister.parse (.empty "/") ["-v-", ""] .empty).2 =
      .ok ⟨false, ["Command-line argument '-verbose' is obsolete. Read the log instead."]⟩ := by
    decide
  have hunused : ∀ d ∈ lister.table.positional, lister.values ["-v-", ""] d = [] := by
    decide
  obtain ⟨flat, hflat, -, hheeded⟩ :=
    parse_heeds_obsolescence lister_built (Prod.ext rfl hparse)
  obtain rfl := hflat.unique (lister_expands (by decide))
  exact ⟨hparse, hheeded.mpr fun d hd _ => hunused d hd⟩

/-- A positional value for an argument that is fatally obsolete. -/
theorem lister_takes_file_unnoticed :
    lister.table.Built ∧ Expands (lister.source (.empty "/")) ["x"] ["x"] ∧
      (lister.parse (.empty "/") ["x"] .empty).2 = .ok ⟨false, []⟩ ∧
        ∃ files ∈ lister.table.all,
          files.obsolescence = some ⟨"Search the index.", true⟩ ∧
            lister.values ["x"] files = [some "x"] :=
  ⟨lister_built, lister_expands (by decide), by decide +kernel, by decide +kernel⟩

end Parser

end CommandLine
