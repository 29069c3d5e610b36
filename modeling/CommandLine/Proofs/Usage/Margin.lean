import CommandLine.Proofs.Usage.Layout

/-!
# The right edge of usage messages

A line of a block ends in a space where a fragment does, and where the first fragment is empty.  No
other fragment can be, and the first one is not if there is a text that does not begin with a space.
An argument without a text, though, has its tag filled up to the column of descriptions, or a line
of spaces below it.  This is so with every wrapper that trims the lines it makes.
-/

namespace CommandLine

namespace Usage

variable {wrap : Text.Wrapper}

def EndsInSpace (s : String) : Prop :=
  s.toList.getLast? = some ' '

instance (s : String) : Decidable (EndsInSpace s) :=
  inferInstanceAs (Decidable (s.toList.getLast? = some ' '))

def Unpadded (lines : List String) : Prop :=
  ∀ line ∈ lines, ¬ EndsInSpace line

instance (lines : List String) : Decidable (Unpadded lines) :=
  inferInstanceAs (Decidable (∀ line ∈ lines, ¬ EndsInSpace line))

/-- A description in one line, without a space at its end. -/
structure Tidy (description : String) : Prop where
  oneLine : '\n' ∉ description.toList
  trimmed : ¬ EndsInSpace description

instance (description : String) : Decidable (Tidy description) :=
  decidable_of_iff ('\n' ∉ description.toList ∧ ¬ EndsInSpace description)
    ⟨fun ⟨oneLine, trimmed⟩ => ⟨oneLine, trimmed⟩, fun tidy => ⟨tidy.oneLine, tidy.trimmed⟩⟩

/-! ### Ends of lines -/

theorem endsInSpace_append_iff {s t : String} (ht : t ≠ "") :
    EndsInSpace (s ++ t) ↔ EndsInSpace t := by
  have hne : t.toList ≠ [] := by simpa using ht
  unfold EndsInSpace
  rw [String.toList_append, List.getLast?_append_of_ne_nil _ hne]

theorem endsInSpace_spaces {n : Nat} (hn : 0 < n) : EndsInSpace (spaces n) := by
  unfold EndsInSpace spaces
  rw [String.toList_ofList, List.getLast?_replicate, if_neg (Nat.ne_of_gt hn)]

theorem not_endsInSpace_indented_tag (d : Declaration) : ¬ EndsInSpace (indented (tag d)) := by
  obtain ⟨last, hlast, -, hspace⟩ := exists_getLast?_tag d
  rwa [EndsInSpace, getLast?_indented, hlast, Option.some.injEq]

/-! ### Blocks -/

/-- Behind a margin a fragment ends its line without a space unless it is empty or ends in one. -/
theorem not_endsInSpace_margin_iff {margin fragment : String} (hmargin : EndsInSpace margin) :
    ¬ EndsInSpace (margin ++ fragment) ↔ fragment ≠ "" ∧ ¬ EndsInSpace fragment := by
  by_cases hempty : fragment = ""
  · simp [hempty, hmargin]
  · rw [endsInSpace_append_iff hempty]
    simp [hempty]

theorem unpadded_cons_iff {line : String} {lines : List String} :
    Unpadded (line :: lines) ↔ ¬ EndsInSpace line ∧ Unpadded lines :=
  List.forall_mem_cons

theorem unpadded_map_margin_iff {margin : String} (hmargin : EndsInSpace margin)
    (fragments : List String) :
    Unpadded (fragments.map (margin ++ ·)) ↔
      ∀ fragment ∈ fragments, fragment ≠ "" ∧ ¬ EndsInSpace fragment := by
  unfold Unpadded
  rw [List.forall_mem_map]
  simp only [not_endsInSpace_margin_iff hmargin]

theorem unpadded_block_iff (hkeeps : wrap.Keeps) (d : Declaration) :
    Unpadded (block wrap d) ↔
      ∀ fragment ∈ fragments wrap (description d), fragment ≠ "" ∧ ¬ EndsInSpace fragment := by
  have hcolumn : EndsInSpace (spaces 33) := endsInSpace_spaces (by decide)
  rcases Nat.lt_or_ge tagLimit (tag d).utf8ByteSize with hwide | hfits
  · rw [below_block hkeeps hwide, unpadded_cons_iff, unpadded_map_margin_iff hcolumn,
      and_iff_right (not_endsInSpace_indented_tag d)]
  · obtain ⟨gap, first, rest, hfragments, hwidth, hblock⟩ := beside_block hkeeps hfits
    -- a tag that fits leaves room for at least one space
    have hgap : 0 < gap := by
      have hlength := length_le_utf8ByteSize (tag d)
      have hindentation : indentation.length = 2 := rfl
      unfold tagLimit at hfits
      rw [String.length_append, String.length_append, length_spaces] at hwidth
      omega
    have hmargin : EndsInSpace (indented (tag d) ++ spaces gap) := by
      have hne : spaces gap ≠ "" := by
        intro hempty
        have hlength := length_spaces gap
        rw [hempty] at hlength
        exact Nat.ne_of_lt hgap hlength
      rw [endsInSpace_append_iff hne]
      exact endsInSpace_spaces hgap
    rw [hblock, hfragments, unpadded_cons_iff, not_endsInSpace_margin_iff hmargin,
      unpadded_map_margin_iff hcolumn, List.forall_mem_cons]

/-- Only the first line of a wrapped text can be empty. -/
theorem unpadded_block_iff_of_oneLine (htrims : wrap.Trims) {d : Declaration}
    (hfeed : '\n' ∉ (description d).toList) :
    Unpadded (block wrap d) ↔
      Unpadded (fragments wrap (description d)) ∧
        (fragments wrap (description d)).head? ≠ some "" := by
  rw [unpadded_block_iff htrims.toKeeps]
  constructor
  · intro hfragments
    refine ⟨fun fragment hfragment => (hfragments fragment hfragment).2, ?_⟩
    intro hempty
    exact (hfragments "" (List.mem_of_head? hempty)).1 rfl
  · rintro ⟨hunpadded, hfirst⟩ fragment hfragment
    refine ⟨?_, hunpadded fragment hfragment⟩
    obtain ⟨first, rest, hcons⟩ :=
      List.exists_cons_of_ne_nil (fragments_ne_nil htrims.toKeeps (description d))
    have hrest : "" ∉ (fragments wrap (description d)).tail :=
      htrims.later_ne descriptionWidth _ hfeed
    rw [hcons] at hfragment hfirst hrest
    rcases List.mem_cons.mp hfragment with rfl | hlater
    · rintro rfl
      exact hfirst rfl
    · rintro rfl
      exact hrest hlater

/-! ### Texts of entries -/

theorem Shows.description_eq {d : Declaration} {names : List String} {tag note : String}
    (hshows : Shows d names tag note) :
    description d = d.description.getD "" ++
      (if d.description.getD "" = "" ∨ note = "" then "" else " ") ++ note := by
  unfold description
  cases hshows with
  | abbreviated hshort hne hlong =>
      rw [abbreviation_eq_some_iff.mpr ⟨hshort, _, hne, hlong⟩]
      simp
  | separate hshort hwhole =>
      have hnone : abbreviation d = none := by
        rw [Option.eq_none_iff_forall_ne_some]
        intro short hbrief
        obtain ⟨hsame, rest, hne, hlong⟩ := abbreviation_eq_some_iff.mp hbrief
        rw [hshort, Option.some.injEq] at hsame
        rw [← hsame] at hlong
        exact hne (hwhole rest hlong)
      rw [hnone, hshort]
      simp [String.append_assoc]
  | single hshort =>
      have hnone : abbreviation d = none := by
        unfold abbreviation
        rw [hshort, Option.filter_none]
      rw [hnone, hshort]
      simp

theorem Shows.note_cases {d : Declaration} {names : List String} {tag note : String}
    (hshows : Shows d names tag note) :
    note = "" ∨ ∃ short, d.short = some short ∧ note = "(Short format: /" ++ short ++ ")" := by
  cases hshows with
  | abbreviated hshort hne hlong => exact .inl rfl
  | separate hshort hwhole => exact .inr ⟨_, hshort, rfl⟩
  | single hshort => exact .inl rfl

theorem description_eq_empty_iff {d : Declaration} {names : List String} {tag note : String}
    (hshows : Shows d names tag note) :
    description d = "" ↔ d.description.getD "" = "" ∧ note = "" := by
  rw [hshows.description_eq, String.append_eq_empty_iff, String.append_eq_empty_iff]
  constructor
  · rintro ⟨⟨htext, -⟩, hnote⟩
    exact ⟨htext, hnote⟩
  · rintro ⟨htext, hnote⟩
    exact ⟨⟨htext, if_pos (.inl htext)⟩, hnote⟩

theorem description_tidy {d : Declaration} {names : List String} {tag note : String}
    (hshows : Shows d names tag note) (htidy : Tidy (d.description.getD ""))
    (hshort : ∀ short, d.short = some short → NameFault.find? short = none) :
    Tidy (description d) := by
  rw [hshows.description_eq]
  rcases hshows.note_cases with rfl | ⟨short, hsome, rfl⟩
  · simpa using htidy
  · have hname : '\n' ∉ short.toList := by
      intro hfeed
      have hblank := NameFault.isBlank_eq_false (hshort short hsome) _ hfeed
      contradiction
    constructor
    · intro hfeed
      simp only [String.toList_append, List.mem_append] at hfeed
      rcases hfeed with (htext | hseparator) | (hopening | hshortName) | hclosing
      · exact htidy.oneLine htext
      · split at hseparator <;> contradiction
      · contradiction
      · exact hname hshortName
      · contradiction
    · rw [← String.append_assoc, ← String.append_assoc, endsInSpace_append_iff (by decide)]
      decide

theorem head?_description_ne_space {d : Declaration} {names : List String} {tag note : String}
    (hshows : Shows d names tag note)
    (hfirst : (d.description.getD "").toList.head? ≠ some ' ') :
    (description d).toList.head? ≠ some ' ' := by
  rw [hshows.description_eq]
  by_cases htext : d.description.getD "" = ""
  · rw [htext, if_pos (.inl rfl)]
    rcases hshows.note_cases with rfl | ⟨short, -, rfl⟩
    · decide
    · simp
  · have hne : (d.description.getD "").toList ≠ [] := by simpa using htext
    rwa [String.toList_append, String.toList_append, List.append_assoc,
      List.head?_append_of_ne_nil _ hne]

/-! ### Right edges -/

/-- How the lines of the block for an argument end. -/
structure RightEdge (d : Declaration) (note : String) (fragments block : List String) : Prop where
  /-- Only the first fragment can be empty. -/
  unpadded_iff : Unpadded block ↔ Unpadded fragments ∧ fragments.head? ≠ some ""
  bare : d.description.getD "" = "" → note = "" →
    ¬ Unpadded block ∧ block =
      if (tag d).utf8ByteSize ≤ tagLimit then
        [indented (tag d) ++ spaces (descriptionColumn - (tag d).length)]
      else [indented (tag d), spaces 33]
  short : d.description.getD "" ≠ "" ∨ note ≠ "" → (description d).utf8ByteSize < descriptionWidth →
    Unpadded block
  wrapped : d.description.getD "" ≠ "" ∨ note ≠ "" →
    (d.description.getD "").toList.head? ≠ some ' ' → Unpadded fragments → Unpadded block
  trimmed : Text.BreaksNoSpaces descriptionWidth (description d).toList → Unpadded fragments

theorem fragments_empty (htrims : wrap.Trims) : fragments wrap "" = [""] :=
  htrims.short descriptionWidth "" (by decide) (by decide) (by decide)

theorem block_bare (htrims : wrap.Trims) {d : Declaration} (hempty : description d = "") :
    block wrap d =
      if (tag d).utf8ByteSize ≤ tagLimit then
        [indented (tag d) ++ spaces (descriptionColumn - (tag d).length)]
      else [indented (tag d), spaces 33] := by
  have hcolumn : indented (spaces descriptionColumn) = spaces 33 := by decide
  unfold block indentedEntry entry
  rw [hempty, fragments_empty htrims]
  dsimp only
  split
  · rw [List.map_nil, List.append_nil, List.map_singleton, String.append_empty, padded,
      indented_tag_append d (lineFeed_notMem_spaces _)]
  · rw [List.map_nil, List.append_nil, String.append_empty, List.map_cons, List.map_singleton,
      hcolumn]

theorem block_rightEdge (htrims : wrap.Trims) {d : Declaration} {names : List String}
    {note : String} (hshows : Shows d names (tag d) note) (htidy : Tidy (description d)) :
    RightEdge d note (fragments wrap (description d)) (block wrap d) := by
  have hiff := unpadded_block_iff_of_oneLine htrims htidy.oneLine
  have hempty := description_eq_empty_iff hshows
  have hsome : d.description.getD "" ≠ "" ∨ note ≠ "" → description d ≠ "" := by
    rintro hor hnone
    obtain ⟨htext, hnote⟩ := hempty.mp hnone
    rcases hor with h | h
    · exact h htext
    · exact h hnote
  constructor
  · exact hiff
  · intro htext hnote
    have hnone := hempty.mpr ⟨htext, hnote⟩
    refine ⟨?_, block_bare htrims hnone⟩
    rw [hiff, hnone, fragments_empty htrims]
    rintro ⟨-, hfirst⟩
    exact hfirst rfl
  · intro hor hshort
    have hone : fragments wrap (description d) = [description d] :=
      htrims.short descriptionWidth _ htidy.oneLine htidy.trimmed hshort
    rw [hiff, hone]
    refine ⟨List.forall_mem_singleton.mpr htidy.trimmed, ?_⟩
    simpa using hsome hor
  · intro hor hfirst hunpadded
    refine hiff.mpr ⟨hunpadded, ?_⟩
    exact htrims.first_ne descriptionWidth _ htidy.oneLine (hsome hor)
      (head?_description_ne_space hshows hfirst)
  · exact htrims.trimmed descriptionWidth _ htidy.oneLine

end Usage

open Usage (Describes RightEdge Tidy Unpadded block fragments written)

namespace Parser

/-- The block for an argument with nothing in the column of descriptions has spaces at the end of a
line, however long the tag is.  In any other block no line ends in a space, as long as the text is
short, or does not begin with a space and is wrapped without spaces at the ends of its lines. -/
theorem usage_unpadded {wrap : Text.Wrapper} (htrims : wrap.Trims) {p : Parser}
    (hbuilt : p.table.Built) {d : Declaration} (hd : d ∈ p.table.named)
    (htidy : Tidy (d.description.getD "")) :
    ∃ names note before after, p.usageWith wrap = before ++ written (block wrap d) ++ after ∧
      Describes d names note (fragments wrap (Usage.description d)) (block wrap d) ∧
        RightEdge d note (fragments wrap (Usage.description d)) (block wrap d) := by
  have hall : d ∈ p.table.all := List.mem_append_left _ hd
  have hshort : ∀ short, d.short = some short → NameFault.find? short = none := by
    intro short hsome
    have hanswers := Declaration.answersTo_iff.mpr (.inr hsome)
    exact nameError?_eq_none_iff.mp (hbuilt.wellNamed.validNames d hall short hanswers)
  obtain ⟨names, note, before, after, husage, hdescribes⟩ :=
    usage_describes htrims.toKeeps hbuilt hd
  have hdescription := Usage.description_tidy hdescribes.shows htidy hshort
  exact ⟨names, note, before, after, husage, hdescribes,
    Usage.block_rightEdge htrims hdescribes.shows hdescription⟩

/-- The command line of an indexer, whose first two arguments have nothing to be said about them. -/
def indexer : Parser where
  table := .ofDraftsD
    [⟨"verbose", "verbose", .single .toggle, []⟩,
      ⟨"ignoreinaccessibledirectories", "tolerant", .single .toggle, []⟩,
      ⟨"output", "output", .single .path, [.short "x", .description "Write the index to a file."]⟩]

theorem indexer_built : indexer.table.Built := by
  dsimp only [indexer]
  exact Table.ofDraftsD_built _

theorem indexer_ends_output_in_text :
    indexer.table.Built ∧ Text.wrapped.Trims ∧ ∃ d ∈ indexer.table.named,
      Tidy (d.description.getD "") ∧ d.description = some "Write the index to a file." ∧
        Unpadded (block Text.wrapped d) := by
  have houtput : ∃ d ∈ indexer.table.named, d.description = some "Write the index to a file." ∧
      (Usage.description d).utf8ByteSize < Usage.descriptionWidth := by
    decide
  obtain ⟨d, hd, hdescription, hshort⟩ := houtput
  have htidy : Tidy (d.description.getD "") := by
    rw [hdescription]
    constructor <;> decide
  have hsome : d.description.getD "" ≠ "" := by
    rw [hdescription]
    decide
  obtain ⟨names, note, before, after, -, -, hedge⟩ :=
    usage_unpadded Text.wrapped_trims indexer_built hd htidy
  exact ⟨indexer_built, Text.wrapped_trims, d, hd, htidy, hdescription,
    hedge.short (.inl hsome) hshort⟩

/-- All descriptions are tidy and well wrapped, and still there are spaces at the ends of lines. -/
theorem indexer_pads_tags :
    indexer.table.Built ∧
      (∀ d ∈ indexer.table.named, Tidy (d.description.getD "") ∧
        Unpadded (fragments Text.wrapped (Usage.description d))) ∧
      (∃ d ∈ indexer.table.named, d.description = none ∧ d.short = none ∧
        Usage.tag d = "-verbose[+|-]" ∧
          block Text.wrapped d = ["  -verbose[+|-]                  "] ∧
            ¬ Unpadded (block Text.wrapped d)) ∧
      indexer.usage = "Usage : program [options]\nOptions :\n\n" ++
        "  -verbose[+|-]                  \n" ++
        "  -ignoreinaccessibledirectories[+|-]\n                                 \n" ++
        "  -output:<filename>             Write the index to a file. (Short format: /x)\n" :=
  ⟨indexer_built, by decide, by decide, rfl⟩

end Parser

end CommandLine
