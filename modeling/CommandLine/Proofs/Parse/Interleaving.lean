import CommandLine.Proofs.Parse.FirstFault

/-!
# Interleaved occurrences

A token is judged by the occurrences of its own argument before it and by the length of its list,
and by nothing else.  So a command line without a fault is one on which every token may be used and
every argument admits its own occurrences, however these are interleaved with those of other
arguments.
-/

namespace CommandLine

namespace Table

/-! ### The tokens of one argument -/

/-- The token belongs to the argument. -/
def belongsTo (t : Table) (d : Declaration) (token : Token) : Bool :=
  (t.resolve token).any (·.1.long == d.long)

theorem valueFor?_eq_none_of_belongsTo {t : Table} {d : Declaration} {token : Token}
    (hother : t.belongsTo d token = false) : t.valueFor? d token = none := by
  unfold belongsTo at hother
  cases hresolve : t.resolve token with
  | none => simp [valueFor?, hresolve]
  | some target =>
      have hlong : target.1.long ≠ d.long := by
        simpa [hresolve] using hother
      simp [valueFor?, hresolve, Option.filter_some, hlong]

/-- Only the tokens of an argument count for its occurrences. -/
theorem occurrences_filter_belongsTo (t : Table) (d : Declaration) (tokens : List Token) :
    t.occurrences d (tokens.filter (t.belongsTo d)) = t.occurrences d tokens := by
  rw [occurrences_eq_filterMap, occurrences_eq_filterMap]
  induction tokens with
  | nil => rfl
  | cons token rest ih =>
      by_cases hown : t.belongsTo d token = true
      · rw [List.filter_cons_of_pos hown, List.filterMap_cons, List.filterMap_cons, ih]
      · have hnone := valueFor?_eq_none_of_belongsTo (Bool.eq_false_iff.mpr hown)
        rw [List.filter_cons_of_neg hown, List.filterMap_cons_none hnone]
        exact ih

end Table

/-! ### Faultless command lines, one argument at a time -/

/-- Each of the values may follow those before it. -/
def Declaration.Admits (d : Declaration) (values : List (Option String)) : Prop :=
  ∀ before value after, values = before ++ value :: after →
    Fault.duplicate? d before = none ∧ Fault.invalid? d value = none ∧
      Fault.repeated? d before value = none

/-- The token belongs to an argument that may be named in a list of `count` arguments. -/
def Table.Usable (t : Table) (count : Nat) (token : Token) : Prop :=
  ∃ d value, t.resolve token = some (d, value) ∧
    (token.isNamed = true → Fault.obsolete? d = none ∧ Fault.exclusive? d count = none)

theorem Table.Faultless.usable {t : Table} {count : Nat} {tokens : List Token}
    (hfaultless : t.Faultless count tokens) : ∀ token ∈ tokens, t.Usable count token := by
  intro token htoken
  obtain ⟨earlier, later, hsplit⟩ := List.append_of_mem htoken
  have hfault := hfaultless earlier token later hsplit
  obtain ⟨d, value, hresolve, hnamed, -⟩ := Table.fault?_eq_none_iff.mp hfault
  exact ⟨d, value, hresolve, hnamed⟩

theorem Table.Faultless.admits {t : Table} (hcoherent : t.Coherent) {count : Nat}
    {tokens : List Token} (hfaultless : t.Faultless count tokens) {d : Declaration}
    (hd : d ∈ t.all) : d.Admits (t.occurrences d tokens) := by
  intro before value after hvalues
  obtain ⟨earlier, token, later, hsplit, hearlier, owner, hresolve, hlong⟩ :=
    Table.exists_token_of_occurrences hvalues
  have howner : owner = d :=
    hcoherent.eq_of_long (Table.mem_all_of_resolve hresolve) hd hlong
  subst owner
  have hfault := hfaultless earlier token later hsplit
  obtain ⟨found, text, hfound, -, hrest⟩ := Table.fault?_eq_none_iff.mp hfault
  have htarget : (d, value) = (found, text) := by
    rw [hresolve] at hfound
    exact Option.some.inj hfound
  obtain ⟨rfl, rfl⟩ := Prod.mk.inj htarget
  rw [hearlier] at hrest
  exact hrest

/-- Nothing is at fault exactly if all tokens may be used and every argument admits its own
occurrences. -/
theorem Table.faultless_iff {t : Table} (hcoherent : t.Coherent) {count : Nat}
    {tokens : List Token} :
    t.Faultless count tokens ↔
      (∀ token ∈ tokens, t.Usable count token) ∧
        ∀ d ∈ t.all, d.Admits (t.occurrences d tokens) := by
  constructor
  · intro hfaultless
    exact ⟨hfaultless.usable, fun d hd => hfaultless.admits hcoherent hd⟩
  · rintro ⟨husable, hadmits⟩ earlier token later hsplit
    have htoken : token ∈ tokens := by
      rw [hsplit]
      exact List.mem_append_right _ List.mem_cons_self
    obtain ⟨d, value, hresolve, hnamed⟩ := husable token htoken
    have hvalues : t.occurrences d tokens =
        t.occurrences d earlier ++ value :: t.occurrences d later := by
      have htarget := Table.occurrences_singleton_self hresolve
      rw [hsplit, List.append_cons, Table.occurrences_append, Table.occurrences_append, htarget,
        List.append_assoc, List.singleton_append]
    have hd : d ∈ t.all := Table.mem_all_of_resolve hresolve
    have hrest := hadmits d hd _ value _ hvalues
    exact Table.fault?_eq_none_iff.mpr ⟨d, value, hresolve, hnamed, hrest⟩

/-! ### Command lines that differ by their interleaving -/

/-- The same arguments, of which those that belong to one declaration keep their order. -/
structure Table.Reordered (t : Table) (responseFiles : Bool) (first second : List String) :
    Prop where
  perm : first.Perm second
  keeps : ∀ d ∈ t.all,
    (Token.ofArguments responseFiles first).filter (t.belongsTo d) =
      (Token.ofArguments responseFiles second).filter (t.belongsTo d)

namespace Table.Reordered

variable {t : Table} {responseFiles : Bool} {first second : List String}

theorem symm (hreordered : t.Reordered responseFiles first second) :
    t.Reordered responseFiles second first :=
  ⟨hreordered.perm.symm, fun d hd => (hreordered.keeps d hd).symm⟩

theorem tokens_perm (hreordered : t.Reordered responseFiles first second) :
    (Token.ofArguments responseFiles first).Perm (Token.ofArguments responseFiles second) :=
  hreordered.perm.filterMap _

theorem plain (hreordered : t.Reordered responseFiles first second)
    (hplain : Token.Plain responseFiles first) : Token.Plain responseFiles second := by
  intro path hpath
  exact hplain path (hreordered.tokens_perm.mem_iff.mpr hpath)

theorem occurrences_eq (hreordered : t.Reordered responseFiles first second)
    {d : Declaration} (hd : d ∈ t.all) :
    t.occurrences d (Token.ofArguments responseFiles first) =
      t.occurrences d (Token.ofArguments responseFiles second) := by
  rw [← occurrences_filter_belongsTo, hreordered.keeps d hd, occurrences_filter_belongsTo]

theorem faultless (hreordered : t.Reordered responseFiles first second)
    (hcoherent : t.Coherent)
    (hfaultless : t.Faultless first.length (Token.ofArguments responseFiles first)) :
    t.Faultless second.length (Token.ofArguments responseFiles second) := by
  have hfirst := (faultless_iff hcoherent).mp hfaultless
  apply (faultless_iff hcoherent).mpr
  constructor
  · intro token htoken
    rw [← hreordered.perm.length_eq]
    exact hfirst.1 token (hreordered.tokens_perm.mem_iff.mpr htoken)
  · intro d hd
    rw [← hreordered.occurrences_eq hd]
    exact hfirst.2 d hd

theorem held_eq (hreordered : t.Reordered responseFiles first second) :
    (State.after t (Token.ofArguments responseFiles first)).held =
      (State.after t (Token.ofArguments responseFiles second)).held := by
  apply List.map_congr_left
  intro d hd
  rw [hreordered.occurrences_eq hd]

theorem warnings_perm (hreordered : t.Reordered responseFiles first second) :
    (State.after t (Token.ofArguments responseFiles first)).warnings.Perm
      (State.after t (Token.ofArguments responseFiles second)).warnings :=
  hreordered.tokens_perm.filterMap t.notice?

end Table.Reordered

/-! ### Parsing them -/

/-- Both parses succeed, with the same warnings in any order, or both meet the same error of
binding. -/
inductive SameUpToOrder : Except ArgumentError Outcome → Except ArgumentError Outcome → Prop
  | ok {first second : Outcome} :
      first.noArguments = second.noArguments → first.warnings.Perm second.warnings →
        SameUpToOrder (.ok first) (.ok second)
  | binding {error : ArgumentError} :
      error.isBinding = true → SameUpToOrder (.error error) (.error error)

namespace Parser

/-- A parse that succeeds, or fails only while the destination is written. -/
def PassesTokens (p : Parser) (files : FileSystem) (arguments : List String)
    (destination : Record) : Prop :=
  ∀ error, (p.parse files arguments destination).2 = .error error → error.isBinding = true

theorem passesTokens_iff_reachesBinding {p : Parser} (hcoherent : p.table.Coherent)
    {files : FileSystem} {arguments : List String} {destination : Record} :
    p.PassesTokens files arguments destination ↔ p.ReachesBinding files arguments := by
  constructor
  · intro hpasses
    cases htake : p.takeArguments files arguments with
    | ok s => exact ⟨s, htake⟩
    | error error =>
        have hparse := parse_of_takeArguments_error htake destination
        have hbinding := hpasses error (by rw [hparse])
        rw [takeArguments_error_isBinding hcoherent htake] at hbinding
        contradiction
  · intro hreaches error herror
    exact (isBinding_iff_reachesBinding hcoherent (Prod.ext rfl herror)).mpr hreaches

/-- What two parses have in common whose first phases hold the same items. -/
theorem parse_sameUpToOrder {p : Parser} {files : FileSystem} {first second : List String}
    {s next : State} (hfirst : p.takeArguments files first = .ok s)
    (hsecond : p.takeArguments files second = .ok next) (hheld : s.held = next.held)
    (hwarnings : s.warnings.Perm next.warnings) (destination : Record) :
    (p.parse files first destination).1 = (p.parse files second destination).1 ∧
      SameUpToOrder (p.parse files first destination).2
        (p.parse files second destination).2 := by
  have hseen : s.anySeen = next.anySeen := by
    unfold State.anySeen
    rw [hheld]
  unfold parse
  simp only [hfirst, hsecond, hheld]
  cases hbind : Binding.bindAll destination next.held with
  | mk bound failure =>
      cases failure with
      | none => exact ⟨rfl, .ok (congrArg (!·) hseen) hwarnings⟩
      | some error => exact ⟨rfl, .binding (Binding.bindAll_isBinding hbind)⟩

theorem takeArguments_eq_ok_iff_of_plain {p : Parser} (hcoherent : p.table.Coherent)
    {arguments : List String} (hplain : Token.Plain p.responseFiles arguments)
    (files : FileSystem) {s : State} :
    p.takeArguments files arguments = .ok s ↔
      p.table.Faultless arguments.length (Token.ofArguments p.responseFiles arguments) ∧
        s = .after p.table (Token.ofArguments p.responseFiles arguments) := by
  rw [takeArguments_of_plain hcoherent hplain files, Fault.guarded_eq_ok_iff,
    Table.firstFault?_map_token_eq_none_iff, Except.ok.injEq, eq_comm (a := s)]

theorem takeArguments_reordered {p : Parser} (hcoherent : p.table.Coherent)
    {first second : List String} (hplain : Token.Plain p.responseFiles first)
    (hreordered : p.table.Reordered p.responseFiles first second) {files : FileSystem}
    {s : State} (htake : p.takeArguments files first = .ok s) :
    ∃ next, p.takeArguments files second = .ok next ∧ s.held = next.held ∧
      s.warnings.Perm next.warnings := by
  obtain ⟨hfaultless, rfl⟩ :=
    (takeArguments_eq_ok_iff_of_plain hcoherent hplain files).mp htake
  have hsecond := (takeArguments_eq_ok_iff_of_plain hcoherent (hreordered.plain hplain)
    files).mpr ⟨hreordered.faultless hcoherent hfaultless, rfl⟩
  exact ⟨_, hsecond, hreordered.held_eq, hreordered.warnings_perm⟩

theorem reachesBinding_reordered {p : Parser} (hcoherent : p.table.Coherent)
    {first second : List String} (hplain : Token.Plain p.responseFiles first)
    (hreordered : p.table.Reordered p.responseFiles first second) {files : FileSystem}
    (hreaches : p.ReachesBinding files first) : p.ReachesBinding files second := by
  obtain ⟨s, htake⟩ := hreaches
  obtain ⟨next, hnext, -⟩ := takeArguments_reordered hcoherent hplain hreordered htake
  exact ⟨next, hnext⟩

/-- How the occurrences of different arguments are interleaved decides neither whether a parse gets
past its tokens nor what it leaves. -/
theorem parse_reordered {p : Parser} (hbuilt : p.table.Built) {first second : List String}
    (hplain : Token.Plain p.responseFiles first)
    (hreordered : p.table.Reordered p.responseFiles first second)
    (files : FileSystem) (destination : Record) :
    (p.PassesTokens files first destination ↔ p.PassesTokens files second destination) ∧
      (p.PassesTokens files first destination →
        (p.parse files first destination).1 = (p.parse files second destination).1 ∧
          SameUpToOrder (p.parse files first destination).2
            (p.parse files second destination).2) := by
  have hcoherent := hbuilt.coherent
  rw [passesTokens_iff_reachesBinding hcoherent, passesTokens_iff_reachesBinding hcoherent]
  constructor
  · constructor
    · exact reachesBinding_reordered hcoherent hplain hreordered
    · exact reachesBinding_reordered hcoherent (hreordered.plain hplain) hreordered.symm
  · rintro ⟨s, htake⟩
    obtain ⟨next, hnext, hheld, hwarnings⟩ :=
      takeArguments_reordered hcoherent hplain hreordered htake
    exact parse_sameUpToOrder htake hnext hheld hwarnings destination

/-- The command line of a program that packs files, with two arguments that are out of use. -/
def archiver : Parser where
  table := .ofDraftsD
    [⟨"verbose", "verbose", .single .toggle, [.short "v", .obsolete "Read the log instead."]⟩,
      ⟨"include", "include", .collection .text .list, [.obsolete "Name the files instead."]⟩,
      ⟨"level", "level", .single (.integer ⟨false, 8⟩), []⟩,
      ⟨"files", "files", .collection .path .list, [.positional, .flag .multiple]⟩]

theorem archiver_parses_reordered :
    archiver.table.Reordered false
        ["-include:b", "x", "-v-", "", "-include:a", "x", "-level:9", "y"]
        ["x", "-level:9", "-v-", "-include:b", "x", "-include:a", "y", ""] ∧
      (archiver.parse (.empty "/")
          ["-include:b", "x", "-v-", "", "-include:a", "x", "-level:9", "y"] .empty).1 =
        (archiver.parse (.empty "/")
          ["x", "-level:9", "-v-", "-include:b", "x", "-include:a", "y", ""] .empty).1 ∧
      SameUpToOrder
        (archiver.parse (.empty "/")
          ["-include:b", "x", "-v-", "", "-include:a", "x", "-level:9", "y"] .empty).2
        (archiver.parse (.empty "/")
          ["x", "-level:9", "-v-", "-include:b", "x", "-include:a", "y", ""] .empty).2 := by
  have hbuilt : archiver.table.Built := by
    dsimp only [archiver]
    exact Table.ofDraftsD_built _
  have hplain : Token.Plain archiver.responseFiles
      ["-include:b", "x", "-v-", "", "-include:a", "x", "-level:9", "y"] := by
    decide +kernel
  have hreordered : archiver.table.Reordered archiver.responseFiles
      ["-include:b", "x", "-v-", "", "-include:a", "x", "-level:9", "y"]
      ["x", "-level:9", "-v-", "-include:b", "x", "-include:a", "y", ""] :=
    ⟨by decide, by decide +kernel⟩
  have hpasses : archiver.PassesTokens (.empty "/")
      ["-include:b", "x", "-v-", "", "-include:a", "x", "-level:9", "y"] .empty := by
    have hparse : (archiver.parse (.empty "/")
        ["-include:b", "x", "-v-", "", "-include:a", "x", "-level:9", "y"] .empty).2.isOk := by
      decide +kernel
    intro error herror
    rw [herror] at hparse
    contradiction
  have hsame := parse_reordered hbuilt hplain hreordered (.empty "/") .empty
  exact ⟨hreordered, hsame.2 hpasses⟩

end Parser

end CommandLine
