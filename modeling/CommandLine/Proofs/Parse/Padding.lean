import CommandLine.Proofs.Parse.Exclusivity
import CommandLine.Proofs.Parse.Inlining
import CommandLine.Proofs.Parse.Succession

/-!
# Empty arguments

Empty arguments are no tokens, so a command line has the same tokens wherever they are put in.  They
still count for the length of the list that they stand in, and an exclusive argument is judged by
that length: it is the one thing that they can spoil.
-/

namespace CommandLine

/-- The second command line is the first one with empty arguments put in. -/
inductive Pads : List String → List String → Prop
  | nil : Pads [] []
  | keep (argument : String) {arguments padded : List String} :
      Pads arguments padded → Pads (argument :: arguments) (argument :: padded)
  | empty {arguments padded : List String} : Pads arguments padded → Pads arguments ("" :: padded)

namespace Pads

theorem refl (arguments : List String) : Pads arguments arguments := by
  induction arguments with
  | nil => exact .nil
  | cons argument _ ih => exact ih.keep argument

theorem sublist {arguments padded : List String} (hpads : Pads arguments padded) :
    arguments.Sublist padded := by
  induction hpads with
  | nil => exact .slnil
  | keep argument _ ih => exact ih.cons_cons argument
  | empty _ ih => exact ih.cons ""

theorem ofArguments_eq {arguments padded : List String} (hpads : Pads arguments padded)
    (responseFiles : Bool) :
    Token.ofArguments responseFiles padded = Token.ofArguments responseFiles arguments := by
  induction hpads with
  | nil => rfl
  | keep argument _ ih => rw [Expansion.ofArguments_cons, Expansion.ofArguments_cons, ih]
  | empty _ ih => rw [Expansion.ofArguments_cons, ih]; rfl

end Pads

/-! ### Lists of other lengths -/

/-- Only an exclusive argument that may be used looks at the length of its list. -/
theorem Table.fault?_congr_count {t : Table} {count longer : Nat} {token : Token}
    (hcount : ∀ d value, t.resolve token = some (d, value) → token.isNamed = true →
      Fault.obsolete? d = none → Fault.exclusive? d count = Fault.exclusive? d longer)
    (earlier : List Token) : t.fault? count earlier token = t.fault? longer earlier token := by
  unfold Table.fault?
  cases hresolve : t.resolve token with
  | none => rfl
  | some target =>
      obtain ⟨d, value⟩ := target
      have hnamed :
          (if token.isNamed then Fault.obsolete? d <|> Fault.exclusive? d count else none) =
            if token.isNamed then Fault.obsolete? d <|> Fault.exclusive? d longer else none := by
        by_cases htoken : token.isNamed = true
        · cases hobsolete : Fault.obsolete? d with
          | none => rw [hcount d value hresolve htoken hobsolete]
          | some error => rfl
        · rw [if_neg htoken, if_neg htoken]
      simp only [Option.bind_some, hnamed]

/-- Nothing but a list of more than one argument breaks the rule of exclusive arguments. -/
theorem Table.one_lt_of_fault?_exclusive {t : Table} {count : Nat} {earlier : List Token}
    {token : Token} {name : String}
    (hfault : t.fault? count earlier token = some (.exclusive name)) : 1 < count := by
  unfold Table.fault? at hfault
  simp only [Option.orElse_eq_orElse, Option.orElse_eq_or, Option.or_eq_some_iff,
    Option.bind_eq_some_iff] at hfault
  rcases hfault with hunknown | ⟨-, ⟨d, value⟩, -, hnamed | ⟨-, hrest⟩⟩
  · cases token <;> simp [Fault.unknown?] at hunknown
  · split at hnamed
    · rcases Option.or_eq_some_iff.mp hnamed with hobsolete | ⟨-, hexclusive⟩
      · cases ho : d.obsolescence <;> simp [Fault.obsolete?, ho] at hobsolete
      · have hguard : (d.policy.exclusive = true ∧ 1 < count) ∧ d.long = name := by
          simpa [Fault.exclusive?] using hexclusive
        exact hguard.1.2
    · contradiction
  · rcases hrest with hduplicate | ⟨-, hinvalid | ⟨-, hrepeated⟩⟩
    · simp [Fault.duplicate?] at hduplicate
    · unfold Fault.invalid? at hinvalid
      split at hinvalid
      · simp at hinvalid
      · split at hinvalid <;> simp at hinvalid
    · unfold Fault.repeated? at hrepeated
      split at hrepeated <;> simp at hrepeated

/-- Tokens whose faults do not depend on the length of their list have the same first fault in a
list of any length. -/
theorem Table.firstFault?_congr_count {t : Table} (source : Expansion.Source)
    (inside : String → List String → List Event) {count longer : Nat} (hle : count ≤ longer)
    {tokens : List Token}
    (hcount : ∀ token ∈ tokens, ∀ earlier,
      t.fault? count earlier token = t.fault? longer earlier token) (earlier : List Token) :
    t.firstFault? earlier (tokens.flatMap (Expansion.eventsOfToken source inside count)) =
      t.firstFault? earlier (tokens.flatMap (Expansion.eventsOfToken source inside longer)) := by
  induction tokens generalizing earlier with
  | nil => rfl
  | cons token rest ih =>
      have hshortens := Expansion.flatMap_eventsOfToken_shortens source inside hle [token]
      rw [List.flatMap_singleton, List.flatMap_singleton] at hshortens
      have htoken :
          t.firstFault? earlier (Expansion.eventsOfToken source inside count token) =
            t.firstFault? earlier (Expansion.eventsOfToken source inside longer token) := by
        have hfault := hcount token List.mem_cons_self earlier
        cases token with
        | named written name value =>
            simpa [Expansion.eventsOfToken, Table.firstFault?_cons, Event.fault?] using hfault
        | positional value =>
            simpa [Expansion.eventsOfToken, Table.firstFault?_cons, Event.fault?] using hfault
        | responseFile path => rfl
      rw [List.flatMap_cons, List.flatMap_cons, Table.firstFault?_append,
        Table.firstFault?_append, htoken, Event.tokens_eq_of_shortens hshortens,
        ih fun other hother => hcount other (List.mem_cons_of_mem _ hother)]

/-! ### Parsing -/

namespace Parser

/-- The command line is one argument, which names an exclusive argument that may be used. -/
structure StandsAlone (p : Parser) (d : Declaration) (arguments : List String) : Prop where
  named : d ∈ p.table.named
  exclusive : d.policy.exclusive = true
  usable : Fault.obsolete? d = none
  alone : ∃ argument, arguments = [argument] ∧ p.Gives d argument

theorem takeArguments_padded {p : Parser} (hcoherent : p.table.Coherent) {files : FileSystem}
    {arguments padded : List String} (hpads : Pads arguments padded)
    (hcount : ∀ token ∈ Token.ofArguments p.responseFiles arguments, ∀ earlier,
      p.table.fault? arguments.length earlier token =
        p.table.fault? padded.length earlier token) :
    p.takeArguments files padded = p.takeArguments files arguments := by
  obtain ⟨inside, hinside⟩ :=
    Expansion.eventsWithin_eq_eventsOf (p.source files) (p.source files).depth
  have hle : arguments.length ≤ padded.length := hpads.sublist.length_le
  have htokens := hpads.ofArguments_eq (p.source files).enabled
  have hfault := Table.firstFault?_congr_count (p.source files) inside hle hcount []
  have hshortens := Expansion.flatMap_eventsOfToken_shortens (p.source files) inside hle
    (Token.ofArguments (p.source files).enabled arguments)
  rw [takeArguments_eq hcoherent, takeArguments_eq hcoherent]
  unfold Expansion.events
  rw [hinside, Expansion.eventsOf_eq_flatMap, Expansion.eventsOf_eq_flatMap, htokens,
    ← Event.tokens_eq_of_shortens hshortens]
  exact congrArg (Fault.guarded · _) hfault.symm

/-- Where the length of the list is looked at, the list is one exclusive argument. -/
theorem standsAlone_of_exclusive?_ne {p : Parser} {arguments padded : List String}
    (hpads : Pads arguments padded) {token : Token}
    (htoken : token ∈ Token.ofArguments p.responseFiles arguments) {d : Declaration}
    {value : Option String} (hresolve : p.table.resolve token = some (d, value))
    (hnamed : token.isNamed = true) (hobsolete : Fault.obsolete? d = none)
    (hne : Fault.exclusive? d arguments.length ≠ Fault.exclusive? d padded.length) :
    p.StandsAlone d arguments := by
  have hle : arguments.length ≤ padded.length := hpads.sublist.length_le
  have hexclusive : d.policy.exclusive = true := by
    by_contra hnot
    apply hne
    simp [Fault.exclusive?, hnot]
  have hshort : ¬ 1 < arguments.length := by
    intro hlong
    apply hne
    have hlonger : 1 < padded.length := by omega
    simp [Fault.exclusive?, hlong, hlonger]
  obtain ⟨argument, hargument, hclassify⟩ := List.mem_filterMap.mp htoken
  have hpositive := List.length_pos_of_mem hargument
  obtain ⟨only, rfl⟩ : ∃ only, arguments = [only] :=
    List.length_eq_one_iff.mp (by omega)
  exact ⟨Table.mem_named_of_resolve hnamed hresolve, hexclusive, hobsolete, argument,
    by rw [List.mem_singleton.mp hargument], token, value, hclassify, hresolve⟩

/-- An argument that stands alone is the only token, however many empty arguments are put in. -/
theorem StandsAlone.exists_events {p : Parser} (hbuilt : p.table.Built) {d : Declaration}
    {arguments : List String} (halone : p.StandsAlone d arguments) :
    ∃ token value, p.table.resolve token = some (d, value) ∧ token.isNamed = true ∧
      ∀ files padded, Pads arguments padded →
        Expansion.events (p.source files) padded = [.token padded.length token] := by
  obtain ⟨argument, rfl, token, value, hclassify, hresolve⟩ := halone.alone
  have hnamed := hbuilt.wellNamed.isNamed_of_resolve halone.named hresolve
  refine ⟨token, value, hresolve, hnamed, ?_⟩
  intro files padded hpads
  have htokens : Token.ofArguments (p.source files).enabled padded = [token] := by
    rw [hpads.ofArguments_eq, Expansion.ofArguments_cons]
    change (Token.classify p.responseFiles argument).toList ++ [] = [token]
    rw [hclassify]
    rfl
  have hplain : Token.Plain (p.source files).enabled padded := by
    intro path hpath
    rw [htokens, List.mem_singleton] at hpath
    subst hpath
    contradiction
  rw [Expansion.events_of_plain hplain, htokens]
  rfl

theorem StandsAlone.exclusive?_eq {p : Parser} {d : Declaration} {arguments padded : List String}
    (halone : p.StandsAlone d arguments) (hpads : Pads arguments padded)
    (hne : padded ≠ arguments) : Fault.exclusive? d padded.length = some (.exclusive d.long) := by
  have hlong : 1 < padded.length := by
    obtain ⟨argument, rfl, -⟩ := halone.alone
    by_contra hshort
    exact hne (hpads.sublist.eq_of_length_le (by simpa using hshort)).symm
  simp [Fault.exclusive?, halone.exclusive, hlong]

theorem StandsAlone.parse_eq_exclusive {p : Parser} (hbuilt : p.table.Built) {d : Declaration}
    {arguments padded : List String} (halone : p.StandsAlone d arguments)
    (hpads : Pads arguments padded) (hne : padded ≠ arguments) (files : FileSystem)
    (destination : Record) :
    p.parse files padded destination = (destination, .error (.exclusive d.long)) := by
  obtain ⟨token, value, hresolve, hnamed, hevents⟩ := halone.exists_events hbuilt
  apply parse_of_takeArguments_error
  rw [takeArguments_eq hbuilt.coherent, hevents files padded hpads,
    Fault.guarded_ok_eq_error_iff]
  simp [Table.firstFault?_cons, Event.fault?, Table.fault?, Fault.unknown?_of_resolve hresolve,
    hresolve, hnamed, halone.usable, halone.exclusive?_eq hpads hne]

theorem StandsAlone.parse_ne_exclusive {p : Parser} (hbuilt : p.table.Built) {d : Declaration}
    {arguments : List String} (halone : p.StandsAlone d arguments) (files : FileSystem)
    (destination : Record) (name : String) :
    (p.parse files arguments destination).2 ≠ .error (.exclusive name) := by
  intro hfails
  obtain ⟨token, value, -, -, hevents⟩ := halone.exists_events hbuilt
  obtain ⟨argument, rfl, -⟩ := halone.alone
  rcases parse_error (Prod.ext rfl hfails) with ⟨htake, -⟩ | ⟨s, -, hbind⟩
  · rw [takeArguments_eq hbuilt.coherent, hevents files _ (.refl _),
      Fault.guarded_ok_eq_error_iff, Table.firstFault?_cons, Table.firstFault?_nil,
      Option.or_none] at htake
    exact absurd (Table.one_lt_of_fault?_exclusive htake) (Nat.lt_irrefl 1)
  · have hbinding := Binding.bindAll_isBinding hbind
    contradiction

/-- Empty arguments make no difference to a parse, but for an exclusive argument that is a command
line of its own: beside an empty argument it is not alone any more. -/
theorem parse_padded {p : Parser} (hbuilt : p.table.Built) (files : FileSystem)
    {arguments padded : List String} (hpads : Pads arguments padded) :
    ((∀ d, ¬p.StandsAlone d arguments) → ∀ destination,
        p.parse files padded destination = p.parse files arguments destination) ∧
      ∀ d, p.StandsAlone d arguments → padded ≠ arguments → ∀ destination,
        p.parse files padded destination = (destination, .error (.exclusive d.long)) ∧
          (p.parse files arguments destination).2 ≠ .error (.exclusive d.long) := by
  constructor
  · intro hnone destination
    apply parse_eq_of_takeArguments_eq
    apply takeArguments_padded hbuilt.coherent hpads
    intro token htoken earlier
    apply Table.fault?_congr_count
    intro d value hresolve hnamed hobsolete
    by_contra hne
    exact hnone d (standsAlone_of_exclusive?_ne hpads htoken hresolve hnamed hobsolete hne)
  · intro d halone hne destination
    exact ⟨halone.parse_eq_exclusive hbuilt hpads hne files destination,
      halone.parse_ne_exclusive hbuilt files destination d.long⟩

theorem viewer_quiet_not_standsAlone (d : Declaration) : ¬viewer.StandsAlone d ["-quiet"] := by
  intro halone
  obtain ⟨argument, harguments, token, value, hclassify, hresolve⟩ := halone.alone
  obtain rfl := List.singleton_inj.mp harguments
  have htoken : Token.classify viewer.responseFiles "-quiet" =
      some (.named "-quiet" "quiet" none) := by decide
  obtain rfl := Option.some.inj (htoken.symm.trans hclassify)
  have hshared : (viewer.table.resolve (.named "-quiet" "quiet" none)).map
      (·.1.policy.exclusive) = some false := by decide
  rw [hresolve, Option.map_some, halone.exclusive] at hshared
  contradiction

theorem viewer_help_standsAlone :
    ∃ help, viewer.StandsAlone help ["-h"] ∧ help.long = "help" := by
  have hfound : (viewer.table.resolve (.named "-h" "h" none)).map (fun target =>
      (target.1.long, target.1.policy.exclusive, Fault.obsolete? target.1)) =
        some ("help", true, none) := by decide
  obtain ⟨⟨help, value⟩, hresolve, hfacts⟩ := Option.map_eq_some_iff.mp hfound
  obtain ⟨hlong, hexclusive, husable⟩ := by simpa using hfacts
  have hnamed := Table.mem_named_of_resolve rfl hresolve
  have hgives : viewer.Gives help "-h" := ⟨_, value, by decide, hresolve⟩
  exact ⟨help, ⟨hnamed, hexclusive, husable, "-h", rfl, hgives⟩, hlong⟩

/-- Empty arguments beside others are passed over, and they spoil a command line that asks for
help. -/
theorem viewer_passes_over_empty_arguments :
    Pads ["-quiet"] ["", "-quiet", ""] ∧ Pads ["-h"] ["-h", ""] ∧
      (∀ destination,
        viewer.parse helpFiles ["", "-quiet", ""] destination =
          viewer.parse helpFiles ["-quiet"] destination) ∧
      ∀ destination,
        viewer.parse helpFiles ["-h", ""] destination = (destination, .error (.exclusive "help")) := by
  have hquiet : Pads ["-quiet"] ["", "-quiet", ""] := .empty (.keep _ (.empty .nil))
  have hhelp : Pads ["-h"] ["-h", ""] := .keep _ (.empty .nil)
  obtain ⟨help, halone, hlong⟩ := viewer_help_standsAlone
  have hsame := (parse_padded viewer_built helpFiles hquiet).1 viewer_quiet_not_standsAlone
  refine ⟨hquiet, hhelp, hsame, ?_⟩
  intro destination
  rw [← hlong]
  exact ((parse_padded viewer_built helpFiles hhelp).2 help halone (by decide) destination).1

/-- So the empty argument is seen: help is shown without it, and is refused with it. -/
theorem viewer_refuses_help_beside_empty :
    viewer.table.Built ∧ Pads ["-h"] ["-h", ""] ∧
      (viewer.parse (.empty "/") ["-h"] .empty).2 = .ok ⟨false, []⟩ ∧
        (viewer.parse (.empty "/") ["-h", ""] .empty).2 = .error (.exclusive "help") :=
  ⟨viewer_built, .keep _ (.empty .nil), by decide, by decide⟩

end Parser

end CommandLine
