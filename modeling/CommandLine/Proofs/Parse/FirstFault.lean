import CommandLine.Proofs.Parse.Phases

/-!
# The error of a parse without response files

On a command line that refers to no response file, the tokens alone decide how the first phase of a
parse ends: with the fault of the first token at fault, or else in binding.
-/

namespace CommandLine

/-- No token of a list of `count` arguments is at fault after the tokens before it. -/
def Table.Faultless (t : Table) (count : Nat) (tokens : List Token) : Prop :=
  ∀ earlier token later, tokens = earlier ++ token :: later → t.fault? count earlier token = none

/-- The error is the fault of a token that no token at fault comes before. -/
def Table.FirstFault (t : Table) (count : Nat) (tokens : List Token)
    (error : ArgumentError) : Prop :=
  ∃ earlier token later, tokens = earlier ++ token :: later ∧ t.Faultless count earlier ∧
    t.fault? count earlier token = some error

theorem map_token_eq_append_cons_iff {count : Nat} {tokens : List Token}
    {before later : List Event} {event : Event} :
    tokens.map (.token count) = before ++ event :: later ↔
      ∃ earlier token rest, tokens = earlier ++ token :: rest ∧
        earlier.map (.token count) = before ∧ .token count token = event ∧
          rest.map (.token count) = later := by
  constructor
  · intro hmap
    obtain ⟨earlier, others, rfl, hearlier, hothers⟩ := List.map_eq_append_iff.mp hmap
    obtain ⟨token, rest, rfl, htoken, hrest⟩ := List.map_eq_cons_iff.mp hothers
    exact ⟨earlier, token, rest, rfl, hearlier, htoken, hrest⟩
  · rintro ⟨earlier, token, rest, rfl, rfl, rfl, rfl⟩
    rw [List.map_append, List.map_cons]

theorem Table.firstFault?_map_token_eq_none_iff {t : Table} {count : Nat}
    {tokens : List Token} :
    t.firstFault? [] (tokens.map (.token count)) = none ↔ t.Faultless count tokens := by
  rw [Table.firstFault?_eq_none_iff]
  constructor
  · intro hnone earlier token later hsplit
    have hfault := hnone _ _ _ (map_token_eq_append_cons_iff.mpr
      ⟨earlier, token, later, hsplit, rfl, rfl, rfl⟩)
    simpa [Event.fault?] using hfault
  · intro hfaultless before event later hmap
    obtain ⟨earlier, token, rest, hsplit, rfl, rfl, -⟩ := map_token_eq_append_cons_iff.mp hmap
    simpa [Event.fault?] using hfaultless earlier token rest hsplit

theorem Table.firstFault?_map_token_eq_some_iff {t : Table} {count : Nat}
    {tokens : List Token} {error : ArgumentError} :
    t.firstFault? [] (tokens.map (.token count)) = some error ↔
      t.FirstFault count tokens error := by
  rw [Table.firstFault?_eq_some_iff]
  constructor
  · rintro ⟨before, event, later, hmap, hbefore, hevent⟩
    obtain ⟨earlier, token, rest, hsplit, rfl, rfl, -⟩ := map_token_eq_append_cons_iff.mp hmap
    refine ⟨earlier, token, rest, hsplit, ?_, by simpa [Event.fault?] using hevent⟩
    exact Table.firstFault?_map_token_eq_none_iff.mp hbefore
  · rintro ⟨earlier, token, rest, hsplit, hfaultless, hfault⟩
    refine ⟨_, _, _, map_token_eq_append_cons_iff.mpr
      ⟨earlier, token, rest, hsplit, rfl, rfl, rfl⟩, ?_, by simpa [Event.fault?] using hfault⟩
    exact Table.firstFault?_map_token_eq_none_iff.mpr hfaultless

namespace Parser

theorem takeArguments_of_plain {p : Parser} (hcoherent : p.table.Coherent)
    {arguments : List String} (hplain : Token.Plain p.responseFiles arguments)
    (files : FileSystem) :
    p.takeArguments files arguments =
      Fault.guarded
        (p.table.firstFault? []
          ((Token.ofArguments p.responseFiles arguments).map (.token arguments.length)))
        (.ok (.after p.table (Token.ofArguments p.responseFiles arguments))) := by
  have hevents : Expansion.events (p.source files) arguments =
      (Token.ofArguments p.responseFiles arguments).map (.token arguments.length) :=
    Expansion.events_of_plain hplain
  rw [takeArguments_eq hcoherent, hevents, Expansion.tokens_map_token]

/-- The first token at fault decides the error of a parse, and without one it reaches binding. -/
theorem parse_reports_first_fault {p : Parser} (hbuilt : p.table.Built)
    {arguments : List String} (hplain : Token.Plain p.responseFiles arguments)
    (files : FileSystem) (destination : Record) :
    (p.ReachesBinding files arguments ↔
      p.table.Faultless arguments.length (Token.ofArguments p.responseFiles arguments)) ∧
    (∀ error,
      p.table.FirstFault arguments.length (Token.ofArguments p.responseFiles arguments) error ↔
        (p.parse files arguments destination).2 = .error error ∧ error.isBinding = false) ∧
    ∀ error, (p.parse files arguments destination).2 = .error error →
      (error.isBinding = true ↔ p.ReachesBinding files arguments) := by
  have htake := takeArguments_of_plain hbuilt.coherent hplain files
  refine ⟨?_, ?_, ?_⟩
  · unfold ReachesBinding
    rw [← Table.firstFault?_map_token_eq_none_iff, htake]
    simp [Fault.guarded_eq_ok_iff]
  · intro error
    rw [← Table.firstFault?_map_token_eq_some_iff]
    constructor
    · intro hfault
      rw [hfault, Fault.guarded_some] at htake
      refine ⟨?_, takeArguments_error_isBinding hbuilt.coherent htake⟩
      rw [parse_of_takeArguments_error htake]
    · rintro ⟨hparse, hkind⟩
      rcases parse_error (Prod.ext rfl hparse) with ⟨herror, -⟩ | ⟨s, -, hbind⟩
      · rw [htake] at herror
        exact Fault.guarded_ok_eq_error_iff.mp herror
      · rw [Binding.bindAll_isBinding hbind] at hkind
        contradiction
  · intro error hparse
    exact isBinding_iff_reachesBinding hbuilt.coherent (Prod.ext rfl hparse)

/-- The second `-force` comes before the option that nothing answers to. -/
theorem copier_reports_repeated_force :
    copier.table.FirstFault 5
        (Token.ofArguments true ["-force", "a", "", "-f-", "-forced"]) (.duplicate "force") ∧
      ¬ copier.ReachesBinding (.empty "/") ["-force", "a", "", "-f-", "-forced"] := by
  have hplain : Token.Plain copier.responseFiles ["-force", "a", "", "-f-", "-forced"] := by
    decide +kernel
  have hreport := parse_reports_first_fault copier_built hplain (.empty "/") .empty
  obtain ⟨-, hfault, hkind⟩ := hreport
  have hparse : (copier.parse (.empty "/") ["-force", "a", "", "-f-", "-forced"] .empty).2 =
      .error (.duplicate "force") := by decide +kernel
  refine ⟨(hfault _).mpr ⟨hparse, rfl⟩, ?_⟩
  rw [← hkind _ hparse]
  decide

end Parser

end CommandLine
