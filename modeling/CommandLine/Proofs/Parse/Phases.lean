import CommandLine.Parser
import CommandLine.Proofs.Parse.Expansion
import Mathlib.Control.Monad.Basic

/-!
# The two phases of a parse

The first phase ends in the state after the tokens of the full expansion, or with an error.  Only
the second one writes into the destination.  An error tells by its kind in which of them a parse has
failed.
-/

namespace CommandLine

/-! ### Errors of binding -/

namespace Binding

theorem bindOne_isBinding {r next : Record} {h : Held} {error : ArgumentError}
    (hbind : bindOne r h = (next, some error)) : error.isBinding = true := by
  unfold bindOne at hbind
  dsimp only at hbind
  split at hbind
  · obtain ⟨-, herror⟩ := Prod.mk.inj hbind
    exact Option.some.inj herror ▸ rfl
  · split at hbind
    · simp at hbind
    · obtain ⟨-, hrefusal⟩ := Prod.mk.inj hbind
      obtain ⟨cause, -, rfl⟩ := Option.map_eq_some_iff.mp hrefusal
      rfl

theorem bindAll_isBinding {r final : Record} {hs : List Held} {error : ArgumentError}
    (hbind : bindAll r hs = (final, some error)) : error.isBinding = true := by
  induction hs generalizing r with
  | nil => simp [bindAll] at hbind
  | cons h rest ih =>
      rw [bindAll] at hbind
      split at hbind
      · exact ih hbind
      · next failure hone =>
          obtain ⟨-, herror⟩ := Prod.mk.inj hbind
          exact Option.some.inj herror ▸ bindOne_isBinding hone

end Binding

namespace Parser

/-! ### The first phase -/

theorem takeArguments_eq {p : Parser} (hcoherent : p.table.Coherent)
    (files : FileSystem) (arguments : List String) :
    p.takeArguments files arguments =
      Fault.guarded (p.table.firstFault? [] (Expansion.events (p.source files) arguments))
        (.ok (.after p.table
          (Event.tokens (Expansion.events (p.source files) arguments)))) := by
  unfold takeArguments
  rw [← State.after_nil, State.takeAll_after hcoherent, List.nil_append]

theorem takeArguments_error_isBinding {p : Parser} (hcoherent : p.table.Coherent)
    {files : FileSystem} {arguments : List String} {error : ArgumentError}
    (herror : p.takeArguments files arguments = .error error) : error.isBinding = false := by
  rw [takeArguments_eq hcoherent, Fault.guarded_ok_eq_error_iff] at herror
  exact Table.firstFault?_isBinding herror fun failure hmem => Expansion.failure_isBinding hmem

/-- A first phase that succeeds finds no event at fault. -/
theorem exists_fault?_eq_none_of_takeArguments {p : Parser} (hcoherent : p.table.Coherent)
    {files : FileSystem} {arguments : List String} {s : State}
    (hok : p.takeArguments files arguments = .ok s) {event : Event}
    (hevent : event ∈ Expansion.events (p.source files) arguments) :
    ∃ before, event.fault? p.table before = none := by
  rw [takeArguments_eq hcoherent, Fault.guarded_eq_ok_iff] at hok
  exact Table.exists_fault?_eq_none hok.1 hevent

theorem failure_notMem_events_of_takeArguments {p : Parser} (hcoherent : p.table.Coherent)
    {files : FileSystem} {arguments : List String} {s : State}
    (hok : p.takeArguments files arguments = .ok s) (error : ArgumentError) :
    Event.failure error ∉ Expansion.events (p.source files) arguments := by
  intro hevent
  obtain ⟨before, hfault⟩ := exists_fault?_eq_none_of_takeArguments hcoherent hok hevent
  simp [Event.fault?] at hfault

/-- A named argument that is taken may be used, and in a list of that length. -/
theorem named_fault_eq_none_of_takeArguments {p : Parser} (hbuilt : p.table.Built)
    {files : FileSystem} {arguments : List String} {s : State}
    (hok : p.takeArguments files arguments = .ok s) {d : Declaration} (hd : d ∈ p.table.named)
    {count : Nat} {token : Token} {value : Option String}
    (hevent : Event.token count token ∈ Expansion.events (p.source files) arguments)
    (hresolve : p.table.resolve token = some (d, value)) :
    Fault.obsolete? d = none ∧ Fault.exclusive? d count = none := by
  obtain ⟨before, hfault⟩ :=
    exists_fault?_eq_none_of_takeArguments hbuilt.coherent hok hevent
  obtain ⟨owner, text, howner, hnamed, -⟩ := Table.fault?_eq_none_iff.mp hfault
  rw [hresolve] at howner
  obtain ⟨rfl, -⟩ := Prod.mk.inj (Option.some.inj howner)
  exact hnamed (hbuilt.wellNamed.isNamed_of_resolve hd hresolve)

/-- A first phase that succeeds has taken the tokens of the full expansion, all without a
fault. -/
theorem takeArguments_ok {p : Parser} (hcoherent : p.table.Coherent)
    {files : FileSystem} {arguments : List String} {s : State}
    (hok : p.takeArguments files arguments = .ok s) :
    ∃ flat, Expansion.Expands (p.source files) arguments flat ∧
      s = .after p.table (Token.ofArguments p.responseFiles flat) ∧
      p.table.Accepted (Token.ofArguments p.responseFiles flat) := by
  have hfailures := failure_notMem_events_of_takeArguments hcoherent hok
  rw [takeArguments_eq hcoherent, Fault.guarded_eq_ok_iff] at hok
  obtain ⟨hfault, hstate⟩ := hok
  obtain ⟨flat, hflat, htokens⟩ := Expansion.expands_of_events hfailures
  have haccepted := p.table.accepted_nil.append_events hcoherent hfault
  rw [List.nil_append, htokens] at haccepted
  rw [htokens] at hstate
  exact ⟨flat, hflat, (Except.ok.inj hstate).symm, haccepted⟩

/-- The first phase of a parse finds nothing wrong. -/
def ReachesBinding (p : Parser) (files : FileSystem) (arguments : List String) : Prop :=
  ∃ s, p.takeArguments files arguments = .ok s

/-! ### Both phases -/

theorem parse_ok {p : Parser} {files : FileSystem} {arguments : List String}
    {destination final : Record} {outcome : Outcome}
    (hparse : p.parse files arguments destination = (final, .ok outcome)) :
    ∃ s, p.takeArguments files arguments = .ok s ∧
      Binding.bindAll destination s.held = (final, none) ∧
        outcome = ⟨!s.anySeen, s.warnings⟩ := by
  unfold Parser.parse at hparse
  cases htake : p.takeArguments files arguments with
  | error error => simp [htake] at hparse
  | ok s =>
      obtain ⟨⟨bound, failure⟩, hbind⟩ : ∃ result, Binding.bindAll destination s.held = result :=
        ⟨_, rfl⟩
      cases failure with
      | some error => simp [htake, hbind] at hparse
      | none =>
          simp only [htake, hbind, Prod.mk.injEq, Except.ok.injEq] at hparse
          exact ⟨s, rfl, by rw [hbind, hparse.1], hparse.2.symm⟩

/-- A parse fails before anything is written, or while the destination is written. -/
theorem parse_error {p : Parser} {files : FileSystem} {arguments : List String}
    {destination final : Record} {error : ArgumentError}
    (hparse : p.parse files arguments destination = (final, .error error)) :
    (p.takeArguments files arguments = .error error ∧ final = destination) ∨
      ∃ s, p.takeArguments files arguments = .ok s ∧
        Binding.bindAll destination s.held = (final, some error) := by
  unfold Parser.parse at hparse
  cases htake : p.takeArguments files arguments with
  | error failure =>
      simp only [htake, Prod.mk.injEq, Except.error.injEq] at hparse
      exact .inl ⟨by rw [hparse.2], hparse.1.symm⟩
  | ok s =>
      obtain ⟨⟨bound, failure⟩, hbind⟩ : ∃ result, Binding.bindAll destination s.held = result :=
        ⟨_, rfl⟩
      cases failure with
      | none => simp [htake, hbind] at hparse
      | some failure =>
          simp only [htake, hbind, Prod.mk.injEq, Except.error.injEq] at hparse
          exact .inr ⟨s, rfl, by rw [hbind, hparse.1, hparse.2]⟩

theorem parse_of_takeArguments_error {p : Parser} {files : FileSystem}
    {arguments : List String} {error : ArgumentError}
    (htake : p.takeArguments files arguments = .error error) (destination : Record) :
    p.parse files arguments destination = (destination, .error error) := by
  simp only [parse, htake]

theorem parse_of_bindAll {p : Parser} {files : FileSystem} {arguments : List String} {s : State}
    (htake : p.takeArguments files arguments = .ok s) {destination final : Record}
    (hbind : Binding.bindAll destination s.held = (final, none)) :
    p.parse files arguments destination = (final, .ok ⟨!s.anySeen, s.warnings⟩) := by
  simp only [parse, htake, hbind]

theorem parse_of_bindAll_error {p : Parser} {files : FileSystem} {arguments : List String}
    {s : State} (htake : p.takeArguments files arguments = .ok s) {destination final : Record}
    {error : ArgumentError} (hbind : Binding.bindAll destination s.held = (final, some error)) :
    p.parse files arguments destination = (final, .error error) := by
  simp only [parse, htake, hbind]

/-- A parse that has reached binding fails with an error of binding, and no other one does. -/
theorem isBinding_iff_reachesBinding {p : Parser} (hcoherent : p.table.Coherent)
    {files : FileSystem} {arguments : List String} {destination final : Record}
    {error : ArgumentError}
    (hparse : p.parse files arguments destination = (final, .error error)) :
    error.isBinding = true ↔ p.ReachesBinding files arguments := by
  rcases parse_error hparse with ⟨htake, -⟩ | ⟨s, htake, hbind⟩
  · simp [takeArguments_error_isBinding hcoherent htake, ReachesBinding, htake]
  · simp [Binding.bindAll_isBinding hbind, ReachesBinding, htake]

end Parser

/-! ### A parser with a slot of every kind -/

/-- A list that takes no more than `limit` items. -/
def Container.atMost (limit : Nat) : Container where
  append contents item :=
    if contents.length < limit then .ok (contents ++ [item]) else .error ⟨"too many"⟩

/-- The command line of a program that copies files to a target. -/
def Parser.copier : Parser where
  table := .ofDraftsD
    [⟨"force", "force", .single .toggle, [.short "f"]⟩,
      ⟨"exclude", "exclude", .collection .text (.atMost 2), [.flag .unique]⟩,
      ⟨"target", "target", .optional .path, [.flag .required]⟩,
      ⟨"define", "define", .map .arrivalMap, []⟩,
      ⟨"files", "files", .array .path, [.positional]⟩]
  responseFiles := true

theorem Parser.copier_built : Parser.copier.table.Built := by
  dsimp only [Parser.copier]
  exact Table.ofDraftsD_built _

end CommandLine
