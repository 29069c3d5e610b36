import CommandLine.Proofs.Parse.Succession
import CommandLine.Proofs.Table.Drafts

/-!
# Drafts in another order

A table is searched from its beginning, and arguments are bound one after another up to the first
that fails.  Still the order in which arguments have been declared makes no difference to a user: no
two of them answer to a name in the same way, so what is found does not depend on where it stands,
and each is bound into a field of its own.  Only which of several arguments that cannot be bound is
reported depends on the order.
-/

namespace CommandLine

/-! ### Tables with the same arguments -/

namespace Table

/-- The same arguments, of which the named ones may stand in another order. -/
structure Rearranges (t other : Table) : Prop where
  named : t.named.Perm other.named
  positional : t.positional = other.positional

theorem rearranges_ofDeclarations {ds es : List Declaration} (hperm : ds.Perm es)
    (hapart : Label.Apart (ds.map Declaration.label)) :
    (ofDeclarations ds).Rearranges (ofDeclarations es) := by
  have hother : Label.Apart (es.map Declaration.label) :=
    hapart.perm (hperm.map Declaration.label)
  have hpositional : (ofDeclarations ds).positional.toList.Perm
      (ofDeclarations es).positional.toList := by
    rw [toList_positional_ofDeclarations hapart, toList_positional_ofDeclarations hother]
    exact hperm.filter _
  refine ⟨hperm.filter _, ?_⟩
  cases hd : (ofDeclarations ds).positional with
  | none =>
      rw [hd] at hpositional
      exact (Option.toList_eq_nil_iff.mp hpositional.nil_eq.symm).symm
  | some d =>
      rw [hd] at hpositional
      exact (Option.toList_eq_singleton_iff.mp hpositional.singleton_eq.symm).symm

namespace Rearranges

variable {t other : Table}

theorem symm (hrearranges : t.Rearranges other) : other.Rearranges t :=
  ⟨hrearranges.named.symm, hrearranges.positional.symm⟩

theorem all_perm (hrearranges : t.Rearranges other) : t.all.Perm other.all := by
  unfold Table.all
  rw [hrearranges.positional]
  exact hrearranges.named.append_right _

theorem find_eq_some (hrearranges : t.Rearranges other) (ht : t.Built) (hother : other.Built)
    {name : String} {d : Declaration} (hfind : t.find name = some d) :
    other.find name = some d := by
  have hd := mem_named_of_find hfind
  have hmem : ∀ e, e ∈ t.named ↔ e ∈ other.named := fun _ => hrearranges.named.mem_iff
  rcases answersTo_of_find hfind with rfl | hshort
  · exact hother.coherent.find_long ((hmem d).mp hd)
  · refine (hother.wellNamed.find_short_iff ((hmem d).mp hd) hshort).mpr ?_
    intro e he
    exact (ht.wellNamed.find_short_iff hd hshort).mp hfind e ((hmem e).mpr he)

theorem find_eq (hrearranges : t.Rearranges other) (ht : t.Built) (hother : other.Built)
    (name : String) : t.find name = other.find name := by
  apply Option.ext
  intro d
  exact ⟨hrearranges.find_eq_some ht hother, hrearranges.symm.find_eq_some hother ht⟩

theorem resolve_eq (hrearranges : t.Rearranges other) (ht : t.Built) (hother : other.Built) :
    t.resolve = other.resolve := by
  funext token
  cases token with
  | named written name value => simp only [resolve, hrearranges.find_eq ht hother]
  | positional value => simp only [resolve, hrearranges.positional]
  | responseFile path => rfl

theorem notice?_eq (hrearranges : t.Rearranges other) (ht : t.Built) (hother : other.Built) :
    t.notice? = other.notice? := by
  funext token
  cases token with
  | named written name value => simp only [notice?, hrearranges.find_eq ht hother]
  | positional value => rfl
  | responseFile path => rfl

end Rearranges

/-! ### Tables in which every token belongs to the same argument -/

section SameResolution

variable {t other : Table} (hresolve : t.resolve = other.resolve)

include hresolve

theorem occurrences_congr (d : Declaration) (tokens : List Token) :
    t.occurrences d tokens = other.occurrences d tokens := by
  unfold occurrences
  rw [hresolve]

theorem unknown?_congr (token : Token) : Fault.unknown? t token = Fault.unknown? other token := by
  cases htoken : t.resolve token with
  | none =>
      rw [Fault.unknown?_of_resolve_eq_none htoken,
        Fault.unknown?_of_resolve_eq_none (hresolve ▸ htoken)]
  | some target =>
      obtain ⟨d, value⟩ := target
      rw [Fault.unknown?_of_resolve htoken, Fault.unknown?_of_resolve (hresolve ▸ htoken)]

theorem fault?_congr (count : Nat) (earlier : List Token) (token : Token) :
    t.fault? count earlier token = other.fault? count earlier token := by
  unfold fault?
  simp only [unknown?_congr hresolve, occurrences_congr hresolve, hresolve]

theorem firstFault?_congr (earlier : List Token) (events : List Event) :
    t.firstFault? earlier events = other.firstFault? earlier events := by
  induction events generalizing earlier with
  | nil => rfl
  | cons event rest ih =>
      rw [firstFault?_cons, firstFault?_cons, ih]
      cases event with
      | token count token => simp only [Event.fault?, fault?_congr hresolve]
      | failure error => rfl

end SameResolution

theorem Rearranges.accepted {t other : Table} (hrearranges : t.Rearranges other) (ht : t.Built)
    (hother : other.Built) {tokens : List Token} (haccepted : t.Accepted tokens) :
    other.Accepted tokens := by
  have hmem : ∀ d ∈ other.all, d ∈ t.all := fun _ hd => hrearranges.all_perm.mem_iff.mpr hd
  constructor
  · intro d hd
    rw [← occurrences_congr (hrearranges.resolve_eq ht hother)]
    exact haccepted.reads d (hmem d hd)
  · intro d hd
    rw [← occurrences_congr (hrearranges.resolve_eq ht hother)]
    exact haccepted.single d (hmem d hd)

end Table

/-! ### Parsing by either table -/

namespace Parser

/-- Two parses succeed alike, fail alike before anything is written, or both fail to bind. -/
inductive SameEnd (destination : Record) :
    Record × Except ArgumentError Outcome → Record × Except ArgumentError Outcome → Prop
  | ok (final : Record) (outcome : Outcome) :
      SameEnd destination (final, .ok outcome) (final, .ok outcome)
  | tokens {error : ArgumentError} :
      error.isBinding = false →
        SameEnd destination (destination, .error error) (destination, .error error)
  | binding {left right : Record} {first second : ArgumentError} :
      first.isBinding = true → second.isBinding = true →
        SameEnd destination (left, .error first) (right, .error second)

theorem SameEnd.of_isOk {destination : Record}
    {left right : Record × Except ArgumentError Outcome} (hend : SameEnd destination left right)
    (hok : left.2.isOk = true) :
    ∃ final outcome, left = (final, .ok outcome) ∧ right = (final, .ok outcome) := by
  cases hend with
  | ok final outcome => exact ⟨final, outcome, rfl, rfl⟩
  | tokens herror => contradiction
  | binding hfirst hsecond => contradiction

theorem outcome_rearranged {t other : Table} (hrearranges : t.Rearranges other) (ht : t.Built)
    (hother : other.Built) (tokens : List Token) :
    (⟨!(State.after t tokens).anySeen, (State.after t tokens).warnings⟩ : Outcome) =
      ⟨!(State.after other tokens).anySeen, (State.after other tokens).warnings⟩ := by
  have hseen : (State.after t tokens).anySeen = (State.after other tokens).anySeen := by
    rw [Bool.eq_iff_iff, State.anySeen_after_iff, State.anySeen_after_iff]
    simp only [hrearranges.all_perm.mem_iff,
      Table.occurrences_congr (hrearranges.resolve_eq ht hother)]
  have hwarnings : (State.after t tokens).warnings = (State.after other tokens).warnings := by
    unfold State.after
    rw [hrearranges.notice?_eq ht hother]
  rw [hseen, hwarnings]

theorem bindAll_rearranged {t other : Table} (hrearranges : t.Rearranges other) (ht : t.Built)
    (hother : other.Built) (hfields : (t.all.map Declaration.field).Nodup) {tokens : List Token}
    (haccepted : t.Accepted tokens) {initial final : Record}
    (hbind : Binding.bindAll initial (State.after t tokens).held = (final, none)) :
    Binding.bindAll initial (State.after other tokens).held = (final, none) := by
  rw [Binding.held_after] at hbind ⊢
  simp only [← Table.occurrences_congr (hrearranges.resolve_eq ht hother)]
  exact Binding.bindAll_perm (fun d hd => Binding.readable_of_accepted ht.coherent haccepted hd)
    hfields hrearranges.all_perm hbind

theorem sameEnd_of_takeArguments {p q : Parser} (hrearranges : p.table.Rearranges q.table)
    (hp : p.table.Built) (hq : q.table.Built)
    (hfields : (p.table.all.map Declaration.field).Nodup) {tokens : List Token}
    (haccepted : p.table.Accepted tokens) {files : FileSystem} {arguments : List String}
    (hfirst : p.takeArguments files arguments = .ok (.after p.table tokens))
    (hsecond : q.takeArguments files arguments = .ok (.after q.table tokens))
    (destination : Record) :
    SameEnd destination (p.parse files arguments destination)
      (q.parse files arguments destination) := by
  have hfieldsOther : (q.table.all.map Declaration.field).Nodup :=
    (hrearranges.all_perm.map Declaration.field).nodup_iff.mp hfields
  have hacceptedOther := hrearranges.accepted hp hq haccepted
  obtain ⟨⟨final, failure⟩, hbind⟩ :
      ∃ result, Binding.bindAll destination (State.after p.table tokens).held = result := ⟨_, rfl⟩
  obtain ⟨⟨reached, problem⟩, hreached⟩ :
      ∃ result, Binding.bindAll destination (State.after q.table tokens).held = result := ⟨_, rfl⟩
  cases failure with
  | none =>
      have hbound := bindAll_rearranged hrearranges hp hq hfields haccepted hbind
      rw [parse_of_bindAll hfirst hbind, parse_of_bindAll hsecond hbound,
        outcome_rearranged hrearranges hp hq]
      exact .ok _ _
  | some error =>
      cases problem with
      | none =>
          have hbound := bindAll_rearranged hrearranges.symm hq hp hfieldsOther hacceptedOther
            hreached
          rw [hbound] at hbind
          simp at hbind
      | some cause =>
          rw [parse_of_bindAll_error hfirst hbind, parse_of_bindAll_error hsecond hreached]
          exact .binding (Binding.bindAll_isBinding hbind) (Binding.bindAll_isBinding hreached)

theorem parse_sameEnd {p q : Parser} (hrearranges : p.table.Rearranges q.table)
    (hp : p.table.Built) (hq : q.table.Built)
    (hfields : (p.table.all.map Declaration.field).Nodup) {files : FileSystem}
    (hsource : p.source files = q.source files) (arguments : List String)
    (destination : Record) :
    SameEnd destination (p.parse files arguments destination)
      (q.parse files arguments destination) := by
  have hfirst := takeArguments_eq hp.coherent files arguments
  have hsecond := takeArguments_eq hq.coherent files arguments
  rw [← Table.firstFault?_congr (hrearranges.resolve_eq hp hq), ← hsource] at hsecond
  cases hfault : p.table.firstFault? [] (Expansion.events (p.source files) arguments) with
  | some error =>
      rw [hfault] at hfirst hsecond
      rw [parse_of_takeArguments_error hfirst, parse_of_takeArguments_error hsecond]
      exact .tokens (takeArguments_error_isBinding hp.coherent hfirst)
  | none =>
      have haccepted := p.table.accepted_nil.append_events hp.coherent hfault
      rw [hfault] at hfirst hsecond
      exact sameEnd_of_takeArguments hrearranges hp hq hfields haccepted hfirst hsecond destination

end Parser

/-! ### Tables from permuted drafts -/

namespace Table

theorem built_of_ofDrafts {drafts : List Draft} {t : Table} (hdrafts : ofDrafts drafts = .ok t) :
    t.Built :=
  Built.empty.foldlM hdrafts

/-- Permuted drafts make a table with the same arguments, if they make one. -/
theorem ofDrafts_perm {first second : List Draft} (hperm : first.Perm second) {t : Table}
    (hfirst : ofDrafts first = .ok t) : ∃ other, ofDrafts second = .ok other ∧ t.Rearranges other := by
  obtain ⟨ds, hds, hapart, rfl⟩ := ofDrafts_eq_ok_iff.mp hfirst
  obtain ⟨es, hes, hesPerm⟩ := List.perm_comp_forall₂ hperm.symm hds
  have hother := hapart.perm (hesPerm.symm.map Declaration.label)
  exact ⟨_, ofDrafts_eq_ok_iff.mpr ⟨es, hes, hother, rfl⟩,
    rearranges_ofDeclarations hesPerm.symm hapart⟩

theorem fields_nodup_of_ofDrafts {drafts : List Draft} {t : Table}
    (hdrafts : ofDrafts drafts = .ok t) (hfields : (drafts.map Draft.field).Nodup) :
    (t.all.map Declaration.field).Nodup := by
  obtain ⟨ds, hds, hapart, rfl⟩ := ofDrafts_eq_ok_iff.mp hdrafts
  rw [((ofDeclarations_all_perm hapart).map Declaration.field).nodup_iff,
    Draft.map_field_of_declares hds]
  exact hfields

end Table

/-- Whether a list of drafts makes a table does not depend on their order, and neither does what a
parse by that table comes to. -/
theorem Parser.parse_rearranged {first second : List Draft} (hperm : first.Perm second)
    (hfields : (first.map Draft.field).Nodup) :
    ((∃ t, Table.ofDrafts first = .ok t) ↔ ∃ other, Table.ofDrafts second = .ok other) ∧
      ∀ t other, Table.ofDrafts first = .ok t → Table.ofDrafts second = .ok other →
        ∀ (p : Parser) (files : FileSystem) (arguments : List String) (destination : Record),
          SameEnd destination ({ p with table := t }.parse files arguments destination)
            ({ p with table := other }.parse files arguments destination) := by
  refine ⟨?_, ?_⟩
  · constructor
    · rintro ⟨t, ht⟩
      obtain ⟨other, hother, -⟩ := Table.ofDrafts_perm hperm ht
      exact ⟨other, hother⟩
    · rintro ⟨other, hother⟩
      obtain ⟨t, ht, -⟩ := Table.ofDrafts_perm hperm.symm hother
      exact ⟨t, ht⟩
  · intro t other ht hother p files arguments destination
    obtain ⟨made, hmade, hrearranges⟩ := Table.ofDrafts_perm hperm ht
    rw [hother] at hmade
    obtain rfl := Except.ok.inj hmade
    have hbuilt := Table.built_of_ofDrafts ht
    have hbuiltOther := Table.built_of_ofDrafts hother
    have hnodup := Table.fields_nodup_of_ofDrafts ht hfields
    exact parse_sameEnd (p := { p with table := t }) (q := { p with table := other }) hrearranges
      hbuilt hbuiltOther hnodup rfl arguments destination

/-- The short name of one argument is the long name of another. -/
def countingDrafts : List Draft :=
  [⟨"count", "count", .optional (.integer ⟨false, 32⟩), [.short "verbose"]⟩,
    ⟨"files", "files", .collection .path .list, [.positional, .flag .required]⟩,
    ⟨"verbose", "verbose", .single .toggle, [.short "v"]⟩]

theorem Parser.parse_counting_reversed :
    ∃ t other, Table.ofDrafts countingDrafts = .ok t ∧
      Table.ofDrafts countingDrafts.reverse = .ok other ∧
        ∃ final outcome,
          { copier with table := t }.parse (.empty "/") ["-verbose", "x"] .empty =
              (final, .ok outcome) ∧
            { copier with table := other }.parse (.empty "/") ["-verbose", "x"] .empty =
              (final, .ok outcome) := by
  have hperm : countingDrafts.Perm countingDrafts.reverse := (List.reverse_perm _).symm
  obtain ⟨hmade, hends⟩ := parse_rearranged hperm (by decide)
  have ht : Table.ofDrafts countingDrafts = .ok (Table.ofDraftsD countingDrafts) := by
    rfl
  obtain ⟨other, hother⟩ := hmade.mp ⟨_, ht⟩
  have hok : ({ copier with table := Table.ofDraftsD countingDrafts }.parse (.empty "/")
      ["-verbose", "x"] .empty).2.isOk = true := by
    decide +kernel
  exact ⟨_, other, ht, hother, (hends _ other ht hother copier _ _ _).of_isOk hok⟩

end CommandLine
