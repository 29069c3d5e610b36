import CommandLine.Table
import Mathlib.Data.List.Nodup
import Mathlib.Data.List.Perm.Basic

/-!
# Tables that can be built

A table grows from the empty one by drafts that pass the checks and conflict with nothing before
them.  In every such table the long names are pairwise distinct, and each policy agrees with the
kind of its slot: exactly the arguments that can hold more than one value may be given more than
once, and only these can be unique.
-/

namespace CommandLine

theorem bind_eq_ok_iff {ε α β : Type} {first : Except ε α} {next : α → Except ε β} {b : β} :
    (first >>= next) = .ok b ↔ ∃ a, first = .ok a ∧ next a = .ok b := by
  cases first <;> simp [bind, Except.bind]

theorem bind_eq_error_iff {ε α β : Type} {first : Except ε α} {next : α → Except ε β} {error : ε} :
    (first >>= next) = .error error ↔
      first = .error error ∨ ∃ a, first = .ok a ∧ next a = .error error := by
  cases first <;> simp [bind, Except.bind]

theorem map_eq_ok_iff {ε α β : Type} {f : α → β} {result : Except ε α} {b : β} :
    result.map f = .ok b ↔ ∃ a, result = .ok a ∧ f a = b := by
  cases result <;> simp [Except.map]

theorem map_eq_error_iff {ε α β : Type} {f : α → β} {result : Except ε α} {error : ε} :
    result.map f = .error error ↔ result = .error error := by
  cases result <;> simp [Except.map]

/-- The table of every successful sequence of additions; one that fails changes nothing. -/
inductive Table.Built : Table → Prop
  | empty : Built .empty
  | add {t grown : Table} {draft : Draft} :
      Built t → t.addDraft draft = .ok grown → Built grown

/-! ### Policies of drafted arguments -/

/-- A policy that fits the kind of the slot. -/
structure Declaration.Coherent (d : Declaration) : Prop where
  multiple_eq : d.policy.multiple = d.kind.isMultiValued
  multiValued_of_unique : d.policy.unique = true → d.kind.isMultiValued = true

theorem Declaration.policyError?_eq_none_iff (d : Declaration) :
    d.policyError? = none ↔
      d.kind.isMultiValued = true ∨
        (d.policy.unique = false ∧ d.policy.multiple = false) := by
  unfold Declaration.policyError?
  cases d.kind.isMultiValued <;> cases d.policy.unique <;> cases d.policy.multiple <;> simp

theorem Declaration.completed_coherent {d : Declaration}
    (hpolicy : d.policyError? = none) : d.completed.Coherent := by
  unfold Declaration.completed
  by_cases hkind : d.kind.isMultiValued = true
  · rw [if_pos hkind]
    exact ⟨hkind.symm, fun _ => hkind⟩
  · rw [if_neg hkind]
    have hflags : d.policy.unique = false ∧ d.policy.multiple = false :=
      ((d.policyError?_eq_none_iff).mp hpolicy).resolve_left hkind
    refine ⟨?_, ?_⟩
    · rw [hflags.2]
      exact (Bool.eq_false_iff.mpr hkind).symm
    · intro hunique
      rw [hflags.1] at hunique
      contradiction

theorem Declaration.error?_eq_none_iff {d : Declaration} :
    d.error? = none ↔
      d.long ≠ "" ∧ nameError? d.long = none ∧ d.short.bind nameError? = none ∧
        d.policyError? = none := by
  unfold Declaration.error?
  by_cases hlong : d.long = ""
  · simp [hlong]
  · simp [hlong]

theorem Declaration.policyError?_eq_some {d : Declaration} {error : ConfigurationError}
    (herror : d.policyError? = some error) :
    error = .uniqueWithoutMultiple d.long ∨ error = .multipleOnSingleValue d.long d.kind := by
  unfold Declaration.policyError? at herror
  split at herror
  · contradiction
  · split at herror
    · exact .inl (Option.some.inj herror).symm
    · split at herror
      · exact .inr (Option.some.inj herror).symm
      · contradiction

/-- A declaration whose names are in order can only have the wrong flags. -/
theorem Declaration.error?_of_names {d : Declaration} (hlong : nameError? d.long = none)
    (hshort : d.short.bind nameError? = none) : d.error? = d.policyError? := by
  have hnonempty : d.long ≠ "" := by
    intro hempty
    rw [hempty] at hlong
    contradiction
  unfold Declaration.error?
  simp [hnonempty, hlong, hshort]

theorem Draft.declaration_eq_ok_iff {draft : Draft} {d : Declaration} :
    draft.declaration = .ok d ↔ draft.stated.error? = none ∧ draft.stated.completed = d := by
  unfold Draft.declaration
  cases draft.stated.error? <;> simp

theorem Draft.declaration_eq_error_iff {draft : Draft} {error : ConfigurationError} :
    draft.declaration = .error error ↔ draft.stated.error? = some error := by
  unfold Draft.declaration
  cases draft.stated.error? <;> simp

theorem Draft.declaration_coherent {draft : Draft} {d : Declaration}
    (hdraft : draft.declaration = .ok d) : d.Coherent := by
  obtain ⟨herror, rfl⟩ := Draft.declaration_eq_ok_iff.mp hdraft
  obtain ⟨-, -, -, hpolicy⟩ := Declaration.error?_eq_none_iff.mp herror
  exact Declaration.completed_coherent hpolicy

/-! ### Growing a table -/

theorem Table.add_eq_ok_iff {t grown : Table} {d : Declaration} :
    t.add d = .ok grown ↔ t.conflict? d = none ∧ t.insert d = grown := by
  unfold Table.add
  cases t.conflict? d <;> simp

theorem Table.addDraft_cases {t grown : Table} {draft : Draft}
    (hadd : t.addDraft draft = .ok grown) :
    ∃ d, draft.declaration = .ok d ∧ t.conflict? d = none ∧ grown = t.insert d := by
  unfold Table.addDraft at hadd
  cases hdraft : draft.declaration with
  | error error =>
      simp [hdraft] at hadd
  | ok d =>
      have hinsert : t.conflict? d = none ∧ t.insert d = grown := by
        simpa [hdraft, Table.add_eq_ok_iff] using hadd
      exact ⟨d, rfl, hinsert.1, hinsert.2.symm⟩

theorem Table.usesLong_eq_false_of_conflict? {t : Table} {d : Declaration}
    (hfree : t.conflict? d = none) : t.usesLong d.long = false := by
  unfold Table.conflict? at hfree
  by_cases hlong : t.usesLong d.long = true
  · simp [hlong] at hfree
  · exact Bool.eq_false_iff.mpr hlong

theorem Table.positional_eq_none_of_conflict? {t : Table} {d : Declaration}
    (hfree : t.conflict? d = none) (hpositional : d.isPositional = true) :
    t.positional = none := by
  unfold Table.conflict? at hfree
  split at hfree
  · contradiction
  · split at hfree
    · contradiction
    · simpa [hpositional] using hfree

/-- A declaration that conflicts with nothing joins the others, wherever its place is. -/
theorem Table.all_insert_perm {t : Table} {d : Declaration}
    (hfree : t.conflict? d = none) : (t.insert d).all.Perm (d :: t.all) := by
  unfold Table.insert
  by_cases hpositional : d.isPositional = true
  · have hnone := Table.positional_eq_none_of_conflict? hfree hpositional
    rw [if_pos hpositional]
    simp [Table.all, hnone]
  · rw [if_neg hpositional]
    unfold Table.all
    simp only [List.append_assoc, List.singleton_append]
    exact List.perm_middle

/-! ### What holds of every table that can be built -/

structure Table.Coherent (t : Table) : Prop where
  declarations : ∀ d ∈ t.all, d.Coherent
  longNames : (t.all.map Declaration.long).Nodup

/-- Arguments of a table are told apart by their long names. -/
theorem Table.Coherent.eq_of_long {t : Table} {d other : Declaration}
    (hcoherent : t.Coherent) (hd : d ∈ t.all) (hother : other ∈ t.all)
    (hlong : d.long = other.long) : d = other :=
  List.inj_on_of_nodup_map hcoherent.longNames hd hother hlong

theorem Table.Coherent.insert {t : Table} {d : Declaration}
    (hcoherent : t.Coherent) (hd : d.Coherent) (hfree : t.conflict? d = none) :
    (t.insert d).Coherent := by
  have hperm := Table.all_insert_perm hfree
  constructor
  · intro other hother
    rcases List.mem_cons.mp (hperm.mem_iff.mp hother) with rfl | hold
    · exact hd
    · exact hcoherent.declarations other hold
  · have hfresh : d.long ∉ t.all.map Declaration.long := by
      have hunused := Table.usesLong_eq_false_of_conflict? hfree
      unfold Table.usesLong at hunused
      intro hmem
      obtain ⟨other, hother, hlong⟩ := List.mem_map.mp hmem
      have hne := List.any_eq_false.mp hunused other hother
      exact hne (by simp [hlong])
    rw [(hperm.map Declaration.long).nodup_iff]
    exact List.nodup_cons.mpr ⟨hfresh, hcoherent.longNames⟩

theorem Table.Built.coherent {t : Table} (hbuilt : t.Built) : t.Coherent := by
  induction hbuilt with
  | empty =>
      constructor
      · intro d hd
        cases hd
      · exact List.nodup_nil
  | add _ hadd ih =>
      obtain ⟨d, hdraft, hfree, rfl⟩ := Table.addDraft_cases hadd
      exact ih.insert (Draft.declaration_coherent hdraft) hfree

/-! ### Tables from lists of drafts -/

theorem Table.Built.foldlM {t grown : Table} {drafts : List Draft}
    (hbuilt : t.Built) (hadd : drafts.foldlM Table.addDraft t = .ok grown) : grown.Built := by
  induction drafts generalizing t with
  | nil =>
      cases hadd
      exact hbuilt
  | cons draft drafts ih =>
      obtain ⟨next, hfirst, hrest⟩ := bind_eq_ok_iff.mp hadd
      exact ih (hbuilt.add hfirst) hrest

theorem Table.mem_all_of_foldlM {t grown : Table} {drafts : List Draft}
    (hadd : drafts.foldlM Table.addDraft t = .ok grown) {d : Declaration} (hd : d ∈ grown.all) :
    d ∈ t.all ∨ ∃ draft ∈ drafts, draft.declaration = .ok d := by
  induction drafts generalizing t with
  | nil =>
      cases hadd
      exact .inl hd
  | cons draft drafts ih =>
      obtain ⟨next, hfirst, hrest⟩ := bind_eq_ok_iff.mp hadd
      rcases ih hrest with hnext | ⟨later, hlater, hdraft⟩
      · obtain ⟨added, hadded, hfree, rfl⟩ := Table.addDraft_cases hfirst
        rcases List.mem_cons.mp ((Table.all_insert_perm hfree).mem_iff.mp hnext) with rfl | hold
        · exact .inr ⟨draft, List.mem_cons_self, hadded⟩
        · exact .inl hold
      · exact .inr ⟨later, List.mem_cons_of_mem _ hlater, hdraft⟩

/-- The table of a list of drafts, or the empty one if they do not go together. -/
def Table.ofDraftsD (drafts : List Draft) : Table :=
  match Table.ofDrafts drafts with
  | .ok t => t
  | .error _ => .empty

theorem Table.ofDraftsD_built (drafts : List Draft) : (Table.ofDraftsD drafts).Built := by
  unfold Table.ofDraftsD
  cases hdrafts : Table.ofDrafts drafts with
  | error error => exact .empty
  | ok t => exact Table.Built.empty.foldlM hdrafts

/-- Everything in a table has been drafted. -/
theorem Table.exists_draft_of_mem {drafts : List Draft} {d : Declaration}
    (hd : d ∈ (Table.ofDraftsD drafts).all) :
    ∃ draft ∈ drafts, draft.stated.completed = d := by
  unfold Table.ofDraftsD at hd
  cases hdrafts : Table.ofDrafts drafts with
  | error error =>
      rw [hdrafts] at hd
      cases hd
  | ok t =>
      rw [hdrafts] at hd
      rcases Table.mem_all_of_foldlM hdrafts hd with hnone | ⟨draft, hdraft, hdeclaration⟩
      · cases hnone
      · exact ⟨draft, hdraft, (Draft.declaration_eq_ok_iff.mp hdeclaration).2⟩

end CommandLine
