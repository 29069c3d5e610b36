import CommandLine.Proofs.Table.Clauses
import CommandLine.Proofs.Table.Names

/-!
# The policies of drafts

Whether a draft passes depends on its names, on the kind of its slot and on the flags that its
clauses declare.  The policy in effect has the declared flags and those that come with a slot for
many values, and no others.  Apart from that only the last clause of each kind counts, and whether
any asks for the positional values, so that drafts which agree on these things make the same
declaration, however their clauses are ordered or repeated.
-/

namespace CommandLine

theorem Policy.ext_has {p q : Policy} (hhas : ∀ flag, p.has flag = q.has flag) : p = q :=
  Policy.ext (hhas .required) (hhas .unique) (hhas .multiple) (hhas .exclusive)

theorem Clause.has_allFlags (clauses : List Clause) (flag : Flag) :
    (Clause.allFlags clauses).has flag = clauses.any (·.flags.has flag) := by
  cases flag <;> rfl

namespace Declaration

/-! ### Completing a policy -/

theorem completed_has_required (d : Declaration) :
    d.completed.policy.has .required = d.policy.has .required := by
  rw [completed_eq]
  rfl

theorem completed_has_exclusive (d : Declaration) :
    d.completed.policy.has .exclusive = d.policy.has .exclusive := by
  rw [completed_eq]
  rfl

theorem completed_has_unique (d : Declaration) :
    d.completed.policy.has .unique =
      (d.policy.has .unique || (d.kind.isMultiValued && !d.policy.has .multiple)) := by
  rw [completed_eq]
  rfl

theorem completed_has_multiple (d : Declaration) :
    d.completed.policy.has .multiple = (d.policy.has .multiple || d.kind.isMultiValued) := by
  rw [completed_eq]
  rfl

end Declaration

namespace Draft

/-! ### What a draft declares -/

/-- One of the clauses declares the flag, by itself or within a policy. -/
def DeclaresFlag (draft : Draft) (flag : Flag) : Prop :=
  ∃ clause ∈ draft.clauses, clause.flags.has flag = true

/-- The flags that come with a slot for many values, whether they are declared or not. -/
inductive Implies (draft : Draft) : Flag → Prop
  | multiple : draft.slot.kind.isMultiValued = true → Implies draft .multiple
  | unique : draft.slot.kind.isMultiValued = true →
      ¬ draft.DeclaresFlag .unique → ¬ draft.DeclaresFlag .multiple → Implies draft .unique

/-- All that the checks ask for. -/
structure Passes (draft : Draft) : Prop where
  long : nameError? draft.long = none
  short : ∀ name, Clause.last? Clause.short? draft.clauses = some name → nameError? name = none
  kind : draft.slot.kind.isMultiValued = true ∨
    ¬ draft.DeclaresFlag .unique ∧ ¬ draft.DeclaresFlag .multiple

/-- The policy that a draft puts in effect. -/
structure Effects (draft : Draft) (policy : Policy) : Prop where
  has_iff : ∀ flag, policy.has flag = true ↔ draft.DeclaresFlag flag ∨ draft.Implies flag
  multiple_of_unique : policy.has .unique = true → policy.has .multiple = true
  multiple_iff : policy.has .multiple = true ↔ draft.slot.kind.isMultiValued = true

/-- The same flags, and the same last clause of each of three kinds. -/
structure AgreesWith (draft other : Draft) : Prop where
  long : draft.long = other.long
  field : draft.field = other.field
  slot : draft.slot = other.slot
  flags : ∀ flag, draft.DeclaresFlag flag ↔ other.DeclaresFlag flag
  short : Clause.last? Clause.short? draft.clauses = Clause.last? Clause.short? other.clauses
  description : Clause.last? Clause.description? draft.clauses =
    Clause.last? Clause.description? other.clauses
  obsolescence : Clause.last? Clause.obsolescence? draft.clauses =
    Clause.last? Clause.obsolescence? other.clauses

variable {draft other : Draft}

theorem has_allFlags_iff {flag : Flag} :
    (Clause.allFlags draft.clauses).has flag = true ↔ draft.DeclaresFlag flag := by
  rw [Clause.has_allFlags, List.any_eq_true]
  rfl

theorem has_allFlags_eq_false_iff {flag : Flag} :
    (Clause.allFlags draft.clauses).has flag = false ↔ ¬ draft.DeclaresFlag flag := by
  rw [← has_allFlags_iff, Bool.not_eq_true]

theorem allFlags_eq_iff :
    Clause.allFlags draft.clauses = Clause.allFlags other.clauses ↔
      ∀ flag, draft.DeclaresFlag flag ↔ other.DeclaresFlag flag := by
  constructor
  · intro hsame flag
    rw [← has_allFlags_iff, ← has_allFlags_iff, hsame]
  · intro hflags
    apply Policy.ext_has
    intro flag
    rw [Bool.eq_iff_iff, has_allFlags_iff, has_allFlags_iff]
    exact hflags flag

theorem stated_policy (draft : Draft) : draft.stated.policy = Clause.allFlags draft.clauses := by
  rw [stated_eq]

theorem stated_kind (draft : Draft) : draft.stated.kind = draft.slot.kind := by
  rw [stated_eq]
  rfl

/-! ### Passing the checks -/

theorem stated_policyError?_eq_none_iff :
    draft.stated.policyError? = none ↔ draft.slot.kind.isMultiValued = true ∨
      ¬ draft.DeclaresFlag .unique ∧ ¬ draft.DeclaresFlag .multiple := by
  rw [Declaration.policyError?_eq_none_iff, stated_kind, stated_policy,
    ← has_allFlags_eq_false_iff, ← has_allFlags_eq_false_iff]
  rfl

theorem stated_error?_eq_none_iff : draft.stated.error? = none ↔ draft.Passes := by
  have hlong : draft.stated.long = draft.long := by rw [stated_eq]
  have hshort : draft.stated.short.bind nameError? = none ↔
      ∀ name, Clause.last? Clause.short? draft.clauses = some name → nameError? name = none := by
    rw [stated_eq]
    exact Option.bind_eq_none_iff
  rw [Declaration.error?_eq_none_iff, hlong, hshort, stated_policyError?_eq_none_iff]
  constructor
  · rintro ⟨-, hname, hlast, hkind⟩
    exact ⟨hname, hlast, hkind⟩
  · rintro ⟨hname, hlast, hkind⟩
    refine ⟨?_, hname, hlast, hkind⟩
    -- the check of names refuses the empty one as well
    intro hempty
    rw [hempty] at hname
    contradiction

theorem exists_declaration_iff : (∃ d, draft.declaration = .ok d) ↔ draft.Passes := by
  simp only [declaration_eq_ok_iff, stated_error?_eq_none_iff, exists_and_left, exists_eq',
    and_true]

/-! ### The policy in effect -/

theorem implies_multiple_iff :
    draft.Implies .multiple ↔ draft.slot.kind.isMultiValued = true := by
  constructor
  · rintro ⟨hkind⟩
    exact hkind
  · exact .multiple

theorem implies_unique_iff :
    draft.Implies .unique ↔ draft.slot.kind.isMultiValued = true ∧
      ¬ draft.DeclaresFlag .unique ∧ ¬ draft.DeclaresFlag .multiple := by
  constructor
  · rintro ⟨⟩
    next hkind hunique hmultiple => exact ⟨hkind, hunique, hmultiple⟩
  · rintro ⟨hkind, hunique, hmultiple⟩
    exact .unique hkind hunique hmultiple

theorem completed_has_iff (draft : Draft) (flag : Flag) :
    draft.stated.completed.policy.has flag = true ↔
      draft.DeclaresFlag flag ∨ draft.Implies flag := by
  cases flag with
  | required =>
      rw [Declaration.completed_has_required, stated_policy, has_allFlags_iff]
      exact (or_iff_left nofun).symm
  | exclusive =>
      rw [Declaration.completed_has_exclusive, stated_policy, has_allFlags_iff]
      exact (or_iff_left nofun).symm
  | multiple =>
      rw [Declaration.completed_has_multiple, stated_policy, stated_kind, Bool.or_eq_true,
        has_allFlags_iff, implies_multiple_iff]
  | unique =>
      rw [Declaration.completed_has_unique, stated_policy, stated_kind, Bool.or_eq_true,
        Bool.and_eq_true, Bool.not_eq_true', has_allFlags_iff, has_allFlags_eq_false_iff,
        implies_unique_iff]
      tauto

theorem effects_of_declaration {d : Declaration} (hdraft : draft.declaration = .ok d) :
    draft.Effects d.policy := by
  have hcoherent := declaration_coherent hdraft
  obtain ⟨-, rfl⟩ := declaration_eq_ok_iff.mp hdraft
  have hkind : draft.stated.completed.kind = draft.slot.kind := by
    rw [Declaration.completed_eq]
    exact stated_kind draft
  have hmultiple : draft.stated.completed.policy.has .multiple = true ↔
      draft.slot.kind.isMultiValued = true := by
    rw [← hkind, ← hcoherent.multiple_eq]
    rfl
  refine ⟨completed_has_iff draft, ?_, hmultiple⟩
  intro hunique
  rw [hmultiple, ← hkind]
  exact hcoherent.multiValued_of_unique hunique

/-! ### Drafts that say the same -/

theorem AgreesWith.stated_eq_stated (hagree : draft.AgreesWith other)
    (hpositional : draft.clauses.any Clause.isPositional = other.clauses.any Clause.isPositional) :
    draft.stated = other.stated := by
  have hflags : Clause.allFlags draft.clauses = Clause.allFlags other.clauses :=
    allFlags_eq_iff.mpr hagree.flags
  rw [stated_eq, stated_eq, hagree.long, hagree.field, hagree.slot, hagree.short,
    hagree.description, hagree.obsolescence, hflags, hpositional]

/-- A draft passes if its names and its flags fit, and then has the flags that are declared and
those that its slot brings along.  Nothing else about its clauses makes a difference but the last
ones of their kinds and whether one asks for the positional values. -/
theorem declaration_determined :
    (∀ draft : Draft, (∃ d, draft.declaration = .ok d) ↔ draft.Passes) ∧
      (∀ (draft : Draft) (d : Declaration), draft.declaration = .ok d → draft.Effects d.policy) ∧
        ∀ draft other : Draft, draft.AgreesWith other →
          draft.clauses.any Clause.isPositional = other.clauses.any Clause.isPositional →
            draft.declaration = other.declaration := by
  refine ⟨fun _ => exists_declaration_iff, fun _ _ => effects_of_declaration, ?_⟩
  intro draft other hagree hpositional
  unfold declaration
  rw [hagree.stated_eq_stated hpositional]

/-- A short name that is overridden and the way in which a flag is declared leave no trace. -/
theorem repeated_clauses_agree :
    let first : Draft := ⟨"files", "list", .collection .text .list,
      [.short "x", .flag .unique, .description "files to read", .short "f"]⟩
    let second : Draft := ⟨"files", "list", .collection .text .list,
      [.short "f", .policy { unique := true }, .description "files to read", .flag .unique]⟩
    first.AgreesWith second ∧ first.declaration = second.declaration ∧
      ∃ d, first.declaration = .ok d ∧ first.Effects d.policy ∧
        d.policy.flags = [.unique, .multiple] := by
  intro first second
  have hagree : first.AgreesWith second :=
    ⟨rfl, rfl, rfl, allFlags_eq_iff.mp (by decide), rfl, rfl, rfl⟩
  obtain ⟨d, hfirst⟩ : ∃ d, first.declaration = .ok d := by
    refine (declaration_determined.1 first).mpr ⟨by decide, ?_, .inl rfl⟩
    rintro _ ⟨⟩
    decide
  have hflags : first.stated.completed.policy.flags = [.unique, .multiple] := by decide
  obtain ⟨-, hd⟩ := declaration_eq_ok_iff.mp hfirst
  exact ⟨hagree, declaration_determined.2.2 first second hagree rfl, d, hfirst,
    declaration_determined.2.1 first d hfirst, hd ▸ hflags⟩

/-- Two drafts of which one asks for the positional values say the same otherwise, and make
different declarations. -/
theorem positional_clause_matters :
    let named : Draft := ⟨"files", "text", .single .text, []⟩
    let positional : Draft := ⟨"files", "text", .single .text, [.positional]⟩
    named.AgreesWith positional ∧ named.declaration ≠ positional.declaration := by
  intro named positional
  refine ⟨⟨rfl, rfl, rfl, allFlags_eq_iff.mp (by decide), rfl, rfl, rfl⟩, ?_⟩
  intro hsame
  have hpositional : named.declaration.map Declaration.isPositional =
      positional.declaration.map Declaration.isPositional := by rw [hsame]
  revert hpositional
  decide

end Draft

end CommandLine
