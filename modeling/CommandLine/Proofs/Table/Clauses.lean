import CommandLine.Declaration

/-!
# What the clauses of a draft say

The clauses of a draft are read in order.  Of the clauses that say the same kind of thing the last
one holds; only flags add up, so that for them the order makes no difference.
-/

namespace CommandLine

namespace Clause

def short? : Clause → Option String
  | .short name => some name
  | _ => none

def description? : Clause → Option String
  | .description text => some text
  | _ => none

def flags : Clause → Policy
  | .flag f => .of f
  | .policy p => p
  | _ => .none

def isPositional : Clause → Bool
  | .positional => true
  | _ => false

def obsolescence? : Clause → Option Obsolescence
  | .obsolete message => some ⟨message, false⟩
  | .fatallyObsolete message => some ⟨message, true⟩
  | _ => none

/-- The flags of all clauses together. -/
def allFlags (clauses : List Clause) : Policy where
  required := clauses.any (·.flags.required)
  unique := clauses.any (·.flags.unique)
  multiple := clauses.any (·.flags.multiple)
  exclusive := clauses.any (·.flags.exclusive)

/-- What the last clause says of those that say anything of the kind. -/
def last? {α : Type} (tells : Clause → Option α) (clauses : List Clause) : Option α :=
  clauses.reverse.findSome? tells

@[simp] theorem last?_nil {α : Type} (tells : Clause → Option α) : last? tells [] = none := rfl

theorem last?_append {α : Type} (tells : Clause → Option α) (first second : List Clause) :
    last? tells (first ++ second) = (last? tells second).or (last? tells first) := by
  simp [last?, List.reverse_append, List.findSome?_append]

theorem last?_singleton {α : Type} (tells : Clause → Option α) (clause : Clause) :
    last? tells [clause] = tells clause := by
  simp [last?]

theorem last?_eq_none {α : Type} {tells : Clause → Option α} {clauses : List Clause}
    (hnone : ∀ clause ∈ clauses, tells clause = none) : last? tells clauses = none := by
  simpa [last?] using hnone

theorem last?_toList_map {α : Type} (tells : Clause → Option α) (make : α → Clause)
    (hmake : ∀ a, tells (make a) = some a) (o : Option α) :
    last? tells (o.toList.map make) = o := by
  cases o with
  | none => rfl
  | some a => exact (last?_singleton tells (make a)).trans (hmake a)

end Clause

/-! ### Folding clauses into a declaration -/

attribute [ext] Policy Declaration

namespace Declaration

variable {α : Type}

theorem foldl_withClause_kept (part : Declaration → α)
    (hstep : ∀ d clause, part (d.withClause clause) = part d) (d : Declaration)
    (clauses : List Clause) : part (clauses.foldl withClause d) = part d := by
  induction clauses generalizing d with
  | nil => rfl
  | cons clause rest ih => rw [List.foldl_cons, ih, hstep]

theorem foldl_withClause_last (part : Declaration → Option α) (tells : Clause → Option α)
    (hstep : ∀ d clause, part (d.withClause clause) = (tells clause).or (part d))
    (d : Declaration) (clauses : List Clause) :
    part (clauses.foldl withClause d) = (Clause.last? tells clauses).or (part d) := by
  induction clauses generalizing d with
  | nil => rfl
  | cons clause rest ih =>
      rw [List.foldl_cons, ih, hstep, ← List.singleton_append, Clause.last?_append,
        Clause.last?_singleton, Option.or_assoc]

theorem foldl_withClause_isPositional (d : Declaration) (clauses : List Clause) :
    (clauses.foldl withClause d).isPositional =
      (d.isPositional || clauses.any Clause.isPositional) := by
  induction clauses generalizing d with
  | nil => simp
  | cons clause rest ih =>
      rw [List.foldl_cons, ih, List.any_cons, ← Bool.or_assoc]
      cases clause <;> simp [withClause, Clause.isPositional]

theorem foldl_withClause_policy (d : Declaration) (clauses : List Clause) :
    (clauses.foldl withClause d).policy = d.policy.union (Clause.allFlags clauses) := by
  induction clauses generalizing d with
  | nil => simp [Clause.allFlags, Policy.union]
  | cons clause rest ih =>
      have hstep : (d.withClause clause).policy = d.policy.union clause.flags := by
        cases clause <;> simp [withClause, Clause.flags, Policy.union, Policy.none]
      rw [List.foldl_cons, ih, hstep]
      simp [Clause.allFlags, Policy.union, Bool.or_assoc]

end Declaration

/-- What a draft says, clause by clause. -/
theorem Draft.stated_eq (draft : Draft) :
    draft.stated =
      { long := draft.long
        field := draft.field
        slot := draft.slot
        short := Clause.last? Clause.short? draft.clauses
        description := Clause.last? Clause.description? draft.clauses
        policy := Clause.allFlags draft.clauses
        isPositional := draft.clauses.any Clause.isPositional
        obsolescence := Clause.last? Clause.obsolescence? draft.clauses } := by
  have hlong : draft.stated.long = draft.long :=
    Declaration.foldl_withClause_kept Declaration.long (fun _ clause => by cases clause <;> rfl) _ _
  have hfield : draft.stated.field = draft.field :=
    Declaration.foldl_withClause_kept Declaration.field (fun _ clause => by cases clause <;> rfl) _ _
  have hslot : draft.stated.slot = draft.slot :=
    Declaration.foldl_withClause_kept Declaration.slot (fun _ clause => by cases clause <;> rfl) _ _
  have hshort := Declaration.foldl_withClause_last Declaration.short Clause.short?
    (fun _ clause => by cases clause <;> rfl)
  have hdescription := Declaration.foldl_withClause_last Declaration.description
    Clause.description? (fun _ clause => by cases clause <;> rfl)
  have hobsolescence := Declaration.foldl_withClause_last Declaration.obsolescence
    Clause.obsolescence? (fun _ clause => by cases clause <;> rfl)
  apply Declaration.ext
  · exact hlong
  · exact hfield
  · exact hslot
  · exact (hshort _ _).trans Option.or_none
  · exact (hdescription _ _).trans Option.or_none
  · exact (Declaration.foldl_withClause_policy _ _).trans (by simp [Policy.union, Policy.none])
  · exact (Declaration.foldl_withClause_isPositional _ _).trans (Bool.false_or _)
  · exact (hobsolescence _ _).trans Option.or_none

/-- The flags of a slot for one value stay as they are. -/
theorem Declaration.completed_eq (d : Declaration) :
    d.completed =
      { d with
        policy :=
          { d.policy with
            unique := d.policy.unique || (d.kind.isMultiValued && !d.policy.multiple)
            multiple := d.policy.multiple || d.kind.isMultiValued } } := by
  unfold Declaration.completed
  cases hkind : d.kind.isMultiValued with
  | false => simp
  | true => simp [completePolicy]

end CommandLine
