import CommandLine.Proofs.Container
import CommandLine.Proofs.Value.Equality
import Mathlib.Data.String.Basic

/-!
# Sets

A set takes a value unless it holds an equal one.  However it arranges its values, after any number
of insertions it holds the union of what it held and of what was inserted, each value once.
-/

namespace CommandLine

/-- The contents of a collection of values. -/
def Contents.ofValues (values : List Value) : Contents :=
  values.map .value

namespace Container

open Contents (ofValues)

/-- No two of the values are the same. -/
def Once (values : List Value) : Prop :=
  values.Pairwise fun first second => first.same second = false

theorem Once.perm {values others : List Value} (honce : Once values) (hperm : values.Perm others) :
    Once others :=
  (hperm.pairwise_iff fun {x y} hdiffer => by rwa [Value.same_comm]).mp honce

/-- What a set holds after values have been put into it that holds the initial ones at first.
Membership is meant up to equality of values. -/
structure FillsSet (initial buffer final : List Value) : Prop where
  union : ∀ v, final.any (·.same v) = (initial.any (·.same v) || buffer.any (·.same v))
  once : Once final
  kept : initial ⊆ final
  drawn : final ⊆ initial ++ buffer

theorem FillsSet.refl {initial : List Value} (honce : Once initial) :
    FillsSet initial [] initial where
  union v := by simp
  once := honce
  kept := List.Subset.refl initial
  drawn := by simp

theorem FillsSet.append {initial middle final first second : List Value}
    (hfirst : FillsSet initial first middle) (hsecond : FillsSet middle second final) :
    FillsSet initial (first ++ second) final where
  union v := by rw [hsecond.union, hfirst.union, List.any_append, Bool.or_assoc]
  once := hsecond.once
  kept := List.Subset.trans hfirst.kept hsecond.kept
  drawn := by
    intro v hv
    rw [← List.append_assoc]
    rcases List.mem_append.mp (hsecond.drawn hv) with hmiddle | hlast
    · exact List.mem_append_left _ (hfirst.drawn hmiddle)
    · exact List.mem_append_right _ hlast

/-- What one insertion makes of the values of a set, whose order it is free to change. -/
structure Inserts (held : List Value) (v : Value) (grown : List Value) : Prop where
  fresh : held.any (·.same v) = false → grown.Perm (v :: held)
  present : held.any (·.same v) = true → grown.Perm held

theorem FillsSet.of_present {held grown : List Value} {v : Value}
    (hpresent : held.any (·.same v) = true) (hperm : grown.Perm held) (honce : Once held) :
    FillsSet held [v] grown where
  union other := by
    rw [hperm.any_eq, List.any_cons, List.any_nil, Bool.or_false, Bool.eq_iff_iff,
      Bool.or_eq_true, iff_self_or]
    intro hsame
    obtain ⟨w, hw, hequal⟩ := List.any_eq_true.mp hpresent
    exact List.any_eq_true.mpr ⟨w, hw, Value.same_trans hequal hsame⟩
  once := honce.perm hperm.symm
  kept := hperm.symm.subset
  drawn := List.Subset.trans hperm.subset (List.subset_append_left _ _)

theorem FillsSet.of_fresh {held grown : List Value} {v : Value}
    (hfresh : held.any (·.same v) = false) (hperm : grown.Perm (v :: held)) (honce : Once held) :
    FillsSet held [v] grown where
  union other := by
    rw [hperm.any_eq, List.any_cons, List.any_cons, List.any_nil, Bool.or_false, Bool.or_comm]
  once := by
    have hdiffer : ∀ other ∈ held, v.same other = false := by
      intro other hother
      rw [Value.same_comm]
      simpa using List.any_eq_false.mp hfresh other hother
    have hcons : Once (v :: held) := List.pairwise_cons.mpr ⟨hdiffer, honce⟩
    exact hcons.perm hperm.symm
  kept := List.Subset.trans (List.subset_cons_self v held) hperm.symm.subset
  drawn := by
    intro other hother
    rcases List.mem_cons.mp (hperm.subset hother) with rfl | hold
    · exact List.mem_append_right _ (List.mem_singleton_self _)
    · exact List.mem_append_left _ hold

theorem Inserts.fillsSet {held grown : List Value} {v : Value} (hinserts : Inserts held v grown)
    (honce : Once held) : FillsSet held [v] grown := by
  cases hany : held.any (·.same v) with
  | true => exact .of_present hany (hinserts.present hany) honce
  | false => exact .of_fresh hany (hinserts.fresh hany) honce

/-- The container inserts admissible values, and what it holds stays arranged by what it has
taken. -/
def InsertsOnce (c : Container) (Admits : Value → Prop)
    (Arranged : List Value → List Value → Prop) : Prop :=
  ∀ taken held v, Arranged taken held → Once held → Admits v →
    ∃ grown, c.append (ofValues held) (.value v) = .ok (ofValues grown) ∧ Inserts held v grown ∧
      Arranged (taken ++ [v]) grown

/-- Inserting values one by one makes the union. -/
theorem InsertsOnce.foldlM {c : Container} {Admits : Value → Prop}
    {Arranged : List Value → List Value → Prop} (hinserts : c.InsertsOnce Admits Arranged)
    {initial : List Value} (harranged : Arranged [] initial) (honce : Once initial)
    {buffer : List Value} (hbuffer : ∀ v ∈ buffer, Admits v) :
    ∃ final, (ofValues buffer).foldlM c.append (ofValues initial) = .ok (ofValues final) ∧
      FillsSet initial buffer final ∧ Arranged buffer final := by
  have hstep : ∀ taken held v, FillsSet initial taken held ∧ Arranged taken held → Admits v →
      ∃ grown, c.append (ofValues held) (.value v) = .ok (ofValues grown) ∧
        FillsSet initial (taken ++ [v]) grown ∧ Arranged (taken ++ [v]) grown := by
    rintro taken held v ⟨hfills, hheld⟩ hv
    obtain ⟨grown, happend, hone, hgrown⟩ := hinserts taken held v hheld hfills.once hv
    exact ⟨grown, happend, hfills.append (hone.fillsSet hfills.once), hgrown⟩
  exact exists_foldlM hstep ⟨.refl honce, harranged⟩ hbuffer

/-- A hashed set inserts values as every set does and says nothing of their order. -/
def IsHashedSet (c : Container) : Prop :=
  c.InsertsOnce (fun _ => True) fun _ _ => True

/-! ### In the order of arrival -/

theorem any_clashes_ofValues (held : List Value) (v : Value) :
    (ofValues held).any (·.clashes (.value v)) = held.any (·.same v) := by
  unfold ofValues
  rw [List.any_map]
  rfl

theorem append_arrivalSet (held : List Value) (v : Value) :
    arrivalSet.append (ofValues held) (.value v) = .ok (ofValues (arrive Value.same held v)) := by
  have hany := any_clashes_ofValues held v
  unfold arrivalSet addNew arrive
  dsimp only
  rw [hany]
  split
  · rfl
  · simp [ofValues]

theorem arrive_inserts (held : List Value) (v : Value) :
    Inserts held v (arrive Value.same held v) := by
  unfold arrive
  constructor
  · intro hfresh
    rw [if_neg (by simp [hfresh])]
    exact List.perm_append_singleton v held
  · intro hpresent
    rw [if_pos hpresent]

theorem arrivalSet_insertsOnce (initial : List Value) :
    arrivalSet.InsertsOnce (fun _ => True)
      fun taken held => held = taken.foldl (arrive Value.same) initial := by
  rintro taken held v rfl - -
  refine ⟨_, append_arrivalSet _ v, arrive_inserts _ v, ?_⟩
  dsimp only
  rw [List.foldl_append]
  rfl

theorem arrivalSet_isHashedSet : arrivalSet.IsHashedSet := by
  intro taken held v _ _ _
  exact ⟨_, append_arrivalSet held v, arrive_inserts held v, trivial⟩

/-! ### In ascending order -/

/-- An order of the values of one type that agrees with their equality. -/
structure Orders (order : Value → Value → Bool) (OfType : Value → Prop) : Prop where
  trans : ∀ a b c, OfType a → OfType b → OfType c → order a b = true → order b c = true →
    order a c = true
  disjoint : ∀ a b, OfType a → OfType b → order a b = true → a.same b = false
  total : ∀ a b, OfType a → OfType b → order a b = true ∨ a.same b = true ∨ order b a = true

/-- Values of one type, in strictly ascending order. -/
structure Ascends (order : Value → Value → Bool) (OfType : Value → Prop) (held : List Value) :
    Prop where
  ofType : ∀ v ∈ held, OfType v
  ascending : held.Pairwise fun first second => order first second = true

section Ascending

variable {order : Value → Value → Bool} {OfType : Value → Prop}

theorem Ascends.of_cons {first : Value} {rest : List Value}
    (hascends : Ascends order OfType (first :: rest)) :
    OfType first ∧ (∀ v ∈ rest, order first v = true) ∧ Ascends order OfType rest := by
  obtain ⟨htypes, hordered⟩ := hascends
  rw [List.forall_mem_cons] at htypes
  rw [List.pairwise_cons] at hordered
  exact ⟨htypes.1, hordered.1, htypes.2, hordered.2⟩

theorem Ascends.cons {first : Value} {rest : List Value}
    (hascends : Ascends order OfType rest) (hfirst : OfType first)
    (hleast : ∀ v ∈ rest, order first v = true) : Ascends order OfType (first :: rest) :=
  ⟨List.forall_mem_cons.mpr ⟨hfirst, hascends.ofType⟩,
    List.pairwise_cons.mpr ⟨hleast, hascends.ascending⟩⟩

/-- A value below all others is new. -/
theorem Inserts.cons_of_least (horders : Orders order OfType) {held : List Value}
    (hascends : Ascends order OfType held) {v : Value} (hv : OfType v)
    (hleast : ∀ other ∈ held, order v other = true) :
    Inserts held v (v :: held) where
  fresh _ := .refl _
  present := by
    intro hany
    obtain ⟨other, hother, hsame⟩ := List.any_eq_true.mp hany
    have hdiffer := horders.disjoint v other hv (hascends.ofType other hother) (hleast other hother)
    rw [Value.same_comm, hsame] at hdiffer
    contradiction

theorem Inserts.cons {held grown : List Value} {v first : Value} (hinserts : Inserts held v grown)
    (hdiffer : first.same v = false) : Inserts (first :: held) v (first :: grown) where
  fresh := by
    intro hany
    rw [List.any_cons, hdiffer, Bool.false_or] at hany
    exact ((hinserts.fresh hany).cons first).trans (.swap v first held)
  present := by
    intro hany
    rw [List.any_cons, hdiffer, Bool.false_or] at hany
    exact (hinserts.present hany).cons first

theorem Inserts.subset {held grown : List Value} {v : Value} (hinserts : Inserts held v grown) :
    grown ⊆ v :: held := by
  by_cases hany : held.any (·.same v) = true
  · exact List.Subset.trans (hinserts.present hany).subset (List.subset_cons_self v held)
  · exact (hinserts.fresh (by simpa using hany)).subset

theorem insertSorted_ofValues_cons (v first : Value) (rest : List Value) :
    insertSorted order (.value v) (ofValues (first :: rest)) =
      if order v first = true then ofValues (v :: first :: rest)
      else if first.same v = true then ofValues (first :: rest)
      else .value first :: insertSorted order (.value v) (ofValues rest) :=
  rfl

theorem insertSorted_inserts (horders : Orders order OfType) {held : List Value}
    (hascends : Ascends order OfType held) {v : Value} (hv : OfType v) :
    ∃ grown, insertSorted order (.value v) (ofValues held) = ofValues grown ∧
      Inserts held v grown ∧ Ascends order OfType grown := by
  induction held with
  | nil =>
      have hleast : ∀ other ∈ ([] : List Value), order v other = true := by simp
      exact ⟨[v], rfl, .cons_of_least horders hascends hv hleast, hascends.cons hv hleast⟩
  | cons first rest ih =>
      obtain ⟨hfirst, hleast, hrest⟩ := hascends.of_cons
      rw [insertSorted_ofValues_cons]
      by_cases hbelow : order v first = true
      · have hall : ∀ other ∈ first :: rest, order v other = true := by
          refine List.forall_mem_cons.mpr ⟨hbelow, ?_⟩
          intro other hother
          exact horders.trans v first other hv hfirst (hrest.ofType other hother) hbelow
            (hleast other hother)
        rw [if_pos hbelow]
        exact ⟨_, rfl, .cons_of_least horders hascends hv hall, hascends.cons hv hall⟩
      rw [if_neg hbelow]
      by_cases hsame : first.same v = true
      · rw [if_pos hsame]
        refine ⟨_, rfl, ⟨?_, fun _ => .refl _⟩, hascends⟩
        intro hany
        rw [List.any_cons, hsame] at hany
        contradiction
      · have hdiffer : first.same v = false := by simpa using hsame
        have habove : order first v = true := by
          rcases horders.total first v hfirst hv with hless | hequal | hless
          · exact hless
          · contradiction
          · contradiction
        obtain ⟨grown, hgrown, hinserts, hascending⟩ := ih hrest
        have hall : ∀ other ∈ grown, order first other = true := by
          intro other hother
          rcases List.mem_cons.mp (hinserts.subset hother) with rfl | hold
          · exact habove
          · exact hleast other hold
        rw [if_neg hsame, hgrown]
        exact ⟨first :: grown, rfl, hinserts.cons hdiffer, hascending.cons hfirst hall⟩

theorem sortedSetBy_insertsOnce (horders : Orders order OfType) :
    (sortedSetBy order).InsertsOnce OfType fun _ => Ascends order OfType := by
  intro _ held v hascends _ hv
  obtain ⟨grown, hgrown, hinserts, hascending⟩ := insertSorted_inserts horders hascends hv
  exact ⟨grown, congrArg Except.ok hgrown, hinserts, hascending⟩

theorem Ascends.once (horders : Orders order OfType) {held : List Value}
    (hascends : Ascends order OfType held) : Once held := by
  have htypes := hascends.ofType
  refine hascends.ascending.imp_of_mem ?_
  intro first second hfirst hsecond hless
  exact horders.disjoint first second (htypes first hfirst) (htypes second hsecond) hless

end Ascending

/-! ### The orders of numbers and texts -/

theorem integers_ordered : Orders Value.precedes fun v => ∃ n, v = .integer n where
  trans := by
    rintro _ _ _ ⟨a, rfl⟩ ⟨b, rfl⟩ ⟨c, rfl⟩ hfirst hsecond
    simp only [Value.precedes, decide_eq_true_eq] at hfirst hsecond ⊢
    omega
  disjoint := by
    rintro _ _ ⟨a, rfl⟩ ⟨b, rfl⟩ hless
    simp only [Value.precedes, decide_eq_true_eq] at hless
    simp [Value.same, hless.ne]
  total := by
    rintro _ _ ⟨a, rfl⟩ ⟨b, rfl⟩
    simp only [Value.precedes, Value.same, decide_eq_true_eq, beq_iff_eq, Value.integer.injEq]
    exact lt_trichotomy a b

theorem precedes_text_iff {a b : String} :
    Value.precedes (.text a) (.text b) = true ↔ a < b :=
  decide_eq_true_iff

theorem texts_ordered : Orders Value.precedes fun v => ∃ s, v = .text s where
  trans := by
    rintro _ _ _ ⟨a, rfl⟩ ⟨b, rfl⟩ ⟨c, rfl⟩ hfirst hsecond
    rw [precedes_text_iff] at hfirst hsecond ⊢
    exact hfirst.trans hsecond
  disjoint := by
    rintro _ _ ⟨a, rfl⟩ ⟨b, rfl⟩ hless
    rw [precedes_text_iff] at hless
    simp [Value.same, hless.ne]
  total := by
    rintro _ _ ⟨a, rfl⟩ ⟨b, rfl⟩
    simp only [precedes_text_iff, Value.same, beq_iff_eq, Value.text.injEq]
    exact lt_trichotomy a b

end Container

end CommandLine
