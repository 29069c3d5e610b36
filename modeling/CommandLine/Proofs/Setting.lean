import CommandLine.Proofs.Slot.Standard
import CommandLine.Proofs.Value.Integer

/-!
# Settings

What an argument can set its field to: a truth value, a text, an integer, a list of texts or the
entries of a map.  A setting that suits a slot is given by texts that the slot reads back, and a
place that was empty before holds exactly this setting afterwards.
-/

namespace CommandLine

inductive Setting
  | toggle (on : Bool)
  | text (s : String)
  | integer (n : Int)
  | list (texts : List String)
  | map (entries : List (String × String))
  deriving DecidableEq, Repr

namespace Setting

/-- The values by which the setting is given, one for each occurrence. -/
def texts : Setting → List String
  | .toggle on => [if on then "+" else "-"]
  | .text s => [s]
  | .integer n => [toString n]
  | .list texts => texts
  | .map entries => entries.map fun entry => entry.1 ++ "=" ++ entry.2

def items : Setting → List Item
  | .toggle on => [.value (.toggle on)]
  | .text s => [.value (.text s)]
  | .integer n => [.value (.integer n)]
  | .list texts => texts.map fun s => .value (.text s)
  | .map entries => entries.map fun entry => .pair entry.1 entry.2

/-- The place holds the setting.  A map has its own order. -/
def HeldIn (s : Setting) (contents : Contents) : Prop :=
  match s with
  | .map _ => contents.Perm s.items
  | .toggle _ | .text _ | .integer _ | .list _ => contents = s.items

/-- The setting is one for the slot; if it has to be unique, nothing is given twice. -/
inductive Suits (unique : Bool) : Slot → Setting → Prop
  | toggle (on : Bool) : Suits unique (.single .toggle) (.toggle on)
  | text {s : String} : s ≠ "" → Suits unique (.single .text) (.text s)
  | integer {name : String} {t : IntegerType} {n : Int} :
      t.InRange n → Suits unique (.single (.integerNamed name t)) (.integer n)
  | list {texts : List String} :
      (∀ s ∈ texts, s ≠ "") → (unique = true → texts.Nodup) →
        Suits unique (.collection .text .list) (.list texts)
  | map {c : Container} {entries : List (String × String)} :
      (c = .arrivalMap ∨ c = .sortedMap ∨ c.IsHashedMap) →
        (∀ entry ∈ entries, entry.1 ≠ "" ∧ '=' ∉ entry.1.toList) →
          (entries.map Prod.fst).Nodup → Suits unique (.map c) (.map entries)

variable {unique : Bool} {slot : Slot} {s : Setting}

theorem Suits.isStandard {contents : Contents} (hsuits : s.Suits unique slot)
    (hempty : slot.container? ≠ none → contents = []) : slot.IsStandard contents := by
  cases hsuits with
  | toggle on => exact .single _
  | text hs => exact .single _
  | integer hrange => exact .single _
  | list hne hnodup => exact .list _
  | map hcontainer hnames hnodup =>
      rcases hcontainer with rfl | rfl | hhashed
      · exact .arrivalMap
      · exact .sortedMap
      · have honce : (Container.names []).Nodup := List.nodup_nil
        exact .hashedMap hhashed honce (hempty (by simp [Slot.container?]))

theorem Suits.text_ne_empty (hsuits : s.Suits unique slot) : ∀ text ∈ s.texts, text ≠ "" := by
  intro text htext
  cases hsuits with
  | toggle on => cases on <;> simp_all [texts]
  | text hs =>
      rw [List.mem_singleton.mp htext]
      exact hs
  | @integer _ _ n hrange =>
      rw [List.mem_singleton.mp htext]
      exact IntegerType.toString_ne_empty n
  | list hne hnodup => exact hne text htext
  | map hcontainer hnames hnodup =>
      obtain ⟨entry, -, rfl⟩ := List.mem_map.mp htext
      simp

theorem Suits.length_texts_le (hsuits : s.Suits unique slot)
    (hkind : slot.kind.isMultiValued = false) : s.texts.length ≤ 1 := by
  cases hsuits with
  | toggle on => exact Nat.le_refl 1
  | text hs => exact Nat.le_refl 1
  | integer hrange => exact Nat.le_refl 1
  | list hne hnodup => contradiction
  | map hcontainer hnames hnodup => contradiction

/-- The slot reads the texts back. -/
theorem Suits.reads (hsuits : s.Suits unique slot) :
    List.Forall₂ slot.Reads (s.texts.map some) s.items := by
  cases hsuits with
  | toggle on =>
      refine .cons (.single ?_) .nil
      cases on <;> rfl
  | text hs => exact .cons (.single rfl) .nil
  | @integer name t n hrange =>
      have hread : (ValueType.integerNamed name t).convert (some (toString n)) =
          .ok (.integer n) := by
        simp only [ValueType.convert, ValueType.integerNamed, IntegerType.read_toString hrange]
        rfl
      exact .cons (.single hread) .nil
  | list hne hnodup =>
      rw [texts, items, List.forall₂_map_left_iff, List.forall₂_map_right_iff, List.forall₂_same]
      intro text _
      exact .collection rfl
  | map hcontainer hnames hnodup =>
      rw [texts, items, List.map_map, List.forall₂_map_left_iff, List.forall₂_map_right_iff,
        List.forall₂_same]
      intro entry hentry
      exact .map (hnames entry hentry).1 (hnames entry hentry).2

/-- Nothing is given twice where that is not allowed. -/
theorem Suits.distinct (hsuits : s.Suits true slot) :
    s.items.Pairwise fun first second => first.clashes second = false := by
  cases hsuits with
  | toggle on => exact List.pairwise_singleton _ _
  | text hs => exact List.pairwise_singleton _ _
  | integer hrange => exact List.pairwise_singleton _ _
  | list hne hnodup =>
      rw [items, List.pairwise_map]
      refine (hnodup rfl).imp ?_
      intro first second hfirst
      simpa [Item.clashes, Value.same] using hfirst
  | map hcontainer hnames hnodup =>
      rw [items, List.pairwise_map]
      refine (List.pairwise_map.mp hnodup).imp ?_
      intro first second hfirst
      simpa [Item.clashes] using hfirst

/-- What a place is settled to by the texts of a setting holds this setting. -/
theorem Suits.heldIn {initial final : Contents} (hsuits : s.Suits unique slot)
    (hempty : slot.container? ≠ none → initial = [])
    (hsettles : slot.Settles initial (s.texts.map some) final) : s.HeldIn final := by
  have hreads := hsuits.reads
  cases hsuits with
  | toggle on => exact hsettles.eq_of_single hreads (by simp [items])
  | text hs => exact hsettles.eq_of_single hreads (by simp [items])
  | integer hrange => exact hsettles.eq_of_single hreads (by simp [items])
  | list hne hnodup =>
      have hfold := hsettles.foldlM_eq_ok rfl hreads
      rw [hempty (by simp [Slot.container?]), Container.foldlM_list] at hfold
      exact (Except.ok.inj hfold).symm
  | @map c entries hcontainer hnames hnodup =>
      have hfold := hsettles.foldlM_eq_ok rfl hreads
      rw [hempty (by simp [Slot.container?])] at hfold
      rcases hcontainer with rfl | rfl | hhashed
      · exact (Container.arrivalMap_putsOnce []).perm_of_foldlM rfl hnodup hfold
      · exact Container.sortedMap_putsOnce.perm_of_foldlM List.Pairwise.nil hnodup hfold
      · exact hhashed.perm_of_foldlM trivial hnodup hfold

end Setting

end CommandLine
