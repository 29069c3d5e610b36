import CommandLine.Slot
import Mathlib.Control.Monad.Basic
import Mathlib.Data.List.Perm.Basic

/-!
# What containers make of their items

A list keeps all items in their order.  What every single item preserves holds after any number of
them.  In the order of arrival the items that are new come behind the initial ones.
-/

namespace CommandLine.Container

/-! ### Lists -/

theorem foldlM_list (initial items : Contents) :
    items.foldlM Container.list.append initial = .ok (initial ++ items) := by
  induction items generalizing initial with
  | nil => simp [pure, Except.pure]
  | cons item items ih =>
      rw [List.foldlM_cons]
      change items.foldlM Container.list.append (initial ++ [item]) = _
      rw [ih, List.append_assoc, List.singleton_append]

/-! ### One item after another -/

/-- What every item preserves, given what has been taken before it, holds after any number. -/
theorem exists_foldlM {α : Type} {toItem : α → Item} {c : Container} {Admits : α → Prop}
    {Keeps : List α → List α → Prop}
    (hstep : ∀ taken held item, Keeps taken held → Admits item →
      ∃ grown, c.append (held.map toItem) (toItem item) = .ok (grown.map toItem) ∧
        Keeps (taken ++ [item]) grown)
    {taken initial : List α} (hinitial : Keeps taken initial) {items : List α}
    (hitems : ∀ item ∈ items, Admits item) :
    ∃ final, (items.map toItem).foldlM c.append (initial.map toItem) = .ok (final.map toItem) ∧
      Keeps (taken ++ items) final := by
  induction items generalizing taken initial with
  | nil => exact ⟨initial, rfl, by rwa [List.append_nil]⟩
  | cons item rest ih =>
      rw [List.forall_mem_cons] at hitems
      obtain ⟨grown, happend, hgrown⟩ := hstep taken initial item hinitial hitems.1
      obtain ⟨final, hfold, hfinal⟩ := ih hgrown hitems.2
      refine ⟨final, ?_, by rwa [List.append_cons]⟩
      rw [List.map_cons, List.foldlM_cons, happend]
      exact hfold

/-! ### The order of arrival -/

section Arrival

variable {α : Type} (same : α → α → Bool)

/-- Adds an item unless one like it is there. -/
def arrive (held : List α) (item : α) : List α :=
  if held.any (same · item) then held else held ++ [item]

theorem arrive_cons_of_differ {first item : α} (hdiffer : same first item = false)
    (rest : List α) : arrive same (first :: rest) item = first :: arrive same rest item := by
  unfold arrive
  rw [List.any_cons, hdiffer, Bool.false_or]
  split <;> rfl

/-- The items that are like none of the initial ones, each where it first appears. -/
def newcomers (initial items : List α) : List α :=
  (items.filter fun item => !initial.any (same · item)).eraseDupsBy
    fun later earlier => same earlier later

theorem foldl_arrive (initial items : List α) :
    items.foldl (arrive same) initial = initial ++ newcomers same initial items := by
  induction items generalizing initial with
  | nil => exact (List.append_nil initial).symm
  | cons item rest ih =>
      rw [List.foldl_cons, ih]
      unfold arrive newcomers
      by_cases hthere : initial.any (same · item) = true
      · rw [if_pos hthere, List.filter_cons_of_neg (by simp [hthere])]
      · -- from now on the item is one of those that are there
        rw [if_neg hthere, List.filter_cons_of_pos (by simp [hthere]), List.eraseDupsBy_cons,
          List.filter_filter, List.append_assoc, List.singleton_append]
        simp [List.any_append, Bool.not_or, Bool.and_comm]

end Arrival

end CommandLine.Container
