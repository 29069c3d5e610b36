import CommandLine.Text.Case
import Mathlib.Data.List.Forall2
import Mathlib.Data.List.Nodup

/-!
# Texts in another case

Two texts are the same up to case if they agree letter by letter, except that an ASCII letter may
stand in either case.  That is what comparing them in lower case finds out, so it makes no
difference whether names are kept apart in lower case or compared with the case of letters ignored.
-/

namespace CommandLine.Text

/-! ### Letters -/

/-- Equal, or one ASCII letter in both cases. -/
inductive SameLetter : Char → Char → Prop
  | refl (c : Char) : SameLetter c c
  | lowered {upper lower : Char} :
      upper.isUpper = true → lower.toNat = upper.toNat + 32 → SameLetter upper lower
  | raised {upper lower : Char} :
      upper.isUpper = true → lower.toNat = upper.toNat + 32 → SameLetter lower upper

theorem isUpper_iff_val {c : Char} : c.isUpper = true ↔ c.val ≥ 'A'.val ∧ c.val ≤ 'Z'.val :=
  decide_eq_true_iff

theorem isUpper_iff {c : Char} : c.isUpper = true ↔ 65 ≤ c.toNat ∧ c.toNat ≤ 90 := by
  rw [isUpper_iff_val, ge_iff_le, UInt32.le_iff_toNat_le, UInt32.le_iff_toNat_le]
  rfl

theorem toLower_of_not_isUpper {c : Char} (hupper : ¬ c.isUpper = true) : c.toLower = c :=
  dif_neg (mt isUpper_iff_val.mpr hupper)

theorem toNat_toLower_of_isUpper {c : Char} (hupper : c.isUpper = true) :
    c.toLower.toNat = c.toNat + 32 := by
  have hlower : c.toLower.val = c.val + 32 :=
    congrArg Char.val (dif_pos (isUpper_iff_val.mp hupper))
  have hbounds : 65 ≤ c.val.toNat ∧ c.val.toNat ≤ 90 := isUpper_iff.mp hupper
  have hdistance : (32 : UInt32).toNat = 32 := rfl
  change c.toLower.val.toNat = c.val.toNat + 32
  rw [hlower, UInt32.toNat_add, hdistance, Nat.mod_eq_of_lt (by omega)]

theorem isUpper_eq_false_of_lowered {upper lower : Char} (hupper : upper.isUpper = true)
    (hlower : lower.toNat = upper.toNat + 32) : ¬ lower.isUpper = true := by
  have hbounds := isUpper_iff.mp hupper
  rw [isUpper_iff]
  omega

theorem toLower_eq_of_lowered {upper lower : Char} (hupper : upper.isUpper = true)
    (hlower : lower.toNat = upper.toNat + 32) : upper.toLower = lower := by
  apply Char.toNat_inj.mp
  rw [toNat_toLower_of_isUpper hupper, hlower]

theorem sameLetter_iff {a b : Char} : SameLetter a b ↔ a.toLower = b.toLower := by
  constructor
  · intro hsame
    cases hsame with
    | refl => rfl
    | lowered hupper hlower =>
        rw [toLower_eq_of_lowered hupper hlower,
          toLower_of_not_isUpper (isUpper_eq_false_of_lowered hupper hlower)]
    | raised hupper hlower =>
        rw [toLower_eq_of_lowered hupper hlower,
          toLower_of_not_isUpper (isUpper_eq_false_of_lowered hupper hlower)]
  · intro hfolded
    by_cases ha : a.isUpper = true
    · have hlower := toNat_toLower_of_isUpper ha
      by_cases hb : b.isUpper = true
      · rw [hfolded, toNat_toLower_of_isUpper hb] at hlower
        obtain rfl : b = a := Char.toNat_inj.mp (by omega)
        exact .refl b
      · rw [hfolded, toLower_of_not_isUpper hb] at hlower
        exact .lowered ha hlower
    · rw [toLower_of_not_isUpper ha] at hfolded
      by_cases hb : b.isUpper = true
      · exact .raised hb (by rw [hfolded, toNat_toLower_of_isUpper hb])
      · rw [toLower_of_not_isUpper hb] at hfolded
        exact hfolded ▸ .refl a

/-- Characters beyond ASCII have no other case. -/
theorem SameLetter.eq_of_not_ascii {a b : Char} (hsame : SameLetter a b)
    (hbeyond : 128 ≤ a.toNat ∨ 128 ≤ b.toNat) : a = b := by
  cases hsame with
  | refl => rfl
  | lowered hupper hlower =>
      have hbounds := isUpper_iff.mp hupper
      omega
  | raised hupper hlower =>
      have hbounds := isUpper_iff.mp hupper
      omega

/-! ### Texts -/

/-- The letters of two texts are the same one by one. -/
def SameUpToCase (s t : String) : Prop :=
  List.Forall₂ SameLetter s.toList t.toList

theorem sameUpToCase_iff {s t : String} : SameUpToCase s t ↔ folded s = folded t := by
  have hletters : SameLetter = fun a b => a.toLower = b.toLower := by
    funext a b
    exact propext sameLetter_iff
  unfold SameUpToCase folded
  rw [String.ofList_inj, ← List.forall₂_eq_eq_eq, List.forall₂_map_left_iff,
    List.forall₂_map_right_iff, hletters]

theorem sameIgnoringCase_iff {s t : String} :
    sameIgnoringCase s t = true ↔ SameUpToCase s t := by
  rw [sameUpToCase_iff, sameIgnoringCase, beq_iff_eq]

/-- No two of the texts agree in lower case. -/
def Apart (texts : List String) : Prop :=
  (texts.map folded).Nodup

theorem apart_nil : Apart [] := List.nodup_nil

theorem Apart.of_append {first second : List String} (hapart : Apart (first ++ second)) :
    Apart first := by
  unfold Apart at hapart
  rw [List.map_append] at hapart
  exact (List.nodup_append.mp hapart).1

theorem apart_append_singleton_iff {texts : List String} {text : String} :
    Apart (texts ++ [text]) ↔ Apart texts ∧ ∀ other ∈ texts, folded other ≠ folded text := by
  simp [Apart, List.nodup_append]

end CommandLine.Text
