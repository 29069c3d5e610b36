import CommandLine.Value.Integer
import Mathlib.Data.List.Basic

/-!
# Reading an integer undoes writing it

The digits of a number that is within a limit are read without leaving the limit on the way, since a
number only grows by its digits.  So every integer of a type is read off its decimal text.
-/

namespace CommandLine.IntegerType

/-! ### Digits -/

theorem digitValue?_of_isDigit {c : Char} (hdigit : c.isDigit = true) :
    Text.digitValue? 10 c = some (c.toNat - '0'.toNat) := by
  have hbounds : 48 ≤ c.toNat ∧ c.toNat ≤ 57 := by
    simpa [Char.isDigit, Char.le_def, UInt32.le_iff_toNat_le] using hdigit
  have hvalue : c.toNat - '0'.toNat < 10 := by
    change c.toNat - 48 < 10
    omega
  simp only [Text.digitValue?, hdigit, if_true, Option.filter_some, hvalue, decide_true]

theorem le_ofDigitChars (cs : List Char) (n : Nat) : n ≤ Nat.ofDigitChars 10 cs n := by
  induction cs generalizing n with
  | nil => exact Nat.le_refl n
  | cons c cs ih =>
      have hgrown := ih (10 * n + (c.toNat - '0'.toNat))
      change n ≤ Nat.ofDigitChars 10 cs (10 * n + (c.toNat - '0'.toNat))
      omega

theorem readDigits_ofDigitChars {limit : Nat} {excess : IntegerError} {n : Nat} {cs : List Char}
    (hdigits : ∀ c ∈ cs, c.isDigit = true) (hlimit : Nat.ofDigitChars 10 cs n ≤ limit) :
    readDigits limit excess n cs = .ok (Nat.ofDigitChars 10 cs n) := by
  induction cs generalizing n with
  | nil => rfl
  | cons c cs ih =>
      rw [List.forall_mem_cons] at hdigits
      have hnext : 10 * n + (c.toNat - '0'.toNat) ≤ limit :=
        Nat.le_trans (le_ofDigitChars cs _) hlimit
      rw [readDigits, digitValue?_of_isDigit hdigits.1]
      dsimp only
      rw [if_neg (Nat.not_lt.mpr hnext)]
      exact ih hdigits.2 hlimit

theorem readMagnitude_toDigits {limit : Nat} {excess : IntegerError} {n : Nat} (hn : n ≤ limit) :
    readMagnitude limit excess (Nat.toDigits 10 n) = .ok n := by
  have hdigits : ∀ c ∈ Nat.toDigits 10 n, c.isDigit = true :=
    fun c hc => Nat.isDigit_of_mem_toDigits (by decide) (by decide) hc
  have hlimit : Nat.ofDigitChars 10 (Nat.toDigits 10 n) 0 ≤ limit := by
    rwa [Nat.ofDigitChars_ten_toDigits]
  rw [readMagnitude, if_neg (by simp [Nat.toDigits_ne_nil]),
    readDigits_ofDigitChars hdigits hlimit, Nat.ofDigitChars_ten_toDigits]

/-! ### Signs -/

theorem read_of_isDigit {t : IntegerType} {c : Char} {cs : List Char} (hdigit : c.isDigit = true) :
    t.read (c :: cs) = (readMagnitude t.maximum .tooLarge (c :: cs)).map Int.ofNat := by
  unfold read
  split
  · contradiction
  · next hcons =>
      obtain ⟨rfl, -⟩ := List.cons.inj hcons
      contradiction
  · next hcons =>
      obtain ⟨rfl, -⟩ := List.cons.inj hcons
      contradiction
  · rfl

theorem read_toDigits {t : IntegerType} {n : Nat} (hn : n ≤ t.maximum) :
    t.read (Nat.toDigits 10 n) = .ok n := by
  have hdigits : ∀ c ∈ Nat.toDigits 10 n, c.isDigit = true :=
    fun c hc => Nat.isDigit_of_mem_toDigits (by decide) (by decide) hc
  have hread : readMagnitude t.maximum .tooLarge (Nat.toDigits 10 n) = .ok n :=
    readMagnitude_toDigits hn
  cases hwritten : Nat.toDigits 10 n with
  | nil => exact absurd hwritten Nat.toDigits_ne_nil
  | cons c cs =>
      rw [hwritten] at hdigits hread
      rw [read_of_isDigit (hdigits c List.mem_cons_self), hread]
      rfl

theorem toList_toString (n : Int) :
    (toString n).toList =
      if 0 ≤ n then Nat.toDigits 10 n.toNat else '-' :: Nat.toDigits 10 (-n).toNat := by
  rw [Int.toString_eq_repr, Int.repr_eq_if]
  split
  · exact Nat.toList_repr
  · rw [String.toList_append, Nat.toList_repr]
    rfl

/-- An integer of the type is read off its decimal text. -/
theorem read_toString {t : IntegerType} {n : Int} (hrange : t.InRange n) :
    t.read (toString n).toList = .ok n := by
  obtain ⟨hlow, hhigh⟩ := hrange
  rw [toList_toString]
  split
  · next hn =>
      rw [read_toDigits (by omega), Int.toNat_of_nonneg hn]
  · next hn =>
      have hsigned : t.signed = true := by
        by_contra hunsigned
        have hsmallest : t.minimumMagnitude = 0 := by simp [minimumMagnitude, hunsigned]
        omega
      rw [read, if_pos hsigned, readMagnitude_toDigits (by omega)]
      change Except.ok (-((-n).toNat : Int)) = Except.ok n
      rw [Int.toNat_of_nonneg (by omega), Int.neg_neg]

theorem toString_ne_empty (n : Int) : toString n ≠ "" := by
  intro hempty
  have hlist := congrArg String.toList hempty
  rw [toList_toString] at hlist
  split at hlist
  · exact Nat.toDigits_ne_nil hlist
  · contradiction

end CommandLine.IntegerType
