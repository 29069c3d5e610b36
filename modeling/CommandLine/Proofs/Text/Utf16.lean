import CommandLine.Text.Utf16
import Mathlib.Data.List.Basic

/-!
# Reading UTF-16 undoes writing it

A unit is read off the two bytes it is written as.  A character is one unit that is no surrogate, or
a high surrogate and a low one, and two characters never begin with the same units.  So bytes can be
read exactly if they are the bytes of some characters.
-/

namespace CommandLine.Text.Utf16

/-! ### Units and their bytes -/

def unitOf (order : ByteOrder) (a b : UInt8) : Nat :=
  match order with
  | .little => a.toNat + 256 * b.toNat
  | .big => 256 * a.toNat + b.toNat

theorem units?_cons_cons (order : ByteOrder) (a b : UInt8) (rest : List UInt8) :
    units? order (a :: b :: rest) = (units? order rest).map (unitOf order a b :: ·) := rfl

theorem unitOf_lt (order : ByteOrder) (a b : UInt8) : unitOf order a b < 65536 := by
  have ha : a.toNat < 256 := a.toNat_lt
  have hb : b.toNat < 256 := b.toNat_lt
  cases order <;> simp only [unitOf] <;> omega

theorem unitBytes_eq_iff {order : ByteOrder} {a b : UInt8} {unit : Nat} (hunit : unit < 65536) :
    unitBytes order unit = [a, b] ↔ unitOf order a b = unit := by
  have ha : a.toNat < 256 := a.toNat_lt
  have hb : b.toNat < 256 := b.toNat_lt
  cases order <;>
    simp only [unitBytes, unitOf, List.cons.injEq, and_true, ← UInt8.toNat_inj,
      UInt8.toNat_ofNat'] <;> omega

theorem length_unitBytes (order : ByteOrder) (unit : Nat) : (unitBytes order unit).length = 2 := by
  cases order <;> rfl

theorem cons_cons_eq_unitBytes_append_iff {order : ByteOrder} {a b : UInt8} {unit : Nat}
    {rest later : List UInt8} (hunit : unit < 65536) :
    a :: b :: rest = unitBytes order unit ++ later ↔ unitOf order a b = unit ∧ rest = later := by
  rw [← unitBytes_eq_iff hunit]
  constructor
  · intro hbytes
    have hpair : [a, b] ++ rest = unitBytes order unit ++ later := hbytes
    have hparts := List.append_inj hpair (length_unitBytes order unit).symm
    exact ⟨hparts.1.symm, hparts.2⟩
  · rintro ⟨hunit, rfl⟩
    rw [hunit]
    rfl

theorem nil_eq_flatMap_unitBytes_iff {order : ByteOrder} {units : List Nat} :
    [] = units.flatMap (unitBytes order) ↔ units = [] := by
  cases units with
  | nil => simp
  | cons unit units =>
      have hlength := length_unitBytes order unit
      cases hbytes : unitBytes order unit with
      | nil => simp [hbytes] at hlength
      | cons a bytes => simp [hbytes]

theorem singleton_ne_flatMap_unitBytes (order : ByteOrder) (byte : UInt8) (units : List Nat) :
    [byte] ≠ units.flatMap (unitBytes order) := by
  intro hbyte
  have hlength := congrArg List.length hbyte
  cases units with
  | nil => simp at hlength
  | cons unit units =>
      simp only [List.flatMap_cons, List.length_append, length_unitBytes,
        List.length_singleton] at hlength
      omega

/-- The bytes of units of sixteen bits are read as these units, and no others are read. -/
theorem units?_eq_some_iff {order : ByteOrder} {bytes : List UInt8} {units : List Nat} :
    units? order bytes = some units ↔
      (∀ unit ∈ units, unit < 65536) ∧ bytes = units.flatMap (unitBytes order) := by
  induction bytes using units?.induct order generalizing units with
  | case1 =>
      rw [nil_eq_flatMap_unitBytes_iff, units?, Option.some.injEq, eq_comm]
      exact ⟨fun hnil => ⟨by simp [hnil], hnil⟩, fun hunits => hunits.2⟩
  | case2 byte => simp [units?, singleton_ne_flatMap_unitBytes]
  | case3 a b rest ih =>
      rw [units?_cons_cons, Option.map_eq_some_iff]
      constructor
      · rintro ⟨later, hrest, rfl⟩
        have hlater := ih.mp hrest
        have hunit := unitOf_lt order a b
        refine ⟨by simpa [hunit] using hlater.1, ?_⟩
        rw [List.flatMap_cons]
        exact (cons_cons_eq_unitBytes_append_iff hunit).mpr ⟨rfl, hlater.2⟩
      · rintro ⟨hunits, hbytes⟩
        cases units with
        | nil => simp at hbytes
        | cons unit later =>
            rw [List.forall_mem_cons] at hunits
            rw [List.flatMap_cons, cons_cons_eq_unitBytes_append_iff hunits.1] at hbytes
            exact ⟨later, ih.mpr ⟨hunits.2, hbytes.2⟩, by rw [hbytes.1]⟩

/-! ### Characters and their units -/

theorem isHighSurrogate_iff {unit : Nat} :
    isHighSurrogate unit ↔ 0xD800 ≤ unit ∧ unit < 0xDC00 := by
  simp [isHighSurrogate]

theorem isLowSurrogate_iff {unit : Nat} :
    isLowSurrogate unit ↔ 0xDC00 ≤ unit ∧ unit < 0xE000 := by
  simp [isLowSurrogate]

theorem eq_ofNat_iff {c : Char} {n : Nat} (hn : n.isValidChar) :
    c = Char.ofNat n ↔ c.toNat = n := by
  rw [Char.ofNat, dif_pos hn]
  constructor
  · rintro rfl
    rfl
  · intro hc
    exact Char.toNat_inj.mp hc

theorem encodeChar_of_lt {c : Char} (hsmall : c.toNat < 0x10000) : encodeChar c = [c.toNat] := by
  simp [encodeChar, hsmall]

theorem encodeChar_of_le {c : Char} (hlarge : 0x10000 ≤ c.toNat) :
    encodeChar c = [0xD800 + (c.toNat - 0x10000) / 1024, 0xDC00 + (c.toNat - 0x10000) % 1024] := by
  simp [encodeChar, Nat.not_lt.mpr hlarge]

theorem encodeChar_eq_singleton_iff {c : Char} {unit : Nat} :
    encodeChar c = [unit] ↔
      ¬ isHighSurrogate unit ∧ ¬ isLowSurrogate unit ∧ unit < 65536 ∧ c = Char.ofNat unit := by
  have hvalid : c.toNat < 0xD800 ∨ 0xDFFF < c.toNat ∧ c.toNat < 0x110000 := c.valid
  rw [isHighSurrogate_iff, isLowSurrogate_iff]
  constructor
  · intro hencode
    by_cases hsmall : c.toNat < 0x10000
    · rw [encodeChar_of_lt hsmall, List.cons.injEq] at hencode
      have hc : c = Char.ofNat unit := by rw [← hencode.1, Char.ofNat_toNat]
      exact ⟨by omega, by omega, by omega, hc⟩
    · simp [encodeChar_of_le (Nat.le_of_not_lt hsmall)] at hencode
  · rintro ⟨hhigh, hlow, hunit, hc⟩
    rw [eq_ofNat_iff (by rw [Nat.isValidChar]; omega)] at hc
    rw [encodeChar_of_lt (by omega), hc]

theorem encodeChar_eq_pair_iff {c : Char} {high low : Nat} :
    encodeChar c = [high, low] ↔
      isHighSurrogate high ∧ isLowSurrogate low ∧
        c = Char.ofNat (0x10000 + 1024 * (high - 0xD800) + (low - 0xDC00)) := by
  have hvalid : c.toNat < 0xD800 ∨ 0xDFFF < c.toNat ∧ c.toNat < 0x110000 := c.valid
  rw [isHighSurrogate_iff, isLowSurrogate_iff]
  constructor
  · intro hencode
    by_cases hsmall : c.toNat < 0x10000
    · simp [encodeChar_of_lt hsmall] at hencode
    · simp only [encodeChar_of_le (Nat.le_of_not_lt hsmall), List.cons.injEq, and_true] at hencode
      have hc : c.toNat = 0x10000 + 1024 * (high - 0xD800) + (low - 0xDC00) := by omega
      exact ⟨by omega, by omega, by rw [← hc, Char.ofNat_toNat]⟩
  · rintro ⟨hhigh, hlow, hc⟩
    rw [eq_ofNat_iff (by rw [Nat.isValidChar]; omega)] at hc
    rw [encodeChar_of_le (by omega), List.cons.injEq, List.cons.injEq]
    exact ⟨by omega, by omega, rfl⟩

theorem encodeChar_cases (c : Char) :
    (∃ unit, encodeChar c = [unit]) ∨ ∃ high low, encodeChar c = [high, low] := by
  by_cases hsmall : c.toNat < 0x10000
  · exact .inl ⟨_, encodeChar_of_lt hsmall⟩
  · exact .inr ⟨_, _, encodeChar_of_le (Nat.le_of_not_lt hsmall)⟩

theorem lt_of_mem_encodeChar {c : Char} {unit : Nat} (hunit : unit ∈ encodeChar c) :
    unit < 65536 := by
  have hvalid : c.toNat < 0xD800 ∨ 0xDFFF < c.toNat ∧ c.toNat < 0x110000 := c.valid
  by_cases hsmall : c.toNat < 0x10000
  · rw [encodeChar_of_lt hsmall, List.mem_singleton] at hunit
    omega
  · simp only [encodeChar_of_le (Nat.le_of_not_lt hsmall), List.mem_cons, List.not_mem_nil,
      or_false] at hunit
    omega

/-! ### All characters -/

theorem nil_eq_flatMap_iff {cs : List Char} : [] = cs.flatMap encodeChar ↔ cs = [] := by
  cases cs with
  | nil => simp
  | cons c cs =>
      obtain ⟨unit, hencode⟩ | ⟨high, low, hencode⟩ := encodeChar_cases c <;> simp [hencode]

/-- The first of some units is a character by itself, or the first one of a pair. -/
theorem cons_eq_flatMap_iff {unit : Nat} {rest : List Nat} {cs : List Char} :
    unit :: rest = cs.flatMap encodeChar ↔
      ∃ c later, cs = c :: later ∧
        (encodeChar c = [unit] ∧ rest = later.flatMap encodeChar ∨
          ∃ low, encodeChar c = [unit, low] ∧ rest = low :: later.flatMap encodeChar) := by
  constructor
  · intro hunits
    cases cs with
    | nil => simp at hunits
    | cons c later =>
        refine ⟨c, later, rfl, ?_⟩
        rw [List.flatMap_cons] at hunits
        obtain ⟨first, hfirst⟩ | ⟨high, low, hpair⟩ := encodeChar_cases c
        · rw [hfirst, List.singleton_append, List.cons.injEq] at hunits
          exact .inl ⟨by rw [hfirst, hunits.1], hunits.2⟩
        · rw [hpair, List.cons_append, List.cons.injEq, List.singleton_append] at hunits
          exact .inr ⟨low, by rw [hpair, hunits.1], hunits.2⟩
  · rintro ⟨c, later, rfl, ⟨hencode, rfl⟩ | ⟨low, hencode, rfl⟩⟩ <;>
      rw [List.flatMap_cons, hencode] <;> rfl

theorem scalar_cons_eq_flatMap_iff {unit : Nat} {rest : List Nat} {cs : List Char}
    (hhigh : ¬ isHighSurrogate unit) (hlow : ¬ isLowSurrogate unit) (hunit : unit < 65536) :
    unit :: rest = cs.flatMap encodeChar ↔
      ∃ later, rest = later.flatMap encodeChar ∧ Char.ofNat unit :: later = cs := by
  rw [cons_eq_flatMap_iff]
  constructor
  · rintro ⟨c, later, rfl, ⟨hencode, hrest⟩ | ⟨low, hencode, -⟩⟩
    · have hc := (encodeChar_eq_singleton_iff.mp hencode).2.2.2
      exact ⟨later, hrest, by rw [hc]⟩
    · exact absurd (encodeChar_eq_pair_iff.mp hencode).1 hhigh
  · rintro ⟨later, hrest, rfl⟩
    have hencode := encodeChar_eq_singleton_iff.mpr ⟨hhigh, hlow, hunit, rfl⟩
    exact ⟨_, later, rfl, .inl ⟨hencode, hrest⟩⟩

theorem high_cons_eq_flatMap_iff {high : Nat} {rest : List Nat} {cs : List Char}
    (hhigh : isHighSurrogate high) :
    high :: rest = cs.flatMap encodeChar ↔
      ∃ low later, rest = low :: later.flatMap encodeChar ∧ isLowSurrogate low ∧
        Char.ofNat (0x10000 + 1024 * (high - 0xD800) + (low - 0xDC00)) :: later = cs := by
  rw [cons_eq_flatMap_iff]
  constructor
  · rintro ⟨c, later, rfl, ⟨hencode, -⟩ | ⟨low, hencode, hrest⟩⟩
    · exact absurd hhigh (encodeChar_eq_singleton_iff.mp hencode).1
    · obtain ⟨-, hlow, hc⟩ := encodeChar_eq_pair_iff.mp hencode
      exact ⟨low, later, hrest, hlow, by rw [hc]⟩
  · rintro ⟨low, later, hrest, hlow, rfl⟩
    have hencode := encodeChar_eq_pair_iff.mpr ⟨hhigh, hlow, rfl⟩
    exact ⟨_, later, rfl, .inr ⟨low, hencode, hrest⟩⟩

theorem low_cons_ne_flatMap {low : Nat} {rest : List Nat} {cs : List Char}
    (hlow : isLowSurrogate low) : low :: rest ≠ cs.flatMap encodeChar := by
  rw [Ne, cons_eq_flatMap_iff]
  rintro ⟨c, later, rfl, ⟨hencode, -⟩ | ⟨second, hencode, -⟩⟩
  · exact (encodeChar_eq_singleton_iff.mp hencode).2.1 hlow
  · have hhigh := (encodeChar_eq_pair_iff.mp hencode).1
    rw [isLowSurrogate_iff] at hlow
    rw [isHighSurrogate_iff] at hhigh
    omega

theorem map_cons_eq_ok_iff {result : Except Error (List Char)} {c : Char} {cs : List Char} :
    result.map (c :: ·) = .ok cs ↔ ∃ later, result = .ok later ∧ c :: later = cs := by
  cases result <;> simp [Except.map]

theorem decodeUnits_eq_ok_iff {units : List Nat} {cs : List Char}
    (hunits : ∀ unit ∈ units, unit < 65536) :
    decodeUnits units = .ok cs ↔ units = cs.flatMap encodeChar := by
  induction units using decodeUnits.induct generalizing cs with
  | case1 => rw [decodeUnits, nil_eq_flatMap_iff, Except.ok.injEq, eq_comm]
  | case2 high low rest hhigh hlow ih =>
      have hrest : ∀ unit ∈ rest, unit < 65536 := fun unit hunit => hunits unit (by simp [hunit])
      rw [decodeUnits, if_pos hhigh, if_pos hlow, map_cons_eq_ok_iff,
        high_cons_eq_flatMap_iff hhigh]
      constructor
      · rintro ⟨later, hdecode, hcs⟩
        exact ⟨low, later, by rw [(ih hrest).mp hdecode], hlow, hcs⟩
      · rintro ⟨second, later, hunits, -, hcs⟩
        obtain ⟨rfl, hlater⟩ := List.cons.inj hunits
        exact ⟨later, (ih hrest).mpr hlater, hcs⟩
  | case3 high low rest hhigh hlow =>
      rw [decodeUnits, if_pos hhigh, if_neg hlow, high_cons_eq_flatMap_iff hhigh]
      simp only [reduceCtorEq, List.cons.injEq, false_iff]
      rintro ⟨second, later, ⟨rfl, -⟩, hsecond, -⟩
      exact hlow hsecond
  | case4 low second rest hhigh hlow =>
      rw [decodeUnits, if_neg hhigh, if_pos hlow]
      simp [low_cons_ne_flatMap hlow]
  | case5 unit second rest hhigh hlow ih =>
      rw [List.forall_mem_cons] at hunits
      rw [decodeUnits, if_neg hhigh, if_neg hlow, map_cons_eq_ok_iff,
        scalar_cons_eq_flatMap_iff hhigh hlow hunits.1]
      simp only [ih hunits.2]
  | case6 unit hsurrogate =>
      rw [decodeUnits, if_pos hsurrogate]
      rw [Bool.or_eq_true] at hsurrogate
      cases hsurrogate with
      | inl hhigh => simp [high_cons_eq_flatMap_iff hhigh]
      | inr hlow => simp [low_cons_ne_flatMap hlow]
  | case7 unit hscalar =>
      rw [decodeUnits, if_neg hscalar]
      rw [Bool.or_eq_true, not_or] at hscalar
      rw [scalar_cons_eq_flatMap_iff hscalar.1 hscalar.2 (hunits unit (by simp))]
      simp only [nil_eq_flatMap_iff, exists_eq_left, Except.ok.injEq]

theorem decode_eq_ok_iff {order : ByteOrder} {bytes : List UInt8} {cs : List Char} :
    decode order bytes = .ok cs ↔ bytes = encode order cs := by
  unfold decode
  constructor
  · intro hdecode
    cases hread : units? order bytes with
    | none => simp [hread] at hdecode
    | some units =>
        obtain ⟨hunits, rfl⟩ := units?_eq_some_iff.mp hread
        rw [hread] at hdecode
        rw [(decodeUnits_eq_ok_iff hunits).mp hdecode, encode]
  · rintro rfl
    have hunits : ∀ unit ∈ cs.flatMap encodeChar, unit < 65536 := by
      intro unit hunit
      obtain ⟨c, -, hc⟩ := List.mem_flatMap.mp hunit
      exact lt_of_mem_encodeChar hc
    rw [encode, units?_eq_some_iff.mpr ⟨hunits, rfl⟩]
    exact (decodeUnits_eq_ok_iff hunits).mpr rfl

end CommandLine.Text.Utf16
