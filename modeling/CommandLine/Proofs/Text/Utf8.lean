import CommandLine.Text.Utf8
import Mathlib.Algebra.Group.Nat.Defs
import Mathlib.Data.List.Basic

/-!
# Reading UTF-8 undoes writing it

The bytes of a character are a first byte and the continuation bytes of its code point.  A first
byte announces a set of code points, and the bounds on the byte after it leave out those that have a
shorter form, are surrogates or lie beyond the last one.  So bytes can be read exactly if they are
the bytes of some characters.
-/

namespace CommandLine.Text.Utf8

/-! ### Continuation bytes -/

theorem eq_ofNat_iff {byte : UInt8} {n : Nat} (hn : n < 256) :
    byte = UInt8.ofNat n ↔ byte.toNat = n := by
  rw [← UInt8.toNat_inj, UInt8.toNat_ofNat', Nat.mod_eq_of_lt hn]

/-- The last `count` continuation bytes of a code point. -/
def continuation (n : Nat) : Nat → List UInt8
  | 0 => []
  | count + 1 => UInt8.ofNat (0x80 + n / 64 ^ count % 64) :: continuation n count

@[simp] theorem length_continuation (n count : Nat) : (continuation n count).length = count := by
  induction count with
  | zero => rfl
  | succ count ih => rw [continuation, List.length_cons, ih]

/-- The first of `tails` continuation bytes of a code point lies within bounds. -/
def Within (low high n tails : Nat) : Prop :=
  0 < tails → low ≤ 0x80 + n / 64 ^ (tails - 1) % 64 ∧ 0x80 + n / 64 ^ (tails - 1) % 64 ≤ high

theorem within_all (n tails : Nat) : Within 0x80 0xBF n tails := by
  intro _
  omega

theorem within_succ_iff {low high n tails : Nat} :
    Within low high n (tails + 1) ↔
      low ≤ 0x80 + n / 64 ^ tails % 64 ∧ 0x80 + n / 64 ^ tails % 64 ≤ high := by
  simp [Within]

theorem readTails_eq_ok_iff {tails low high seen bits n : Nat} {bytes : List UInt8}
    (hlow : 0x80 ≤ low) (hhigh : high ≤ 0xBF) :
    readTails tails low high seen bits bytes = .ok n ↔
      n / 64 ^ tails = bits ∧ continuation n tails <+: bytes ∧ Within low high n tails := by
  -- only the first continuation byte has bounds of its own, so they change on the way
  induction tails generalizing low high seen bits bytes with
  | zero => simp [readTails, continuation, Within, eq_comm]
  | succ tails ih =>
      cases bytes with
      | nil => simp [readTails, continuation]
      | cons byte rest =>
          have hbyte : UInt8.ofNat (0x80 + n / 64 ^ tails % 64) = byte ↔
              byte.toNat = 0x80 + n / 64 ^ tails % 64 := by
            rw [eq_comm, eq_ofNat_iff (by omega)]
          have hquotient : n / 64 ^ (tails + 1) = n / 64 ^ tails / 64 := by
            rw [Nat.pow_succ, Nat.div_div_eq_div_mul]
          rw [readTails, continuation, List.cons_prefix_cons, within_succ_iff, hbyte, hquotient]
          by_cases hbounds : low ≤ byte.toNat ∧ byte.toNat ≤ high
          · rw [if_pos (by simpa using hbounds), ih (Nat.le_refl _) (Nat.le_refl _)]
            have hall := within_all n tails
            constructor
            · rintro ⟨hbits, hrest, -⟩
              exact ⟨by omega, ⟨by omega, hrest⟩, by omega⟩
            · rintro ⟨hbits, ⟨hhead, hrest⟩, -⟩
              exact ⟨by omega, hrest, hall⟩
          · rw [if_neg (by simpa using hbounds)]
            constructor
            · intro herror
              contradiction
            · rintro ⟨-, ⟨hhead, -⟩, hwithin⟩
              rw [← hhead] at hwithin
              exact absurd hwithin hbounds

/-! ### First bytes -/

/-- The number of continuation bytes of a code point. -/
def tailCount (n : Nat) : Nat :=
  if n < 0x80 then 0 else if n < 0x800 then 1 else if n < 0x10000 then 2 else 3

def leadByte (n : Nat) : Nat :=
  if n < 0x80 then n
  else if n < 0x800 then 0xC0 + n / 64
  else if n < 0x10000 then 0xE0 + n / 4096
  else 0xF0 + n / 262144

theorem encodeChar_eq (c : Char) :
    encodeChar c = UInt8.ofNat (leadByte c.toNat) :: continuation c.toNat (tailCount c.toNat) := by
  unfold encodeChar leadByte tailCount
  dsimp only
  split
  · rfl
  · split
    · simp [continuation]
    · split <;> simp [continuation]

/-- The code point is announced by the first byte, and the byte after that lies within the bounds
that the first one sets. -/
def Lead.Covers (lead : Lead) (n : Nat) : Prop :=
  n / 64 ^ lead.tails = lead.bits ∧ Within lead.low lead.high n lead.tails

/-- What a first byte announces, for each of the bytes that can be one. -/
inductive Announced : Nat → Lead → Prop
  | one {byte : Nat} : byte < 0x80 → Announced byte ⟨0, byte, 0x80, 0xBF⟩
  | two {byte : Nat} : 0xC2 ≤ byte → byte < 0xE0 → Announced byte ⟨1, byte - 0xC0, 0x80, 0xBF⟩
  | threeFromShortest : Announced 0xE0 ⟨2, 0, 0xA0, 0xBF⟩
  | threeToSurrogates : Announced 0xED ⟨2, 0x0D, 0x80, 0x9F⟩
  | three {byte : Nat} : 0xE1 ≤ byte → byte < 0xF0 → byte ≠ 0xED →
      Announced byte ⟨2, byte - 0xE0, 0x80, 0xBF⟩
  | fourFromShortest : Announced 0xF0 ⟨3, 0, 0x90, 0xBF⟩
  | four {byte : Nat} : 0xF1 ≤ byte → byte < 0xF4 → Announced byte ⟨3, byte - 0xF0, 0x80, 0xBF⟩
  | fourToLast : Announced 0xF4 ⟨3, 4, 0x80, 0x8F⟩

theorem announced_of_lead? {byte : UInt8} {lead : Lead} (hlead : lead? byte = some lead) :
    Announced byte.toNat lead := by
  unfold lead? at hlead
  dsimp only at hlead
  split at hlead
  · next hone => exact Option.some.inj hlead ▸ .one hone
  split at hlead
  · contradiction
  split at hlead
  · next hlow hhigh => exact Option.some.inj hlead ▸ .two (by omega) hhigh
  split at hlead
  · next hbyte =>
      rw [beq_iff_eq.mp hbyte]
      exact Option.some.inj hlead ▸ .threeFromShortest
  split at hlead
  · next hbyte =>
      rw [beq_iff_eq.mp hbyte]
      exact Option.some.inj hlead ▸ .threeToSurrogates
  split at hlead
  · next hlow hfirst hsurrogates hhigh =>
      have hne : byte.toNat ≠ 0xE0 := by simpa using hfirst
      exact Option.some.inj hlead ▸ .three (by omega) hhigh (by simpa using hsurrogates)
  split at hlead
  · next hbyte =>
      rw [beq_iff_eq.mp hbyte]
      exact Option.some.inj hlead ▸ .fourFromShortest
  split at hlead
  · next hlow hfirst hhigh =>
      have hne : byte.toNat ≠ 0xF0 := by simpa using hfirst
      exact Option.some.inj hlead ▸ .four (by omega) hhigh
  split at hlead
  · next hbyte =>
      rw [beq_iff_eq.mp hbyte]
      exact Option.some.inj hlead ▸ .fourToLast
  · contradiction

theorem lead?_of_announced {byte : UInt8} {lead : Lead} (hlead : Announced byte.toNat lead) :
    lead? byte = some lead := by
  unfold lead?
  generalize byte.toNat = b at hlead
  cases hlead with
  | one hone => simp [hone]
  | two hlow hhigh => simp [show ¬ b < 0x80 by omega, show ¬ b < 0xC2 by omega, hhigh]
  | threeFromShortest => rfl
  | threeToSurrogates => rfl
  | three hlow hhigh hsurrogates =>
      simp [show ¬ b < 0x80 by omega, show ¬ b < 0xC2 by omega, show ¬ b < 0xE0 by omega,
        show b ≠ 0xE0 by omega, hsurrogates, hhigh]
  | fourFromShortest => rfl
  | four hlow hhigh =>
      simp [show ¬ b < 0x80 by omega, show ¬ b < 0xC2 by omega, show ¬ b < 0xE0 by omega,
        show b ≠ 0xE0 by omega, show b ≠ 0xED by omega, show ¬ b < 0xF0 by omega,
        show b ≠ 0xF0 by omega, hhigh]
  | fourToLast => rfl

theorem Announced.bounds {byte : Nat} {lead : Lead} (hlead : Announced byte lead) :
    0x80 ≤ lead.low ∧ lead.high ≤ 0xBF := by
  cases hlead <;> simp

/-! ### The four forms -/

theorem form_one {n : Nat} (hn : n < 0x80) : tailCount n = 0 ∧ leadByte n = n := by
  simp [tailCount, leadByte, hn]

theorem form_two {n : Nat} (hlow : 0x80 ≤ n) (hhigh : n < 0x800) :
    tailCount n = 1 ∧ leadByte n = 0xC0 + n / 64 := by
  simp [tailCount, leadByte, Nat.not_lt.mpr hlow, hhigh]

theorem form_three {n : Nat} (hlow : 0x800 ≤ n) (hhigh : n < 0x10000) :
    tailCount n = 2 ∧ leadByte n = 0xE0 + n / 4096 := by
  have hone : ¬ n < 0x80 := by omega
  simp [tailCount, leadByte, hone, Nat.not_lt.mpr hlow, hhigh]

theorem form_four {n : Nat} (hlow : 0x10000 ≤ n) :
    tailCount n = 3 ∧ leadByte n = 0xF0 + n / 262144 := by
  have hone : ¬ n < 0x80 := by omega
  have htwo : ¬ n < 0x800 := by omega
  simp [tailCount, leadByte, hone, htwo, Nat.not_lt.mpr hlow]

theorem covers_one_iff {bits low high n : Nat} : Lead.Covers ⟨0, bits, low, high⟩ n ↔ n = bits := by
  simp [Lead.Covers, Within]

theorem covers_two_iff {bits low high n : Nat} :
    Lead.Covers ⟨1, bits, low, high⟩ n ↔
      n / 64 = bits ∧ low ≤ 0x80 + n % 64 ∧ 0x80 + n % 64 ≤ high := by
  simp [Lead.Covers, Within]

theorem covers_three_iff {bits low high n : Nat} :
    Lead.Covers ⟨2, bits, low, high⟩ n ↔
      n / 4096 = bits ∧ low ≤ 0x80 + n / 64 % 64 ∧ 0x80 + n / 64 % 64 ≤ high := by
  simp [Lead.Covers, Within]

theorem covers_four_iff {bits low high n : Nat} :
    Lead.Covers ⟨3, bits, low, high⟩ n ↔
      n / 262144 = bits ∧ low ≤ 0x80 + n / 4096 % 64 ∧ 0x80 + n / 4096 % 64 ≤ high := by
  simp [Lead.Covers, Within]

theorem isValidChar_iff {n : Nat} :
    n.isValidChar ↔ n < 0xD800 ∨ 0xDFFF < n ∧ n < 0x110000 := Iff.rfl

/-- A code point that a first byte announces is a character, and is written with that byte. -/
theorem Announced.written {byte n : Nat} {lead : Lead} (hlead : Announced byte lead)
    (hcovers : lead.Covers n) :
    n.isValidChar ∧ lead.tails = tailCount n ∧ byte = leadByte n := by
  rw [isValidChar_iff]
  cases hlead with
  | one hone =>
      have hn := covers_one_iff.mp hcovers
      have hform := form_one (n := n) (by omega)
      exact ⟨by omega, hform.1.symm, by omega⟩
  | two hlow hhigh =>
      have hn := covers_two_iff.mp hcovers
      have hform := form_two (n := n) (by omega) (by omega)
      exact ⟨by omega, hform.1.symm, by omega⟩
  | threeFromShortest =>
      have hn := covers_three_iff.mp hcovers
      have hform := form_three (n := n) (by omega) (by omega)
      exact ⟨by omega, hform.1.symm, by omega⟩
  | threeToSurrogates =>
      have hn := covers_three_iff.mp hcovers
      have hform := form_three (n := n) (by omega) (by omega)
      exact ⟨by omega, hform.1.symm, by omega⟩
  | three hlow hhigh hsurrogates =>
      have hn := covers_three_iff.mp hcovers
      have hform := form_three (n := n) (by omega) (by omega)
      exact ⟨by omega, hform.1.symm, by omega⟩
  | fourFromShortest =>
      have hn := covers_four_iff.mp hcovers
      have hform := form_four (n := n) (by omega)
      exact ⟨by omega, hform.1.symm, by omega⟩
  | four hlow hhigh =>
      have hn := covers_four_iff.mp hcovers
      have hform := form_four (n := n) (by omega)
      exact ⟨by omega, hform.1.symm, by omega⟩
  | fourToLast =>
      have hn := covers_four_iff.mp hcovers
      have hform := form_four (n := n) (by omega)
      exact ⟨by omega, hform.1.symm, by omega⟩

/-- The first byte of a character announces it. -/
theorem exists_announced {n : Nat} (hvalid : n.isValidChar) :
    ∃ lead, Announced (leadByte n) lead ∧ lead.Covers n := by
  rw [isValidChar_iff] at hvalid
  by_cases hone : n < 0x80
  · rw [(form_one hone).2]
    exact ⟨_, .one hone, covers_one_iff.mpr rfl⟩
  by_cases htwo : n < 0x800
  · rw [(form_two (by omega) htwo).2]
    exact ⟨_, .two (by omega) (by omega), covers_two_iff.mpr (by omega)⟩
  by_cases hthree : n < 0x10000
  · rw [(form_three (by omega) hthree).2]
    by_cases hshortest : n / 4096 = 0
    · rw [hshortest]
      exact ⟨_, .threeFromShortest, covers_three_iff.mpr (by omega)⟩
    by_cases hsurrogates : n / 4096 = 13
    · rw [hsurrogates]
      exact ⟨_, .threeToSurrogates, covers_three_iff.mpr (by omega)⟩
    · exact ⟨_, .three (by omega) (by omega) (by omega), covers_three_iff.mpr (by omega)⟩
  · rw [(form_four (by omega)).2]
    by_cases hshortest : n / 262144 = 0
    · rw [hshortest]
      exact ⟨_, .fourFromShortest, covers_four_iff.mpr (by omega)⟩
    by_cases hlast : n / 262144 = 4
    · rw [hlast]
      exact ⟨_, .fourToLast, covers_four_iff.mpr (by omega)⟩
    · exact ⟨_, .four (by omega) (by omega), covers_four_iff.mpr (by omega)⟩

theorem leadByte_lt {n : Nat} (hvalid : n.isValidChar) : leadByte n < 256 := by
  obtain ⟨lead, hlead, -⟩ := exists_announced hvalid
  generalize leadByte n = byte at hlead ⊢
  cases hlead <;> omega

/-! ### One character -/

theorem encodeChar_prefix_iff {c : Char} {first : UInt8} {rest : List UInt8} :
    encodeChar c <+: first :: rest ↔
      first.toNat = leadByte c.toNat ∧ continuation c.toNat (tailCount c.toNat) <+: rest := by
  have hlead : leadByte c.toNat < 256 := leadByte_lt c.valid
  rw [encodeChar_eq, List.cons_prefix_cons, eq_comm (b := first), eq_ofNat_iff hlead]

theorem readChar_eq_ok_iff {first : UInt8} {rest : List UInt8} {c : Char} {tails : Nat} :
    readChar first rest = .ok (c, tails) ↔
      encodeChar c <+: first :: rest ∧ tails = tailCount c.toNat := by
  rw [encodeChar_prefix_iff]
  constructor
  · intro hread
    unfold readChar at hread
    cases hlead : lead? first with
    | none => simp [hlead] at hread
    | some lead =>
        have hannounced := announced_of_lead? hlead
        cases htails : readTails lead.tails lead.low lead.high 1 lead.bits rest with
        | error fault => simp [hlead, htails] at hread
        | ok n =>
            have hresult : Char.ofNat n = c ∧ lead.tails = tails := by
              simpa [hlead, htails] using hread
            obtain ⟨hbits, hrest, hwithin⟩ :=
              (readTails_eq_ok_iff hannounced.bounds.1 hannounced.bounds.2).mp htails
            obtain ⟨hvalid, hcount, hbyte⟩ := hannounced.written ⟨hbits, hwithin⟩
            have hc : c.toNat = n := by
              rw [← hresult.1, Char.ofNat, dif_pos hvalid]
              rfl
            rw [hc]
            exact ⟨⟨hbyte, hcount ▸ hrest⟩, hresult.2 ▸ hcount⟩
  · rintro ⟨⟨hbyte, hrest⟩, rfl⟩
    obtain ⟨lead, hannounced, hcovers⟩ := exists_announced (n := c.toNat) c.valid
    have hcount : lead.tails = tailCount c.toNat := (hannounced.written hcovers).2.1
    have hlead : lead? first = some lead := lead?_of_announced (hbyte ▸ hannounced)
    have htails : readTails lead.tails lead.low lead.high 1 lead.bits rest = .ok c.toNat :=
      (readTails_eq_ok_iff hannounced.bounds.1 hannounced.bounds.2).mpr
        ⟨hcovers.1, hcount ▸ hrest, hcovers.2⟩
    rw [← hcount]
    simp only [readChar, hlead, htails, Char.ofNat_toNat]

/-! ### All characters -/

theorem encode_cons (c : Char) (cs : List Char) :
    encode (c :: cs) = encodeChar c ++ encode cs := by
  rw [encode, List.flatMap_cons, encode]

theorem drop_of_encodeChar_append {first : UInt8} {rest later : List UInt8} {c : Char}
    (hbytes : encodeChar c ++ later = first :: rest) :
    rest.drop (tailCount c.toNat) = later := by
  rw [encodeChar_eq, List.cons_append] at hbytes
  rw [← (List.cons.inj hbytes).2]
  exact List.drop_left' (length_continuation _ _)

/-- The first character of some bytes is read off them, and the others make up the rest. -/
theorem cons_eq_encode_iff {first : UInt8} {rest : List UInt8} {cs : List Char} :
    first :: rest = encode cs ↔
      ∃ c later, cs = c :: later ∧ readChar first rest = .ok (c, tailCount c.toNat) ∧
        rest.drop (tailCount c.toNat) = encode later := by
  constructor
  · intro hbytes
    cases cs with
    | nil => simp [encode] at hbytes
    | cons c later =>
        rw [encode_cons] at hbytes
        have hread : encodeChar c <+: first :: rest := ⟨encode later, hbytes.symm⟩
        exact ⟨c, later, rfl, readChar_eq_ok_iff.mpr ⟨hread, rfl⟩,
          drop_of_encodeChar_append hbytes.symm⟩
  · rintro ⟨c, later, rfl, hread, hdrop⟩
    obtain ⟨others, hbytes⟩ := (readChar_eq_ok_iff.mp hread).1
    have hothers : encode later = others := by
      rw [← hdrop, drop_of_encodeChar_append hbytes]
    rw [encode_cons, hothers, hbytes]

/-- Bytes can be read exactly if they are the bytes of the characters that are read. -/
theorem decodeFrom_eq_ok_iff {index : Nat} {bytes : List UInt8} {cs : List Char} :
    decodeFrom index bytes = .ok cs ↔ bytes = encode cs := by
  fun_induction decodeFrom index bytes generalizing cs with
  | case1 index =>
      cases cs with
      | nil => simp [encode]
      | cons c cs => simp [encode_cons, encodeChar_eq]
  | case2 index first rest fault hread =>
      rw [cons_eq_encode_iff, hread]
      simp
  | case3 index first rest c tails hread decoded hrest ih =>
      have htails : tails = tailCount c.toNat := (readChar_eq_ok_iff.mp hread).2
      subst tails
      rw [cons_eq_encode_iff, hread]
      constructor
      · intro hcs
        obtain rfl := Except.ok.inj hcs
        exact ⟨c, decoded, rfl, rfl, ih.mp hrest⟩
      · rintro ⟨first, later, rfl, hfirst, hdrop⟩
        obtain ⟨rfl, -⟩ := Prod.mk.inj (Except.ok.inj hfirst)
        rw [Except.ok.inj (hrest.symm.trans (ih.mpr hdrop))]
  | case4 index first rest c tails hread fault hrest ih =>
      have htails : tails = tailCount c.toNat := (readChar_eq_ok_iff.mp hread).2
      subst tails
      rw [cons_eq_encode_iff, hread]
      constructor
      · intro hcs
        contradiction
      · rintro ⟨first, later, rfl, hfirst, hdrop⟩
        obtain ⟨rfl, -⟩ := Prod.mk.inj (Except.ok.inj hfirst)
        have hcontra := hrest.symm.trans (ih.mpr hdrop)
        contradiction

/-- The bytes of a character are the ones that the standard library writes. -/
theorem encodeChar_eq_utf8EncodeChar (c : Char) : encodeChar c = String.utf8EncodeChar c := by
  have hvalid : c.toNat < 0xD800 ∨ 0xDFFF < c.toNat ∧ c.toNat < 0x110000 := c.valid
  have htwo : c.toNat ≤ 0x7FF → c.toNat / 64 % 32 + 192 = 0xC0 + c.toNat / 64 := by omega
  have hthree : c.toNat ≤ 0xFFFF → c.toNat / 4096 % 16 + 224 = 0xE0 + c.toNat / 4096 := by omega
  have hfour : c.toNat / 262144 % 8 + 240 = 0xF0 + c.toNat / 262144 := by omega
  unfold encodeChar String.utf8EncodeChar
  simp only [Char.toNat_val, Nat.div_one, Nat.add_comm 0x80, Nat.lt_succ_iff]
  split
  · rfl
  split
  · next hle => rw [htwo hle]
  split
  · next hle => rw [hthree hle]
  · rw [hfour]

theorem decode_eq_ok_iff {bytes : List UInt8} {cs : List Char} :
    decode bytes = .ok cs ↔ bytes = encode cs :=
  decodeFrom_eq_ok_iff

end CommandLine.Text.Utf8
