import CommandLine.Proofs.Text.Utf8

/-!
# Where the bytes of a text may be cut

A text may be cut only where a character begins, or at its end.  The bytes alone tell where that is,
since a first byte is never a continuation byte.  Nor is a byte below 80 ever part of a longer
character, so that looking for one among the bytes finds the character that it stands for.
-/

namespace CommandLine.Text.Utf8

/-- A byte that is not the first one of a character. -/
def isContinuation (byte : UInt8) : Bool :=
  0x80 ≤ byte.toNat && byte.toNat < 0xC0

/-- Whether an offset lies at the end or at a byte with which a character begins. -/
def isBoundary (bytes : List UInt8) (offset : Nat) : Bool :=
  match bytes[offset]? with
  | some byte => !isContinuation byte
  | none => offset == bytes.length

/-- The parts before and behind an offset, if that is a boundary. -/
def cut? (bytes : List UInt8) (offset : Nat) : Option (List UInt8 × List UInt8) :=
  if isBoundary bytes offset then some (bytes.take offset, bytes.drop offset) else none

/-! ### The bytes of one character -/

theorem isContinuation_of_mem {n count : Nat} {byte : UInt8} (hbyte : byte ∈ continuation n count) :
    isContinuation byte = true := by
  induction count with
  | zero => contradiction
  | succ count ih =>
      rw [continuation, List.mem_cons] at hbyte
      rcases hbyte with hfirst | hlater
      · have hvalue : byte.toNat = 0x80 + n / 64 ^ count % 64 :=
          (eq_ofNat_iff (by omega)).mp hfirst
        unfold isContinuation
        simp only [hvalue, Bool.and_eq_true, decide_eq_true_eq]
        omega
      · exact ih hlater

theorem leadByte_bounds (n : Nat) :
    (n < 0x80 ∧ leadByte n = n) ∨ (0x80 ≤ n ∧ 0xC0 ≤ leadByte n) := by
  unfold leadByte
  split
  · omega
  · split
    · omega
    · split <;> omega

theorem toNat_leadByte (c : Char) : (UInt8.ofNat (leadByte c.toNat)).toNat = leadByte c.toNat :=
  (eq_ofNat_iff (leadByte_lt c.valid)).mp rfl

theorem isContinuation_leadByte (c : Char) :
    isContinuation (UInt8.ofNat (leadByte c.toNat)) = false := by
  have hbounds := leadByte_bounds c.toNat
  unfold isContinuation
  rw [toNat_leadByte]
  simp only [Bool.and_eq_false_iff, decide_eq_false_iff_not]
  omega

theorem encodeChar_of_ascii {c : Char} (hc : c.toNat < 0x80) :
    encodeChar c = [UInt8.ofNat c.toNat] := by
  simp [encodeChar, hc]

/-- A character beyond ASCII has no byte in common with one within. -/
theorem le_toNat_of_mem_encodeChar {c : Char} {byte : UInt8} (hc : 0x80 ≤ c.toNat)
    (hbyte : byte ∈ encodeChar c) : 0x80 ≤ byte.toNat := by
  rw [encodeChar_eq, List.mem_cons] at hbyte
  rcases hbyte with rfl | htail
  · have hbounds := leadByte_bounds c.toNat
    rw [toNat_leadByte]
    omega
  · have hcontinuation := isContinuation_of_mem htail
    simp only [isContinuation, Bool.and_eq_true, decide_eq_true_eq] at hcontinuation
    exact hcontinuation.1

/-! ### Boundaries -/

theorem encode_append (before after : List Char) :
    encode (before ++ after) = encode before ++ encode after :=
  List.flatMap_append

theorem isBoundary_zero (cs : List Char) : isBoundary (encode cs) 0 = true := by
  cases cs with
  | nil => rfl
  | cons c cs =>
      have hlead := isContinuation_leadByte c
      simp [isBoundary, encode_cons, encodeChar_eq, hlead]

theorem isBoundary_append_right (first second : List UInt8) (offset : Nat) :
    isBoundary (first ++ second) (first.length + offset) = isBoundary second offset := by
  unfold isBoundary
  rw [List.getElem?_append_right (by omega), Nat.add_sub_cancel_left, List.length_append]
  cases second[offset]? with
  | some byte => rfl
  | none => simp

theorem isBoundary_inside {c : Char} {rest : List UInt8} {offset : Nat} (hpositive : 0 < offset)
    (hlt : offset < (encodeChar c).length) : isBoundary (encodeChar c ++ rest) offset = false := by
  obtain ⟨before, rfl⟩ : ∃ before, offset = before + 1 := ⟨offset - 1, by omega⟩
  unfold isBoundary
  rw [List.getElem?_append_left hlt]
  rw [encodeChar_eq, List.length_cons] at hlt
  have hbyte : (continuation c.toNat (tailCount c.toNat))[before]? =
      some (continuation c.toNat (tailCount c.toNat))[before] :=
    List.getElem?_eq_getElem (by omega)
  have hcontinuation := isContinuation_of_mem (List.mem_of_getElem? hbyte)
  rw [encodeChar_eq, List.getElem?_cons_succ, hbyte]
  simp [hcontinuation]

/-- The boundaries of a text are where its characters begin and its end. -/
theorem isBoundary_encode_iff {cs : List Char} {offset : Nat} :
    isBoundary (encode cs) offset = true ↔
      ∃ before after, cs = before ++ after ∧ offset = (encode before).length := by
  constructor
  · intro hboundary
    induction cs generalizing offset with
    | nil =>
        have hend : offset = 0 := by simpa [isBoundary, encode] using hboundary
        exact ⟨[], [], rfl, hend⟩
    | cons c cs ih =>
        rw [encode_cons] at hboundary
        by_cases hzero : offset = 0
        · exact ⟨[], c :: cs, rfl, hzero⟩
        · by_cases hlt : offset < (encodeChar c).length
          · rw [isBoundary_inside (by omega) hlt] at hboundary
            contradiction
          · obtain ⟨later, rfl⟩ : ∃ later, offset = (encodeChar c).length + later :=
              ⟨offset - (encodeChar c).length, by omega⟩
            rw [isBoundary_append_right] at hboundary
            obtain ⟨before, after, rfl, rfl⟩ := ih hboundary
            exact ⟨c :: before, after, rfl, by rw [encode_cons, List.length_append]⟩
  · rintro ⟨before, after, rfl, rfl⟩
    have hend := isBoundary_append_right (encode before) (encode after) 0
    rwa [isBoundary_zero, Nat.add_zero, ← encode_append] at hend

theorem cut?_encode_append (before after : List Char) :
    cut? (encode (before ++ after)) (encode before).length =
      some (encode before, encode after) := by
  have hboundary : isBoundary (encode (before ++ after)) (encode before).length = true :=
    isBoundary_encode_iff.mpr ⟨before, after, rfl, rfl⟩
  unfold cut?
  rw [if_pos hboundary, encode_append, List.take_left, List.drop_left]

end CommandLine.Text.Utf8
