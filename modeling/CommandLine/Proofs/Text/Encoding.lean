import CommandLine.Text.Encoding
import CommandLine.Proofs.Text.Utf8
import CommandLine.Proofs.Text.Utf16

/-!
# Reading a file undoes encoding it

A byte order mark is a mark of one encoding only, so every file has one encoding in effect and one
payload, and it can be read exactly if the payload is the encoding of some characters.
-/

namespace CommandLine.Text.Encoding

/-! ### Byte order marks -/

/-- The byte order mark of an encoding. -/
def mark : Encoding → List UInt8
  | .utf8 => [0xEF, 0xBB, 0xBF]
  | .utf16 .little => [0xFF, 0xFE]
  | .utf16 .big => [0xFE, 0xFF]

theorem mark_eq_encode (e : Encoding) : e.mark = e.encode ['\uFEFF'] := by
  cases e with
  | utf8 => rfl
  | utf16 order => cases order <;> rfl

/-- The bytes are a payload in an encoding: that of the mark before the payload, or the configured
one when there is no mark. -/
inductive Effective (configured : Encoding) (bytes : List UInt8) : Encoding → List UInt8 → Prop
  | marked (e : Encoding) (payload : List UInt8) :
      bytes = e.mark ++ payload → Effective configured bytes e payload
  | unmarked : (∀ e : Encoding, ¬ e.mark <+: bytes) → Effective configured bytes configured bytes

theorem detect_mark_append (configured e : Encoding) (payload : List UInt8) :
    configured.detect (e.mark ++ payload) = (e, payload) := by
  cases e with
  | utf8 => rfl
  | utf16 order => cases order <;> rfl

theorem detect_of_no_mark {configured : Encoding} {bytes : List UInt8}
    (hmark : ∀ e : Encoding, ¬ e.mark <+: bytes) :
    configured.detect bytes = (configured, bytes) := by
  unfold detect
  split
  · next rest => exact absurd ⟨rest, rfl⟩ (hmark .utf8)
  · next rest => exact absurd ⟨rest, rfl⟩ (hmark (.utf16 .little))
  · next rest => exact absurd ⟨rest, rfl⟩ (hmark (.utf16 .big))
  · rfl

/-- Every file has one encoding in effect and one payload. -/
theorem effective_iff {configured e : Encoding} {bytes payload : List UInt8} :
    Effective configured bytes e payload ↔ (e, payload) = configured.detect bytes := by
  constructor
  · intro heffective
    cases heffective with
    | marked e payload hbytes => rw [hbytes, detect_mark_append]
    | unmarked hmark => rw [detect_of_no_mark hmark]
  · intro hdetect
    by_cases hmark : ∃ e : Encoding, e.mark <+: bytes
    · obtain ⟨e', payload', rfl⟩ := hmark
      rw [detect_mark_append, Prod.mk.injEq] at hdetect
      rw [hdetect.1, hdetect.2]
      exact .marked e' payload' rfl
    · rw [not_exists] at hmark
      rw [detect_of_no_mark hmark, Prod.mk.injEq] at hdetect
      rw [hdetect.1, hdetect.2]
      exact .unmarked hmark

/-! ### Payloads -/

theorem mapError_eq_ok_iff {ε ε' α : Type} {f : ε → ε'} {result : Except ε α} {a : α} :
    result.mapError f = .ok a ↔ result = .ok a := by
  cases result <;> simp [Except.mapError]

theorem decodePayload_eq_ok_iff {e : Encoding} {payload : List UInt8} {cs : List Char} :
    e.decodePayload payload = .ok cs ↔ payload = e.encode cs := by
  cases e with
  | utf8 => rw [decodePayload, mapError_eq_ok_iff, Utf8.decode_eq_ok_iff, encode]
  | utf16 order => rw [decodePayload, mapError_eq_ok_iff, Utf16.decode_eq_ok_iff, encode]

theorem encode_append (e : Encoding) (cs later : List Char) :
    e.encode (cs ++ later) = e.encode cs ++ e.encode later := by
  cases e with
  | utf8 => simp [encode, Utf8.encode]
  | utf16 order => simp [encode, Utf16.encode]

theorem decode_mark_append_encode (configured e : Encoding) (cs : List Char) :
    configured.decode (e.mark ++ e.encode cs) = .ok cs := by
  rw [decode, detect_mark_append]
  exact decodePayload_eq_ok_iff.mpr rfl

/-- A file is read exactly if its payload encodes some characters, and then as these; of several
marks only the first is no part of the text. -/
theorem decode_inverts_encode (configured : Encoding) (bytes : List UInt8) :
    (∃ e payload,
      (∀ e' payload', Effective configured bytes e' payload' ↔ (e', payload') = (e, payload)) ∧
      (∀ cs, configured.decode bytes = .ok cs ↔ payload = e.encode cs) ∧
      ((∃ error, configured.decode bytes = .error error) ↔ ∀ cs, payload ≠ e.encode cs)) ∧
    (∀ (e : Encoding) (cs : List Char), configured.decode (e.mark ++ e.encode cs) = .ok cs) ∧
    ∀ (e : Encoding) (cs : List Char),
      configured.decode (e.mark ++ (e.mark ++ e.encode cs)) = .ok ('\uFEFF' :: cs) := by
  have hok : ∀ cs, configured.decode bytes = .ok cs ↔
      (configured.detect bytes).2 = (configured.detect bytes).1.encode cs :=
    fun cs => decodePayload_eq_ok_iff
  refine ⟨⟨(configured.detect bytes).1, (configured.detect bytes).2, ?_, hok, ?_⟩, ?_, ?_⟩
  · intro e payload
    exact effective_iff
  · simp only [Ne, ← hok]
    cases configured.decode bytes with
    | error error => simp
    | ok cs => simp
  · exact decode_mark_append_encode configured
  · intro e cs
    have hmarks : e.mark ++ e.encode cs = e.encode ('\uFEFF' :: cs) := by
      rw [mark_eq_encode, ← encode_append, List.singleton_append]
    rw [hmarks, decode_mark_append_encode]

example : decode .utf8 [0xFE, 0xFF, 0x00, 0xE4] = .ok ['ä'] := by decide

end CommandLine.Text.Encoding
