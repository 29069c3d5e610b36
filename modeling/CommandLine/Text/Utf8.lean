/-!
# UTF-8

A character is written as one to four bytes: a first byte that says how many continuation bytes
follow, then six bits in each of these.  Reading refuses overlong forms, surrogates and everything
beyond the last code point; a refusal tells how long a run of bytes is to blame, which is also the
run that a lenient reader replaces by one U+FFFD.
-/

namespace CommandLine.Text.Utf8

def encodeChar (c : Char) : List UInt8 :=
  let n := c.toNat
  let tail (k : Nat) : UInt8 := UInt8.ofNat (0x80 + n / k % 64)
  if n < 0x80 then [UInt8.ofNat n]
  else if n < 0x800 then [UInt8.ofNat (0xC0 + n / 64), tail 1]
  else if n < 0x10000 then [UInt8.ofNat (0xE0 + n / 4096), tail 64, tail 1]
  else [UInt8.ofNat (0xF0 + n / 262144), tail 4096, tail 64, tail 1]

def encode (cs : List Char) : List UInt8 :=
  cs.flatMap encodeChar

/-- What the first byte of a character announces. -/
structure Lead where
  /-- The number of continuation bytes. -/
  tails : Nat
  bits : Nat
  /-- The bounds of the first continuation byte; the later ones lie in `80..BF`. -/
  low : Nat
  high : Nat

def lead? (byte : UInt8) : Option Lead :=
  let b := byte.toNat
  if b < 0x80 then some ⟨0, b, 0x80, 0xBF⟩
  else if b < 0xC2 then none
  else if b < 0xE0 then some ⟨1, b - 0xC0, 0x80, 0xBF⟩
  else if b == 0xE0 then some ⟨2, 0, 0xA0, 0xBF⟩
  else if b == 0xED then some ⟨2, 0x0D, 0x80, 0x9F⟩
  else if b < 0xF0 then some ⟨2, b - 0xE0, 0x80, 0xBF⟩
  else if b == 0xF0 then some ⟨3, 0, 0x90, 0xBF⟩
  else if b < 0xF4 then some ⟨3, b - 0xF0, 0x80, 0xBF⟩
  else if b == 0xF4 then some ⟨3, 4, 0x80, 0x8F⟩
  else none

inductive Fault
  /-- The bytes end inside a character that more bytes could still complete. -/
  | incomplete
  /-- No continuation makes a character of the first `length` bytes and the byte after them. -/
  | invalid (length : Nat)
  deriving DecidableEq, Repr

/-- The code point of a character of which `seen` bytes gave `bits`, and `tails` are to come. -/
def readTails (tails low high seen bits : Nat) (bytes : List UInt8) : Except Fault Nat :=
  match tails, bytes with
  | 0, _ => .ok bits
  | _ + 1, [] => .error .incomplete
  | tails + 1, b :: rest =>
      if low ≤ b.toNat && b.toNat ≤ high then
        readTails tails 0x80 0xBF (seen + 1) (64 * bits + (b.toNat - 0x80)) rest
      else .error (.invalid seen)

/-- The character that starts with `first`, and the number of bytes of `rest` that belong to it. -/
def readChar (first : UInt8) (rest : List UInt8) : Except Fault (Char × Nat) :=
  match lead? first with
  | none => .error (.invalid 1)
  | some lead =>
      match readTails lead.tails lead.low lead.high 1 lead.bits rest with
      | .ok n => .ok (Char.ofNat n, lead.tails)
      | .error fault => .error fault

structure Error where
  /-- The length of the part before it, all of which can be read. -/
  index : Nat
  fault : Fault
  deriving DecidableEq, Repr

def Error.message (e : Error) : String :=
  match e.fault with
  | .incomplete => s!"incomplete utf-8 byte sequence from index {e.index}"
  | .invalid length => s!"invalid utf-8 sequence of {length} bytes from index {e.index}"

def decodeFrom (index : Nat) : List UInt8 → Except Error (List Char)
  | [] => .ok []
  | first :: rest =>
      match readChar first rest with
      | .error fault => .error ⟨index, fault⟩
      | .ok (c, tails) =>
          match decodeFrom (index + tails + 1) (rest.drop tails) with
          | .ok cs => .ok (c :: cs)
          | .error e => .error e
  termination_by bytes => bytes.length
  decreasing_by simp only [List.length_drop, List.length_cons]; omega

def decode (bytes : List UInt8) : Except Error (List Char) :=
  decodeFrom 0 bytes

/-- Reads anything: each run of bytes that cannot be part of a character becomes one U+FFFD. -/
def decodeLossy : List UInt8 → List Char
  | [] => []
  | first :: rest =>
      match readChar first rest with
      | .ok (c, tails) => c :: decodeLossy (rest.drop tails)
      | .error (.invalid length) => '\uFFFD' :: decodeLossy (rest.drop (length - 1))
      | .error .incomplete => ['\uFFFD']
  termination_by bytes => bytes.length
  decreasing_by all_goals simp only [List.length_drop, List.length_cons]; omega

end CommandLine.Text.Utf8
