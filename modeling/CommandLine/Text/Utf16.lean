import CommandLine.Text.Digits

/-!
# UTF-16

A character is one unit of sixteen bits, or a pair of surrogate units; a unit is two bytes in
either order.  Reading refuses an odd number of bytes and any surrogate without its partner.
-/

namespace CommandLine.Text.Utf16

inductive ByteOrder
  | little
  | big
  deriving DecidableEq, Repr

def encodeChar (c : Char) : List Nat :=
  let n := c.toNat
  if n < 0x10000 then [n]
  else [0xD800 + (n - 0x10000) / 1024, 0xDC00 + (n - 0x10000) % 1024]

def unitBytes (order : ByteOrder) (unit : Nat) : List UInt8 :=
  match order with
  | .little => [UInt8.ofNat unit, UInt8.ofNat (unit / 256)]
  | .big => [UInt8.ofNat (unit / 256), UInt8.ofNat unit]

def encode (order : ByteOrder) (cs : List Char) : List UInt8 :=
  (cs.flatMap encodeChar).flatMap (unitBytes order)

inductive Error
  | oddLength
  | unpaired (unit : Nat)
  deriving DecidableEq, Repr

def Error.message : Error → String
  | .oddLength => "UTF-16 data has an odd number of bytes"
  | .unpaired unit => "unpaired surrogate found: " ++ String.ofList (hex unit)

/-- The units of the bytes, unless their number is odd. -/
def units? (order : ByteOrder) : List UInt8 → Option (List Nat)
  | [] => some []
  | [_] => none
  | a :: b :: rest =>
      let unit :=
        match order with
        | .little => a.toNat + 256 * b.toNat
        | .big => 256 * a.toNat + b.toNat
      (units? order rest).map (unit :: ·)

def isHighSurrogate (unit : Nat) : Bool :=
  0xD800 ≤ unit && unit < 0xDC00

def isLowSurrogate (unit : Nat) : Bool :=
  0xDC00 ≤ unit && unit < 0xE000

def decodeUnits : List Nat → Except Error (List Char)
  | [] => .ok []
  | high :: low :: rest =>
      if isHighSurrogate high then
        if isLowSurrogate low then
          (decodeUnits rest).map
            (Char.ofNat (0x10000 + 1024 * (high - 0xD800) + (low - 0xDC00)) :: ·)
        else .error (.unpaired high)
      else if isLowSurrogate high then .error (.unpaired high)
      else (decodeUnits (low :: rest)).map (Char.ofNat high :: ·)
  | [unit] =>
      if isHighSurrogate unit || isLowSurrogate unit then .error (.unpaired unit)
      else .ok [Char.ofNat unit]

def decode (order : ByteOrder) (bytes : List UInt8) : Except Error (List Char) :=
  match units? order bytes with
  | none => .error .oddLength
  | some units => decodeUnits units

end CommandLine.Text.Utf16
