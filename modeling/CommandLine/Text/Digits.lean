/-!
# Numbers in digits

Digits of a radix up to sixteen, in either case, the numbers that they make, and the digits of a
number in hexadecimal.
-/

namespace CommandLine.Text

def digitValue? (radix : Nat) (c : Char) : Option Nat :=
  let value? :=
    if c.isDigit then some (c.toNat - '0'.toNat)
    else if 'a' ≤ c && c ≤ 'f' then some (c.toNat - 'a'.toNat + 10)
    else if 'A' ≤ c && c ≤ 'F' then some (c.toNat - 'A'.toNat + 10)
    else none
  value?.filter (· < radix)

def isDigitOf (radix : Nat) (c : Char) : Bool :=
  (digitValue? radix c).isSome

/-- The number made by digits; a character that is no digit counts as zero. -/
def digitsValue (radix : Nat) (digits : List Char) : Nat :=
  digits.foldl (fun n c => radix * n + (digitValue? radix c).getD 0) 0

/-- A number in hexadecimal with lower-case digits, without leading zeros. -/
def hex (n : Nat) : List Char :=
  Nat.toDigits 16 n

end CommandLine.Text
