import CommandLine.Text.Case
import CommandLine.Text.Digits

/-!
# Floating-point numbers

A number is kept as the bits of its binary interchange format.  A decimal text stands for a rational
number, and reading gives the nearest number of the format, of two equally near ones the one whose
last bit is even; what is too large becomes infinite.
-/

namespace CommandLine

structure FloatFormat where
  exponentBits : Nat
  fractionBits : Nat
  deriving DecidableEq, Repr

inductive FloatError
  | empty
  | invalid
  deriving DecidableEq, Repr

def FloatError.message : FloatError → String
  | .empty => "cannot parse float from empty string"
  | .invalid => "invalid float literal"

namespace FloatFormat

def single : FloatFormat := ⟨8, 23⟩

def double : FloatFormat := ⟨11, 52⟩

def width (f : FloatFormat) : Nat :=
  1 + f.exponentBits + f.fractionBits

def signBit (f : FloatFormat) : Nat :=
  Nat.pow 2 (f.exponentBits + f.fractionBits)

def infinity (f : FloatFormat) : Nat :=
  (Nat.pow 2 f.exponentBits - 1) * Nat.pow 2 f.fractionBits

/-- The quiet NaN without a payload. -/
def quietNaN (f : FloatFormat) : Nat :=
  f.infinity + Nat.pow 2 (f.fractionBits - 1)

/-- The exponent of the smallest positive number. -/
def leastExponent (f : FloatFormat) : Int :=
  2 - (Nat.pow 2 (f.exponentBits - 1) : Int) - f.fractionBits

def isNaN (f : FloatFormat) (bits : Nat) : Bool :=
  f.infinity < bits % f.signBit

def isZero (f : FloatFormat) (bits : Nat) : Bool :=
  bits % f.signBit == 0

/-- Equality of numbers: a NaN equals nothing, and the two zeros are equal. -/
def sameNumber (f : FloatFormat) (a b : Nat) : Bool :=
  !f.isNaN a && !f.isNaN b && (a == b || (f.isZero a && f.isZero b))

/-- The nearest whole number to a quotient; a tie goes to the even one. -/
def roundQuotient (num den : Nat) : Nat :=
  let q := num / den
  let r := num % den
  if 2 * r < den || (2 * r == den && q % 2 == 0) then q else q + 1

/-- A quotient divided by a power of two, as a pair again. -/
def scaled (num den : Nat) (exponent : Int) : Nat × Nat :=
  match exponent with
  | .ofNat k => (num, den * Nat.pow 2 k)
  | .negSucc k => (num * Nat.pow 2 (k + 1), den)

/-- The exponent of the largest power of two that does not exceed a positive quotient. -/
def floorLog2 (num den : Nat) : Int :=
  let estimate : Int := (num.log2 : Int) - den.log2
  let (n, d) := scaled num den estimate
  if d ≤ n then estimate else estimate - 1

/-- The bits of the number nearest to a positive quotient. -/
def nearest (f : FloatFormat) (num den : Nat) : Nat :=
  let exponent := max (floorLog2 num den - f.fractionBits) f.leastExponent
  let (n, d) := scaled num den exponent
  min (((exponent - f.leastExponent).toNat) * Nat.pow 2 f.fractionBits + roundQuotient n d)
    f.infinity

/-- The bits of the number nearest to `digits * 10 ^ exponent`.  Powers far outside of the format's
range are not computed. -/
def ofDecimal (f : FloatFormat) (digits : Nat) (exponent : Int) : Nat :=
  let magnitude : Int := exponent + (Nat.toDigits 10 digits).length
  if digits == 0 || magnitude < -(Nat.pow 2 f.exponentBits : Int) then 0
  else if (Nat.pow 2 f.exponentBits : Int) < magnitude then f.infinity
  else
    match exponent with
    | .ofNat k => f.nearest (digits * Nat.pow 10 k) 1
    | .negSucc k => f.nearest digits (Nat.pow 10 (k + 1))

/-- The exponent of a decimal text from its `e` on; no text stands for zero. -/
def readExponent : List Char → Option Int
  | [] => some 0
  | e :: cs =>
      if e ≠ 'e' && e ≠ 'E' then none
      else
        let (negative, digits) :=
          match cs with
          | '-' :: rest => (true, rest)
          | '+' :: rest => (false, rest)
          | rest => (false, rest)
        if digits.isEmpty || !digits.all Char.isDigit then none
        else if negative then some (-(Text.digitsValue 10 digits : Int))
        else some (Text.digitsValue 10 digits)

/-- The bits of an unsigned text. -/
def readMagnitude (f : FloatFormat) (cs : List Char) : Option Nat :=
  let word := String.ofList cs
  if Text.sameIgnoringCase word "inf" || Text.sameIgnoringCase word "infinity" then some f.infinity
  else if Text.sameIgnoringCase word "nan" then some f.quietNaN
  else
    let whole := cs.takeWhile Char.isDigit
    let (fraction, rest) :=
      match cs.dropWhile Char.isDigit with
      | '.' :: rest => (rest.takeWhile Char.isDigit, rest.dropWhile Char.isDigit)
      | rest => ([], rest)
    if whole.isEmpty && fraction.isEmpty then none
    else
      (readExponent rest).map fun exponent =>
        f.ofDecimal (Text.digitsValue 10 (whole ++ fraction)) (exponent - fraction.length)

def read (f : FloatFormat) (cs : List Char) : Except FloatError Nat :=
  let (negative, magnitude) :=
    match cs with
    | '-' :: rest => (true, rest)
    | '+' :: rest => (false, rest)
    | rest => (false, rest)
  if cs.isEmpty then .error .empty
  else
    match f.readMagnitude magnitude with
    | none => .error .invalid
    | some bits => .ok (if negative then f.signBit + bits else bits)

end FloatFormat

end CommandLine
