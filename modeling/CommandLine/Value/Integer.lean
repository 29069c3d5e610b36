import CommandLine.Text.Digits

/-!
# Integers of a fixed width

The text of an integer is an optional sign and decimal digits; a type without negative numbers takes
no minus sign at all.  The digits are read from the left and the first fault is reported, so a number
that leaves the range before a character that is no digit is out of range.
-/

namespace CommandLine

structure IntegerType where
  signed : Bool
  bits : Nat
  deriving DecidableEq, Repr

inductive IntegerError
  | empty
  | invalidDigit
  | tooLarge
  | tooSmall
  deriving DecidableEq, Repr

def IntegerError.message : IntegerError → String
  | .empty => "cannot parse integer from empty string"
  | .invalidDigit => "invalid digit found in string"
  | .tooLarge => "number too large to fit in target type"
  | .tooSmall => "number too small to fit in target type"

namespace IntegerType

/-- The largest number of the type. -/
def maximum (t : IntegerType) : Nat :=
  if t.signed then Nat.pow 2 (t.bits - 1) - 1 else Nat.pow 2 t.bits - 1

/-- The magnitude of the smallest number of the type. -/
def minimumMagnitude (t : IntegerType) : Nat :=
  if t.signed then Nat.pow 2 (t.bits - 1) else 0

def InRange (t : IntegerType) (n : Int) : Prop :=
  -(t.minimumMagnitude : Int) ≤ n ∧ n ≤ t.maximum

instance (t : IntegerType) (n : Int) : Decidable (t.InRange n) :=
  inferInstanceAs (Decidable (_ ∧ _))

/-- Reads digits after a number `n`, refusing what exceeds `limit`. -/
def readDigits (limit : Nat) (excess : IntegerError) (n : Nat) : List Char → Except IntegerError Nat
  | [] => .ok n
  | c :: cs =>
      match Text.digitValue? 10 c with
      | none => .error .invalidDigit
      | some digit =>
          if limit < 10 * n + digit then .error excess
          else readDigits limit excess (10 * n + digit) cs

def readMagnitude (limit : Nat) (excess : IntegerError) (digits : List Char) :
    Except IntegerError Nat :=
  if digits.isEmpty then .error .invalidDigit else readDigits limit excess 0 digits

def read (t : IntegerType) (cs : List Char) : Except IntegerError Int :=
  match cs with
  | [] => .error .empty
  | '+' :: digits => (readMagnitude t.maximum .tooLarge digits).map Int.ofNat
  | '-' :: digits =>
      if t.signed then
        (readMagnitude t.minimumMagnitude .tooSmall digits).map fun n => -(n : Int)
      else .error .invalidDigit
  | digits => (readMagnitude t.maximum .tooLarge digits).map Int.ofNat

end IntegerType

end CommandLine
