import CommandLine.Value.Address
import CommandLine.Value.FloatingPoint
import CommandLine.Value.Integer
import CommandLine.Value.Path

/-!
# Values

What a single argument of a command line can stand for, when two values are the same, and the order
in which a sorted collection keeps them.
-/

namespace CommandLine

inductive Value
  | toggle (on : Bool)
  | text (s : String)
  | path (s : String)
  | char (c : Char)
  | integer (n : Int)
  | float (format : FloatFormat) (bits : Nat)
  | address (a : Address)
  /-- One of the named alternatives of an enumeration. -/
  | choice (variant : String)
  deriving DecidableEq, Repr

namespace Value

/-- Numbers are the same when they are equal as numbers and paths when they have the same steps;
all else is compared exactly. -/
def same : Value → Value → Bool
  | .float f a, .float g b => f == g && f.sameNumber a b
  | .path a, .path b => Path.same a b
  | a, b => a == b

/-- The value in writing. -/
def written : Value → String
  | .toggle true => "true"
  | .toggle false => "false"
  | .text s | .path s => s
  | .char c => String.singleton c
  | .integer n => toString n
  | .float f bits =>
      let digits := Text.hex bits
      String.ofList (List.replicate (f.width / 4 - digits.length) '0' ++ digits)
  | .address a => a.text
  | .choice variant => variant

/-- Integers in numerical order; all else by code points. -/
def precedes : Value → Value → Bool
  | .integer a, .integer b => a < b
  | a, b => a.written < b.written

end Value

end CommandLine
