import CommandLine.Value.Address
import CommandLine.Value.FloatingPoint
import CommandLine.Value.Integer

/-!
# Why a value is refused

The causes for which an argument cannot be converted into a value, and their wording.
-/

namespace CommandLine

inductive ValueError
  /-- The empty text is no value of any argument. -/
  | empty
  /-- The argument came without a value, and nothing is meant by that. -/
  | needsValue
  | integer (error : IntegerError)
  | float (error : FloatError)
  | emptyChar
  | manyChars
  | address (kind : AddressKind)
  /-- The text could be read, but its type does not admit the value. -/
  | rejected (reason : String)
  | shouldBe (expected : List String)
  | malformedPair
  | notAToggle
  deriving DecidableEq, Repr

namespace ValueError

def listed (names : List String) : String :=
  ", ".intercalate names

def message : ValueError → String
  | .empty => "the value is empty"
  | .needsValue => "a value is required"
  | .integer error => error.message
  | .float error => error.message
  | .emptyChar => "cannot parse char from empty string"
  | .manyChars => "too many characters in string"
  | .address kind => kind.syntaxMessage
  | .rejected reason => reason
  | .shouldBe expected => "expected one of " ++ listed expected
  | .malformedPair => "expected a value of the form name=value"
  | .notAToggle => "expected '+' or '-'"

/-- What a report about the whole argument adds. -/
def hint : ValueError → String
  | .shouldBe expected => " Valid values are: " ++ listed expected ++ "."
  | _ => ""

end ValueError

end CommandLine
