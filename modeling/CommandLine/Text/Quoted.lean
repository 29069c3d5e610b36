import CommandLine.Text.Digits
import CommandLine.Text.Printable

/-!
# Quoted text

A text as it is quoted in a message: between double quotes, with everything escaped that would not
show, would end the quotation or would merge with its neighbour.
-/

namespace CommandLine.Text

/-- The code point in hexadecimal between braces. -/
def escapeCodePoint (c : Char) : List Char :=
  "\\u\x7b".toList ++ hex c.toNat ++ "\x7d".toList

def escape (c : Char) : List Char :=
  match c with
  | '\x00' => ['\\', '0']
  | '\t' => ['\\', 't']
  | '\r' => ['\\', 'r']
  | '\n' => ['\\', 'n']
  | '\\' => ['\\', '\\']
  | '"' => ['\\', '"']
  | c => if isCombining c || !isPrintable c then escapeCodePoint c else [c]

def quoted (s : String) : String :=
  String.ofList ('"' :: s.toList.flatMap escape ++ ['"'])

end CommandLine.Text
