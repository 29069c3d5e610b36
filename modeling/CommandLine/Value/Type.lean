import CommandLine.Placeholder
import CommandLine.Text.Case
import CommandLine.Value
import CommandLine.Value.Error

/-!
# Types of values

A type of values says how one argument is read and what, if anything, is meant by an argument
without a value.  Whether it is a toggle, so that a place for one of its values is a boolean one, is
said apart from that.
-/

namespace CommandLine

structure ValueType where
  name : String
  placeholder : Placeholder := .ofTypeName name
  isToggle : Bool := false
  read : String → Except ValueError Value
  /-- The meaning of an argument that comes without a value. -/
  absent : Except ValueError Value := .error .needsValue

namespace ValueType

/-- Converts what an argument came with. -/
def convert (t : ValueType) : Option String → Except ValueError Value
  | some s => t.read s
  | none => t.absent

/-! ### The standard types -/

def toggle : ValueType where
  name := "bool"
  placeholder := .toggle
  isToggle := true
  read s :=
    if s = "+" then .ok (.toggle true)
    else if s = "-" then .ok (.toggle false)
    else .error .notAToggle
  absent := .ok (.toggle true)

def text : ValueType where
  name := "String"
  placeholder := .text
  read s := .ok (.text s)

def path : ValueType where
  name := "PathBuf"
  placeholder := .file
  read s := .ok (.path s)

def char : ValueType where
  name := "char"
  read s :=
    match s.toList with
    | [] => .error .emptyChar
    | [c] => .ok (.char c)
    | _ => .error .manyChars

def integerNamed (name : String) (t : IntegerType) : ValueType where
  name := name
  placeholder := .number
  read s := ((t.read s.toList).map .integer).mapError .integer

def integer (t : IntegerType) : ValueType :=
  integerNamed ((if t.signed then "i" else "u") ++ toString t.bits) t

def float (f : FloatFormat) : ValueType where
  name := "f" ++ toString f.width
  placeholder := .number
  read s := ((f.read s.toList).map (.float f)).mapError .float

def addressName : AddressKind → String
  | .ipv4 => "Ipv4Addr"
  | .ipv6 => "Ipv6Addr"
  | .ip => "IpAddr"
  | .socketV4 => "SocketAddrV4"
  | .socketV6 => "SocketAddrV6"
  | .socket => "SocketAddr"

def address (kind : AddressKind) : ValueType where
  name := addressName kind
  read s :=
    match Address.read? kind s.toList with
    | some a => .ok (.address a)
    | none => .error (.address kind)

/-! ### Types made from others -/

/-- An alternative of an enumeration, and the name by which it is chosen. -/
structure Alternative where
  name : String
  variant : String
  deriving DecidableEq, Repr

/-- The first alternative with the given name, up to the case of ASCII letters. -/
def findAlternative? (alternatives : List Alternative) (s : String) : Option Alternative :=
  alternatives.find? fun a => Text.sameIgnoringCase s a.name

def enumeration (name : String) (alternatives : List Alternative) : ValueType where
  name := name
  placeholder := .named name
  read s :=
    match findAlternative? alternatives s with
    | some a => .ok (.choice a.variant)
    | none => .error (.shouldBe (alternatives.map Alternative.name))

/-- Another name for a type; its values and its placeholder stay the same. -/
def renamed (name : String) (t : ValueType) : ValueType :=
  { t with name := name }

/-- The values of a type that pass a check, which gives the reason why one does not. -/
def refined (name : String) (t : ValueType) (check : Value → Option String) : ValueType where
  name := name
  read s := do
    let v ← t.read s
    match check v with
    | none => .ok v
    | some reason => .error (.rejected reason)

end ValueType

end CommandLine
