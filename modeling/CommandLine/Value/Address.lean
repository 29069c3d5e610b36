import CommandLine.Text.Digits

/-!
# Network addresses

Addresses of both versions of the internet protocol, alone or with a port, and their texts.  The
text of a version 6 address is the shortened one: the first longest run of at least two zero groups
is left out, and an address that maps a version 4 address ends in that address.
-/

namespace CommandLine

structure Ipv4 where
  octets : Vector UInt8 4
  deriving DecidableEq, Repr

structure Ipv6 where
  groups : Vector UInt16 8
  deriving DecidableEq, Repr

inductive Address
  | ipv4 (ip : Ipv4)
  | ipv6 (ip : Ipv6)
  | socketV4 (ip : Ipv4) (port : UInt16)
  | socketV6 (ip : Ipv6) (scope : UInt32) (port : UInt16)
  deriving DecidableEq, Repr

/-- Which addresses are meant; the last of each three is either version. -/
inductive AddressKind
  | ipv4
  | ipv6
  | ip
  | socketV4
  | socketV6
  | socket
  deriving DecidableEq, Repr

def AddressKind.syntaxMessage : AddressKind → String
  | .ipv4 => "invalid IPv4 address syntax"
  | .ipv6 => "invalid IPv6 address syntax"
  | .ip => "invalid IP address syntax"
  | .socketV4 => "invalid IPv4 socket address syntax"
  | .socketV6 => "invalid IPv6 socket address syntax"
  | .socket => "invalid socket address syntax"

/-! ### Texts -/

def Ipv4.text (ip : Ipv4) : String :=
  ".".intercalate (ip.octets.toList.map fun octet => toString octet.toNat)

/-- The length of the run of zeros at each position. -/
def zeroRuns (groups : List UInt16) : List Nat :=
  groups.foldr (fun group runs => (if group = 0 then runs.headD 0 + 1 else 0) :: runs) []

def groupsText (groups : List UInt16) : String :=
  ":".intercalate (groups.map fun group => String.ofList (Text.hex group.toNat))

def Ipv6.text (ip : Ipv6) : String :=
  let groups := ip.groups.toList
  match groups with
  | [0, 0, 0, 0, 0, 0xFFFF, high, low] =>
      let octets := [high.toNat / 256, high.toNat % 256, low.toNat / 256, low.toNat % 256]
      "::ffff:" ++ ".".intercalate (octets.map toString)
  | _ =>
      let runs := zeroRuns groups
      let longest := runs.foldl max 0
      if longest < 2 then groupsText groups
      else
        let start := runs.idxOf longest
        groupsText (groups.take start) ++ "::" ++ groupsText (groups.drop (start + longest))

def Address.text : Address → String
  | .ipv4 ip => ip.text
  | .ipv6 ip => ip.text
  | .socketV4 ip port => ip.text ++ ":" ++ toString port.toNat
  | .socketV6 ip scope port =>
      let zone := if scope = 0 then "" else "%" ++ toString scope.toNat
      "[" ++ ip.text ++ zone ++ "]:" ++ toString port.toNat

/-! ### Reading

Each reader takes what it needs from the front of a text and gives the rest. -/

namespace Address

/-- Takes all the digits there are; the number they make may not exceed `limit`. -/
def number? (radix limit : Nat) (cs : List Char) : Option (Nat × List Char) :=
  let digits := cs.takeWhile (Text.isDigitOf radix)
  let value := Text.digitsValue radix digits
  if digits.isEmpty || limit < value then none
  else some (value, cs.dropWhile (Text.isDigitOf radix))

def char? (c : Char) : List Char → Option (List Char)
  | [] => none
  | first :: rest => if first = c then some rest else none

/-- A decimal number up to 255 without leading zeros. -/
def octet? (cs : List Char) : Option (UInt8 × List Char) := do
  let (value, rest) ← number? 10 255 cs
  let digits := cs.length - rest.length
  if digits > 1 && cs.head? = some '0' then none
  else some (UInt8.ofNat value, rest)

/-- One to four hexadecimal digits. -/
def group? (cs : List Char) : Option (UInt16 × List Char) := do
  let (value, rest) ← number? 16 0xFFFF cs
  if cs.length - rest.length > 4 then none
  else some (UInt16.ofNat value, rest)

def ipv4? (cs : List Char) : Option (Ipv4 × List Char) := do
  let (a, cs) ← octet? cs
  let (b, cs) ← octet? (← char? '.' cs)
  let (c, cs) ← octet? (← char? '.' cs)
  let (d, cs) ← octet? (← char? '.' cs)
  some (⟨#v[a, b, c, d]⟩, cs)

/-- Takes a colon, unless the groups have just begun. -/
def colonUnless? (begun : Bool) (cs : List Char) : Option (List Char) :=
  if begun then some cs else char? ':' cs

structure Groups where
  groups : List UInt16
  /-- The last two groups were written as a version 4 address. -/
  mapped : Bool
  rest : List Char

/-- Takes as many groups as there are, at most `room`, of which a version 4 address fills two. -/
def groups (room : Nat) (atStart : Bool) (cs : List Char) : Groups :=
  match room with
  | 0 => ⟨[], false, cs⟩
  | room + 1 =>
      let embedded := if room = 0 then none else colonUnless? atStart cs >>= ipv4?
      match embedded with
      | some (ip, rest) =>
          let o (i : Fin 4) : UInt16 := ip.octets[i].toUInt16
          ⟨[256 * o 0 + o 1, 256 * o 2 + o 3], true, rest⟩
      | none =>
          match colonUnless? atStart cs >>= group? with
          | none => ⟨[], false, cs⟩
          | some (group, rest) =>
              let more := groups room false rest
              { more with groups := group :: more.groups }

def ipv6OfGroups (groups : List UInt16) : Ipv6 :=
  ⟨.ofFn fun i => groups.getD i 0⟩

def ipv6? (cs : List Char) : Option (Ipv6 × List Char) := do
  let head := groups 8 true cs
  if head.groups.length = 8 then some (ipv6OfGroups head.groups, head.rest)
  else if head.mapped then none
  else
    let rest ← char? ':' (← char? ':' head.rest)
    let tail := groups (7 - head.groups.length) true rest
    let omitted := 8 - head.groups.length - tail.groups.length
    some (ipv6OfGroups (head.groups ++ List.replicate omitted 0 ++ tail.groups), tail.rest)

def port? (cs : List Char) : Option (UInt16 × List Char) := do
  let (port, rest) ← number? 10 0xFFFF (← char? ':' cs)
  some (UInt16.ofNat port, rest)

def scope? (cs : List Char) : Option (UInt32 × List Char) := do
  let (scope, rest) ← number? 10 0xFFFFFFFF (← char? '%' cs)
  some (UInt32.ofNat scope, rest)

def socketV4? (cs : List Char) : Option (Address × List Char) := do
  let (ip, cs) ← ipv4? cs
  let (port, cs) ← port? cs
  some (.socketV4 ip port, cs)

def socketV6? (cs : List Char) : Option (Address × List Char) := do
  let (ip, cs) ← ipv6? (← char? '[' cs)
  let (scope, cs) := (scope? cs).getD (0, cs)
  let (port, cs) ← port? (← char? ']' cs)
  some (.socketV6 ip scope port, cs)

def of? (kind : AddressKind) (cs : List Char) : Option (Address × List Char) :=
  let v4 := (ipv4? cs).map fun (ip, rest) => (Address.ipv4 ip, rest)
  let v6 := (ipv6? cs).map fun (ip, rest) => (Address.ipv6 ip, rest)
  match kind with
  | .ipv4 => v4
  | .ipv6 => v6
  | .ip => v4 <|> v6
  | .socketV4 => socketV4? cs
  | .socketV6 => socketV6? cs
  | .socket => socketV4? cs <|> socketV6? cs

/-- Reads a text that is an address from its first character to its last. -/
def read? (kind : AddressKind) (cs : List Char) : Option Address :=
  match of? kind cs with
  | some (address, []) => some address
  | _ => none

end Address

end CommandLine
