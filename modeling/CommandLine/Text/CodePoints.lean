import CommandLine.Text.Digits

/-!
# Sets of code points

Properties of characters are tabulated as text, the way the standard's own data files write them:
code points in hexadecimal, alone or as a range `first-last`, separated by blanks.
-/

namespace CommandLine.Text

structure CodePoints where
  /-- Inclusive at both ends. -/
  ranges : Array (Nat × Nat)

namespace CodePoints

/-- A range as it stands in a table. -/
def rangeOf (entry : List Char) : Nat × Nat :=
  let first := entry.takeWhile (· != '-')
  match entry.dropWhile (· != '-') with
  | [] => (digitsValue 16 first, digitsValue 16 first)
  | _ :: last => (digitsValue 16 first, digitsValue 16 last)

/-- The words of a table, read from the end of the text. -/
def entries (table : List Char) : List (List Char) :=
  let step (c : Char) : List (List Char) → List (List Char)
    | [] => [[c]]
    | word :: rest => if c = ' ' || c = '\n' then [] :: word :: rest else (c :: word) :: rest
  (table.foldr step [[]]).filter (· ≠ [])

def ofTable (table : String) : CodePoints :=
  ⟨((entries table.toList).map rangeOf).toArray⟩

def contains (set : CodePoints) (c : Char) : Bool :=
  set.ranges.any fun (first, last) => first ≤ c.toNat && c.toNat ≤ last

end CodePoints

end CommandLine.Text
