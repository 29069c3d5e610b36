import CommandLine.Text.Wrap.Piece

/-!
# Arranging pieces in lines

Every way to gather pieces into lines has a cost, and a cheapest one is found by looking at ever
longer beginnings of the list: the best way to arrange so many pieces ends in one line, before which
fewer pieces are arranged in the best way.
-/

namespace CommandLine.Text

/-- The cost of one line: a fixed cost, a heavy one for each column too many, the square of the
columns left over on a line before the last, and a little for a last line that is a single short
piece. -/
def lineCost (limit width : Nat) (isLast single : Bool) : Nat :=
  1000 +
    if limit < width then (width - limit) * 2500
    else if !isLast then (limit - width) * (limit - width)
    else if single && 4 * width < limit then 25
    else 0

/-- The best way to end a line somewhere: the total cost, and where that last line starts. -/
structure Choice where
  cost : Nat
  start : Nat
  deriving Inhabited

/-- Of two ways the cheaper, and of two that cost the same the first. -/
def Choice.better (a b : Choice) : Choice :=
  if b.cost < a.cost then b else a

/-- Columns of the pieces before each position, spaces included. -/
def runningColumns (pieces : List Piece) : Array Nat :=
  pieces.foldl (fun sums p => sums.push (sums.back! + p.width + p.spaces)) #[0]

/-- For each number of pieces, the best way to arrange so many of them. -/
def bestChoices (limit : Nat) (pieces : List Piece) : Array Choice :=
  let sums := runningColumns pieces
  let spaces := (pieces.map Piece.spaces).toArray
  let count := pieces.length
  let option (best : Array Choice) (first last : Nat) : Choice :=
    let width := sums[last]! - sums[first]! - spaces[last - 1]!
    ⟨best[first]!.cost + lineCost limit width (last == count) (first + 1 == last), first⟩
  (List.range count).foldl (fun best before =>
    let last := before + 1
    best.push ((List.range before).foldl
      (fun found n => found.better (option best (n + 1) last)) (option best 0 last)))
    #[⟨0, 0⟩]

/-- Where the lines before the one that ends at `last` end, as numbers of pieces, and `last`. -/
def lineEnds (best : Array Choice) (last : Nat) (later : List Nat) : List Nat :=
  match h : last with
  | 0 => later
  | n + 1 =>
      let start := best[n + 1]!.start
      if start < n + 1 then lineEnds best start (last :: later) else last :: later
  termination_by last

/-- Cuts a list at the given positions; what is left after the last of them is a part as well. -/
def cutAt {α : Type} (before : Nat) : List Nat → List α → List (List α)
  | [], [] => []
  | [], xs => [xs]
  | position :: rest, xs =>
      xs.take (position - before) :: cutAt position rest (xs.drop (position - before))

/-- The lines of a cheapest arrangement. -/
def arrange (limit : Nat) (pieces : List Piece) : List (List Piece) :=
  cutAt 0 (lineEnds (bestChoices limit pieces) pieces.length []) pieces

end CommandLine.Text
