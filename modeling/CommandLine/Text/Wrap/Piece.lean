import CommandLine.Text.Alphanumeric
import CommandLine.Text.Blank
import CommandLine.Text.Columns
import CommandLine.Text.Escape
import CommandLine.Text.LineBreak

/-!
# Pieces of a line

What stays together when a line of text is wrapped.  A line is cut into words at line break
opportunities, a word after its inner hyphens, and a part that is still wider than a line wherever
it has to be.  Nothing is lost: the pieces with the spaces after them make up the line.
-/

namespace CommandLine.Text

/-- A part of a line that is not divided further. -/
structure Piece where
  text : List Char
  /-- The number of spaces after the text, before the next piece. -/
  spaces : Nat
  deriving DecidableEq, Repr, Inhabited

namespace Piece

/-- Splits off the spaces at the end. -/
def ofWord (word : List Char) : Piece :=
  let text := dropEndWhile (· = ' ') word
  ⟨text, word.length - text.length⟩

def source (p : Piece) : List Char :=
  p.text ++ List.replicate p.spaces ' '

end Piece

/-- Columns taken by a text, not counting escape sequences. -/
def textColumns (cs : List Char) : Nat :=
  (cs.zip (Escape.visible cs)).foldr
    (fun (c, shown) total => (if shown then columns c else 0) + total) 0

def Piece.width (p : Piece) : Nat :=
  textColumns p.text

/-- Cuts a list after every element marked `true`; no part is empty. -/
def cutAfter {α : Type} : List (α × Bool) → List (List α)
  | [] => []
  | (x, cut) :: rest =>
      if cut then [x] :: cutAfter rest
      else
        match cutAfter rest with
        | [] => [[x]]
        | part :: parts => (x :: part) :: parts

/-! ### Words -/

/-- Whether a line may be cut after a character that allows it: not after a hyphen, which has its
own rule, nor after a soft hyphen. -/
def keepsCut (c : Char) : Bool :=
  c ≠ '-' && c ≠ '\u00AD'

/-- Withdraws the last of the cuts. -/
def dropLastCut (cuts : List Bool) : List Bool :=
  let trailing := cuts.reverse.takeWhile (· = false)
  match cuts.reverse.dropWhile (· = false) with
  | [] => cuts
  | _ :: before => before.reverse ++ false :: trailing

/-- Puts a mark for each visible character back among the characters of escape sequences, which
are not marked. -/
def spreadCuts : List Bool → List Bool → List Bool
  | [], _ => []
  | true :: shown, cut :: cuts => cut :: spreadCuts shown cuts
  | true :: shown, [] => false :: spreadCuts shown []
  | false :: shown, cuts => false :: spreadCuts shown cuts

/-- The words of a line, each with the spaces after it. -/
def words (line : List Char) : List (List Char) :=
  let shown := Escape.visible line
  let plain := ((line.zip shown).filter Prod.snd).map Prod.fst
  let cuts := (plain.zip (LineBreak.opportunities plain)).map fun (c, ok) => ok && keepsCut c
  cutAfter (line.zip (spreadCuts shown (dropLastCut cuts)))

/-! ### Pieces -/

/-- For each character of a word, whether it is a hyphen between two letters or numbers. -/
def hyphenCutsFrom (before : Option Char) : List Char → List Bool
  | [] => []
  | c :: rest =>
      (c = '-' && before.any isAlphanumeric && rest.head?.any isAlphanumeric) ::
        hyphenCutsFrom (some c) rest

/-- Divides a word after its inner hyphens; the spaces stay with the last part. -/
def splitAtHyphens (word : Piece) : List Piece :=
  match cutAfter (word.text.zip (hyphenCutsFrom none word.text)) with
  | [] => [word]
  | parts => parts.dropLast.map (⟨·, 0⟩) ++ parts.getLast?.toList.map (⟨·, word.spaces⟩)

/-- For each character of a piece, whether it begins a new one because the columns so far are
exhausted. -/
def overflowsFrom (limit used : Nat) : List (Char × Bool) → List Bool
  | [] => []
  | (c, shown) :: rest =>
      if !shown then false :: overflowsFrom limit used rest
      else if used > 0 && used + columns c > limit then
        true :: overflowsFrom limit (columns c) rest
      else false :: overflowsFrom limit (used + columns c) rest

/-- Cuts a list before every element marked `true`. -/
def cutBefore {α : Type} (marked : List (α × Bool)) : List (List α) :=
  let cuts := marked.map Prod.snd
  cutAfter ((marked.map Prod.fst).zip (cuts.drop 1 ++ [false]))

/-- Divides a piece wider than the limit into pieces that are as wide as possible. -/
def breakApart (limit : Nat) (piece : Piece) : List Piece :=
  if piece.width ≤ limit then [piece]
  else
    let marks := overflowsFrom limit 0 (piece.text.zip (Escape.visible piece.text))
    let parts := cutBefore (piece.text.zip marks)
    parts.dropLast.map (⟨·, 0⟩) ++ parts.getLast?.toList.map (⟨·, piece.spaces⟩)

def pieces (limit : Nat) (line : List Char) : List Piece :=
  (words line).flatMap fun word => (splitAtHyphens (.ofWord word)).flatMap (breakApart limit)

end CommandLine.Text
