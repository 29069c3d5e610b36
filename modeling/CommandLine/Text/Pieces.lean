/-!
# Texts in pieces

Cutting a text at every occurrence of one character, such as the line feeds of a file or the slashes
of a path.
-/

namespace CommandLine.Text

/-- The pieces between occurrences of `mark`, empty ones included: one more than there are marks. -/
def piecesAt (mark : Char) : List Char → List (List Char)
  | [] => [[]]
  | c :: cs =>
      if c = mark then [] :: piecesAt mark cs
      else
        match piecesAt mark cs with
        | [] => [[c]]
        | piece :: rest => (c :: piece) :: rest

@[simp] theorem piecesAt_ne_nil (mark : Char) (cs : List Char) : piecesAt mark cs ≠ [] := by
  cases cs with
  | nil => simp [piecesAt]
  | cons c cs =>
      rw [piecesAt]
      split
      · simp
      · split <;> simp

end CommandLine.Text
