/-!
# Splitting text into tokens

A text is split at delimiter characters.  A double quote switches quoting on or off, and a delimiter
inside quotes is an ordinary character; the quotes themselves are dropped, and so are empty tokens.
A quote that is never closed protects the rest of the text.
-/

namespace CommandLine.Token

/-- Reads on in a token of which `held` has been read, last character first, up to the delimiter
that ends it: the token, and what follows that delimiter.  Delimiters before a token are passed
over. -/
def scan (delimiters : List Char) (quoted : Bool) (held : List Char) :
    List Char → Option (List Char × List Char)
  | [] => if held.isEmpty then none else some (held.reverse, [])
  | c :: rest =>
      if c = '"' then scan delimiters (!quoted) held rest
      else if !quoted && delimiters.contains c then
        if held.isEmpty then scan delimiters quoted held rest else some (held.reverse, rest)
      else scan delimiters quoted (c :: held) rest

/-- The first token of a text and what follows it, if there is a token. -/
def next? (delimiters : List Char) (cs : List Char) : Option (List Char × List Char) :=
  scan delimiters false [] cs

theorem scan_length {delimiters : List Char} {quoted : Bool} {held cs token rest : List Char}
    (h : scan delimiters quoted held cs = some (token, rest)) :
    rest.length ≤ cs.length ∧ (held = [] → rest.length < cs.length) := by
  induction cs generalizing quoted held with
  | nil =>
      cases held with
      | nil => simp [scan] at h
      | cons c held =>
          obtain ⟨-, rfl⟩ := by simpa [scan] using h
          simp
  | cons c cs ih =>
      rw [scan] at h
      split at h
      · have := ih h; simp only [List.length_cons]; omega
      · split at h
        · split at h
          · have := ih h; simp only [List.length_cons]; omega
          · obtain ⟨-, rfl⟩ := by simpa using h
            simp
        · have := ih h; simp only [List.length_cons]; omega

theorem length_lt_of_next? {delimiters cs token rest : List Char}
    (h : next? delimiters cs = some (token, rest)) : rest.length < cs.length :=
  (scan_length h).2 rfl

/-- All the tokens of a text, in order. -/
def splitChars (delimiters : List Char) (cs : List Char) : List (List Char) :=
  match _h : next? delimiters cs with
  | none => []
  | some (token, rest) => token :: splitChars delimiters rest
  termination_by cs.length
  decreasing_by exact length_lt_of_next? ‹_›

def split (delimiters : List Char) (s : String) : List String :=
  (splitChars delimiters s.toList).map String.ofList

end CommandLine.Token
