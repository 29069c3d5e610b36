import CommandLine.Proofs.Text.Line
import CommandLine.Text.Wrap

/-!
# Wrapped text

Wrapping a text loses only spaces and line feeds.  However a line is cut into words and pieces, the
pieces with the spaces after them make up the line, and so do the lines that the pieces are arranged
in, whichever arrangement is the cheapest; what a line of the wrapped text lacks is the spaces at its
end.
-/

namespace CommandLine.Text

/-! ### Lists in parts -/

theorem flatten_cutAfter {α : Type} (marked : List (α × Bool)) :
    (cutAfter marked).flatten = marked.map Prod.fst := by
  induction marked with
  | nil => rfl
  | cons first rest ih =>
      obtain ⟨x, cut⟩ := first
      rw [cutAfter, List.map_cons, ← ih]
      split
      · rfl
      · cases cutAfter rest <;> rfl

theorem flatten_cutAfter_zip {α : Type} {xs : List α} {cuts : List Bool}
    (hlength : cuts.length = xs.length) : (cutAfter (xs.zip cuts)).flatten = xs := by
  rw [flatten_cutAfter, List.map_fst_zip (Nat.le_of_eq hlength.symm)]

theorem flatten_cutBefore {α : Type} (marked : List (α × Bool)) :
    (cutBefore marked).flatten = marked.map Prod.fst := by
  cases marked with
  | nil => rfl
  | cons first rest =>
      unfold cutBefore
      exact flatten_cutAfter_zip (by simp)

theorem flatten_cutBefore_zip {α : Type} {xs : List α} {cuts : List Bool}
    (hlength : cuts.length = xs.length) : (cutBefore (xs.zip cuts)).flatten = xs := by
  rw [flatten_cutBefore, List.map_fst_zip (Nat.le_of_eq hlength.symm)]

theorem flatten_cutAt {α : Type} (before : Nat) (positions : List Nat) (xs : List α) :
    (cutAt before positions xs).flatten = xs := by
  induction positions generalizing before xs with
  | nil => cases xs <;> simp [cutAt]
  | cons position rest ih =>
      rw [cutAt, List.flatten_cons, ih, List.take_append_drop]

/-! ### The end of a text -/

theorem exists_spaces_at_end (cs : List Char) :
    ∃ n, dropEndWhile (· = ' ') cs ++ List.replicate n ' ' = cs := by
  obtain ⟨tail, hcs, hspaces⟩ := exists_dropEndWhile_append (· = ' ') cs
  have htail : tail = List.replicate tail.length ' ' :=
    List.eq_replicate_iff.mpr ⟨rfl, fun c hc => of_decide_eq_true (hspaces c hc)⟩
  exact ⟨tail.length, by rw [← htail, hcs]⟩

/-! ### Pieces -/

theorem Piece.source_ofWord (word : List Char) : (Piece.ofWord word).source = word := by
  obtain ⟨n, hword⟩ := exists_spaces_at_end word
  have hlength : (dropEndWhile (· = ' ') word).length + n = word.length := by
    have hlengths := congrArg List.length hword
    simpa using hlengths
  have hspaces : word.length - (dropEndWhile (· = ' ') word).length = n := by omega
  unfold Piece.ofWord Piece.source
  dsimp only
  rw [hspaces, hword]

theorem flatMap_source_parts {parts : List (List Char)} (hparts : parts ≠ []) (spaces : Nat) :
    (parts.dropLast.map (Piece.mk · 0) ++
        parts.getLast?.toList.map (Piece.mk · spaces)).flatMap Piece.source =
      parts.flatten ++ List.replicate spaces ' ' := by
  obtain ⟨before, last, rfl⟩ := (List.eq_nil_or_concat' parts).resolve_left hparts
  simp [List.flatMap_map, Piece.source]

theorem Escape.length_visibleFrom (state : Escape.State) (cs : List Char) :
    (Escape.visibleFrom state cs).length = cs.length := by
  induction cs generalizing state with
  | nil => rfl
  | cons c cs ih => rw [Escape.visibleFrom, List.length_cons, List.length_cons, ih]

theorem length_spreadCuts (shown cuts : List Bool) :
    (spreadCuts shown cuts).length = shown.length := by
  fun_induction spreadCuts shown cuts with
  | case1 => rfl
  | case2 shown cut cuts ih => rw [List.length_cons, ih, List.length_cons]
  | case3 shown ih => rw [List.length_cons, ih, List.length_cons]
  | case4 shown cuts ih => rw [List.length_cons, ih, List.length_cons]

theorem length_hyphenCutsFrom (before : Option Char) (cs : List Char) :
    (hyphenCutsFrom before cs).length = cs.length := by
  induction cs generalizing before with
  | nil => rfl
  | cons c cs ih => rw [hyphenCutsFrom, List.length_cons, List.length_cons, ih]

theorem length_overflowsFrom (limit used : Nat) (cs : List (Char × Bool)) :
    (overflowsFrom limit used cs).length = cs.length := by
  induction cs generalizing used with
  | nil => rfl
  | cons first cs ih =>
      obtain ⟨c, shown⟩ := first
      rw [overflowsFrom]
      split
      · rw [List.length_cons, ih, List.length_cons]
      · split <;> rw [List.length_cons, ih, List.length_cons]

theorem flatten_words (line : List Char) : (words line).flatten = line := by
  apply flatten_cutAfter_zip
  rw [length_spreadCuts]
  exact Escape.length_visibleFrom _ line

theorem flatMap_source_splitAtHyphens (word : Piece) :
    (splitAtHyphens word).flatMap Piece.source = word.source := by
  have hflatten := flatten_cutAfter_zip (length_hyphenCutsFrom none word.text)
  unfold splitAtHyphens
  split
  · rw [List.flatMap_singleton]
  · next hparts =>
      rw [flatMap_source_parts hparts, hflatten]
      rfl

theorem flatMap_source_breakApart (limit : Nat) (piece : Piece) :
    (breakApart limit piece).flatMap Piece.source = piece.source := by
  unfold breakApart
  split
  · rw [List.flatMap_singleton]
  · next hwide =>
      have hlength : (overflowsFrom limit 0 (piece.text.zip (Escape.visible piece.text))).length =
          piece.text.length := by
        rw [length_overflowsFrom, List.length_zip, Escape.visible, Escape.length_visibleFrom,
          Nat.min_self]
      have hflatten := flatten_cutBefore_zip hlength
      have hparts : cutBefore (piece.text.zip
          (overflowsFrom limit 0 (piece.text.zip (Escape.visible piece.text)))) ≠ [] := by
        intro hnil
        rw [hnil] at hflatten
        apply hwide
        simp [Piece.width, ← hflatten, textColumns]
      dsimp only
      rw [flatMap_source_parts hparts, hflatten]
      rfl

/-- The pieces of one word. -/
def wordPieces (limit : Nat) (word : List Char) : List Piece :=
  (splitAtHyphens (.ofWord word)).flatMap (breakApart limit)

theorem flatMap_source_wordPieces (limit : Nat) (word : List Char) :
    (wordPieces limit word).flatMap Piece.source = word := by
  unfold wordPieces
  rw [List.flatMap_assoc]
  simp only [flatMap_source_breakApart]
  rw [flatMap_source_splitAtHyphens, Piece.source_ofWord]

theorem pieces_eq (limit : Nat) (line : List Char) :
    pieces limit line = (words line).flatMap (wordPieces limit) :=
  rfl

theorem flatMap_source_pieces (limit : Nat) (line : List Char) :
    (pieces limit line).flatMap Piece.source = line := by
  rw [pieces_eq, List.flatMap_assoc]
  simp only [flatMap_source_wordPieces]
  rw [List.flatMap_id', flatten_words]

/-! ### Lines -/

/-- The texts are the parts of a line without the spaces behind each of them. -/
inductive Covers : List (List Char) → List Char → Prop
  | nil : Covers [] []
  | cons {text line : List Char} {texts : List (List Char)} (spaces : Nat) :
      Covers texts line → Covers (text :: texts) (text ++ List.replicate spaces ' ' ++ line)

theorem exists_lineText_append (line : List Piece) :
    ∃ n, lineText line ++ List.replicate n ' ' = line.flatMap Piece.source := by
  rcases List.eq_nil_or_concat' line with rfl | ⟨before, last, rfl⟩
  · exact ⟨0, rfl⟩
  · exact ⟨last.spaces, by simp [lineText, Piece.source]⟩

theorem covers_map_lineText (lines : List (List Piece)) :
    Covers (lines.map lineText) (lines.flatten.flatMap Piece.source) := by
  induction lines with
  | nil => exact .nil
  | cons line rest ih =>
      obtain ⟨n, hline⟩ := exists_lineText_append line
      rw [List.map_cons, List.flatten_cons, List.flatMap_append, ← hline]
      exact .cons n ih

theorem wrapLine_covers (limit : Nat) (line : List Char) : Covers (wrapLine limit line) line := by
  unfold wrapLine
  split
  -- a line that is short enough is one text; any other is made of the pieces as arranged
  · obtain ⟨n, hline⟩ := exists_spaces_at_end line
    have hcovers : Covers [dropEndWhile (· = ' ') line]
        (dropEndWhile (· = ' ') line ++ List.replicate n ' ' ++ []) := .cons n .nil
    rwa [hline, List.append_nil] at hcovers
  · have hcovers := covers_map_lineText (arrange limit (pieces limit line))
    unfold arrange at hcovers ⊢
    rwa [flatten_cutAt, flatMap_source_pieces] at hcovers

theorem wrapLine_ne_nil {limit : Nat} (hlimit : 0 < limit) (line : List Char) :
    wrapLine limit line ≠ [] := by
  intro hnil
  have hcovers := wrapLine_covers limit line
  rw [hnil] at hcovers
  cases hcovers
  -- an empty line is short, and is kept as it is
  have hshort : (String.ofList []).utf8ByteSize < limit := hlimit
  unfold wrapLine at hnil
  rw [if_pos hshort] at hnil
  contradiction

/-! ### Texts -/

theorem Covers.append {texts others : List (List Char)} {line other : List Char}
    (hcovers : Covers texts line) (hothers : Covers others other) :
    Covers (texts ++ others) (line ++ other) := by
  induction hcovers with
  | nil => exact hothers
  | cons spaces _ ih =>
      rw [List.cons_append, List.append_assoc]
      exact .cons spaces ih

theorem Covers.mem_of_mem {texts : List (List Char)} {line text : List Char} {c : Char}
    (hcovers : Covers texts line) (htext : text ∈ texts) (hc : c ∈ text) : c ∈ line := by
  induction hcovers with
  | nil => cases htext
  | cons spaces _ ih =>
      rcases List.mem_cons.mp htext with rfl | hrest
      · simp [hc]
      · simp [ih hrest]

theorem wrap_covers (limit : Nat) (text : List Char) :
    Covers (wrap limit text) (piecesAt '\n' text).flatten := by
  unfold wrap
  induction piecesAt '\n' text with
  | nil => exact .nil
  | cons line rest ih =>
      rw [List.flatMap_cons, List.flatten_cons]
      exact (wrapLine_covers limit line).append ih

theorem wrap_ne_nil {limit : Nat} (hlimit : 0 < limit) (text : List Char) :
    wrap limit text ≠ [] := by
  obtain ⟨line, rest, hlines⟩ := exists_piecesAt_eq_cons '\n' text
  unfold wrap
  rw [hlines, List.flatMap_cons]
  exact List.append_ne_nil_of_left_ne_nil (wrapLine_ne_nil hlimit line) _

theorem lineFeed_notMem_of_mem_wrap {limit : Nat} {text line : List Char}
    (hline : line ∈ wrap limit text) : '\n' ∉ line := by
  intro hfeed
  have hflatten := (wrap_covers limit text).mem_of_mem hline hfeed
  obtain ⟨piece, hpiece, hmem⟩ := List.mem_flatten.mp hflatten
  exact notMem_of_mem_piecesAt hpiece hmem

/-- A text without its spaces and line feeds. -/
def unspaced (cs : List Char) : List Char :=
  cs.filter fun c => c ≠ ' ' ∧ c ≠ '\n'

theorem unspaced_append (first second : List Char) :
    unspaced (first ++ second) = unspaced first ++ unspaced second :=
  List.filter_append first second

theorem unspaced_spaces (n : Nat) : unspaced (List.replicate n ' ') = [] := by
  simp [unspaced]

theorem Covers.unspaced_flatten {texts : List (List Char)} {line : List Char}
    (hcovers : Covers texts line) : unspaced texts.flatten = unspaced line := by
  induction hcovers with
  | nil => rfl
  | cons spaces _ ih =>
      rw [List.flatten_cons, unspaced_append, ih, unspaced_append, unspaced_append,
        unspaced_spaces, List.append_nil]

theorem unspaced_flatten_piecesAt (cs : List Char) :
    unspaced (piecesAt '\n' cs).flatten = unspaced cs := by
  induction cs with
  | nil => rfl
  | cons c cs ih =>
      by_cases hc : c = '\n'
      · subst c
        rw [piecesAt_cons_mark, List.flatten_cons, List.nil_append, ih]
        rfl
      · obtain ⟨piece, rest, hpieces⟩ := exists_piecesAt_eq_cons '\n' cs
        have hflatten : (piecesAt '\n' (c :: cs)).flatten = [c] ++ (piecesAt '\n' cs).flatten := by
          rw [piecesAt_cons_other hc hpieces, hpieces]
          rfl
        rw [hflatten, unspaced_append, ih, ← unspaced_append, List.singleton_append]

/-- Wrapping loses nothing but spaces and line feeds. -/
theorem unspaced_flatten_wrap (limit : Nat) (text : List Char) :
    unspaced (wrap limit text).flatten = unspaced text := by
  rw [(wrap_covers limit text).unspaced_flatten, unspaced_flatten_piecesAt]

end CommandLine.Text
