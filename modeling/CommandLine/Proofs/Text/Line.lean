import CommandLine.Text.Blank
import CommandLine.Text.Lines
import CommandLine.Text.Pieces
import Mathlib.Data.List.Basic
import Mathlib.Data.List.TakeWhile

/-!
# Lines and their blanks

Cutting a text at one character undoes joining texts with that character between them, and no piece
holds it.  The lines of a text are its pieces at line feeds, apart from a carriage return at the end
of a piece and an empty piece behind the last line feed.  Trimming takes away blanks at both ends
and nothing else.
-/

namespace CommandLine.Text

/-! ### Pieces -/

theorem piecesAt_cons_mark (mark : Char) (cs : List Char) :
    piecesAt mark (mark :: cs) = [] :: piecesAt mark cs := by
  rw [piecesAt, if_pos rfl]

theorem piecesAt_cons_other {mark c : Char} {cs piece : List Char} {rest : List (List Char)}
    (hc : c ≠ mark) (hpieces : piecesAt mark cs = piece :: rest) :
    piecesAt mark (c :: cs) = (c :: piece) :: rest := by
  rw [piecesAt, if_neg hc, hpieces]

theorem exists_piecesAt_eq_cons (mark : Char) (cs : List Char) :
    ∃ piece rest, piecesAt mark cs = piece :: rest :=
  List.exists_cons_of_ne_nil (piecesAt_ne_nil mark cs)

theorem piecesAt_of_notMem {mark : Char} {cs : List Char} (hfree : mark ∉ cs) :
    piecesAt mark cs = [cs] := by
  induction cs with
  | nil => rfl
  | cons c cs ih =>
      have hc : c ≠ mark := by
        rintro rfl
        exact hfree List.mem_cons_self
      have hrest := ih fun hmem => hfree (List.mem_cons_of_mem _ hmem)
      exact piecesAt_cons_other hc hrest

/-- The pieces on both sides of a mark are those of two separate texts. -/
theorem piecesAt_append_mark (mark : Char) (first second : List Char) :
    piecesAt mark (first ++ mark :: second) = piecesAt mark first ++ piecesAt mark second := by
  induction first with
  | nil => exact piecesAt_cons_mark mark second
  | cons c cs ih =>
      by_cases hc : c = mark
      · subst c
        rw [List.cons_append, piecesAt_cons_mark, piecesAt_cons_mark, ih, List.cons_append]
      · obtain ⟨piece, rest, hpieces⟩ := exists_piecesAt_eq_cons mark cs
        have hjoined : piecesAt mark (cs ++ mark :: second) =
            piece :: (rest ++ piecesAt mark second) := by
          rw [ih, hpieces, List.cons_append]
        rw [List.cons_append, piecesAt_cons_other hc hjoined, piecesAt_cons_other hc hpieces,
          List.cons_append]

theorem notMem_of_mem_piecesAt {mark : Char} {cs piece : List Char}
    (hpiece : piece ∈ piecesAt mark cs) : mark ∉ piece := by
  induction cs generalizing piece with
  | nil =>
      have hnil : piece = [] := by
        simpa [piecesAt] using hpiece
      simp [hnil]
  | cons c cs ih =>
      by_cases hc : c = mark
      · subst c
        rw [piecesAt_cons_mark] at hpiece
        rcases List.mem_cons.mp hpiece with rfl | hrest
        · simp
        · exact ih hrest
      · obtain ⟨first, rest, hpieces⟩ := exists_piecesAt_eq_cons mark cs
        rw [piecesAt_cons_other hc hpieces] at hpiece
        rcases List.mem_cons.mp hpiece with rfl | hrest
        · have hfirst : mark ∉ first := ih (by simp [hpieces])
          simp [hfirst, Ne.symm hc]
        · exact ih (by simp [hpieces, hrest])

/-- What follows without a mark goes on in the last piece. -/
theorem exists_last_piece (mark : Char) (cs : List Char) :
    ∃ before last, ∀ tail, mark ∉ tail → piecesAt mark (cs ++ tail) = before ++ [last ++ tail] := by
  induction cs with
  | nil => exact ⟨[], [], fun tail htail => piecesAt_of_notMem htail⟩
  | cons c cs ih =>
      obtain ⟨before, last, hlast⟩ := ih
      by_cases hc : c = mark
      · subst c
        refine ⟨[] :: before, last, fun tail htail => ?_⟩
        rw [List.cons_append, piecesAt_cons_mark, hlast tail htail, List.cons_append]
      · cases before with
        | nil =>
            refine ⟨[], c :: last, fun tail htail => ?_⟩
            rw [List.cons_append, piecesAt_cons_other hc (hlast tail htail)]
            rfl
        | cons first rest =>
            refine ⟨(c :: first) :: rest, last, fun tail htail => ?_⟩
            rw [List.cons_append, piecesAt_cons_other hc (hlast tail htail)]
            rfl

/-! ### Lines -/

theorem lines_lineFeed (cs : List Char) : lines ('\n' :: cs) = [] :: lines cs := by
  rw [lines, if_pos rfl]

theorem lines_carriageReturn (cs : List Char) : lines ('\r' :: '\n' :: cs) = [] :: lines cs := by
  rw [lines, if_neg (by decide), if_pos (by simp), lines_lineFeed]

/-- The lines of a text beside its pieces at line feeds. -/
inductive Trails : List (List Char) → List (List Char) → Prop
  | ended : Trails [] [[]]
  | unended (line : List Char) : Trails [line] [line]
  | cons {line ending : List Char} {lines pieces : List (List Char)} :
      ending = [] ∨ ending = ['\r'] → Trails lines pieces →
        Trails (line :: lines) ((line ++ ending) :: pieces)

theorem Trails.of_cons {line piece : List Char} {ls pieces : List (List Char)}
    (htrails : Trails (line :: ls) (piece :: pieces)) (hpieces : pieces ≠ []) :
    Trails ls pieces := by
  cases htrails with
  | unended => exact absurd rfl hpieces
  | cons _ hrest => exact hrest

theorem Trails.cons_char {c : Char} {ls pieces : List (List Char)} {cs : List Char}
    (hc : c ≠ '\n') (hreturn : ¬ (c = '\r' && cs.head? = some '\n') = true)
    (hlines : lines cs = ls) (hpieces : piecesAt '\n' cs = pieces) (htrails : Trails ls pieces) :
    Trails (lines (c :: cs)) (piecesAt '\n' (c :: cs)) := by
  rw [lines, if_neg hc, if_neg hreturn]
  cases htrails with
  | ended =>
      rw [hlines, piecesAt_cons_other hc hpieces]
      exact .unended [c]
  | unended line =>
      rw [hlines, piecesAt_cons_other hc hpieces]
      exact .unended (c :: line)
  | cons hending hrest =>
      rw [hlines, piecesAt_cons_other hc hpieces]
      exact .cons hending hrest

theorem lines_trails (cs : List Char) : Trails (lines cs) (piecesAt '\n' cs) := by
  induction cs with
  | nil => exact .ended
  | cons c cs ih =>
      by_cases hc : c = '\n'
      · subst c
        rw [lines_lineFeed, piecesAt_cons_mark]
        exact .cons (.inl rfl) ih
      · by_cases hreturn : (c = '\r' && cs.head? = some '\n') = true
        · obtain ⟨rfl, hhead⟩ : c = '\r' ∧ cs.head? = some '\n' := by simpa using hreturn
          obtain ⟨rest, rfl⟩ := List.head?_eq_some_iff.mp hhead
          rw [lines_lineFeed, piecesAt_cons_mark] at ih
          have hpieces := piecesAt_cons_other (c := '\r') (by decide)
            (piecesAt_cons_mark '\n' rest)
          rw [lines_carriageReturn, hpieces]
          exact .cons (.inr rfl) (ih.of_cons (piecesAt_ne_nil '\n' rest))
        · exact ih.cons_char hc hreturn rfl rfl

/-- Line ends make no difference to what is read from each line without them. -/
theorem Trails.flatMap_eq {α : Type} {f : List Char → List α} {ls pieces : List (List Char)}
    (htrails : Trails ls pieces) (hnil : f [] = []) (hreturn : ∀ line, f (line ++ ['\r']) = f line) :
    ls.flatMap f = pieces.flatMap f := by
  induction htrails with
  | ended => simp [hnil]
  | unended line => rfl
  | @cons line ending ls pieces hending _ ih =>
      have hline : f (line ++ ending) = f line := by
        rcases hending with rfl | rfl
        · rw [List.append_nil]
        · exact hreturn line
      rw [List.flatMap_cons, List.flatMap_cons, hline, ih]

/-! ### Trimming -/

theorem exists_dropEndWhile_append (p : Char → Bool) (cs : List Char) :
    ∃ tail, dropEndWhile p cs ++ tail = cs ∧ ∀ c ∈ tail, p c = true := by
  refine ⟨(cs.reverse.takeWhile p).reverse, ?_, ?_⟩
  · unfold dropEndWhile
    rw [← List.reverse_append, List.takeWhile_append_dropWhile, List.reverse_reverse]
  · intro c hc
    exact List.mem_takeWhile_imp (List.mem_reverse.mp hc)

theorem trimEnd_append_blank {cs blanks : List Char}
    (hblank : ∀ c ∈ blanks, isBlank c = true) : trimEnd (cs ++ blanks) = trimEnd cs := by
  unfold trimEnd dropEndWhile
  rw [List.reverse_append, List.dropWhile_append_of_pos]
  intro c hc
  exact hblank c (List.mem_reverse.mp hc)

theorem trim_append_blank {cs blanks : List Char}
    (hblank : ∀ c ∈ blanks, isBlank c = true) : trim (cs ++ blanks) = trim cs := by
  rw [trim, trimEnd_append_blank hblank, trim]

theorem trim_of_blank {blanks : List Char} (hblank : ∀ c ∈ blanks, isBlank c = true) :
    trim blanks = [] := by
  rw [← List.nil_append blanks, trim_append_blank hblank]
  rfl

/-- Trimming at the end stops at the last character that is no blank. -/
theorem trimEnd_append_cons (cs rest : List Char) {first : Char}
    (hfirst : isBlank first = false) :
    trimEnd (cs ++ first :: rest) = cs ++ first :: trimEnd rest := by
  have hstop : (first :: cs.reverse).dropWhile isBlank = first :: cs.reverse :=
    List.dropWhile_cons_of_neg (by simp [hfirst])
  unfold trimEnd dropEndWhile
  rw [List.reverse_append, List.reverse_cons, List.append_assoc, List.singleton_append,
    List.dropWhile_append, hstop]
  cases hrest : rest.reverse.dropWhile isBlank <;> simp

theorem trimStart_append_cons {blanks cs : List Char} {first : Char}
    (hblank : ∀ c ∈ blanks, isBlank c = true) (hfirst : isBlank first = false) :
    trimStart (blanks ++ first :: cs) = first :: cs := by
  unfold trimStart
  rw [List.dropWhile_append_of_pos hblank, List.dropWhile_cons_of_neg (by simp [hfirst])]

theorem mem_of_mem_trim {cs : List Char} {c : Char} (hmem : c ∈ trim cs) : c ∈ cs := by
  have hend : c ∈ trimEnd cs := (List.dropWhile_sublist _).mem hmem
  have hreverse : c ∈ cs.reverse :=
    (List.dropWhile_sublist _).mem (List.mem_reverse.mp hend)
  exact List.mem_reverse.mp hreverse

/-- A blank behind a text adds nothing to what is read from its lines, as long as a blank at the end
of a line adds nothing to what is read from that line. -/
theorem flatMap_piecesAt_append_blank {α : Type} {f : List Char → List α} {c : Char}
    (hnil : f [] = []) (hline : ∀ line, f (line ++ [c]) = f line) (cs : List Char) :
    (piecesAt '\n' (cs ++ [c])).flatMap f = (piecesAt '\n' cs).flatMap f := by
  by_cases hfeed : c = '\n'
  · rw [hfeed, piecesAt_append_mark, List.flatMap_append, piecesAt, List.flatMap_singleton, hnil,
      List.append_nil]
  · obtain ⟨before, last, hpieces⟩ := exists_last_piece '\n' cs
    have hlong := hpieces [c] (by simpa using Ne.symm hfeed)
    have hshort := hpieces [] (by simp)
    rw [List.append_nil, List.append_nil] at hshort
    rw [hlong, hshort, List.flatMap_append, List.flatMap_append, List.flatMap_singleton,
      List.flatMap_singleton, hline]

end CommandLine.Text
