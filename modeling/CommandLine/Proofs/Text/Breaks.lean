import CommandLine.Proofs.Text.Wrap
import Mathlib.Data.List.Chain

/-!
# Breaks beside spaces

A line of text is never broken between two spaces.  A run of spaces may still become a piece of its
own, at the beginning of the line or behind a character that ends a line by itself; but then no other
spaces come right before it.  No piece ends in a space unless it is cut from a text that is too wide
for a line and has spaces in it.
-/

namespace CommandLine.Text

/-- No mark stands between two spaces. -/
def KeepsSpaces : List Char → List Bool → Prop
  | c :: cs, cut :: cuts => (c = ' ' → cs.head? = some ' ' → cut = false) ∧ KeepsSpaces cs cuts
  | _, _ => True

theorem keepsSpaces_nil_right (cs : List Char) : KeepsSpaces cs [] := by
  cases cs <;> trivial

/-! ### Line break opportunities -/

namespace LineBreak

theorem classOf_space : classOf ' ' = .space := by decide +kernel

theorem Situation.allows_space_eq_false {s : Situation} (hlast : s.last = .space)
    (hpaired : s.paired = false) (after : Option Class) : s.allows .space after = false := by
  simp [Situation.allows, hlast, hpaired, Class.endsLine]

theorem keepsSpaces_opportunitiesFrom {c : Char} {s : Situation}
    (hspace : c = ' ' → s.last = .space ∧ s.paired = false) (cs : List Char) :
    KeepsSpaces (c :: cs) (opportunitiesFrom s (cs.map classOf) ++ [true]) := by
  induction cs generalizing c s with
  | nil => simp [opportunitiesFrom, KeepsSpaces]
  | cons next rest ih =>
      refine ⟨?_, ih ?_⟩
      · intro hc hnext
        obtain ⟨hlast, hpaired⟩ := hspace hc
        have hclass : classOf next = .space := by
          rw [Option.some.inj hnext, classOf_space]
        rw [hclass]
        exact Situation.allows_space_eq_false hlast hpaired _
      · rintro rfl
        rw [classOf_space]
        exact ⟨rfl, rfl⟩

theorem keepsSpaces_opportunities (cs : List Char) : KeepsSpaces cs (opportunities cs) := by
  cases cs with
  | nil => trivial
  | cons c rest =>
      apply keepsSpaces_opportunitiesFrom
      rintro rfl
      rw [classOf_space]
      exact ⟨rfl, rfl⟩

end LineBreak

/-! ### Marks -/

/-- Some of the marks are withdrawn, and none is added. -/
def Withdraws (fewer cuts : List Bool) : Prop :=
  List.Forall₂ (fun kept cut => cut = false → kept = false) fewer cuts

theorem Withdraws.refl (cuts : List Bool) : Withdraws cuts cuts :=
  List.forall₂_same.mpr fun _ _ hcut => hcut

theorem exists_trailing (cuts : List Bool) :
    ∃ n, cuts.reverse.takeWhile (fun cut => decide (cut = false)) = List.replicate n false := by
  refine ⟨_, List.eq_replicate_iff.mpr ⟨rfl, ?_⟩⟩
  intro cut hcut
  simpa using List.mem_takeWhile_imp hcut

theorem withdraws_dropLastCut (cuts : List Bool) : Withdraws (dropLastCut cuts) cuts := by
  obtain ⟨n, htrailing⟩ := exists_trailing cuts
  have hsplit := List.takeWhile_append_dropWhile (p := fun cut => decide (cut = false))
    (l := cuts.reverse)
  unfold dropLastCut
  dsimp only
  rw [htrailing] at hsplit ⊢
  split
  · exact .refl cuts
  · next last before hdrop =>
      have hcuts : cuts = before.reverse ++ last :: List.replicate n false := by
        rw [← List.reverse_reverse cuts, ← hsplit, hdrop]
        simp
      rw [hcuts]
      have hbefore := Withdraws.refl before.reverse
      have hbehind := Withdraws.refl (List.replicate n false)
      exact List.rel_append hbefore (.cons (fun _ => rfl) hbehind)

theorem KeepsSpaces.withdrawn {cs : List Char} {fewer cuts : List Bool}
    (hkeeps : KeepsSpaces cs cuts) (hfewer : Withdraws fewer cuts) : KeepsSpaces cs fewer := by
  induction hfewer generalizing cs with
  | nil => exact hkeeps
  | cons hcut _ ih =>
      cases cs with
      | nil => trivial
      | cons c cs =>
          refine ⟨?_, ih hkeeps.2⟩
          intro hc hnext
          exact hcut (hkeeps.1 hc hnext)

theorem KeepsSpaces.map_zip {cs : List Char} {cuts : List Bool} (hkeeps : KeepsSpaces cs cuts)
    (kept : Char → Bool) :
    KeepsSpaces cs ((cs.zip cuts).map fun (c, ok) => ok && kept c) := by
  induction cs generalizing cuts with
  | nil => trivial
  | cons c cs ih =>
      cases cuts with
      | nil => trivial
      | cons cut cuts =>
          refine ⟨?_, ih hkeeps.2⟩
          intro hc hnext
          have hcut := hkeeps.1 hc hnext
          simp [hcut]

/-- The characters of a text that are outside of all escape sequences. -/
def shownFrom (state : Escape.State) (cs : List Char) : List Char :=
  ((cs.zip (Escape.visibleFrom state cs)).filter Prod.snd).map Prod.fst

theorem shownFrom_cons (state : Escape.State) (c : Char) (cs : List Char) :
    shownFrom state (c :: cs) =
      if state = .outside ∧ c ≠ '\x1b' then c :: shownFrom .outside cs
      else shownFrom (Escape.step state c) cs := by
  unfold shownFrom
  rw [Escape.visibleFrom, List.zip_cons_cons, List.filter_cons]
  by_cases hvisible : state = .outside ∧ c ≠ '\x1b'
  · obtain ⟨rfl, hc⟩ := hvisible
    simp [hc, Escape.step]
  · simp [hvisible]

theorem KeepsSpaces.spread {state : Escape.State} {line : List Char} {cuts : List Bool}
    (hkeeps : KeepsSpaces (shownFrom state line) cuts) :
    KeepsSpaces line (spreadCuts (Escape.visibleFrom state line) cuts) := by
  induction line generalizing state cuts with
  | nil => trivial
  | cons c rest ih =>
      rw [shownFrom_cons] at hkeeps
      rw [Escape.visibleFrom]
      by_cases hvisible : state = .outside ∧ c ≠ '\x1b'
      · obtain ⟨rfl, hc⟩ := hvisible
        have hstep : Escape.step .outside c = .outside := by simp [Escape.step, hc]
        have hshown : (decide (Escape.State.outside = .outside) && decide (c ≠ '\x1b')) = true := by
          simpa using hc
        rw [if_pos ⟨rfl, hc⟩] at hkeeps
        rw [hshown, hstep]
        cases cuts with
        | nil => exact ⟨fun _ _ => rfl, ih (keepsSpaces_nil_right _)⟩
        | cons cut cuts =>
            refine ⟨?_, ih hkeeps.2⟩
            -- the next space is outside of escape sequences as well
            intro hspace hnext
            obtain ⟨later, rfl⟩ := List.head?_eq_some_iff.mp hnext
            refine hkeeps.1 hspace ?_
            rw [shownFrom_cons, if_pos (by decide)]
            rfl
      · rw [if_neg hvisible] at hkeeps
        have hhidden : (decide (state = .outside) && decide (c ≠ '\x1b')) = false := by
          simpa using hvisible
        rw [hhidden]
        exact ⟨fun _ _ => rfl, ih hkeeps⟩

/-! ### Words -/

theorem mem_cutAfter_cons_cases {α : Type} {x : α} {cut : Bool} {rest : List (α × Bool)}
    {part : List α} (hpart : part ∈ cutAfter ((x, cut) :: rest)) :
    (part = [x] ∧ (cut = true ∨ rest = [])) ∨ (∃ next ∈ cutAfter rest, part = x :: next) ∨
      part ∈ cutAfter rest := by
  rw [cutAfter] at hpart
  split at hpart
  · next hcut =>
      rcases List.mem_cons.mp hpart with rfl | hlater
      · exact .inl ⟨rfl, .inl hcut⟩
      · exact .inr (.inr hlater)
  · split at hpart
    · next hnone =>
        have hrest : rest = [] := by
          rw [← List.map_eq_nil_iff (f := Prod.fst), ← flatten_cutAfter, hnone, List.flatten_nil]
        exact .inl ⟨List.mem_singleton.mp hpart, .inr hrest⟩
    · next next parts hparts =>
        rw [hparts]
        rcases List.mem_cons.mp hpart with rfl | hlater
        · exact .inr (.inl ⟨next, List.mem_cons_self, rfl⟩)
        · exact .inr (.inr (List.mem_cons_of_mem _ hlater))

theorem ne_nil_of_mem_cutAfter {α : Type} {marked : List (α × Bool)} {part : List α}
    (hpart : part ∈ cutAfter marked) : part ≠ [] := by
  induction marked with
  | nil => cases hpart
  | cons first rest ih =>
      rcases mem_cutAfter_cons_cases hpart with ⟨rfl, -⟩ | ⟨next, -, rfl⟩ | hlater
      · exact List.cons_ne_nil _ _
      · exact List.cons_ne_nil _ _
      · exact ih hlater

theorem head?_of_cutAfter_eq_cons {α : Type} {marked : List (α × Bool)} {part : List α}
    {parts : List (List α)} (hparts : cutAfter marked = part :: parts) :
    part.head? = (marked.map Prod.fst).head? := by
  have hne : part ≠ [] := ne_nil_of_mem_cutAfter (by rw [hparts]; exact List.mem_cons_self)
  rw [← flatten_cutAfter, hparts, List.flatten_cons, List.head?_append_of_ne_nil _ hne]

/-- Of two neighbours the second begins with no space if the first ends in one. -/
def SpacesApart (parts : List (List Char)) : Prop :=
  parts.IsChain fun first second => first.getLast? = some ' ' → second.head? ≠ some ' '

theorem head?_eq_of_cutAfter_zip {cs part : List Char} {cuts : List Bool}
    {parts : List (List Char)} {c : Char} (hparts : cutAfter (cs.zip cuts) = part :: parts)
    (hc : part.head? = some c) : cs.head? = some c := by
  rw [head?_of_cutAfter_eq_cons hparts] at hc
  cases cs with
  | nil => simp at hc
  | cons first rest => cases cuts <;> simp_all

theorem KeepsSpaces.spacesApart {cs : List Char} {cuts : List Bool} (hkeeps : KeepsSpaces cs cuts) :
    SpacesApart (cutAfter (cs.zip cuts)) := by
  induction cs generalizing cuts with
  | nil => exact .nil
  | cons c cs ih =>
      cases cuts with
      | nil => exact .nil
      | cons cut cuts =>
          have hrest := ih hkeeps.2
          rw [List.zip_cons_cons, cutAfter]
          cases hparts : cutAfter (cs.zip cuts) with
          | nil => cases cut <;> exact .singleton _
          | cons part parts =>
              rw [hparts] at hrest
              cases cut with
              | true =>
                  refine .cons_cons ?_ hrest
                  intro hc hpart
                  have hcut := hkeeps.1 (by simpa using hc) (head?_eq_of_cutAfter_zip hparts hpart)
                  contradiction
              -- a part that grows at its front ends as before
              | false =>
                  have hmem : part ∈ cutAfter (cs.zip cuts) := by simp [hparts]
                  have hne : part ≠ [] := ne_nil_of_mem_cutAfter hmem
                  obtain ⟨d, ds, rfl⟩ := List.exists_cons_of_ne_nil hne
                  obtain ⟨hnext, hlater⟩ := List.isChain_cons.mp hrest
                  refine List.isChain_cons.mpr ⟨?_, hlater⟩
                  intro next hmem hlast
                  rw [List.getLast?_cons_cons] at hlast
                  exact hnext next hmem hlast

theorem words_spacesApart (line : List Char) : SpacesApart (words line) := by
  apply KeepsSpaces.spacesApart
  apply KeepsSpaces.spread
  refine KeepsSpaces.withdrawn ?_ (withdraws_dropLastCut _)
  exact (LineBreak.keepsSpaces_opportunities _).map_zip keepsCut

theorem ne_nil_of_mem_words {line word : List Char} (hword : word ∈ words line) : word ≠ [] :=
  ne_nil_of_mem_cutAfter hword

/-! ### Pieces -/

/-- A part of a piece has text if the whole has, and no more spaces behind it. -/
structure Piece.IsPartOf (part whole : Piece) : Prop where
  whole_blank : part.text = [] → whole.text = []
  spaces_le : part.spaces ≤ whole.spaces

theorem Piece.IsPartOf.refl (piece : Piece) : piece.IsPartOf piece :=
  ⟨id, Nat.le_refl _⟩

theorem Piece.IsPartOf.trans {part middle whole : Piece} (hpart : part.IsPartOf middle)
    (hmiddle : middle.IsPartOf whole) : part.IsPartOf whole :=
  ⟨fun hblank => hmiddle.whole_blank (hpart.whole_blank hblank),
    Nat.le_trans hpart.spaces_le hmiddle.spaces_le⟩

theorem Piece.text_mem_of_mem_parts {parts : List (List Char)} {spaces : Nat} {part : Piece}
    (hpart : part ∈ parts.dropLast.map (Piece.mk · 0) ++
      parts.getLast?.toList.map (Piece.mk · spaces)) : part.text ∈ parts ∧ part.spaces ≤ spaces := by
  rcases List.mem_append.mp hpart with hbefore | hlast
  · obtain ⟨text, htext, rfl⟩ := List.mem_map.mp hbefore
    exact ⟨List.dropLast_subset _ htext, Nat.zero_le _⟩
  · obtain ⟨text, htext, rfl⟩ := List.mem_map.mp hlast
    exact ⟨List.mem_of_getLast? (Option.mem_toList.mp htext), Nat.le_refl _⟩

theorem Piece.isPartOf_of_mem_parts {parts : List (List Char)} {whole part : Piece}
    (hne : ∀ text ∈ parts, text ≠ [])
    (hpart : part ∈ parts.dropLast.map (Piece.mk · 0) ++
      parts.getLast?.toList.map (Piece.mk · whole.spaces)) : part.IsPartOf whole := by
  obtain ⟨htext, hspaces⟩ := Piece.text_mem_of_mem_parts hpart
  exact ⟨fun hblank => absurd hblank (hne part.text htext), hspaces⟩

theorem isPartOf_of_mem_splitAtHyphens {word part : Piece} (hpart : part ∈ splitAtHyphens word) :
    part.IsPartOf word := by
  unfold splitAtHyphens at hpart
  split at hpart
  · rw [List.mem_singleton.mp hpart]
    exact .refl word
  · exact Piece.isPartOf_of_mem_parts (fun _ => ne_nil_of_mem_cutAfter) hpart

theorem isPartOf_of_mem_breakApart {limit : Nat} {piece part : Piece}
    (hpart : part ∈ breakApart limit piece) : part.IsPartOf piece := by
  unfold breakApart at hpart
  split at hpart
  · rw [List.mem_singleton.mp hpart]
    exact .refl piece
  · exact Piece.isPartOf_of_mem_parts (fun _ => ne_nil_of_mem_cutAfter) hpart

theorem isPartOf_of_mem_wordPieces {limit : Nat} {word : List Char} {piece : Piece}
    (hpiece : piece ∈ wordPieces limit word) : piece.IsPartOf (.ofWord word) := by
  obtain ⟨part, hpart, hmem⟩ := List.mem_flatMap.mp hpiece
  exact (isPartOf_of_mem_breakApart hmem).trans (isPartOf_of_mem_splitAtHyphens hpart)

theorem wordPieces_of_blank {limit : Nat} {word : List Char}
    (hblank : (Piece.ofWord word).text = []) : wordPieces limit word = [.ofWord word] := by
  have hsplit : splitAtHyphens (.ofWord word) = [.ofWord word] := by
    unfold splitAtHyphens
    rw [hblank]
    rfl
  have hnarrow : (Piece.ofWord word).width ≤ limit := by
    unfold Piece.width
    rw [hblank]
    exact Nat.zero_le limit
  unfold wordPieces breakApart
  rw [hsplit, List.flatMap_singleton, if_pos hnarrow]

theorem wordPieces_ne_nil (limit : Nat) {word : List Char} (hne : word ≠ []) :
    wordPieces limit word ≠ [] := by
  intro hnil
  have hsource := flatMap_source_wordPieces limit word
  rw [hnil] at hsource
  exact hne hsource.symm

theorem head?_of_ofWord_blank {word : List Char} (hne : word ≠ [])
    (hblank : (Piece.ofWord word).text = []) : word.head? = some ' ' := by
  have hsource := Piece.source_ofWord word
  unfold Piece.source at hsource
  rw [hblank, List.nil_append] at hsource
  rw [← hsource] at hne ⊢
  have hspaces : (Piece.ofWord word).spaces ≠ 0 := by
    intro hnone
    rw [hnone] at hne
    exact hne rfl
  rw [List.head?_replicate, if_neg hspaces]

theorem spaces_ofWord_eq_zero {word : List Char} (hlast : word.getLast? ≠ some ' ') :
    (Piece.ofWord word).spaces = 0 := by
  by_contra hspaces
  have hsource := Piece.source_ofWord word
  unfold Piece.source at hsource
  rw [← hsource, List.getLast?_append, List.getLast?_replicate, if_neg hspaces] at hlast
  exact hlast rfl

/-- A piece without text comes right behind the text of the piece before it. -/
def BlanksTight (ps : List Piece) : Prop :=
  ps.IsChain fun before piece => piece.text = [] → before.spaces = 0

theorem wordPieces_blanksTight (limit : Nat) (word : List Char) :
    BlanksTight (wordPieces limit word) := by
  by_cases hblank : (Piece.ofWord word).text = []
  · rw [wordPieces_of_blank hblank]
    exact .singleton _
  · apply List.Pairwise.isChain
    apply List.pairwise_of_forall_mem_list
    intro before _ piece hpiece htext
    exact absurd ((isPartOf_of_mem_wordPieces hpiece).whole_blank htext) hblank

theorem pieces_blanksTight (limit : Nat) (line : List Char) : BlanksTight (pieces limit line) := by
  have hnil : [] ∉ (words line).map (wordPieces limit) := by
    intro hmem
    obtain ⟨word, hword, hpieces⟩ := List.mem_map.mp hmem
    exact wordPieces_ne_nil limit (ne_nil_of_mem_words hword) hpieces
  rw [pieces_eq, List.flatMap_def]
  refine (List.isChain_flatten hnil).mpr ⟨?_, ?_⟩
  · intro ps hps
    obtain ⟨word, -, rfl⟩ := List.mem_map.mp hps
    exact wordPieces_blanksTight limit word
  · rw [List.isChain_map]
    refine List.IsChain.imp_of_mem_imp ?_ (words_spacesApart line)
    -- a word of spaces only begins with one, so the word before it ends without
    intro first second _ hsecond happart before hbefore piece hpiece htext
    have hblank := (isPartOf_of_mem_wordPieces (List.mem_of_head? hpiece)).whole_blank htext
    have hhead := head?_of_ofWord_blank (ne_nil_of_mem_words hsecond) hblank
    have hlast : first.getLast? ≠ some ' ' := fun hspace => happart hspace hhead
    have hle := (isPartOf_of_mem_wordPieces (List.mem_of_getLast? hbefore)).spaces_le
    rw [spaces_ofWord_eq_zero hlast] at hle
    exact Nat.le_zero.mp hle

/-- The first piece of a line has text unless the line begins with a space. -/
theorem text_ne_nil_of_head?_pieces {limit : Nat} {line : List Char} {piece : Piece}
    (hline : line.head? ≠ some ' ') (hpiece : (pieces limit line).head? = some piece) :
    piece.text ≠ [] := by
  intro htext
  have hwords := flatten_words line
  rw [pieces_eq] at hpiece
  cases hcases : words line with
  | nil => simp [hcases] at hpiece
  | cons word rest =>
      have hmem : word ∈ words line := by simp [hcases]
      have hne : word ≠ [] := ne_nil_of_mem_words hmem
      rw [hcases, List.flatMap_cons,
        List.head?_append_of_ne_nil _ (wordPieces_ne_nil limit hne)] at hpiece
      have hblank := (isPartOf_of_mem_wordPieces (List.mem_of_head? hpiece)).whole_blank htext
      rw [← hwords, hcases, List.flatten_cons, List.head?_append_of_ne_nil _ hne] at hline
      exact hline (head?_of_ofWord_blank hne hblank)

/-! ### Ends of pieces -/

theorem getLast?_dropEndWhile_space_ne (cs : List Char) :
    (dropEndWhile (· = ' ') cs).getLast? ≠ some ' ' := by
  intro hlast
  have hhead := List.head?_dropWhile_not (fun c => decide (c = ' ')) cs.reverse
  unfold dropEndWhile at hlast
  rw [List.getLast?_reverse] at hlast
  rw [hlast] at hhead
  simp at hhead

/-- A part ends where the list is cut or where it ends. -/
theorem getLast?_of_mem_cutAfter {α : Type} {marked : List (α × Bool)} {part : List α}
    (hpart : part ∈ cutAfter marked) :
    part.getLast? = (marked.map Prod.fst).getLast? ∨
      ∃ x, (x, true) ∈ marked ∧ part.getLast? = some x := by
  induction marked generalizing part with
  | nil => cases hpart
  | cons first rest ih =>
      obtain ⟨x, cut⟩ := first
      have hlater : ∀ later ∈ cutAfter rest,
          later.getLast? = (((x, cut) :: rest).map Prod.fst).getLast? ∨
            ∃ y, (y, true) ∈ (x, cut) :: rest ∧ later.getLast? = some y := by
        intro later hmem
        rcases ih hmem with hend | ⟨y, hy, hcut⟩
        · left
          cases rest with
          | nil => cases hmem
          | cons second rest => simp only [hend, List.map_cons, List.getLast?_cons_cons]
        · exact .inr ⟨y, List.mem_cons_of_mem _ hy, hcut⟩
      rcases mem_cutAfter_cons_cases hpart with ⟨rfl, rfl | rfl⟩ | ⟨next, hnext, rfl⟩ | hmem
      · exact .inr ⟨x, List.mem_cons_self, rfl⟩
      · exact .inl rfl
      -- a part that grows at its front ends as before
      · obtain ⟨y, ys, rfl⟩ := List.exists_cons_of_ne_nil (ne_nil_of_mem_cutAfter hnext)
        rw [List.getLast?_cons_cons]
        exact hlater _ hnext
      · exact hlater part hmem

theorem eq_hyphen_of_mem_zip {before : Option Char} {cs : List Char} {c : Char}
    (hc : (c, true) ∈ cs.zip (hyphenCutsFrom before cs)) : c = '-' := by
  induction cs generalizing before with
  | nil => cases hc
  | cons first rest ih =>
      rw [hyphenCutsFrom, List.zip_cons_cons] at hc
      rcases List.mem_cons.mp hc with hfirst | hrest
      · simp_all
      · exact ih hrest

theorem getLast?_of_mem_splitAtHyphens {word part : Piece}
    (hword : word.text.getLast? ≠ some ' ') (hpart : part ∈ splitAtHyphens word) :
    part.text.getLast? ≠ some ' ' := by
  have htexts : (word.text.zip (hyphenCutsFrom none word.text)).map Prod.fst = word.text :=
    List.map_fst_zip (Nat.le_of_eq (length_hyphenCutsFrom none word.text).symm)
  unfold splitAtHyphens at hpart
  split at hpart
  · rwa [List.mem_singleton.mp hpart]
  · obtain ⟨htext, -⟩ := Piece.text_mem_of_mem_parts hpart
    rcases getLast?_of_mem_cutAfter htext with hend | ⟨c, hc, hcut⟩
    · rwa [hend, htexts]
    · rw [hcut, eq_hyphen_of_mem_zip hc]
      decide

/-- Only cutting a text with spaces that is too wide can leave a space at the end of a piece. -/
theorem getLast?_of_mem_breakApart {limit : Nat} {piece part : Piece}
    (hpiece : piece.text.getLast? ≠ some ' ') (hwhole : piece.width ≤ limit ∨ ' ' ∉ piece.text)
    (hpart : part ∈ breakApart limit piece) : part.text.getLast? ≠ some ' ' := by
  unfold breakApart at hpart
  split at hpart
  · rwa [List.mem_singleton.mp hpart]
  · next hwide =>
      intro hspace
      obtain ⟨htext, -⟩ := Piece.text_mem_of_mem_parts hpart
      have hmem := List.mem_flatten_of_mem htext (List.mem_of_getLast? hspace)
      rw [flatten_cutBefore] at hmem
      obtain ⟨⟨c, mark⟩, hc, rfl⟩ := List.mem_map.mp hmem
      exact hwhole.elim hwide fun hnone => hnone (List.of_mem_zip hc).1

/-- The parts that a line is divided into before its width counts. -/
def wordParts (line : List Char) : List Piece :=
  (words line).flatMap fun word => splitAtHyphens (.ofWord word)

theorem pieces_eq_flatMap_wordParts (limit : Nat) (line : List Char) :
    pieces limit line = (wordParts line).flatMap (breakApart limit) := by
  rw [wordParts, List.flatMap_assoc]
  rfl

/-- No part that has to be broken apart has spaces in it. -/
def BreaksNoSpaces (limit : Nat) (line : List Char) : Prop :=
  ∀ part ∈ wordParts line, part.width ≤ limit ∨ ' ' ∉ part.text

theorem getLast?_of_mem_pieces {limit : Nat} {line : List Char} {piece : Piece}
    (hline : BreaksNoSpaces limit line) (hpiece : piece ∈ pieces limit line) :
    piece.text.getLast? ≠ some ' ' := by
  rw [pieces_eq_flatMap_wordParts] at hpiece
  obtain ⟨part, hpart, hmem⟩ := List.mem_flatMap.mp hpiece
  obtain ⟨word, -, hword⟩ := List.mem_flatMap.mp hpart
  have hend := getLast?_of_mem_splitAtHyphens (getLast?_dropEndWhile_space_ne word) hword
  exact getLast?_of_mem_breakApart hend (hline part hpart) hmem

end CommandLine.Text
