import CommandLine.Proofs.Text.Line
import Mathlib.Data.List.Induction

/-!
# Trimmed texts

Trimming takes blanks from both ends of a text, and changes nothing where there are none.  Trimmed
texts joined by spaces make up a trimmed text.  What is left of each line of a text by trimming is
the trimmed text itself if that is a single line.
-/

namespace CommandLine.Text

/-! ### Ends of a text -/

/-- No blank at either end. -/
structure Trimmed (cs : List Char) : Prop where
  first : ∀ c, cs.head? = some c → isBlank c = false
  last : ∀ c, cs.getLast? = some c → isBlank c = false

theorem trim_trimmed (cs : List Char) : Trimmed (trim cs) := by
  constructor
  · intro c hc
    have hhead := List.head?_dropWhile_not isBlank (trimEnd cs)
    unfold trim trimStart at hc
    rw [hc] at hhead
    simpa using hhead
  · intro c hc
    have hlast : (trimEnd cs).getLast? = some c := by
      rw [← List.takeWhile_append_dropWhile (p := isBlank) (l := trimEnd cs),
        List.getLast?_append]
      unfold trim trimStart at hc
      rw [hc]
      rfl
    have hhead := List.head?_dropWhile_not isBlank cs.reverse
    unfold trimEnd dropEndWhile at hlast
    rw [List.getLast?_reverse] at hlast
    rw [hlast] at hhead
    simpa using hhead

theorem Trimmed.trim_surrounded {before cs after : List Char} (htrimmed : Trimmed cs)
    (hbefore : ∀ c ∈ before, isBlank c = true) (hafter : ∀ c ∈ after, isBlank c = true) :
    trim (before ++ cs ++ after) = cs := by
  rw [trim_append_blank hafter]
  rcases List.eq_nil_or_concat' cs with rfl | ⟨initial, last, rfl⟩
  · rw [List.append_nil, trim_of_blank hbefore]
  · have hlast : isBlank last = false := htrimmed.last last (by simp)
    obtain ⟨first, rest, hcons⟩ := List.exists_cons_of_ne_nil (l := initial ++ [last]) (by simp)
    have hfirst : isBlank first = false := htrimmed.first first (by simp [hcons])
    rw [trim, ← List.append_assoc, trimEnd_append_cons (before ++ initial) [] hlast,
      List.append_assoc]
    change trimStart (before ++ (initial ++ [last])) = initial ++ [last]
    rw [hcons]
    exact trimStart_append_cons hbefore hfirst

theorem Trimmed.trim_eq {cs : List Char} (htrimmed : Trimmed cs) : trim cs = cs := by
  have hnone : ∀ c ∈ ([] : List Char), isBlank c = true := by simp
  simpa using htrimmed.trim_surrounded hnone hnone

theorem exists_trim_between (cs : List Char) :
    ∃ before after, before ++ trim cs ++ after = cs ∧ (∀ c ∈ before, isBlank c = true) ∧
      ∀ c ∈ after, isBlank c = true := by
  obtain ⟨after, hcs, hafter⟩ := exists_dropEndWhile_append isBlank cs
  refine ⟨(trimEnd cs).takeWhile isBlank, after, ?_, ?_, hafter⟩
  · unfold trim trimStart
    rw [List.takeWhile_append_dropWhile]
    exact hcs
  · intro c hc
    exact List.mem_takeWhile_imp hc

/-! ### Texts with spaces between them -/

theorem intercalate_ne_nil {parts : List (List Char)} (hparts : parts ≠ [])
    (hne : ∀ part ∈ parts, part ≠ []) : [' '].intercalate parts ≠ [] := by
  cases parts with
  | nil => contradiction
  | cons part rest =>
      have hpart : part ≠ [] := hne part List.mem_cons_self
      cases rest with
      | nil => simpa using hpart
      | cons next others => simp [List.intercalate_cons_cons]

theorem Trimmed.intercalate {parts : List (List Char)}
    (hparts : ∀ part ∈ parts, part ≠ [] ∧ Trimmed part) : Trimmed ([' '].intercalate parts) := by
  induction parts with
  | nil => constructor <;> simp
  | cons part rest ih =>
      obtain ⟨⟨hne, htrimmed⟩, hrest⟩ := List.forall_mem_cons.mp hparts
      cases rest with
      | nil => simpa using htrimmed
      | cons next others =>
          have hothers := intercalate_ne_nil (List.cons_ne_nil next others)
            fun other hother => (hrest other hother).1
          rw [List.intercalate_cons_cons]
          constructor
          · intro c hc
            rw [List.append_assoc, List.head?_append_of_ne_nil _ hne] at hc
            exact htrimmed.first c hc
          · intro c hc
            rw [List.getLast?_append_of_ne_nil _ hothers] at hc
            exact (ih hrest).last c hc

theorem mem_intercalate_iff {parts : List (List Char)} {c : Char} (hc : c ≠ ' ') :
    c ∈ [' '].intercalate parts ↔ ∃ part ∈ parts, c ∈ part := by
  induction parts with
  | nil => simp
  | cons part rest ih =>
      cases rest with
      | nil => simp
      | cons next others =>
          rw [List.intercalate_cons_cons, List.mem_append, List.mem_append, ih]
          simp [hc]

/-! ### Trimmed lines -/

/-- What is left of a line, unless that is nothing. -/
def remains (line : List Char) : List (List Char) :=
  [trim line].filter (· ≠ [])

/-- The lines of a text, trimmed, without the blank ones. -/
def trimmedLines (cs : List Char) : List (List Char) :=
  ((lines cs).map trim).filter (· ≠ [])

theorem trimmedLines_eq (cs : List Char) :
    trimmedLines cs = (piecesAt '\n' cs).flatMap remains := by
  have hreturn : ∀ line, remains (line ++ ['\r']) = remains line := by
    intro line
    unfold remains
    rw [trim_append_blank (List.forall_mem_singleton.mpr rfl)]
  rw [← (lines_trails cs).flatMap_eq rfl hreturn]
  unfold trimmedLines
  induction lines cs with
  | nil => rfl
  | cons line rest ih =>
      rw [List.map_cons, ← List.singleton_append, List.filter_append, ih, List.flatMap_cons]
      rfl

theorem trimmedLines_cons_blank {c : Char} (hc : isBlank c = true) (cs : List Char) :
    trimmedLines (c :: cs) = trimmedLines cs := by
  rw [trimmedLines_eq, trimmedLines_eq]
  by_cases hfeed : c = '\n'
  · rw [hfeed, piecesAt_cons_mark, List.flatMap_cons]
    rfl
  -- a blank that ends no line becomes the first character of the first line
  · obtain ⟨line, rest, hpieces⟩ := exists_piecesAt_eq_cons '\n' cs
    have hline : remains (c :: line) = remains line := by
      obtain ⟨before, after, hsplit, hbefore, hafter⟩ := exists_trim_between line
      have htrim := (trim_trimmed line).trim_surrounded
        (List.forall_mem_cons.mpr ⟨hc, hbefore⟩) hafter
      rw [List.cons_append, List.cons_append, hsplit] at htrim
      unfold remains
      rw [htrim]
    rw [piecesAt_cons_other hfeed hpieces, hpieces, List.flatMap_cons, List.flatMap_cons, hline]

theorem trimmedLines_append_blank {c : Char} (hc : isBlank c = true) (cs : List Char) :
    trimmedLines (cs ++ [c]) = trimmedLines cs := by
  have hline : ∀ line, remains (line ++ [c]) = remains line := by
    intro line
    unfold remains
    rw [trim_append_blank (List.forall_mem_singleton.mpr hc)]
  rw [trimmedLines_eq, trimmedLines_eq, flatMap_piecesAt_append_blank rfl hline]

/-- Blanks around a text make no difference to its lines, even if they hold line ends. -/
theorem trimmedLines_surrounded {before cs after : List Char}
    (hbefore : ∀ c ∈ before, isBlank c = true) (hafter : ∀ c ∈ after, isBlank c = true) :
    trimmedLines (before ++ cs ++ after) = trimmedLines cs := by
  induction before with
  | nil =>
      induction after using List.reverseRecOn with
      | nil => simp
      | append_singleton after c ih =>
          obtain ⟨hrest, hc⟩ := List.forall_mem_append.mp hafter
          rw [← List.append_assoc, trimmedLines_append_blank (hc c (by simp)), ih hrest]
  | cons c before ih =>
      obtain ⟨hc, hrest⟩ := List.forall_mem_cons.mp hbefore
      rw [List.cons_append, List.cons_append, trimmedLines_cons_blank hc, ih hrest]

/-- A text that is one line when it is trimmed has no other. -/
theorem trimmedLines_of_oneLine {cs : List Char} (hline : '\n' ∉ trim cs) :
    trimmedLines cs = remains cs := by
  obtain ⟨before, after, hsplit, hbefore, hafter⟩ := exists_trim_between cs
  have hlines : trimmedLines (before ++ trim cs ++ after) = trimmedLines (trim cs) :=
    trimmedLines_surrounded hbefore hafter
  rw [hsplit] at hlines
  rw [hlines, trimmedLines_eq, piecesAt_of_notMem hline, List.flatMap_singleton]
  unfold remains
  rw [(trim_trimmed cs).trim_eq]

theorem lineFeed_notMem_of_mem_trimmedLines {cs line : List Char}
    (hline : line ∈ trimmedLines cs) : '\n' ∉ line := by
  rw [trimmedLines_eq] at hline
  obtain ⟨piece, hpiece, hremains⟩ := List.mem_flatMap.mp hline
  obtain rfl := List.mem_singleton.mp (List.mem_filter.mp hremains).1
  intro hfeed
  exact notMem_of_mem_piecesAt hpiece (mem_of_mem_trim hfeed)

end CommandLine.Text
