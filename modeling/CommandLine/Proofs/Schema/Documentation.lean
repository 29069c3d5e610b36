import CommandLine.Proofs.Schema.Fields
import CommandLine.Proofs.Text.Trimming

/-!
# Descriptions from documentation

The description that is made of the documentation of a field has no blank at either end.  It is one
line, and consists of all the lines of the documentation, if each text of the documentation is a
single line apart from the blanks around it; a text of several lines keeps the line ends inside.
-/

namespace CommandLine.Schema

/-- All lines of the texts, trimmed, without the blank ones. -/
def documentationLines (texts : List String) : List String :=
  let lines := texts.flatMap fun s => Text.lines s.toList
  (lines.map fun line => String.ofList (Text.trim line)).filter (· ≠ "")

theorem docTexts_eq_ok {docs : List Doc} {texts : List String}
    (hdocs : docs.filter (· ≠ .unrelated) = texts.map .text) : docTexts docs = .ok texts := by
  induction docs generalizing texts with
  | nil =>
      obtain rfl := List.map_eq_nil_iff.mp hdocs.symm
      rfl
  | cons doc rest ih =>
      by_cases hrelated : doc = .unrelated
      · rw [List.filter_cons_of_neg (by simp [hrelated])] at hdocs
        rw [hrelated]
        exact ih hdocs
      · rw [List.filter_cons_of_pos (by simp [hrelated])] at hdocs
        obtain ⟨first, others, rfl, rfl, hothers⟩ := List.map_eq_cons_iff.mp hdocs.symm
        rw [docTexts, ih hothers.symm]
        rfl

/-! ### Lines of a description -/

theorem map_toList_filter (lines : List (List Char)) :
    ((lines.map String.ofList).filter (· ≠ "")).map String.toList = lines.filter (· ≠ []) := by
  induction lines with
  | nil => rfl
  | cons line rest ih => by_cases hempty : line = [] <;> simp_all

def trimmedTexts (texts : List String) : List (List Char) :=
  (texts.map fun s => Text.trim s.toList).filter (· ≠ [])

theorem toList_joinDocs (texts : List String) :
    (joinDocs texts).toList = [' '].intercalate (trimmedTexts texts) := by
  unfold joinDocs trimmedTexts
  rw [String.toList_intercalate, ← map_toList_filter, List.map_map]
  rfl

theorem toList_intercalate_documentationLines (texts : List String) :
    (" ".intercalate (documentationLines texts)).toList =
      [' '].intercalate (texts.flatMap fun s => Text.trimmedLines s.toList) := by
  have hlines : texts.flatMap (fun s => Text.trimmedLines s.toList) =
      ((texts.flatMap fun s => Text.lines s.toList).map Text.trim).filter (· ≠ []) := by
    rw [List.map_flatMap, List.filter_flatMap]
    rfl
  unfold documentationLines
  rw [String.toList_intercalate, hlines, ← map_toList_filter, List.map_map]
  rfl

theorem trimmed_joinDocs (texts : List String) : Text.Trimmed (joinDocs texts).toList := by
  rw [toList_joinDocs]
  apply Text.Trimmed.intercalate
  intro part hpart
  obtain ⟨hmem, hne⟩ := List.mem_filter.mp hpart
  obtain ⟨s, -, rfl⟩ := List.mem_map.mp hmem
  exact ⟨of_decide_eq_true hne, Text.trim_trimmed s.toList⟩

theorem lineFeed_mem_joinDocs_iff {texts : List String} :
    '\n' ∈ (joinDocs texts).toList ↔ ∃ s ∈ texts, '\n' ∈ Text.trim s.toList := by
  rw [toList_joinDocs, Text.mem_intercalate_iff (by decide)]
  constructor
  · rintro ⟨part, hpart, hfeed⟩
    obtain ⟨s, hs, rfl⟩ := List.mem_map.mp (List.mem_filter.mp hpart).1
    exact ⟨s, hs, hfeed⟩
  · rintro ⟨s, hs, hfeed⟩
    have hne : Text.trim s.toList ≠ [] := List.ne_nil_of_mem hfeed
    exact ⟨_, List.mem_filter.mpr ⟨List.mem_map_of_mem hs, decide_eq_true hne⟩, hfeed⟩

theorem lineFeed_notMem_intercalate_documentationLines (texts : List String) :
    '\n' ∉ (" ".intercalate (documentationLines texts)).toList := by
  rw [toList_intercalate_documentationLines, Text.mem_intercalate_iff (by decide)]
  rintro ⟨line, hline, hfeed⟩
  obtain ⟨s, -, hmem⟩ := List.mem_flatMap.mp hline
  exact Text.lineFeed_notMem_of_mem_trimmedLines hmem hfeed

theorem trimmedTexts_of_oneLine {texts : List String}
    (hlines : ∀ s ∈ texts, '\n' ∉ Text.trim s.toList) :
    trimmedTexts texts = texts.flatMap fun s => Text.trimmedLines s.toList := by
  unfold trimmedTexts
  induction texts with
  | nil => rfl
  | cons s rest ih =>
      obtain ⟨hs, hrest⟩ := List.forall_mem_cons.mp hlines
      rw [List.map_cons, ← List.singleton_append, List.filter_append, ih hrest,
        List.flatMap_cons, Text.trimmedLines_of_oneLine hs]
      rfl

theorem joinDocs_eq_intercalate_iff {texts : List String} :
    joinDocs texts = " ".intercalate (documentationLines texts) ↔
      ∀ s ∈ texts, '\n' ∉ Text.trim s.toList := by
  constructor
  · intro hsame s hs hfeed
    apply lineFeed_notMem_intercalate_documentationLines texts
    rw [← hsame]
    exact lineFeed_mem_joinDocs_iff.mpr ⟨s, hs, hfeed⟩
  · intro hlines
    rw [← String.toList_inj, toList_joinDocs, toList_intercalate_documentationLines,
      trimmedTexts_of_oneLine hlines]

/-- The description of documented fields is trimmed; it is a single line, made of all the lines of
the documentation, exactly if no text has a line end between characters that are not blank. -/
theorem docs_joined {docs : List Doc} {texts : List String}
    (hdocs : docs.filter (· ≠ .unrelated) = texts.map .text) :
    ∃ text, (docTexts docs).map joinDocs = .ok text ∧ Text.trim text.toList = text.toList ∧
      ('\n' ∉ text.toList ↔ ∀ s ∈ texts, '\n' ∉ Text.trim s.toList) ∧
        (text = " ".intercalate (documentationLines texts) ↔
          ∀ s ∈ texts, '\n' ∉ Text.trim s.toList) := by
  refine ⟨joinDocs texts, ?_, (trimmed_joinDocs texts).trim_eq, ?_, joinDocs_eq_intercalate_iff⟩
  · rw [docTexts_eq_ok hdocs]
    rfl
  · rw [lineFeed_mem_joinDocs_iff]
    simp

/-- Line ends around a text do no harm. -/
theorem including_docs_joined :
    let docs : List Doc :=
      [.text "\n Add a directory\n", .unrelated, .text "", .text " to the include path. "]
    let texts := ["\n Add a directory\n", "", " to the include path. "]
    docs.filter (· ≠ .unrelated) = texts.map .text ∧
      (docTexts docs).map joinDocs = .ok "Add a directory to the include path." := by
  intro docs texts
  have hdocs : docs.filter (· ≠ .unrelated) = texts.map .text := by decide
  have htexts : ∀ s ∈ texts, '\n' ∉ Text.trim s.toList := by decide
  have hlines : " ".intercalate (documentationLines texts) =
      "Add a directory to the include path." := by
    decide
  obtain ⟨text, htext, -, -, hjoined⟩ := docs_joined hdocs
  refine ⟨hdocs, ?_⟩
  rw [htext, hjoined.mpr htexts, hlines]

/-- A text of two lines stays one of two lines, and its second line keeps its indentation. -/
theorem two_lines_kept :
    let texts := [" First line,\n second line. "]
    (docTexts (texts.map .text)).map joinDocs = .ok "First line,\n second line." ∧
      " ".intercalate (documentationLines texts) = "First line, second line." := by
  decide

end CommandLine.Schema
