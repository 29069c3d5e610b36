import CommandLine.Proofs.ResponseFile.Quoting
import Mathlib.Data.List.Induction

/-!
# Response files joined from texts

Every line of a response file is read by itself.  A quote that is still open, a comment and the
blanks of one line end with the line, so texts that are joined by line feeds have the tokens of each
of them in order, and blanks at the end of a text, line ends among them, have no tokens.
-/

namespace CommandLine.ResponseFile

theorem tokens_append_lineFeed (first second : String) :
    tokens (first ++ "\n" ++ second) = tokens first ++ tokens second := by
  have htext : (first ++ "\n" ++ second).toList = first.toList ++ '\n' :: second.toList := by
    simp
  unfold tokens
  rw [htext, tokensOfChars_append_lineFeed, List.map_append]

@[simp] theorem tokens_empty : tokens "" = [] := rfl

theorem tokens_intercalate (texts : List String) :
    tokens ("\n".intercalate texts) = texts.flatMap tokens := by
  induction texts with
  | nil => rfl
  | cons text rest ih =>
      cases rest with
      | nil => rw [String.intercalate_singleton, List.flatMap_singleton]
      | cons next others =>
          rw [String.intercalate_cons_cons, tokens_append_lineFeed, ih,
            List.flatMap_cons (x := text)]

theorem tokensOfChars_append_blank (text : List Char) {c : Char} (hc : Text.isBlank c = true) :
    tokensOfChars (text ++ [c]) = tokensOfChars text := by
  have hline : ∀ line, lineTokens (line ++ [c]) = lineTokens line :=
    fun line => lineTokens_append_blank (List.forall_mem_singleton.mpr hc)
  have hnil : lineTokens [] = [] := (IsRemark.blank (by simp) (by simp)).lineTokens
  rw [tokensOfChars_eq_flatMap_piecesAt, tokensOfChars_eq_flatMap_piecesAt,
    Text.flatMap_piecesAt_append_blank hnil hline]

theorem tokensOfChars_append_blanks (text : List Char) {blanks : List Char}
    (hblank : ∀ c ∈ blanks, Text.isBlank c = true) :
    tokensOfChars (text ++ blanks) = tokensOfChars text := by
  induction blanks using List.reverseRecOn with
  | nil => rw [List.append_nil]
  | append_singleton blanks c ih =>
      have hc : Text.isBlank c = true := hblank c (by simp)
      have hblanks : ∀ other ∈ blanks, Text.isBlank other = true := by
        intro other hother
        exact hblank other (List.mem_append_left _ hother)
      rw [← List.append_assoc, tokensOfChars_append_blank _ hc, ih hblanks]

theorem tokens_append_blanks (text : String) {blanks : String}
    (hblank : ∀ c ∈ blanks.toList, Text.isBlank c = true) : tokens (text ++ blanks) = tokens text := by
  unfold tokens
  rw [String.toList_append, tokensOfChars_append_blanks text.toList hblank]

/-- A line is trimmed, and then it is a comment or is split. -/
theorem tokens_of_oneLine {line : String} (hline : '\n' ∉ line.toList) :
    tokens line =
      if isComment (Text.trim line.toList) then []
      else Token.split delimiters (String.ofList (Text.trim line.toList)) := by
  unfold tokens
  rw [tokensOfChars_of_oneLine hline]
  unfold lineTokens Token.split
  split
  · next hcomment => simp [hcomment]
  · next hcomment => simp [hcomment]

/-- The tokens of joined texts are those of each text in order, whatever stands at the end of one
and at the beginning of the next; no line end at the end of a text adds to them. -/
theorem tokens_of_joined_texts :
    (∀ first second : String, tokens (first ++ "\n" ++ second) = tokens first ++ tokens second) ∧
      (∀ text : String, tokens (text ++ "\n") = tokens text) ∧
      (∀ texts : List String, tokens ("\n".intercalate texts) = texts.flatMap tokens) ∧
      (∀ text blanks : String, (∀ c ∈ blanks.toList, Text.isBlank c = true) →
        tokens (text ++ blanks) = tokens text) ∧
      ∀ line : String, '\n' ∉ line.toList →
        tokens line =
          if isComment (Text.trim line.toList) then []
          else Token.split delimiters (String.ofList (Text.trim line.toList)) := by
  refine ⟨tokens_append_lineFeed, ?_, tokens_intercalate, ?_, ?_⟩
  · intro text
    exact tokens_append_blanks text (List.forall_mem_singleton.mpr rfl)
  · intro text blanks hblank
    exact tokens_append_blanks text hblank
  · intro line hline
    exact tokens_of_oneLine hline

/-- A quote that stays open, a carriage return and a comment at the seams. -/
theorem open_quote_ends_with_line :
    tokens ("a \"b\t# \r" ++ "\n" ++ "\x0c# \"c" ++ "\n" ++ "d\" e" ++ "\r\n \r\n") =
      ["a", "b\t#", "d e"] := by
  obtain ⟨hjoined, -, -, hblanks, hline⟩ := tokens_of_joined_texts
  have hopen : tokens "a \"b\t# \r" = ["a", "b\t#"] := by
    have htrim : Text.trim "a \"b\t# \r".toList = "a \"b\t#".toList := by decide
    have htext : ¬isComment "a \"b\t#".toList = true := by decide
    rw [hline _ (by decide), htrim, if_neg htext, String.ofList_toList]
    cbv
  have hcomment : tokens "\x0c# \"c" = [] := by
    have htrim : Text.trim "\x0c# \"c".toList = "# \"c".toList := by decide
    have hmark : isComment "# \"c".toList = true := by decide
    rw [hline _ (by decide), htrim, if_pos hmark]
  have hclosed : tokens "d\" e" = ["d e"] := by
    have htrim : Text.trim "d\" e".toList = "d\" e".toList := by decide
    have htext : ¬isComment "d\" e".toList = true := by decide
    rw [hline _ (by decide), htrim, if_neg htext, String.ofList_toList]
    cbv
  have hends : ∀ c ∈ "\r\n \r\n".toList, Text.isBlank c = true :=
    List.all_eq_true.mp (by decide)
  rw [hblanks _ _ hends, hjoined, hjoined, hopen, hcomment, hclosed]
  rfl

end CommandLine.ResponseFile
