import CommandLine.Proofs.Text.Line
import CommandLine.Proofs.Token.Split
import CommandLine.ResponseFile

/-!
# Writing response files

A list of tokens can be written into a response file by quoting each of them, with gaps between the
tokens of a line and with blank lines and comments among the lines.  Reading gives back the tokens,
whatever was put between them, and what is read from any text at all can be written again.
-/

namespace CommandLine.ResponseFile

open Text (isBlank)

/-! ### Texts that are written for tokens -/

/-- A token that can stand between quotes on one line. -/
structure Quotable (token : String) : Prop where
  nonempty : token ≠ ""
  quoteFree : '"' ∉ token.toList
  oneLine : '\n' ∉ token.toList

def quote (token : String) : List Char :=
  '"' :: token.toList ++ ['"']

/-- A mix of spaces and tabs. -/
structure IsGap (gap : List Char) : Prop where
  nonempty : gap ≠ []
  delimiter : ∀ c ∈ gap, c ∈ delimiters

/-- A line of quoted tokens with gaps between them. -/
inductive WritesLine : List String → List Char → Prop
  | nil : WritesLine [] []
  | single {token : String} : Quotable token → WritesLine [token] (quote token)
  | cons {token next : String} {tokens : List String} {gap line : List Char} :
      Quotable token → IsGap gap → WritesLine (next :: tokens) line →
        WritesLine (token :: next :: tokens) (quote token ++ gap ++ line)

/-- A line without tokens: a blank one, or a comment after any blanks. -/
inductive IsRemark : List Char → Prop
  | blank {line : List Char} : (∀ c ∈ line, isBlank c = true) → '\n' ∉ line → IsRemark line
  | comment {blanks comment : List Char} :
      (∀ c ∈ blanks, isBlank c = true) → '\n' ∉ blanks → '\n' ∉ comment →
        IsRemark (blanks ++ '#' :: comment)

inductive IsLineEnd : List Char → Prop
  | lineFeed : IsLineEnd ['\n']
  | carriageReturn : IsLineEnd ['\r', '\n']

/-- The text holds the lines of tokens in order, with any remarks around them; its last line may
go without an end. -/
inductive Writes : List (List String) → List Char → Prop
  | lastLine {tokens : List String} {line : List Char} :
      WritesLine tokens line → Writes [tokens] line
  | lastRemark {line : List Char} : IsRemark line → Writes [] line
  | line {tokens : List String} {lines : List (List String)} {line ending rest : List Char} :
      WritesLine tokens line → IsLineEnd ending → Writes lines rest →
        Writes (tokens :: lines) (line ++ ending ++ rest)
  | remark {lines : List (List String)} {line ending rest : List Char} :
      IsRemark line → IsLineEnd ending → Writes lines rest →
        Writes lines (line ++ ending ++ rest)

/-! ### Reading one line -/

theorem delimiter_ne_quote {c : Char} (hc : c ∈ delimiters) : c ≠ '"' := by
  rintro rfl
  simp [delimiters] at hc

theorem Quotable.toList_ne_nil {token : String} (hquotable : Quotable token) :
    token.toList ≠ [] := by
  intro hnil
  exact hquotable.nonempty (String.toList_eq_nil_iff.mp hnil)

theorem splitChars_quote {token : String} (hquotable : Quotable token) :
    Token.splitChars delimiters (quote token) = [token.toList] := by
  have hheld : token.toList.reverse ≠ [] := by
    simpa using hquotable.toList_ne_nil
  have hnext : Token.next? delimiters (quote token) = some (token.toList, []) := by
    rw [quote, Token.next?_quoted hquotable.quoteFree, Token.scan_nil hheld,
      List.reverse_reverse]
  rw [Token.splitChars_of_next?_eq_some hnext, Token.splitChars_nil]

theorem splitChars_quote_append {token : String} (hquotable : Quotable token)
    {gap : List Char} (hgap : IsGap gap) (rest : List Char) :
    Token.splitChars delimiters (quote token ++ gap ++ rest) =
      token.toList :: Token.splitChars delimiters rest := by
  obtain ⟨first, others, rfl⟩ := List.exists_cons_of_ne_nil hgap.nonempty
  have hfirst : first ∈ delimiters := hgap.delimiter first List.mem_cons_self
  have hothers : ∀ c ∈ others, c ∈ delimiters ∧ c ≠ '"' := by
    intro c hc
    have hdelimiter := hgap.delimiter c (List.mem_cons_of_mem _ hc)
    exact ⟨hdelimiter, delimiter_ne_quote hdelimiter⟩
  have hheld : token.toList.reverse ≠ [] := by
    simpa using hquotable.toList_ne_nil
  have hnext : Token.next? delimiters (quote token ++ first :: others ++ rest) =
      some (token.toList, others ++ rest) := by
    have hquoted : Token.next? delimiters
        ('"' :: token.toList ++ '"' :: first :: (others ++ rest)) = _ :=
      Token.next?_quoted hquotable.quoteFree _
    rw [Token.scan_cons_delimiter hheld hfirst (delimiter_ne_quote hfirst),
      List.reverse_reverse] at hquoted
    simpa [quote] using hquoted
  rw [Token.splitChars_of_next?_eq_some hnext, Token.splitChars_append_delimiters hothers]

theorem WritesLine.splitChars {tokens : List String} {line : List Char}
    (hline : WritesLine tokens line) :
    Token.splitChars delimiters line = tokens.map String.toList := by
  induction hline with
  | nil => exact Token.splitChars_nil delimiters
  | single hquotable => exact splitChars_quote hquotable
  | cons hquotable hgap _ ih =>
      rw [splitChars_quote_append hquotable hgap, ih]
      rfl

/-- A line of tokens is empty, or begins and ends with a quote. -/
theorem WritesLine.shape {tokens : List String} {line : List Char}
    (hline : WritesLine tokens line) :
    line = [] ∨ ∃ inner, line = '"' :: inner ++ ['"'] := by
  induction hline with
  | nil => exact .inl rfl
  | @single token _ => exact .inr ⟨token.toList, rfl⟩
  | @cons token next tokens gap line _ _ hrest ih =>
      right
      rcases ih with rfl | ⟨inner, rfl⟩
      · cases hrest
      · exact ⟨token.toList ++ '"' :: gap ++ '"' :: inner, by simp [quote]⟩

theorem trim_quoted (inner : List Char) :
    Text.trim ('"' :: inner ++ ['"']) = '"' :: inner ++ ['"'] := by
  have hquote : isBlank '"' = false := by decide
  have hend : Text.trimEnd ('"' :: inner ++ ['"']) = '"' :: inner ++ ['"'] :=
    Text.trimEnd_append_cons ('"' :: inner) [] hquote
  have hstart : Text.trimStart ([] ++ '"' :: (inner ++ ['"'])) = '"' :: (inner ++ ['"']) :=
    Text.trimStart_append_cons (by simp) hquote
  rw [Text.trim, hend]
  exact hstart

theorem WritesLine.lineTokens {tokens : List String} {line : List Char}
    (hline : WritesLine tokens line) :
    ResponseFile.lineTokens line = tokens.map String.toList := by
  have htrim : Text.trim line = line ∧ isComment line = false := by
    rcases hline.shape with rfl | ⟨inner, rfl⟩
    · exact ⟨rfl, rfl⟩
    · exact ⟨trim_quoted inner, rfl⟩
  unfold ResponseFile.lineTokens
  simp only [htrim.1, htrim.2]
  exact hline.splitChars

theorem IsRemark.lineTokens {line : List Char} (hline : IsRemark line) :
    ResponseFile.lineTokens line = [] := by
  unfold ResponseFile.lineTokens
  cases hline with
  | blank hblank _ => simp [Text.trim_of_blank hblank, isComment]
  | @comment blanks comment hblank _ _ =>
      have hmark : isBlank '#' = false := by decide
      have htrim : Text.trim (blanks ++ '#' :: comment) = '#' :: Text.trimEnd comment := by
        rw [Text.trim, Text.trimEnd_append_cons blanks comment hmark,
          Text.trimStart_append_cons hblank hmark]
      simp [htrim, isComment]

theorem lineTokens_append_blank {line blanks : List Char}
    (hblank : ∀ c ∈ blanks, isBlank c = true) :
    lineTokens (line ++ blanks) = lineTokens line := by
  unfold lineTokens
  rw [Text.trim_append_blank hblank]

/-! ### Reading all lines -/

theorem IsGap.oneLine {gap : List Char} (hgap : IsGap gap) : '\n' ∉ gap := by
  intro hmem
  have hdelimiter := hgap.delimiter '\n' hmem
  simp [delimiters] at hdelimiter

theorem WritesLine.oneLine {tokens : List String} {line : List Char}
    (hline : WritesLine tokens line) : '\n' ∉ line := by
  induction hline with
  | nil => simp
  | single hquotable => simp [quote, hquotable.oneLine]
  | cons hquotable hgap _ ih => simp [quote, hquotable.oneLine, hgap.oneLine, ih]

theorem IsRemark.oneLine {line : List Char} (hline : IsRemark line) : '\n' ∉ line := by
  cases hline with
  | blank _ hfree => exact hfree
  | comment _ hblanks hcomment => simp [hblanks, hcomment]

/-- Trimming leaves no trace of line ends, so a text may as well be cut at its line feeds. -/
theorem tokensOfChars_eq_flatMap_piecesAt (text : List Char) :
    tokensOfChars text = (Text.piecesAt '\n' text).flatMap lineTokens := by
  apply (Text.lines_trails text).flatMap_eq
  · exact (IsRemark.blank (by simp) (by simp)).lineTokens
  · intro line
    exact lineTokens_append_blank (List.forall_mem_singleton.mpr rfl)

theorem tokensOfChars_append_lineFeed (first second : List Char) :
    tokensOfChars (first ++ '\n' :: second) = tokensOfChars first ++ tokensOfChars second := by
  simp only [tokensOfChars_eq_flatMap_piecesAt, Text.piecesAt_append_mark, List.flatMap_append]

theorem tokensOfChars_of_oneLine {line : List Char} (hline : '\n' ∉ line) :
    tokensOfChars line = lineTokens line := by
  rw [tokensOfChars_eq_flatMap_piecesAt, Text.piecesAt_of_notMem hline, List.flatMap_singleton]

theorem tokensOfChars_line {line ending rest : List Char} (hline : '\n' ∉ line)
    (hending : IsLineEnd ending) :
    tokensOfChars (line ++ ending ++ rest) = lineTokens line ++ tokensOfChars rest := by
  cases hending with
  | lineFeed =>
      rw [List.append_assoc, List.singleton_append, tokensOfChars_append_lineFeed,
        tokensOfChars_of_oneLine hline]
  | carriageReturn =>
      have hreturn : '\n' ∉ line ++ ['\r'] := by
        simpa using hline
      have htext : line ++ ['\r', '\n'] ++ rest = line ++ ['\r'] ++ '\n' :: rest := by
        simp
      have hblank : ∀ c ∈ ['\r'], isBlank c = true := List.forall_mem_singleton.mpr rfl
      rw [htext, tokensOfChars_append_lineFeed, tokensOfChars_of_oneLine hreturn,
        lineTokens_append_blank hblank]

theorem Writes.tokensOfChars {lines : List (List String)} {text : List Char}
    (hwrites : Writes lines text) :
    ResponseFile.tokensOfChars text = lines.flatten.map String.toList := by
  induction hwrites with
  | lastLine hline =>
      rw [tokensOfChars_of_oneLine hline.oneLine, hline.lineTokens, List.flatten_singleton]
  | lastRemark hline =>
      rw [tokensOfChars_of_oneLine hline.oneLine, hline.lineTokens]
      rfl
  | line hline hending _ ih =>
      rw [tokensOfChars_line hline.oneLine hending, hline.lineTokens, ih, List.flatten_cons,
        List.map_append]
  | remark hline hending _ ih =>
      rw [tokensOfChars_line hline.oneLine hending, hline.lineTokens, ih, List.nil_append]

theorem Writes.tokens {lines : List (List String)} {text : String}
    (hwrites : Writes lines text.toList) : ResponseFile.tokens text = lines.flatten := by
  unfold ResponseFile.tokens
  rw [hwrites.tokensOfChars, List.map_map]
  simp [Function.comp_def]

/-! ### Tokens of any text -/

theorem mem_tokensOfChars {text token : List Char} (htoken : token ∈ tokensOfChars text) :
    token ≠ [] ∧ '"' ∉ token ∧ '\n' ∉ token := by
  rw [tokensOfChars_eq_flatMap_piecesAt] at htoken
  obtain ⟨line, hline, hmem⟩ := List.mem_flatMap.mp htoken
  unfold lineTokens at hmem
  dsimp only at hmem
  split at hmem
  · simp at hmem
  · have hread := Token.mem_splitChars hmem
    refine ⟨hread.1, hread.2.1, ?_⟩
    intro hfeed
    exact Text.notMem_of_mem_piecesAt hline (Text.mem_of_mem_trim (hread.2.2 _ hfeed))

theorem quotable_of_mem_tokens {text token : String} (htoken : token ∈ tokens text) :
    Quotable token := by
  obtain ⟨cs, hcs, rfl⟩ := List.mem_map.mp htoken
  have hread := mem_tokensOfChars hcs
  constructor
  · intro hempty
    exact hread.1 (by simpa using congrArg String.toList hempty)
  · simpa using hread.2.1
  · simpa using hread.2.2

theorem exists_writesLine {tokens : List String}
    (hquotable : ∀ token ∈ tokens, Quotable token) : ∃ line, WritesLine tokens line := by
  induction tokens with
  | nil => exact ⟨[], .nil⟩
  | cons token tokens ih =>
      have htoken := hquotable token List.mem_cons_self
      obtain ⟨line, hline⟩ := ih fun other hother =>
        hquotable other (List.mem_cons_of_mem _ hother)
      have hgap : IsGap [' '] := ⟨by simp, by simp [delimiters]⟩
      cases tokens with
      | nil => exact ⟨_, .single htoken⟩
      | cons next rest => exact ⟨_, .cons htoken hgap hline⟩

/-- Lines of tokens that can be quoted can be written. -/
theorem exists_writes {lines : List (List String)}
    (hquotable : ∀ token ∈ lines.flatten, Quotable token) :
    ∃ text : String, Writes lines text.toList := by
  have hchars : ∃ text, Writes lines text := by
    induction lines with
    | nil => exact ⟨[], .lastRemark (.blank (by simp) (by simp))⟩
    | cons tokens lines ih =>
        simp only [List.flatten_cons, List.mem_append] at hquotable
        obtain ⟨line, hline⟩ := exists_writesLine fun token htoken =>
          hquotable token (.inl htoken)
        obtain ⟨rest, hrest⟩ := ih fun token htoken => hquotable token (.inr htoken)
        exact ⟨_, .line hline .lineFeed hrest⟩
  obtain ⟨text, htext⟩ := hchars
  exact ⟨String.ofList text, by simpa using htext⟩

/-- Reading gives back the tokens that a text is written for, and only what can be written is ever
read. -/
theorem tokens_inverts_quoting :
    (∀ lines text, Writes lines text.toList → tokens text = lines.flatten) ∧
      (∀ text, ∀ token ∈ tokens text, Quotable token) ∧
        ∀ text lines, lines.flatten = tokens text →
          (∃ again : String, Writes lines again.toList) ∧
            ∀ again : String, Writes lines again.toList → tokens again = tokens text := by
  refine ⟨fun _ _ hwrites => hwrites.tokens, fun _ _ => quotable_of_mem_tokens, ?_⟩
  intro text lines hlines
  constructor
  · apply exists_writes
    rw [hlines]
    exact fun _ => quotable_of_mem_tokens
  · intro again hagain
    rw [hagain.tokens, hlines]

instance (token : String) : Decidable (Quotable token) :=
  decidable_of_iff (token ≠ "" ∧ '"' ∉ token.toList ∧ '\n' ∉ token.toList)
    ⟨fun ⟨hnonempty, hquote, hline⟩ => ⟨hnonempty, hquote, hline⟩,
      fun ⟨hnonempty, hquote, hline⟩ => ⟨hnonempty, hquote, hline⟩⟩

/-- Tokens that begin like a comment, end in a blank or hold a carriage return. -/
def annotated : String :=
  "\u2003# \"\r\n\"#a b\" \t\"\t-x:1 \"\r\n\n \r\n\"c\rd\""

/-- The same tokens, one on each line. -/
def annotatedAgain : String :=
  "\"#a b\"\n\"\t-x:1 \"\n\"c\rd\"\n"

theorem writes_annotated : Writes [["#a b", "\t-x:1 "], ["c\rd"]] annotated.toList := by
  have hremark : IsRemark (['\u2003'] ++ '#' :: [' ', '"']) :=
    .comment (List.forall_mem_singleton.mpr rfl) (by decide) (by decide)
  have hgap : IsGap [' ', '\t'] := ⟨by simp, by simp [delimiters]⟩
  have hline : WritesLine ["#a b", "\t-x:1 "] "\"#a b\" \t\"\t-x:1 \"".toList :=
    .cons (by decide) hgap (.single (by decide))
  have hlast : WritesLine ["c\rd"] "\"c\rd\"".toList := .single (by decide)
  have hblank : IsRemark [' '] := .blank (List.forall_mem_singleton.mpr rfl) (by decide)
  have hempty : IsRemark [] := .blank (by simp) (by simp)
  have htext : annotated.toList = ['\u2003', '#', ' ', '"'] ++ ['\r', '\n'] ++
      ("\"#a b\" \t\"\t-x:1 \"".toList ++ ['\r', '\n'] ++
        ([] ++ ['\n'] ++ ([' '] ++ ['\r', '\n'] ++ "\"c\rd\"".toList))) := by
    decide +kernel
  rw [htext]
  exact .remark hremark .carriageReturn (.line hline .carriageReturn
    (.remark hempty .lineFeed (.remark hblank .carriageReturn (.lastLine hlast))))

theorem writes_annotatedAgain :
    Writes [["#a b"], ["\t-x:1 "], ["c\rd"]] annotatedAgain.toList := by
  have hline : ∀ token, Quotable token → WritesLine [token] (quote token) :=
    fun _ hquotable => .single hquotable
  have hempty : IsRemark [] := .blank (by simp) (by simp)
  have htext : annotatedAgain.toList = quote "#a b" ++ ['\n'] ++
      (quote "\t-x:1 " ++ ['\n'] ++ (quote "c\rd" ++ ['\n'] ++ [])) := by
    decide +kernel
  rw [htext]
  exact .line (hline "#a b" (by decide)) .lineFeed (.line (hline "\t-x:1 " (by decide)) .lineFeed
    (.line (hline "c\rd" (by decide)) .lineFeed (.lastRemark hempty)))

theorem annotated_inverts_quoting :
    tokens annotated = ["#a b", "\t-x:1 ", "c\rd"] ∧ Quotable "\t-x:1 " ∧
      tokens annotatedAgain = tokens annotated := by
  obtain ⟨hread, hquotable, hagain⟩ := tokens_inverts_quoting
  have htokens : tokens annotated = ["#a b", "\t-x:1 ", "c\rd"] :=
    hread _ annotated writes_annotated
  have hmem : "\t-x:1 " ∈ tokens annotated := by
    rw [htokens]
    decide
  have hlines : [["#a b"], ["\t-x:1 "], ["c\rd"]].flatten = tokens annotated := by
    rw [htokens]
    rfl
  exact ⟨htokens, hquotable annotated _ hmem,
    (hagain annotated _ hlines).2 annotatedAgain writes_annotatedAgain⟩

end CommandLine.ResponseFile
