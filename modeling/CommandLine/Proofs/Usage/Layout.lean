import CommandLine.Proofs.Table.Names
import CommandLine.Proofs.Text.Wrapper
import CommandLine.Usage

/-!
# The layout of usage messages

A usage message has a block of lines for each named argument, in the order of the table.  A block
begins with the tag, which shows the names of the argument, and every fragment of the wrapped
description stands behind the same number of characters, on the line of the tag or below it.  The
fragments lose nothing of the description but spaces and line feeds.  All this holds of every
wrapper that keeps the text.
-/

namespace CommandLine

namespace Usage

variable {wrap : Text.Wrapper}

/-! ### Widths -/

theorem length_spaces (n : Nat) : (spaces n).length = n := by
  simp [spaces]

theorem utf8ByteSize_ofList_cons (c : Char) (cs : List Char) :
    (String.ofList (c :: cs)).utf8ByteSize = c.utf8Size + (String.ofList cs).utf8ByteSize := by
  rw [String.ofList_cons, String.utf8ByteSize_append, String.utf8ByteSize_singleton]

theorem length_le_utf8ByteSize_ofList (cs : List Char) :
    cs.length ≤ (String.ofList cs).utf8ByteSize := by
  induction cs with
  | nil => exact Nat.zero_le _
  | cons c cs ih =>
      have hpositive := c.utf8Size_pos
      rw [utf8ByteSize_ofList_cons, List.length_cons]
      omega

theorem length_le_utf8ByteSize (s : String) : s.length ≤ s.utf8ByteSize := by
  simpa [String.length_toList] using length_le_utf8ByteSize_ofList s.toList

theorem utf8ByteSize_ofList_of_ascii {cs : List Char} (hascii : ∀ c ∈ cs, c.toNat < 0x80) :
    (String.ofList cs).utf8ByteSize = cs.length := by
  induction cs with
  | nil => rfl
  | cons c cs ih =>
      obtain ⟨hc, hrest⟩ := List.forall_mem_cons.mp hascii
      have hsize : c.utf8Size = 1 := by
        rw [Char.utf8Size_eq_one_iff, UInt32.le_iff_toNat_le]
        exact Nat.le_of_lt_succ hc
      rw [utf8ByteSize_ofList_cons, hsize, ih hrest, List.length_cons, Nat.add_comm]

theorem utf8ByteSize_of_ascii {s : String} (hascii : ∀ c ∈ s.toList, c.toNat < 0x80) :
    s.utf8ByteSize = s.length := by
  simpa [String.length_toList] using utf8ByteSize_ofList_of_ascii hascii

/-! ### Indentation -/

theorem indentFrom_cons {c : Char} (hc : c ≠ '\n') (fresh : Bool) (rest : List Char) :
    indentFrom fresh (c :: rest) =
      (if fresh then indentation.toList else []) ++ c :: indentFrom false rest := by
  rw [indentFrom]
  exact hc

theorem indentFrom_false_of_oneLine {cs : List Char} (hfeed : '\n' ∉ cs) :
    indentFrom false cs = cs := by
  induction cs with
  | nil => rfl
  | cons c rest ih =>
      obtain ⟨hc, hrest⟩ := List.ne_and_not_mem_of_not_mem_cons hfeed
      rw [indentFrom_cons (Ne.symm hc), ih hrest]
      rfl

/-- What follows a text that does not end a line goes on with the line. -/
theorem indentFrom_append {cs : List Char} {last : Char} (hlast : cs.getLast? = some last)
    (hfeed : last ≠ '\n') (fresh : Bool) (rest : List Char) :
    indentFrom fresh (cs ++ rest) = indentFrom fresh cs ++ indentFrom false rest := by
  induction cs generalizing fresh with
  | nil => contradiction
  | cons c cs ih =>
      cases cs with
      | nil =>
          obtain rfl : c = last := by simpa using hlast
          rw [List.singleton_append, indentFrom_cons hfeed, indentFrom_cons hfeed]
          simp [indentFrom]
      | cons next others =>
          rw [List.getLast?_cons_cons] at hlast
          by_cases hc : c = '\n'
          · subst c
            rw [List.cons_append, indentFrom, ih hlast, indentFrom, List.cons_append]
          · rw [List.cons_append, indentFrom_cons hc, indentFrom_cons hc, ih hlast,
              List.append_assoc, List.cons_append]

theorem getLast?_indentFrom (fresh : Bool) (cs : List Char) :
    (indentFrom fresh cs).getLast? = cs.getLast? := by
  induction cs generalizing fresh with
  | nil => rfl
  | cons c rest ih =>
      by_cases hc : c = '\n'
      · subst c
        rw [indentFrom, List.getLast?_cons, List.getLast?_cons, ih]
      · rw [indentFrom_cons hc, List.getLast?_append, List.getLast?_cons, List.getLast?_cons, ih]
        rfl

theorem getLast?_indented (s : String) : (indented s).toList.getLast? = s.toList.getLast? := by
  rw [indented, String.toList_ofList, getLast?_indentFrom]

theorem indented_of_oneLine {s : String} (hne : s ≠ "") (hfeed : '\n' ∉ s.toList) :
    indented s = indentation ++ s := by
  obtain ⟨c, rest, hs⟩ := List.exists_cons_of_ne_nil (l := s.toList) (by simpa using hne)
  rw [hs] at hfeed
  obtain ⟨hc, hrest⟩ := List.ne_and_not_mem_of_not_mem_cons hfeed
  apply String.toList_injective
  rw [indented, String.toList_ofList, String.toList_append, hs, indentFrom_cons (Ne.symm hc),
    indentFrom_false_of_oneLine hrest, if_pos rfl]

theorem indented_append {s t : String} {last : Char} (hlast : s.toList.getLast? = some last)
    (hend : last ≠ '\n') (hfeed : '\n' ∉ t.toList) : indented (s ++ t) = indented s ++ t := by
  apply String.toList_injective
  unfold indented
  rw [String.toList_append, String.toList_append, String.toList_ofList, String.toList_ofList,
    indentFrom_append hlast hend, indentFrom_false_of_oneLine hfeed]

example : indented "-x:<a\n\nb>" = "  -x:<a\n\n  b>" := by decide

theorem lineFeed_notMem_spaces (n : Nat) : '\n' ∉ (spaces n).toList := by
  simp [spaces]

theorem indented_column {fragment : String} (hfeed : '\n' ∉ fragment.toList) :
    indented (spaces descriptionColumn ++ fragment) = spaces 33 ++ fragment := by
  have hmargin : indentation ++ spaces descriptionColumn = spaces 33 := by decide
  have hcolumn : spaces descriptionColumn ≠ "" := by decide
  rw [indented_of_oneLine, ← String.append_assoc, hmargin]
  · intro hempty
    exact hcolumn (String.append_eq_empty_iff.mp hempty).1
  · simp [hfeed, lineFeed_notMem_spaces]

/-! ### Entries -/

/-- The first fragment stands on the line of the tag. -/
def Beside (tag : String) (fragments block : List String) : Prop :=
  ∃ gap first rest, fragments = first :: rest ∧ (indentation ++ tag ++ spaces gap).length = 33 ∧
    block = (indented tag ++ spaces gap ++ first) :: rest.map (spaces 33 ++ ·)

/-- All fragments stand below the line of the tag. -/
def Below (tag : String) (fragments block : List String) : Prop :=
  block = indented tag :: fragments.map (spaces 33 ++ ·)

/-- How a message shows the names of an argument: what it writes in the tag, and what behind the
description. -/
inductive Shows (d : Declaration) : (names : List String) → (tag note : String) → Prop
  | abbreviated {short rest : String} :
      d.short = some short → rest ≠ "" → d.long = short ++ rest →
        Shows d [d.long, short] ("-" ++ short ++ "[" ++ rest ++ "]" ++ d.slot.placeholder.shown) ""
  | separate {short : String} :
      d.short = some short → (∀ rest, d.long = short ++ rest → rest = "") →
        Shows d [d.long, short] ("-" ++ d.long ++ d.slot.placeholder.shown)
          ("(Short format: /" ++ short ++ ")")
  | single :
      d.short = none → Shows d [d.long] ("-" ++ d.long ++ d.slot.placeholder.shown) ""

theorem fragments_ne_nil (hkeeps : wrap.Keeps) (description : String) :
    fragments wrap description ≠ [] :=
  hkeeps.ne_nil _ description (by decide)

theorem lineFeed_notMem_fragments (hkeeps : wrap.Keeps) {description fragment : String}
    (hfragment : fragment ∈ fragments wrap description) : '\n' ∉ fragment.toList :=
  hkeeps.unbroken _ description fragment hfragment

theorem exists_fragments_eq_cons (hkeeps : wrap.Keeps) (description : String) :
    ∃ first rest, fragments wrap description = first :: rest ∧ '\n' ∉ first.toList ∧
      ∀ later ∈ rest, '\n' ∉ later.toList := by
  obtain ⟨first, rest, hfragments⟩ :=
    List.exists_cons_of_ne_nil (fragments_ne_nil hkeeps description)
  have hfeed : ∀ fragment ∈ first :: rest, '\n' ∉ fragment.toList := by
    rw [← hfragments]
    exact fun fragment => lineFeed_notMem_fragments hkeeps
  exact ⟨first, rest, hfragments, List.forall_mem_cons.mp hfeed⟩

def indentedEntry (wrap : Text.Wrapper) (tag description : String) : List String :=
  (entry wrap tag description).map indented

theorem map_indented_column {texts : List String} (hfeed : ∀ text ∈ texts, '\n' ∉ text.toList) :
    (texts.map (spaces descriptionColumn ++ ·)).map indented = texts.map (spaces 33 ++ ·) := by
  rw [List.map_map]
  exact List.map_congr_left fun text htext => indented_column (hfeed text htext)

theorem beside_indentedEntry (hkeeps : wrap.Keeps) {tag : String} {last : Char}
    (hlast : tag.toList.getLast? = some last) (hend : last ≠ '\n')
    (hfits : tag.utf8ByteSize ≤ tagLimit) (description : String) :
    Beside tag (fragments wrap description) (indentedEntry wrap tag description) := by
  obtain ⟨first, rest, hfragments, hfirst, hrest⟩ := exists_fragments_eq_cons hkeeps description
  refine ⟨descriptionColumn - tag.length, first, rest, hfragments, ?_, ?_⟩
  -- the limit is in bytes, so the tag is shorter than the column in characters too
  · have hlength := length_le_utf8ByteSize tag
    have hindentation : indentation.length = 2 := rfl
    unfold tagLimit at hfits
    unfold descriptionColumn
    rw [String.length_append, String.length_append, length_spaces]
    omega
  · have hgap : '\n' ∉ (spaces (descriptionColumn - tag.length) ++ first).toList := by
      simp [hfirst, lineFeed_notMem_spaces]
    unfold indentedEntry entry
    rw [hfragments]
    dsimp only
    rw [if_pos hfits, List.singleton_append, List.map_cons, map_indented_column hrest, padded,
      String.append_assoc, indented_append hlast hend hgap, String.append_assoc]

theorem below_indentedEntry (hkeeps : wrap.Keeps) {tag : String}
    (hwide : tagLimit < tag.utf8ByteSize) (description : String) :
    Below tag (fragments wrap description) (indentedEntry wrap tag description) := by
  obtain ⟨first, rest, hfragments, hfeeds⟩ := exists_fragments_eq_cons hkeeps description
  unfold Below indentedEntry entry
  rw [hfragments, ← map_indented_column (List.forall_mem_cons.mpr hfeeds)]
  dsimp only
  rw [if_neg (Nat.not_le.mpr hwide)]
  rfl

theorem not_beside_of_below {tag : String} {fragments block : List String}
    (hbelow : Below tag fragments block) : ¬ Beside tag fragments block := by
  rintro ⟨gap, first, rest, rfl, -, hbeside⟩
  have hlengths := congrArg List.length (hbelow.symm.trans hbeside)
  simp at hlengths

/-! ### Names in an entry -/

theorem exists_append_iff {short long : String} :
    (short ≠ long && short.toList.isPrefixOf long.toList) = true ↔
      ∃ rest, rest ≠ "" ∧ long = short ++ rest := by
  rw [Bool.and_eq_true, decide_eq_true_eq, List.isPrefixOf_iff_prefix]
  constructor
  · rintro ⟨hne, rest, hrest⟩
    have hlong : long = short ++ String.ofList rest := by
      rw [← String.toList_inj, String.toList_append, String.toList_ofList, hrest]
    refine ⟨String.ofList rest, ?_, hlong⟩
    intro hempty
    rw [hempty, String.append_empty] at hlong
    exact hne hlong.symm
  · rintro ⟨rest, hne, rfl⟩
    refine ⟨?_, rest.toList, String.toList_append.symm⟩
    intro hsame
    exact hne (String.append_eq_left_iff.mp hsame.symm)

theorem abbreviation_eq_some_iff {d : Declaration} {short : String} :
    abbreviation d = some short ↔
      d.short = some short ∧ ∃ rest, rest ≠ "" ∧ d.long = short ++ rest := by
  unfold abbreviation
  rw [Option.filter_eq_some_iff, exists_append_iff]

theorem eq_empty_of_abbreviation_eq_none {d : Declaration} {short rest : String}
    (hnone : abbreviation d = none) (hshort : d.short = some short)
    (hlong : d.long = short ++ rest) : rest = "" := by
  by_contra hne
  have hsome := abbreviation_eq_some_iff.mpr ⟨hshort, rest, hne, hlong⟩
  rw [hnone] at hsome
  contradiction

theorem tag_of_abbreviation {d : Declaration} {short rest : String}
    (hbrief : abbreviation d = some short) (hlong : d.long = short ++ rest) :
    tag d = "-" ++ short ++ "[" ++ rest ++ "]" ++ d.slot.placeholder.shown := by
  have hrest : String.ofList (d.long.toList.drop short.length) = rest := by
    rw [hlong, String.toList_append, ← String.length_toList, List.drop_left, String.ofList_toList]
  unfold tag shownName
  rw [hbrief]
  dsimp only
  rw [hrest]
  simp only [String.append_assoc]

theorem tag_of_abbreviation_eq_none {d : Declaration} (hnone : abbreviation d = none) :
    tag d = "-" ++ d.long ++ d.slot.placeholder.shown := by
  unfold tag shownName
  rw [hnone]

/-- The names of every argument are shown in one of the ways, and the text behind the tag is its
description and then what is written behind that. -/
theorem exists_shows (d : Declaration) :
    ∃ names note, Shows d names (tag d) note ∧
      Text.unspaced (description d).toList =
        Text.unspaced (d.description.getD "" ++ note).toList := by
  unfold description
  cases hbrief : abbreviation d with
  | some short =>
      obtain ⟨hshort, rest, hne, hlong⟩ := abbreviation_eq_some_iff.mp hbrief
      rw [tag_of_abbreviation hbrief hlong]
      exact ⟨_, _, .abbreviated hshort hne hlong, by simp⟩
  | none =>
      rw [tag_of_abbreviation_eq_none hbrief]
      cases hshort : d.short with
      | none => exact ⟨_, _, .single hshort, by simp⟩
      | some short =>
          -- a short name that is not in the tag is no beginning of the long one, or all of it
          have hwhole : ∀ rest, d.long = short ++ rest → rest = "" :=
            fun rest => eq_empty_of_abbreviation_eq_none hbrief hshort
          have hspace : ∀ text : String,
              Text.unspaced (if text = "" then "" else " ").toList = [] := by
            intro text
            split <;> rfl
          refine ⟨_, _, .separate hshort hwhole, ?_⟩
          simp only [String.append_assoc, String.toList_append, Text.unspaced_append, hspace,
            List.nil_append]

/-- A tag ends in a bracket, whatever is in it. -/
theorem exists_getLast?_tag (d : Declaration) :
    ∃ last, (tag d).toList.getLast? = some last ∧ last ≠ '\n' ∧ last ≠ ' ' := by
  have hshown : ∃ last, d.slot.placeholder.shown.toList.getLast? = some last ∧
      last ≠ '\n' ∧ last ≠ ' ' := by
    cases d.slot.placeholder with
    | toggle => exact ⟨']', by decide⟩
    | named name => exact ⟨'>', by simp [Placeholder.shown, List.getLast?_cons]⟩
    | _ => exact ⟨'>', by decide⟩
  obtain ⟨last, hlast, hbracket⟩ := hshown
  refine ⟨last, ?_, hbracket⟩
  rw [tag, String.toList_append, List.getLast?_append, hlast]
  rfl

theorem indented_tag_append (d : Declaration) {s : String} (hfeed : '\n' ∉ s.toList) :
    indented (tag d ++ s) = indented (tag d) ++ s := by
  obtain ⟨last, hlast, hend, -⟩ := exists_getLast?_tag d
  exact indented_append hlast hend hfeed

theorem indented_tag {d : Declaration} (htag : '\n' ∉ (tag d).toList) :
    indented (tag d) = indentation ++ tag d := by
  apply indented_of_oneLine _ htag
  obtain ⟨last, hlast, -⟩ := exists_getLast?_tag d
  intro hempty
  rw [hempty] at hlast
  contradiction

/-! ### Blocks -/

/-- What a message says about an argument: in its block it shows the names in the tag, or else in a
note behind the description, and gives the description and the note in fragments. -/
structure Describes (d : Declaration) (names : List String) (note : String)
    (fragments block : List String) : Prop where
  shows : Shows d names (tag d) note
  nonempty : fragments ≠ []
  placed : Beside (tag d) fragments block ∨ Below (tag d) fragments block
  text : Text.unspaced (String.join fragments).toList =
    Text.unspaced (d.description.getD "" ++ note).toList
  unbroken : ∀ fragment ∈ fragments, '\n' ∉ fragment.toList
  /-- The name of a type, which a placeholder may show, has no line feed. -/
  lines : '\n' ∉ d.slot.placeholder.shown.toList →
    indented (tag d) = indentation ++ tag d ∧ ∀ line ∈ block, '\n' ∉ line.toList

theorem Shows.lineFeed_notMem {d : Declaration} {names : List String} {tag note : String}
    (hshows : Shows d names tag note) (hlong : '\n' ∉ d.long.toList)
    (hplaceholder : '\n' ∉ d.slot.placeholder.shown.toList) : '\n' ∉ tag.toList := by
  cases hshows with
  | abbreviated hshort hne hsplit =>
      rw [hsplit] at hlong
      simp_all
  | separate hshort hwhole => simp_all
  | single hshort => simp_all

def block (wrap : Text.Wrapper) (d : Declaration) : List String :=
  indentedEntry wrap (tag d) (description d)

theorem beside_block (hkeeps : wrap.Keeps) {d : Declaration}
    (hfits : (tag d).utf8ByteSize ≤ tagLimit) :
    Beside (tag d) (fragments wrap (description d)) (block wrap d) := by
  obtain ⟨last, hlast, hend, -⟩ := exists_getLast?_tag d
  exact beside_indentedEntry hkeeps hlast hend hfits (description d)

theorem below_block (hkeeps : wrap.Keeps) {d : Declaration}
    (hwide : tagLimit < (tag d).utf8ByteSize) :
    Below (tag d) (fragments wrap (description d)) (block wrap d) :=
  below_indentedEntry hkeeps hwide (description d)

/-- The description of an argument starts on the line of its tag. -/
def BesideTag (wrap : Text.Wrapper) (d : Declaration) : Prop :=
  Beside (tag d) (fragments wrap (description d)) (block wrap d)

theorem besideTag_iff (hkeeps : wrap.Keeps) {d : Declaration} :
    BesideTag wrap d ↔ (tag d).utf8ByteSize ≤ tagLimit := by
  constructor
  · intro hbeside
    by_contra hwide
    exact not_beside_of_below (below_block hkeeps (Nat.not_le.mp hwide)) hbeside
  · exact beside_block hkeeps

theorem block_placed (hkeeps : wrap.Keeps) (d : Declaration) :
    Beside (tag d) (fragments wrap (description d)) (block wrap d) ∨
      Below (tag d) (fragments wrap (description d)) (block wrap d) := by
  rcases Nat.lt_or_ge tagLimit (tag d).utf8ByteSize with hwide | hfits
  · exact .inr (below_block hkeeps hwide)
  · exact .inl (beside_block hkeeps hfits)

theorem lineFeed_notMem_block (hkeeps : wrap.Keeps) {d : Declaration}
    (htag : '\n' ∉ (tag d).toList) {line : String} (hline : line ∈ block wrap d) :
    '\n' ∉ line.toList := by
  have hindented : '\n' ∉ (indented (tag d)).toList := by
    have hindentation : '\n' ∉ indentation.toList := by decide
    rw [indented_tag htag]
    simp [hindentation, htag]
  have hfragment : ∀ fragment ∈ fragments wrap (description d), '\n' ∉ fragment.toList :=
    fun fragment => lineFeed_notMem_fragments hkeeps
  rcases block_placed hkeeps d with ⟨gap, first, rest, hfragments, -, hblock⟩ | hbelow
  · rw [hfragments] at hfragment
    rw [hblock] at hline
    obtain ⟨hfirst, hrest⟩ := List.forall_mem_cons.mp hfragment
    rcases List.mem_cons.mp hline with rfl | hlater
    · simp [hindented, hfirst, lineFeed_notMem_spaces]
    · obtain ⟨fragment, hmem, rfl⟩ := List.mem_map.mp hlater
      simp [hrest fragment hmem, lineFeed_notMem_spaces]
  · rw [hbelow] at hline
    rcases List.mem_cons.mp hline with rfl | hlater
    · exact hindented
    · obtain ⟨fragment, hmem, rfl⟩ := List.mem_map.mp hlater
      simp [hfragment fragment hmem, lineFeed_notMem_spaces]

theorem exists_describes (hkeeps : wrap.Keeps) {d : Declaration}
    (hlong : NameFault.find? d.long = none) :
    ∃ names note, Describes d names note (fragments wrap (description d)) (block wrap d) := by
  obtain ⟨names, note, hshows, htext⟩ := exists_shows d
  refine ⟨names, note, ?_⟩
  constructor
  · exact hshows
  · exact fragments_ne_nil hkeeps _
  · exact block_placed hkeeps d
  · rw [fragments, hkeeps.text, htext]
  · intro fragment
    exact lineFeed_notMem_fragments hkeeps
  · intro hplaceholder
    have hname : '\n' ∉ d.long.toList := by
      intro hfeed
      have hblank := NameFault.isBlank_eq_false hlong _ hfeed
      contradiction
    have htag := hshows.lineFeed_notMem hname hplaceholder
    exact ⟨indented_tag htag, fun line => lineFeed_notMem_block hkeeps htag⟩

/-! ### Messages -/

/-- Lines as a text, each with a line feed at its end. -/
def written (lines : List String) : String :=
  String.join (lines.map (· ++ "\n"))

theorem written_append (first second : List String) :
    written (first ++ second) = written first ++ written second := by
  unfold written
  rw [List.map_append, String.join_append]

theorem written_flatMap {α : Type} (f : α → List String) (xs : List α) :
    written (xs.flatMap f) = String.join (xs.map fun x => written (f x)) := by
  induction xs with
  | nil => rfl
  | cons x xs ih => rw [List.flatMap_cons, written_append, ih, List.map_cons, String.join_cons]

/-- The block for references to response files. -/
def responseFileBlock (wrap : Text.Wrapper) : List String :=
  indentedEntry wrap responseFileTag responseFileDescription

end Usage

open Usage (Beside BesideTag Describes block fragments responseFileBlock written)

namespace Parser

variable {wrap : Text.Wrapper}

theorem usageWith_eq (wrap : Text.Wrapper) (p : Parser) :
    p.usageWith wrap =
      "Usage : " ++ p.program ++ " [options]" ++ Usage.synopsis p.table ++ "\n" ++
        "Options :\n\n" ++ String.join (p.table.named.map fun d => written (block wrap d)) ++
          if p.responseFiles then written (responseFileBlock wrap) else "" := by
  have hblocks : written ((p.table.named.flatMap (Usage.declarationLines wrap)).map
      Usage.indented) = String.join (p.table.named.map fun d => written (block wrap d)) := by
    rw [List.map_flatMap, Usage.written_flatMap]
    rfl
  have hfile : written ((if p.responseFiles then Usage.responseFileLines wrap else []).map
      Usage.indented) = if p.responseFiles then written (responseFileBlock wrap) else "" := by
    cases p.responseFiles <;> rfl
  have husage : p.usageWith wrap = written (Usage.lines wrap p) := rfl
  rw [husage, Usage.lines, Usage.written_append, List.map_append, Usage.written_append, hblocks,
    hfile]
  simp [written, String.append_assoc]

theorem exists_usage_around {p : Parser} {d : Declaration} (hd : d ∈ p.table.named) :
    ∃ before after, p.usageWith wrap = before ++ written (block wrap d) ++ after := by
  obtain ⟨earlier, later, hnamed⟩ := List.append_of_mem hd
  have haround : ∀ head tail : String, ∃ before after,
      head ++ String.join (p.table.named.map fun d => written (block wrap d)) ++ tail =
        before ++ written (block wrap d) ++ after := by
    intro head tail
    refine ⟨head ++ String.join (earlier.map fun d => written (block wrap d)),
      String.join (later.map fun d => written (block wrap d)) ++ tail, ?_⟩
    rw [hnamed, List.map_append, List.map_cons, String.join_append, String.join_cons]
    simp only [String.append_assoc]
  rw [usageWith_eq]
  exact haround _ _

theorem usage_describes (hkeeps : wrap.Keeps) {p : Parser} (hbuilt : p.table.Built)
    {d : Declaration} (hd : d ∈ p.table.named) :
    ∃ names note before after, p.usageWith wrap = before ++ written (block wrap d) ++ after ∧
      Describes d names note (fragments wrap (Usage.description d)) (block wrap d) := by
  have hall : d ∈ p.table.all := List.mem_append_left _ hd
  obtain ⟨names, note, hdescribes⟩ := Usage.exists_describes hkeeps (hbuilt.validNames d hall)
  obtain ⟨before, after, husage⟩ := exists_usage_around hd
  exact ⟨names, note, before, after, husage, hdescribes⟩

/-- The command line of a checker, one of whose names is in letters of two bytes. -/
def checker : Parser where
  table := .ofDraftsD
    [⟨"verbose", "verbose", .single .toggle, [.short "v", .description "Print more output."]⟩,
      ⟨"предупреждения", "warnings", .single .toggle, [.description "Show warnings."]⟩,
      ⟨"target", "target", .single .text, [.short "x", .description "The target."]⟩,
      ⟨"files", "files", .collection .text .list, [.positional]⟩]
  responseFiles := true

theorem checker_built : checker.table.Built := by
  dsimp only [checker]
  exact Table.ofDraftsD_built _

/-- The description starts on the line of the tag if the tag takes at most thirty bytes.  That is
the same as thirty characters unless the tag has at most so many characters and more bytes. -/
theorem description_beside_tag (hkeeps : wrap.Keeps) {p : Parser} (hbuilt : p.table.Built)
    {d : Declaration} (hd : d ∈ p.table.named) :
    (∃ names note before after, p.usageWith wrap = before ++ written (block wrap d) ++ after ∧
        Describes d names note (fragments wrap (Usage.description d)) (block wrap d)) ∧
      (BesideTag wrap d ↔ (Usage.tag d).utf8ByteSize ≤ 30) ∧
        ((∀ c ∈ (Usage.tag d).toList, c.toNat < 0x80) →
          (BesideTag wrap d ↔ (Usage.tag d).length ≤ 30)) ∧
            ((BesideTag wrap d ↔ (Usage.tag d).length ≤ 30) ↔
              ¬ ((Usage.tag d).length ≤ 30 ∧ 30 < (Usage.tag d).utf8ByteSize)) := by
  have hbeside : BesideTag wrap d ↔ (Usage.tag d).utf8ByteSize ≤ 30 := Usage.besideTag_iff hkeeps
  have hlength := Usage.length_le_utf8ByteSize (Usage.tag d)
  refine ⟨usage_describes hkeeps hbuilt hd, hbeside, ?_, ?_⟩
  · intro hascii
    rw [hbeside, Usage.utf8ByteSize_of_ascii hascii]
  · rw [hbeside]
    omega

theorem checker_describes_verbose_beside :
    checker.table.Built ∧ Text.wrapped.Keeps ∧ ∃ d ∈ checker.table.named,
      Usage.tag d = "-v[erbose][+|-]" ∧ BesideTag Text.wrapped d := by
  have hverbose : ∃ d ∈ checker.table.named, Usage.tag d = "-v[erbose][+|-]" := by decide
  obtain ⟨d, hd, htag⟩ := hverbose
  obtain ⟨-, hbeside, -⟩ := description_beside_tag Text.wrapped_keeps checker_built hd
  have hfits : (Usage.tag d).utf8ByteSize ≤ 30 := by
    rw [htag]
    decide
  exact ⟨checker_built, Text.wrapped_keeps, d, hd, htag, hbeside.mpr hfits⟩

/-- A tag of twenty characters, though of thirty-four bytes, has nothing beside it. -/
theorem checker_describes_warnings_below :
    checker.table.Built ∧ ∃ d ∈ checker.table.named, d.description = some "Show warnings." ∧
      (Usage.tag d).length = 20 ∧ (∃ names note before after,
        checker.usage = before ++ written (block Text.wrapped d) ++ after ∧
          Describes d names note (fragments Text.wrapped (Usage.description d))
            (block Text.wrapped d)) ∧
            ¬ BesideTag Text.wrapped d := by
  have hwarnings : ∃ d ∈ checker.table.named, d.description = some "Show warnings." ∧
      Usage.tag d = "-предупреждения[+|-]" := by
    decide
  obtain ⟨d, hd, hdescription, htag⟩ := hwarnings
  have hwide : Usage.tagLimit < (Usage.tag d).utf8ByteSize := by
    rw [htag]
    decide
  refine ⟨checker_built, d, hd, hdescription, ?_,
    usage_describes Text.wrapped_keeps checker_built hd, ?_⟩
  · rw [htag]
    rfl
  · exact Usage.not_beside_of_below (Usage.below_block Text.wrapped_keeps hwide)

end Parser

end CommandLine
