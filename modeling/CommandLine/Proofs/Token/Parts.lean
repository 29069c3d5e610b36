import CommandLine.Proofs.Parse.Spelling
import CommandLine.Proofs.Table.Names

/-!
# The parts of a token

The first character of an argument decides what it stands for.  The name of an option is the longest
beginning of its text without a separator, and the value is what follows, less a colon in front.
These rules leave no choice, so that an option can be put together again from its parts; and since
no name that is in order has a separator, every value can be given to it.
-/

namespace CommandLine.Token

/-! ### The text of an option -/

/-- The name and the value in the text behind the mark of an option. -/
structure Splits (body name : String) (value : Option String) : Prop where
  begins : name.toList <+: body.toList
  free : ∀ c ∈ name.toList, isSeparator c = false
  longest : ∀ other, other <+: body.toList → (∀ c ∈ other, isSeparator c = false) →
    other <+: name.toList
  absent : value = none ↔ body = name
  assigned : ∀ rest, body = name ++ ":" ++ rest → value = some rest
  verbatim : ∀ rest, body = name ++ rest → rest ≠ "" → rest.toList.head? ≠ some ':' →
    value = some rest

theorem splitBody_free {body name : List Char} {value : Option (List Char)}
    (hsplit : splitBody body = (name, value)) : ∀ c ∈ name, isSeparator c = false := by
  have hname : name = body.takeWhile (!isSeparator ·) := by
    unfold splitBody at hsplit
    dsimp only at hsplit
    split at hsplit <;> exact (congrArg Prod.fst hsplit).symm
  intro c hc
  rw [hname] at hc
  simpa using List.mem_takeWhile_imp hc

/-- A prefix without separators does not reach beyond the first one. -/
theorem prefix_of_free {name rest other : List Char}
    (hrest : ∀ c, rest.head? = some c → isSeparator c = true)
    (hother : other <+: name ++ rest) (hfree : ∀ c ∈ other, isSeparator c = false) :
    other <+: name := by
  rcases List.prefix_or_prefix_of_prefix hother (List.prefix_append name rest) with hname | hlonger
  · exact hname
  · obtain ⟨more, rfl⟩ := hlonger
    rw [List.prefix_append_right_inj] at hother
    cases more with
    | nil => simp
    | cons c more =>
        obtain ⟨later, rfl⟩ := hother
        have hc := hrest c rfl
        rw [hfree c (by simp)] at hc
        contradiction

theorem Splits.of_tail {body name : String} {value : Option String} {tail : List Char}
    (hbody : body.toList = name.toList ++ tail)
    (hfree : ∀ c ∈ name.toList, isSeparator c = false)
    (hhead : ∀ c, tail.head? = some c → isSeparator c = true)
    (habsent : value = none ↔ tail = [])
    (hassigned : ∀ rest : String, tail = ':' :: rest.toList → value = some rest)
    (hverbatim : ∀ rest : String, tail = rest.toList → rest ≠ "" →
      rest.toList.head? ≠ some ':' → value = some rest) : Splits body name value := by
  have htail : ∀ rest : String, body = name ++ rest → tail = rest.toList := by
    rintro rest rfl
    rw [String.toList_append, List.append_cancel_left_eq] at hbody
    exact hbody.symm
  constructor
  · exact ⟨tail, hbody.symm⟩
  · exact hfree
  · intro other hother
    rw [hbody] at hother
    exact prefix_of_free hhead hother
  · rw [habsent, ← String.toList_inj, hbody]
    simp
  · intro rest hrest
    rw [String.append_assoc] at hrest
    exact hassigned rest (by simpa using htail _ hrest)
  · intro rest hrest
    exact hverbatim rest (htail rest hrest)

theorem splits_of_splitBody {body name : String} {value : Option String}
    (hsplit : splitBody body.toList = (name.toList, value.map String.toList)) :
    Splits body name value := by
  have hfree := splitBody_free hsplit
  rcases splitBody_cases hsplit with ⟨hvalue, hbody⟩ | ⟨text, hvalue, hbody⟩ |
    ⟨text, hvalue, hsigned, hbody⟩
  · rw [Option.map_eq_none_iff] at hvalue
    subst value
    rw [← List.append_nil name.toList] at hbody
    apply Splits.of_tail hbody hfree
    · simp
    · simp
    · simp
    · intro rest hrest hne
      exact absurd (String.toList_eq_nil_iff.mp hrest.symm) hne
  · obtain ⟨value, rfl, rfl⟩ := Option.map_eq_some_iff.mp hvalue
    apply Splits.of_tail hbody hfree
    · rintro c hc
      obtain rfl := Option.some.inj hc
      rfl
    · simp
    · intro rest hrest
      rw [List.cons.injEq, String.toList_inj] at hrest
      rw [hrest.2]
    · intro rest hrest _ hcolon
      rw [← hrest] at hcolon
      exact absurd rfl hcolon
  · obtain ⟨value, rfl, rfl⟩ := Option.map_eq_some_iff.mp hvalue
    apply Splits.of_tail hbody hfree
    · intro c hc
      rcases hsigned with hplus | hminus
      · obtain rfl := Option.some.inj (hc.symm.trans hplus)
        rfl
      · obtain rfl := Option.some.inj (hc.symm.trans hminus)
        rfl
    · refine iff_of_false (by simp) ?_
      intro hempty
      simp [IsSigned, hempty] at hsigned
    · intro rest hrest
      simp [IsSigned, hrest] at hsigned
    · intro rest hrest _ _
      rw [String.toList_inj.mp hrest]

/-- Nothing, a value behind a colon, or a value as it stands follows the name. -/
theorem Splits.cases {body name : String} {value : Option String}
    (hsplits : Splits body name value) :
    (body = name ∧ value = none) ∨ (∃ rest, body = name ++ ":" ++ rest ∧ value = some rest) ∨
      ∃ rest, body = name ++ rest ∧ rest.toList.head? ≠ some ':' ∧ value = some rest := by
  obtain ⟨tail, htail⟩ := hsplits.begins
  have hbody : body = name ++ String.ofList tail := by
    rw [← String.toList_inj, ← htail]
    simp
  by_cases hempty : String.ofList tail = ""
  · rw [hempty, String.append_empty] at hbody
    exact .inl ⟨hbody, hsplits.absent.mpr hbody⟩
  · right
    by_cases hcolon : (String.ofList tail).toList.head? = some ':'
    · obtain ⟨rest, hrest⟩ := List.head?_eq_some_iff.mp hcolon
      have hassigned : body = name ++ ":" ++ String.ofList rest := by
        rw [hbody, String.append_assoc, ← String.toList_inj]
        simpa using hrest
      exact .inl ⟨_, hassigned, hsplits.assigned _ hassigned⟩
    · exact .inr ⟨_, hbody, hcolon, hsplits.verbatim _ hbody hempty hcolon⟩

theorem Splits.unique {body name other : String} {value found : Option String}
    (hsplits : Splits body name value) (hother : Splits body other found) :
    name = other ∧ value = found := by
  obtain rfl : name = other := by
    have hto := hother.longest name.toList hsplits.begins hsplits.free
    have hfrom := hsplits.longest other.toList hother.begins hother.free
    exact String.toList_inj.mp (hto.eq_of_length_le hfrom.length_le)
  refine ⟨rfl, ?_⟩
  rcases hsplits.cases with ⟨hbody, rfl⟩ | ⟨rest, hbody, rfl⟩ | ⟨rest, hbody, hcolon, rfl⟩
  · exact (hother.absent.mpr hbody).symm
  · exact (hother.assigned rest hbody).symm
  · have hne : rest ≠ "" := by
      rintro rfl
      rw [String.append_empty] at hbody
      exact Option.some_ne_none _ (hsplits.absent.mpr hbody)
    exact (hother.verbatim rest hbody hne hcolon).symm

theorem splits_iff {body name : String} {value : Option String} :
    Splits body name value ↔ splitBody body.toList = (name.toList, value.map String.toList) := by
  refine ⟨?_, splits_of_splitBody⟩
  intro hsplits
  rcases hsplit : splitBody body.toList with ⟨found, text⟩
  have hfound : Splits body (String.ofList found) (text.map String.ofList) := by
    apply splits_of_splitBody
    simp [hsplit, Function.comp_def]
  obtain ⟨rfl, rfl⟩ := hsplits.unique hfound
  simp [Function.comp_def]

theorem exists_splits (body : String) : ∃ name value, Splits body name value := by
  rcases hsplit : splitBody body.toList with ⟨name, value⟩
  refine ⟨String.ofList name, value.map String.ofList, splits_iff.mpr ?_⟩
  simp [hsplit, Function.comp_def]

/-! ### Arguments -/

/-- What an argument that is not empty stands for; exactly one of the rules applies. -/
inductive Means (responseFiles : Bool) : String → Token → Prop
  | option {mark body name : String} {value : Option String} :
      IsMark mark → Splits body name value →
        Means responseFiles (mark ++ body) (.named (mark ++ body) name value)
  | reference {path : String} : responseFiles = true →
      Means responseFiles ("@" ++ path) (.responseFile path)
  | other {argument : String} {first : Char} :
      argument.toList.head? = some first → first ≠ '-' → first ≠ '/' →
        (first = '@' → responseFiles = false) →
          Means responseFiles argument (.positional argument)

/-- The first character decides which rule applies. -/
theorem exists_means {argument : String} (hne : argument ≠ "") (responseFiles : Bool) :
    ∃ token, Means responseFiles argument token := by
  cases hargument : argument.toList with
  | nil => exact absurd (String.toList_eq_nil_iff.mp hargument) hne
  | cons first rest =>
      have hmarked : ∀ mark : String, mark.toList = [first] →
          argument = mark ++ String.ofList rest := by
        intro mark hmark
        rw [← String.toList_inj]
        simp [hargument, hmark]
      by_cases hmark : first = '-' ∨ first = '/'
      · obtain ⟨name, value, hsplits⟩ := exists_splits (String.ofList rest)
        have hismark : IsMark (String.singleton first) := by
          rcases hmark with rfl | rfl
          · exact .inl rfl
          · exact .inr rfl
        rw [hmarked (String.singleton first) (by simp)]
        exact ⟨_, .option hismark hsplits⟩
      · by_cases hreference : first = '@' ∧ responseFiles = true
        · obtain ⟨rfl, henabled⟩ := hreference
          rw [hmarked "@" rfl]
          exact ⟨_, .reference henabled⟩
        · have hfirst : argument.toList.head? = some first := by rw [hargument, List.head?_cons]
          refine ⟨_, .other hfirst ?_ ?_ ?_⟩
          · exact fun hdash => hmark (.inl hdash)
          · exact fun hslash => hmark (.inr hslash)
          · intro hat
            exact Bool.eq_false_iff.mpr fun henabled => hreference ⟨hat, henabled⟩

theorem Means.classify_eq {responseFiles : Bool} {argument : String} {token : Token}
    (hmeans : Means responseFiles argument token) :
    classify responseFiles argument = some token := by
  cases hmeans with
  | option hmark hsplits =>
      rw [classify_marked hmark, splits_iff.mp hsplits]
      simp [Function.comp_def]
  | reference henabled => simp [classify, henabled]
  | other hfirst hdash hslash hat =>
      obtain ⟨rest, hargument⟩ := List.head?_eq_some_iff.mp hfirst
      unfold classify
      rw [hargument]
      simpa [hdash, hslash] using hat

theorem classify_eq_some_iff {responseFiles : Bool} {argument : String} {token : Token} :
    classify responseFiles argument = some token ↔ Means responseFiles argument token := by
  refine ⟨?_, Means.classify_eq⟩
  intro hclassify
  have hne : argument ≠ "" := by
    rw [ne_eq, ← classify_eq_none_iff, hclassify]
    exact Option.some_ne_none token
  obtain ⟨other, hother⟩ := exists_means hne responseFiles
  obtain rfl := Option.some.inj (hclassify.symm.trans hother.classify_eq)
  exact hother

theorem forall₂_means_iff {responseFiles : Bool} {arguments : List String} {tokens : List Token} :
    List.Forall₂ (Means responseFiles) (arguments.filter (· ≠ "")) tokens ↔
      tokens = ofArguments responseFiles arguments := by
  unfold ofArguments
  induction arguments generalizing tokens with
  | nil => simp
  | cons argument rest ih =>
      cases hclassify : classify responseFiles argument with
      | none =>
          obtain rfl := classify_eq_none_iff.mp hclassify
          rw [List.filterMap_cons_none hclassify]
          exact ih
      | some token =>
          have hne : argument ≠ "" := by
            rw [ne_eq, ← classify_eq_none_iff, hclassify]
            exact Option.some_ne_none token
          rw [List.filterMap_cons_some hclassify, List.filter_cons_of_pos (by simpa using hne),
            List.forall₂_cons_left_iff]
          simp only [← classify_eq_some_iff, hclassify, ih, Option.some.injEq]
          simp

/-! ### Putting options together -/

/-- An option from its parts; `colon` says whether there is a colon behind the name. -/
def rebuilt (mark name : String) (colon : Bool) (value : Option String) : String :=
  mark ++ name ++ (if colon then ":" else "") ++ value.getD ""

theorem Splits.rebuilt {body name : String} {value : Option String}
    (hsplits : Splits body name value) (mark : String) :
    ∃ colon, (colon = true ↔ ∃ rest, mark ++ body = mark ++ name ++ ":" ++ rest) ∧
      mark ++ body = rebuilt mark name colon value := by
  rcases hsplits.cases with ⟨rfl, rfl⟩ | ⟨rest, rfl, rfl⟩ | ⟨rest, rfl, hcolon, rfl⟩
  · refine ⟨false, ?_, by simp [Token.rebuilt]⟩
    simp [← String.toList_inj]
  · refine ⟨true, iff_of_true rfl ⟨rest, ?_⟩, ?_⟩
    · simp [String.append_assoc]
    · simp [Token.rebuilt, String.append_assoc]
  · refine ⟨false, iff_of_false (by simp) ?_, ?_⟩
    · rintro ⟨later, hlater⟩
      have hrest : rest.toList = ':' :: later.toList := by
        simpa [← String.toList_inj] using hlater
      simp [hrest] at hcolon
    · simp [Token.rebuilt, String.append_assoc]

theorem splitOption_marked {mark : String} (hmark : IsMark mark) (body : String) :
    splitOption (mark ++ body) =
      (String.ofList (splitBody body.toList).1, (splitBody body.toList).2.map String.ofList) := by
  have hbody : (mark ++ body).toList.drop 1 = body.toList := by
    rcases hmark with rfl | rfl <;> simp
  unfold splitOption
  rw [hbody]

theorem splitOption_of_valid {name : String} (hname : NameFault.find? name = none) {mark : String}
    (hmark : IsMark mark) :
    splitOption (mark ++ name) = (name, none) ∧
      ∀ value, splitOption (mark ++ name ++ ":" ++ value) = (name, some value) ∧
        (IsSigned value.toList → splitOption (mark ++ name ++ value) = (name, some value)) := by
  have hfree := NameFault.isSeparator_eq_false hname
  refine ⟨?_, fun value => ⟨?_, fun hsigned => ?_⟩⟩
  · rw [splitOption_marked hmark, splitBody_name hfree]
    simp
  · have hbody : (name ++ (":" ++ value)).toList = name.toList ++ ':' :: value.toList := by
      simp
    rw [String.append_assoc, String.append_assoc, splitOption_marked hmark, hbody,
      splitBody_append hfree rfl]
    simp
  · rw [String.append_assoc, splitOption_marked hmark, String.toList_append,
      splitBody_signed hfree hsigned]
    simp

end CommandLine.Token
