import CommandLine.Token
import Mathlib.Data.List.TakeWhile

/-!
# Spellings of options

An option begins with one of two marks and is split behind its name, if that holds no character
that ends a name.  The value stands behind a colon or, where it begins with a sign, directly behind
the name; there is no other way to write one.
-/

namespace CommandLine

namespace Token

/-- What an option begins with. -/
def IsMark (mark : String) : Prop :=
  mark = "-" ∨ mark = "/"

/-- A value that can follow a name directly. -/
def IsSigned (value : List Char) : Prop :=
  value.head? = some '+' ∨ value.head? = some '-'

/-! ### Splitting -/

theorem splitBody_append {name rest : List Char} {c : Char}
    (hname : ∀ other ∈ name, isSeparator other = false) (hc : isSeparator c = true) :
    splitBody (name ++ c :: rest) = (name, some (if c = ':' then rest else c :: rest)) := by
  have hbefore : ∀ other ∈ name, (!isSeparator other) = true := by
    intro other hother
    rw [hname other hother]
    rfl
  unfold splitBody
  rw [List.takeWhile_append_of_pos hbefore, List.dropWhile_append_of_pos hbefore,
    List.takeWhile_cons_of_neg (by simp [hc]), List.dropWhile_cons_of_neg (by simp [hc]),
    List.append_nil]
  dsimp only
  split
  · contradiction
  · next value hcons =>
      obtain ⟨rfl, rfl⟩ := List.cons.inj hcons
      rfl
  · next hcolon =>
      rw [if_neg]
      rintro rfl
      exact hcolon rest rfl

theorem splitBody_name {name : List Char} (hname : ∀ c ∈ name, isSeparator c = false) :
    splitBody name = (name, none) := by
  have hbefore : ∀ c ∈ name, (!isSeparator c) = true := by
    intro c hc
    rw [hname c hc]
    rfl
  have htake : name.takeWhile (!isSeparator ·) = name := List.takeWhile_eq_self_iff.mpr hbefore
  have hdrop : name.dropWhile (!isSeparator ·) = [] := List.dropWhile_eq_nil_iff.mpr hbefore
  unfold splitBody
  rw [htake, hdrop]

theorem splitBody_signed {name value : List Char} (hname : ∀ c ∈ name, isSeparator c = false)
    (hsigned : IsSigned value) : splitBody (name ++ value) = (name, some value) := by
  cases value with
  | nil => simp [IsSigned] at hsigned
  | cons c rest =>
      have hc : c = '+' ∨ c = '-' := by simpa [IsSigned] using hsigned
      rcases hc with rfl | rfl
      · exact splitBody_append hname rfl
      · exact splitBody_append hname rfl

/-- A body is split in one of three ways, and can be put together again. -/
theorem splitBody_cases {body name : List Char} {value : Option (List Char)}
    (hsplit : splitBody body = (name, value)) :
    (value = none ∧ body = name) ∨
      (∃ text, value = some text ∧ body = name ++ ':' :: text) ∨
        ∃ text, value = some text ∧ IsSigned text ∧ body = name ++ text := by
  have hbody := List.takeWhile_append_dropWhile (p := (!isSeparator ·)) (l := body)
  unfold splitBody at hsplit
  dsimp only at hsplit
  cases hrest : body.dropWhile (!isSeparator ·) with
  | nil =>
      rw [hrest] at hsplit hbody
      obtain ⟨rfl, rfl⟩ := Prod.mk.inj hsplit
      exact .inl ⟨rfl, by simpa using hbody.symm⟩
  | cons c rest =>
      have hc : isSeparator c = true := by
        have hhead := List.head?_dropWhile_not (!isSeparator ·) body
        simpa [hrest] using hhead
      rw [hrest] at hsplit hbody
      right
      by_cases hcolon : c = ':'
      · subst c
        obtain ⟨rfl, rfl⟩ := Prod.mk.inj hsplit
        exact .inl ⟨rest, rfl, hbody.symm⟩
      · have hsigned : c = '+' ∨ c = '-' := by
          simpa [isSeparator, hcolon] using hc
        have hvalue : (body.takeWhile (!isSeparator ·), some (c :: rest)) = (name, value) := by
          rcases hsigned with rfl | rfl
          · exact hsplit
          · exact hsplit
        obtain ⟨rfl, rfl⟩ := Prod.mk.inj hvalue
        exact .inr ⟨c :: rest, rfl, by simpa [IsSigned] using hsigned, hbody.symm⟩

/-! ### Options -/

theorem classify_marked {responseFiles : Bool} {mark : String} (hmark : IsMark mark)
    (body : String) :
    classify responseFiles (mark ++ body) =
      some (.named (mark ++ body) (String.ofList (splitBody body.toList).1)
        ((splitBody body.toList).2.map String.ofList)) := by
  rcases hmark with rfl | rfl
  · simp [classify, splitOption]
  · simp [classify, splitOption]

section

variable {responseFiles : Bool} {mark name : String}

theorem classify_bare (hmark : IsMark mark) (hname : ∀ c ∈ name.toList, isSeparator c = false) :
    classify responseFiles (mark ++ name) = some (.named (mark ++ name) name none) := by
  rw [classify_marked hmark, splitBody_name hname]
  simp

theorem classify_assigned (hmark : IsMark mark)
    (hname : ∀ c ∈ name.toList, isSeparator c = false) (value : String) :
    classify responseFiles (mark ++ name ++ ":" ++ value) =
      some (.named (mark ++ name ++ ":" ++ value) name (some value)) := by
  have hbody : (name ++ (":" ++ value)).toList = name.toList ++ ':' :: value.toList := by
    simp
  rw [String.append_assoc, String.append_assoc, classify_marked hmark, hbody,
    splitBody_append hname rfl]
  simp

theorem classify_signed {value : String} (hmark : IsMark mark)
    (hname : ∀ c ∈ name.toList, isSeparator c = false) (hsigned : IsSigned value.toList) :
    classify responseFiles (mark ++ name ++ value) =
      some (.named (mark ++ name ++ value) name (some value)) := by
  rw [String.append_assoc, classify_marked hmark, String.toList_append,
    splitBody_signed hname hsigned]
  simp

end

/-- Only what begins with a mark is an option. -/
theorem exists_mark_of_classify {responseFiles : Bool} {argument written name : String}
    {value : Option String}
    (hclassify : classify responseFiles argument = some (.named written name value)) :
    ∃ mark body : String, IsMark mark ∧ argument = mark ++ body ∧
      splitBody body.toList = (name.toList, value.map String.toList) := by
  unfold classify at hclassify
  split at hclassify
  · contradiction
  · next first rest hargument =>
      split at hclassify
      · next hfirst =>
          simp only [splitOption, Option.some.injEq, Token.named.injEq] at hclassify
          obtain ⟨-, rfl, rfl⟩ := hclassify
          refine ⟨String.singleton first, String.ofList rest, ?_, ?_, ?_⟩
          · have hmark : first = '-' ∨ first = '/' := by simpa using hfirst
            rcases hmark with rfl | rfl
            · exact .inl rfl
            · exact .inr rfl
          · apply String.toList_inj.mp
            simp [hargument]
          · simp [hargument, Option.map_map, Function.comp_def]
      · split at hclassify
        · simp at hclassify
        · simp at hclassify

/-! ### Empty arguments -/

theorem classify_eq_none_iff {responseFiles : Bool} {argument : String} :
    classify responseFiles argument = none ↔ argument = "" := by
  rw [← String.toList_eq_nil_iff]
  unfold classify
  cases argument.toList with
  | nil => simp
  | cons first rest =>
      dsimp only
      split
      · simp
      · split <;> simp

/-! ### Positional values -/

theorem classify_positional {responseFiles : Bool} {argument : String} (hne : argument ≠ "")
    (hmark : argument.toList.head? ∉ [some '-', some '/', some '@']) :
    classify responseFiles argument = some (.positional argument) := by
  unfold classify
  split
  · next hempty => exact absurd (String.toList_eq_nil_iff.mp hempty) hne
  · next first rest hcons =>
      have hfirst : first ≠ '-' ∧ first ≠ '/' ∧ first ≠ '@' := by
        simpa [hcons] using hmark
      simp [hfirst]

end Token

end CommandLine
