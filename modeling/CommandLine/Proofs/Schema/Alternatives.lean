import CommandLine.Proofs.Schema.Settings
import CommandLine.Proofs.Table.Built
import CommandLine.Proofs.Text.Case
import CommandLine.Schema.Values

/-!
# Enumerations as types of values

An enumeration whose alternatives carry no data becomes a type of values exactly if it has no
parameters, has an alternative, and no two names agree in lower case.  Comparing names with the case
of ASCII letters ignored is the same relation, so every text then chooses at most one alternative,
each alternative can be chosen, and their order makes no difference.
-/

namespace CommandLine

namespace ValueType

/-! ### Choosing an alternative -/

/-- A type whose alternatives are told apart by every text. -/
structure Distinguishes (name : String) (alternatives : List Alternative) : Prop where
  chosen : ∀ s v, (enumeration name alternatives).read s = .ok v ↔
    ∃ a ∈ alternatives, Text.SameUpToCase s a.name ∧ v = .choice a.variant
  refused : ∀ s cause, (enumeration name alternatives).read s = .error cause ↔
    cause = .shouldBe (alternatives.map Alternative.name) ∧
      ∀ a ∈ alternatives, ¬ Text.SameUpToCase s a.name
  atMostOne : ∀ s (i j : Nat) a b, alternatives[i]? = some a → alternatives[j]? = some b →
    Text.SameUpToCase s a.name → Text.SameUpToCase s b.name → i = j
  reachable : ∀ a ∈ alternatives, ∀ s, Text.SameUpToCase s a.name →
    findAlternative? alternatives s = some a
  unordered : ∀ other, other.Perm alternatives → ∀ s,
    findAlternative? other s = findAlternative? alternatives s
  beyondAscii : ∀ s a, findAlternative? alternatives s = some a → ∀ (i : Nat) c d,
    s.toList[i]? = some c → a.name.toList[i]? = some d →
      128 ≤ c.toNat ∨ 128 ≤ d.toNat → c = d

section

variable {alternatives : List Alternative}

theorem findAlternative?_eq_some_iff (hapart : Text.Apart (alternatives.map Alternative.name))
    {s : String} {a : Alternative} :
    findAlternative? alternatives s = some a ↔
      a ∈ alternatives ∧ Text.SameUpToCase s a.name := by
  have hcompare : ∀ b : Alternative,
      Text.sameIgnoringCase s b.name = (Text.folded b.name == Text.folded s) := fun b => BEq.comm
  have hdistinct : (alternatives.map fun b => Text.folded b.name).Nodup := by
    rwa [Text.Apart, List.map_map] at hapart
  unfold findAlternative?
  simp only [hcompare]
  rw [Schema.find?_key_eq_some_iff hdistinct, Text.sameUpToCase_iff, eq_comm (b := Text.folded s)]

theorem findAlternative?_eq_none_iff {s : String} :
    findAlternative? alternatives s = none ↔
      ∀ a ∈ alternatives, ¬ Text.SameUpToCase s a.name := by
  unfold findAlternative?
  simp only [List.find?_eq_none, Text.sameIgnoringCase_iff]

theorem enumeration_read_eq_ok_iff {name s : String} {v : Value} :
    (enumeration name alternatives).read s = .ok v ↔
      ∃ a, findAlternative? alternatives s = some a ∧ v = .choice a.variant := by
  simp only [enumeration]
  cases findAlternative? alternatives s <;> simp [eq_comm]

theorem enumeration_read_eq_error_iff {name s : String} {cause : ValueError} :
    (enumeration name alternatives).read s = .error cause ↔
      cause = .shouldBe (alternatives.map Alternative.name) ∧
        findAlternative? alternatives s = none := by
  simp only [enumeration]
  cases findAlternative? alternatives s <;> simp [eq_comm]

/-- That the names differ in lower case is all that it takes. -/
theorem distinguishes_of_apart {name : String}
    (hapart : Text.Apart (alternatives.map Alternative.name)) :
    Distinguishes name alternatives where
  chosen s v := by
    rw [enumeration_read_eq_ok_iff]
    simp only [findAlternative?_eq_some_iff hapart, and_assoc]
  refused s cause := by
    rw [enumeration_read_eq_error_iff, findAlternative?_eq_none_iff]
  atMostOne s i j a b hi hj ha hb := by
    have hfolded : Text.folded a.name = Text.folded b.name :=
      (Text.sameUpToCase_iff.mp ha).symm.trans (Text.sameUpToCase_iff.mp hb)
    obtain ⟨hlt, -⟩ := List.getElem?_eq_some_iff.mp hi
    apply (List.getElem?_inj (by simpa using hlt) hapart).mp
    simp [hi, hj, hfolded]
  reachable a ha s hs := (findAlternative?_eq_some_iff hapart).mpr ⟨ha, hs⟩
  unordered other hperm s := by
    have hother : Text.Apart (other.map Alternative.name) :=
      ((hperm.map Alternative.name).map Text.folded).nodup_iff.mpr hapart
    apply Option.ext
    intro a
    rw [findAlternative?_eq_some_iff hother, findAlternative?_eq_some_iff hapart, hperm.mem_iff]
  beyondAscii s a hfind i c d hc hd hbeyond := by
    obtain ⟨-, hsame⟩ := (findAlternative?_eq_some_iff hapart).mp hfind
    obtain ⟨hcs, rfl⟩ := List.getElem?_eq_some_iff.mp hc
    obtain ⟨hds, rfl⟩ := List.getElem?_eq_some_iff.mp hd
    exact (List.Forall₂.get hsame hcs hds).eq_of_not_ascii hbeyond

end

end ValueType

namespace Schema

/-! ### Members that stand for alternatives -/

/-- No setting, or one name. -/
def Member.IsNamed (m : Member) : Prop :=
  m.settings = [] ∨ ∃ text, m.settings = [⟨"name", some text⟩]

/-- The name in the settings, or else the identifier. -/
def Member.valueName (m : Member) : String :=
  match m.settings with
  | [⟨_, some text⟩] => text
  | _ => m.name.getD ""

def Member.alternative (m : Member) : ValueType.Alternative :=
  ⟨m.valueName, m.name.getD ""⟩

theorem alternativeKeys_unreserved : Unreserved alternativeKeys :=
  ⟨by decide, by decide⟩

theorem inOrder_alternativeKeys_iff {settings : List Setting} :
    InOrder alternativeKeys settings ↔
      settings = [] ∨ ∃ text, settings = [⟨"name", some text⟩] := by
  have hname : ∀ s : Setting,
      (∃ form, ⟨s.key, form⟩ ∈ alternativeKeys ∧ form.fault s.text = none) →
        ∃ text, s = ⟨"name", some text⟩ := by
    rintro ⟨key, text⟩ ⟨form, hkey, hfault⟩
    obtain ⟨rfl, rfl⟩ : key = "name" ∧ form = .text := by simpa [alternativeKeys] using hkey
    cases text with
    | none => contradiction
    | some text => exact ⟨text, rfl⟩
  constructor
  · intro horder
    cases settings with
    | nil => exact .inl rfl
    | cons first rest =>
        obtain ⟨hfirst, hothers⟩ := List.forall_mem_cons.mp horder.allowed
        obtain ⟨text, rfl⟩ := hname first hfirst
        cases rest with
        | nil => exact .inr ⟨text, rfl⟩
        | cons second rest =>
            -- a second name would be a repetition
            obtain ⟨other, rfl⟩ := hname second (hothers second List.mem_cons_self)
            simpa using horder.distinct
  · rintro (rfl | ⟨text, rfl⟩)
    · exact ⟨by simp, by simp⟩
    · refine ⟨?_, by simp⟩
      rintro s hs
      obtain rfl := List.mem_singleton.mp hs
      exact ⟨.text, by simp [alternativeKeys], rfl⟩

theorem Reader.Sound.taken_alternativeKeys {reader : Reader} (hsound : reader.Sound) {m : Member}
    {settings : List Setting} :
    reader alternativeKeys m = .ok settings ↔ settings = m.settings ∧ m.IsNamed := by
  rw [hsound.taken _ alternativeKeys_unreserved, inOrder_alternativeKeys_iff]
  rfl

theorem Member.IsNamed.textOf_getD {m : Member} (hnamed : m.IsNamed) :
    (textOf m.settings "name").getD (m.name.getD "") = m.valueName := by
  unfold Member.valueName
  rcases hnamed with hnone | ⟨text, hone⟩
  · rw [hnone]
    rfl
  · rw [hone]
    rfl

/-! ### Enumerations -/

/-- A member without data and with at most one name. -/
structure Member.IsAlternative (m : Member) : Prop where
  plain : m.type = none
  named : m.IsNamed

/-- All that is asked of an enumeration. -/
structure Definition.Enumerates (d : Definition) : Prop where
  plain : d.generic = false
  nonempty : d.members ≠ []
  alternatives : ∀ m ∈ d.members, m.IsAlternative
  apart : Text.Apart (d.members.map Member.valueName)

section Reader

variable {reader : Reader} (hsound : reader.Sound)

include hsound

theorem alternativeOf_eq_ok_iff {earlier : List String} {m : Member}
    {a : ValueType.Alternative} :
    alternativeOf reader earlier m = .ok a ↔
      m.IsAlternative ∧ (∀ name ∈ earlier, Text.folded name ≠ Text.folded m.valueName) ∧
        a = m.alternative := by
  unfold alternativeOf
  by_cases hplain : m.type = none
  · rw [if_neg (by simp [hplain])]
    cases hchecked : reader alternativeKeys m with
    | error error =>
        refine iff_of_false (by simp) ?_
        rintro ⟨halternative, -⟩
        rw [hsound.taken_alternativeKeys.mpr ⟨rfl, halternative.named⟩] at hchecked
        contradiction
    | ok settings =>
        obtain ⟨rfl, hnamed⟩ := hsound.taken_alternativeKeys.mp hchecked
        have hclash : earlier.any (Text.sameIgnoringCase · m.valueName) = true ↔
            ¬ ∀ name ∈ earlier, Text.folded name ≠ Text.folded m.valueName := by
          simp [Text.sameIgnoringCase]
        have halternative : m.IsAlternative := ⟨hplain, hnamed⟩
        simp only [hnamed.textOf_getD]
        by_cases hfree : ∀ name ∈ earlier, Text.folded name ≠ Text.folded m.valueName
        · rw [if_neg (mt hclash.mp (not_not_intro hfree))]
          constructor
          · intro hok
            exact ⟨halternative, hfree, (Except.ok.inj hok).symm⟩
          · rintro ⟨-, -, rfl⟩
            rfl
        · rw [if_pos (hclash.mpr hfree)]
          exact iff_of_false (by simp) fun hall => hfree hall.2.1
  · rw [if_pos (by simpa [Option.isSome_iff_ne_none] using hplain)]
    refine iff_of_false (by simp) ?_
    rintro ⟨halternative, -⟩
    exact hplain halternative.plain

/-- Members become alternatives one by one, as long as each name is a new one. -/
theorem alternatives_eq_ok_iff {earlier : List String} (hearlier : Text.Apart earlier)
    {members : List Member} {found : List ValueType.Alternative} :
    alternatives reader earlier members = .ok found ↔
      (∀ m ∈ members, m.IsAlternative) ∧
        Text.Apart (earlier ++ members.map Member.valueName) ∧
          found = members.map Member.alternative := by
  induction members generalizing earlier found with
  | nil => simp [alternatives, hearlier, eq_comm]
  | cons m rest ih =>
      have hnew : Text.Apart (earlier ++ [m.valueName]) ↔
          ∀ name ∈ earlier, Text.folded name ≠ Text.folded m.valueName := by
        rw [Text.apart_append_singleton_iff, and_iff_right hearlier]
      unfold alternatives
      rw [bind_eq_ok_iff, List.map_cons, List.append_cons]
      constructor
      · rintro ⟨first, hfirst, hrest⟩
        obtain ⟨others, hothers, hdone⟩ := bind_eq_ok_iff.mp hrest
        obtain ⟨halternative, hfresh, rfl⟩ := (alternativeOf_eq_ok_iff hsound).mp hfirst
        obtain ⟨hall, hapart, rfl⟩ := (ih (hnew.mpr hfresh)).mp hothers
        have hmembers := List.forall_mem_cons.mpr ⟨halternative, hall⟩
        exact ⟨hmembers, hapart, (Except.ok.inj hdone).symm⟩
      · rintro ⟨hall, hapart, rfl⟩
        obtain ⟨halternative, hrest⟩ := List.forall_mem_cons.mp hall
        have hothers := (ih hapart.of_append).mpr ⟨hrest, hapart, rfl⟩
        have hfirst := (alternativeOf_eq_ok_iff hsound).mpr
          ⟨halternative, hnew.mp hapart.of_append, rfl⟩
        exact ⟨m.alternative, hfirst, bind_eq_ok_iff.mpr ⟨_, hothers, rfl⟩⟩

theorem enumeration_eq_ok_iff {members : List Member} {derived : DerivedValue} :
    enumeration reader members = .ok derived ↔
      (∀ m ∈ members, m.IsAlternative) ∧ members ≠ [] ∧
        Text.Apart (members.map Member.valueName) ∧
          derived = .enumeration (members.map Member.alternative) := by
  unfold enumeration
  cases hfound : alternatives reader [] members with
  | error error =>
      refine iff_of_false (by simp) ?_
      rintro ⟨hall, -, hapart, -⟩
      rw [(alternatives_eq_ok_iff hsound Text.apart_nil).mpr ⟨hall, hapart, rfl⟩] at hfound
      contradiction
  | ok found =>
      obtain ⟨hall, hapart, rfl⟩ := (alternatives_eq_ok_iff hsound Text.apart_nil).mp hfound
      cases members with
      | nil => exact iff_of_false (by simp) fun hall => hall.2.1 rfl
      | cons m rest =>
          constructor
          · intro hok
            exact ⟨hall, by simp, hapart, (Except.ok.inj hok).symm⟩
          · rintro ⟨-, -, -, rfl⟩
            rfl

theorem valueWith_eq_ok_iff {d : Definition} (hshape : d.shape = .enumeration)
    {derived : DerivedValue} :
    valueWith reader d = .ok derived ↔
      d.Enumerates ∧ derived = .enumeration (d.members.map Member.alternative) := by
  unfold valueWith
  rw [hshape]
  by_cases hgeneric : d.generic = true
  · rw [if_pos hgeneric]
    refine iff_of_false (by simp) ?_
    rintro ⟨henumerates, -⟩
    rw [henumerates.plain] at hgeneric
    contradiction
  · rw [if_neg hgeneric]
    simp only [enumeration_eq_ok_iff hsound]
    constructor
    · rintro ⟨hall, hnonempty, hapart, rfl⟩
      exact ⟨⟨Bool.eq_false_iff.mpr hgeneric, hnonempty, hall, hapart⟩, rfl⟩
    · rintro ⟨henumerates, rfl⟩
      exact ⟨henumerates.alternatives, henumerates.nonempty, henumerates.apart, rfl⟩

/-- An enumeration without parameters is taken if it has alternatives, none of which carries data
or more than one name, and no two names agree in lower case; every text then chooses the one
alternative whose name it is up to case, if any. -/
theorem enumeration_distinguishes (d : Definition) (hshape : d.shape = .enumeration) :
    ((∃ derived, valueWith reader d = .ok derived) ↔ d.Enumerates) ∧
      ∀ derived, valueWith reader d = .ok derived →
        ∃ alternatives, derived = .enumeration alternatives ∧
          alternatives = d.members.map Member.alternative ∧
            ValueType.Distinguishes d.name alternatives := by
  constructor
  · simp only [valueWith_eq_ok_iff hsound hshape, exists_and_left, exists_eq, and_true]
  · intro derived hderived
    obtain ⟨henumerates, rfl⟩ := (valueWith_eq_ok_iff hsound hshape).mp hderived
    refine ⟨_, rfl, rfl, ValueType.distinguishes_of_apart ?_⟩
    rw [List.map_map]
    exact henumerates.apart

end Reader

/-- Letters beyond ASCII keep their case, so that this name is not in capitals throughout. -/
theorem colors_distinguished :
    let colors : Definition := ⟨.enumeration, "Color", false,
      [{ name := some "Red" }, { name := some "Green", attributes := [[]] },
        { name := some "Dark", attributes := [[⟨"name", some "dark-Größe"⟩]] }]⟩
    let alternatives : List ValueType.Alternative :=
      [⟨"Red", "Red"⟩, ⟨"Green", "Green"⟩, ⟨"dark-Größe", "Dark"⟩]
    let color := ValueType.enumeration "Color" alternatives
    Reader.Sound checkedSettings ∧ colors.shape = .enumeration ∧
      value colors = .ok (.enumeration alternatives) ∧
      color.read "DARK-GRößE" = .ok (.choice "Dark") ∧
        color.read "DARK-GRÖSSE" = .error (.shouldBe ["Red", "Green", "dark-Größe"]) := by
  intro colors alternatives color
  have hvalue : value colors = .ok (.enumeration alternatives) := by decide
  obtain ⟨found, hfound, -, hdistinguishes⟩ :=
    (enumeration_distinguishes checkedSettings_sound colors rfl).2 _ hvalue
  obtain rfl := DerivedValue.enumeration.inj hfound
  refine ⟨checkedSettings_sound, rfl, hvalue, ?_, ?_⟩
  · apply (hdistinguishes.chosen _ _).mpr
    exact ⟨⟨"dark-Größe", "Dark"⟩, by decide, Text.sameUpToCase_iff.mpr (by decide), rfl⟩
  · apply (hdistinguishes.refused _ _).mpr
    refine ⟨rfl, ?_⟩
    simp only [Text.sameUpToCase_iff]
    decide

/-- An enumeration with parameters is refused, whatever its alternatives are called. -/
theorem generic_enumeration_refused :
    let levels : Definition :=
      ⟨.enumeration, "Level", true, [{ name := some "Low" }, { name := some "High" }]⟩
    levels.shape = .enumeration ∧ (∀ m ∈ levels.members, m.IsAlternative) ∧
      levels.members ≠ [] ∧ Text.Apart (levels.members.map Member.valueName) ∧
        ¬ ∃ derived, value levels = .ok derived := by
  intro levels
  refine ⟨rfl, ?_, by decide, ?_, ?_⟩
  · intro m hm
    rcases List.mem_pair.mp hm with rfl | rfl <;> exact ⟨rfl, .inl rfl⟩
  · unfold Text.Apart
    decide
  · rintro ⟨derived, hderived⟩
    contradiction

end Schema

end CommandLine
