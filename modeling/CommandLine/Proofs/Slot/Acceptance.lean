import CommandLine.Proofs.Parse.Bookkeeping

/-!
# What a buffer accepts

Arguments that can hold more than one value collect their values in a buffer.  Every call converts
one value and appends it, unless the call is unique and the buffer has an equal element already.  A
call that fails has left the buffer alone, so what calls leave behind is the buffer that they began
with and the elements of those that succeeded.  Nothing of this depends on the type of the elements
or on which of them are equal.  A repetition is reported by the text that was given, in a map by the
name alone.
-/

namespace CommandLine

open EStateM (run)

/-- One value, or none, and whether it may not repeat what is there. -/
structure Offer where
  value : Option String
  unique : Bool
  deriving DecidableEq, Repr

/-- How values become elements, which elements are equal and how a repeated one is reported. -/
structure Elements (α : Type) where
  convert : Option String → Except ValueError α
  same : α → α → Bool
  reported : Option String → α → String

namespace Elements

variable {α : Type}

/-- What this has done to the buffer before it fails is not taken back. -/
def accept (e : Elements α) (offer : Offer) : EStateM AcceptError (List α) Unit := do
  match e.convert offer.value with
  | .error cause => throw (.invalid cause)
  | .ok item =>
      if offer.unique && (← get).any (e.same · item) then
        throw (.repeated (e.reported offer.value item))
      modify (· ++ [item])

/-- The end of one call on a buffer that holds `held`; exactly one of the rules applies. -/
inductive Answers (e : Elements α) (offer : Offer) (held : List α) :
    EStateM.Result AcceptError (List α) Unit → Prop
  | invalid {cause : ValueError} : e.convert offer.value = .error cause →
      Answers e offer held (.error (.invalid cause) held)
  | repeated {item : α} : e.convert offer.value = .ok item → offer.unique = true →
      (∃ earlier ∈ held, e.same earlier item = true) →
        Answers e offer held (.error (.repeated (e.reported offer.value item)) held)
  | accepted {item : α} : e.convert offer.value = .ok item →
      (offer.unique = true → ∀ earlier ∈ held, e.same earlier item = false) →
        Answers e offer held (.ok () (held ++ [item]))

theorem run_accept_of_error {e : Elements α} {offer : Offer} {cause : ValueError}
    (hconvert : e.convert offer.value = .error cause) (held : List α) :
    run (e.accept offer) held = .error (.invalid cause) held := by
  unfold accept
  rw [hconvert]
  rfl

theorem run_accept_of_ok {e : Elements α} {offer : Offer} {item : α}
    (hconvert : e.convert offer.value = .ok item) (held : List α) :
    run (e.accept offer) held =
      if offer.unique && held.any (e.same · item) then
        .error (.repeated (e.reported offer.value item)) held
      else .ok () (held ++ [item]) := by
  unfold accept
  rw [hconvert]
  simp only [EStateM.run_bind, EStateM.run_get]
  by_cases hrepeated : (offer.unique && held.any (e.same · item)) = true
  · rw [if_pos hrepeated, if_pos hrepeated]
    rfl
  · rw [if_neg hrepeated, if_neg hrepeated]
    rfl

theorem answers_run_accept (e : Elements α) (offer : Offer) (held : List α) :
    e.Answers offer held (run (e.accept offer) held) := by
  cases hconvert : e.convert offer.value with
  | error cause =>
      rw [run_accept_of_error hconvert]
      exact .invalid hconvert
  | ok item =>
      rw [run_accept_of_ok hconvert]
      split
      · next hrepeated =>
          obtain ⟨hunique, hsame⟩ := Bool.and_eq_true_iff.mp hrepeated
          exact .repeated hconvert hunique (by simpa using hsame)
      · next hfree => exact .accepted hconvert (by simpa using hfree)

theorem Answers.run_accept {e : Elements α} {offer : Offer} {held : List α}
    {result : EStateM.Result AcceptError (List α) Unit} (hanswers : e.Answers offer held result) :
    run (e.accept offer) held = result := by
  cases hanswers with
  | invalid hconvert => exact run_accept_of_error hconvert held
  | repeated hconvert hunique hsame =>
      rw [run_accept_of_ok hconvert, if_pos]
      simpa [hunique] using hsame
  | accepted hconvert hfree =>
      rw [run_accept_of_ok hconvert, if_neg]
      simpa using hfree

theorem run_accept_eq_iff {e : Elements α} {offer : Offer} {held : List α}
    {result : EStateM.Result AcceptError (List α) Unit} :
    run (e.accept offer) held = result ↔ e.Answers offer held result :=
  ⟨fun hrun => hrun ▸ e.answers_run_accept offer held, Answers.run_accept⟩

/-! ### Sequences of calls -/

/-- The buffer after one call, whether it fails or not. -/
def leaves (e : Elements α) (held : List α) (offer : Offer) : List α :=
  match run (e.accept offer) held with
  | .ok _ grown => grown
  | .error _ kept => kept

/-- The buffer after all the calls; one that fails does not keep the next from being made. -/
def after (e : Elements α) (held : List α) (offers : List Offer) : List α :=
  offers.foldl e.leaves held

/-- The element that a call adds if it succeeds. -/
def accepted? (e : Elements α) (held : List α) (offer : Offer) : Option α :=
  match run (e.accept offer) held with
  | .ok _ _ => (e.convert offer.value).toOption
  | .error _ _ => none

/-- The elements of the calls that succeed, in the order of the calls. -/
def taken (e : Elements α) (held : List α) : List Offer → List α
  | [] => []
  | offer :: rest => (e.accepted? held offer).toList ++ e.taken (e.leaves held offer) rest

/-- No element is equal to a later one. -/
def Distinct (e : Elements α) (items : List α) : Prop :=
  items.Pairwise fun earlier later => e.same earlier later = false

/-- What is to be said of calls on a buffer that holds `held` at first. -/
structure Accumulates (e : Elements α) (held : List α) (offers : List Offer) : Prop where
  /-- Every call, on the buffer that the calls before it have left. -/
  answers : ∀ before offer rest, offers = before ++ offer :: rest → ∀ result,
    run (e.accept offer) (e.after held before) = result ↔
      e.Answers offer (e.after held before) result
  appended : e.after held offers = held ++ e.taken held offers
  distinct : held = [] → (∀ offer ∈ offers, offer.unique = true) →
    e.Distinct (e.after held offers)

/-- One call appends the element that it accepts, if any. -/
theorem leaves_eq (e : Elements α) (held : List α) (offer : Offer) :
    e.leaves held offer = held ++ (e.accepted? held offer).toList := by
  unfold leaves accepted?
  cases hrun : run (e.accept offer) held with
  | ok done grown =>
      cases run_accept_eq_iff.mp hrun with
      | accepted hconvert hfree => simp [hconvert, Except.toOption]
  | error cause kept =>
      cases run_accept_eq_iff.mp hrun with
      | invalid hconvert => simp
      | repeated hconvert hunique hsame => simp

theorem after_eq_append_taken (e : Elements α) (held : List α) (offers : List Offer) :
    e.after held offers = held ++ e.taken held offers := by
  induction offers generalizing held with
  | nil => simp [after, taken]
  | cons offer rest ih =>
      calc e.after held (offer :: rest)
          = e.after (e.leaves held offer) rest := rfl
        _ = e.leaves held offer ++ e.taken (e.leaves held offer) rest := ih _
        _ = held ++ ((e.accepted? held offer).toList ++ e.taken (e.leaves held offer) rest) := by
            rw [← List.append_assoc, ← leaves_eq]

theorem eq_false_of_accepted? {e : Elements α} {held : List α} {offer : Offer} {item : α}
    (hunique : offer.unique = true) (haccepted : e.accepted? held offer = some item) :
    ∀ earlier ∈ held, e.same earlier item = false := by
  unfold accepted? at haccepted
  cases hrun : run (e.accept offer) held with
  | error cause kept => simp [hrun] at haccepted
  | ok done grown =>
      cases run_accept_eq_iff.mp hrun with
      | accepted hconvert hfree =>
          obtain rfl : _ = item := by simpa [hrun, hconvert, Except.toOption] using haccepted
          exact hfree hunique

theorem Distinct.leaves {e : Elements α} {held : List α} {offer : Offer}
    (hheld : e.Distinct held) (hunique : offer.unique = true) :
    e.Distinct (e.leaves held offer) := by
  rw [leaves_eq]
  apply List.pairwise_append.mpr
  refine ⟨hheld, ?_, ?_⟩
  · cases e.accepted? held offer <;> simp
  · intro earlier hearlier item hitem
    exact eq_false_of_accepted? hunique (Option.mem_toList.mp hitem) earlier hearlier

theorem Distinct.after {e : Elements α} {held : List α} {offers : List Offer}
    (hheld : e.Distinct held) (hunique : ∀ offer ∈ offers, offer.unique = true) :
    e.Distinct (e.after held offers) := by
  induction offers generalizing held with
  | nil => exact hheld
  | cons offer rest ih =>
      have hoffer := hunique offer List.mem_cons_self
      exact ih (hheld.leaves hoffer) fun other hother =>
        hunique other (List.mem_cons_of_mem _ hother)

theorem accumulates (e : Elements α) (held : List α) (offers : List Offer) :
    e.Accumulates held offers where
  answers _ _ _ _ _ := run_accept_eq_iff
  appended := e.after_eq_append_taken held offers
  distinct := by
    rintro rfl hunique
    exact Distinct.after List.Pairwise.nil hunique

end Elements

/-! ### The buffers of slots -/

namespace Slot

/-- Why one occurrence stands for no item: its value is not one of the type, or is no pair with a
name. -/
inductive Refuses : Slot → Option String → ValueError → Prop
  | single {type : ValueType} {value : Option String} {cause : ValueError} :
      type.convert value = .error cause → Refuses (.single type) value cause
  | optional {type : ValueType} {value : Option String} {cause : ValueError} :
      type.convert value = .error cause → Refuses (.optional type) value cause
  | array {type : ValueType} {value : Option String} {cause : ValueError} :
      type.convert value = .error cause → Refuses (.array type) value cause
  | collection {type : ValueType} {container : Container} {value : Option String}
      {cause : ValueError} :
      type.convert value = .error cause → Refuses (.collection type container) value cause
  | valueless {container : Container} : Refuses (.map container) none .needsValue
  | unpaired {container : Container} {s : String} :
      '=' ∉ s.toList → Refuses (.map container) (some s) .malformedPair
  | nameless {container : Container} {value : String} :
      Refuses (.map container) (some ("=" ++ value)) .malformedPair

theorem splitPair_of_not_mem {s : String} (hfree : '=' ∉ s.toList) :
    splitPair s = .error .malformedPair := by
  have hrest : s.toList.dropWhile (· ≠ '=') = [] := by
    rw [List.dropWhile_eq_nil_iff]
    intro c hc
    rw [decide_eq_true_eq]
    rintro rfl
    exact hfree hc
  simp only [splitPair, hrest]

theorem splitPair_nameless (value : String) :
    splitPair ("=" ++ value) = .error .malformedPair := by
  simp [splitPair]

theorem exists_first_sign {s : String} (hsign : '=' ∈ s.toList) :
    ∃ name value, s = name ++ "=" ++ value ∧ '=' ∉ name.toList := by
  obtain ⟨name, value, hs, hfree⟩ := List.eq_append_cons_of_mem hsign
  refine ⟨String.ofList name, String.ofList value, String.toList_injective ?_, ?_⟩
  · simp [hs]
  · rwa [String.toList_ofList]

theorem splitPair_eq_error_iff {s : String} {cause : ValueError} :
    splitPair s = .error cause ↔
      cause = .malformedPair ∧ ('=' ∉ s.toList ∨ ∃ value, s = "=" ++ value) := by
  constructor
  · intro hsplit
    by_cases hsign : '=' ∈ s.toList
    · obtain ⟨name, value, rfl, hfree⟩ := exists_first_sign hsign
      by_cases hname : name = ""
      · subst hname
        rw [String.empty_append] at hsplit ⊢
        rw [splitPair_nameless] at hsplit
        exact ⟨(Except.error.inj hsplit).symm, .inr ⟨value, rfl⟩⟩
      · rw [splitPair_eq_ok_iff.mpr ⟨rfl, hname, hfree⟩] at hsplit
        contradiction
    · rw [splitPair_of_not_mem hsign] at hsplit
      exact ⟨(Except.error.inj hsplit).symm, .inl hsign⟩
  · rintro ⟨rfl, hfree | ⟨value, rfl⟩⟩
    · exact splitPair_of_not_mem hfree
    · exact splitPair_nameless value

theorem read_eq_error_iff {slot : Slot} {value : Option String} {cause : ValueError} :
    slot.read value = .error cause ↔ slot.Refuses value cause := by
  constructor
  · intro hread
    cases slot with
    | single type => exact .single (map_eq_error_iff.mp hread)
    | optional type => exact .optional (map_eq_error_iff.mp hread)
    | array type => exact .array (map_eq_error_iff.mp hread)
    | collection type container => exact .collection (map_eq_error_iff.mp hread)
    | map container =>
        cases value with
        | none =>
            obtain rfl := Except.error.inj hread
            exact .valueless
        | some s =>
            have hsplit : splitPair s = .error cause := map_eq_error_iff.mp hread
            obtain ⟨rfl, hfree | ⟨value, rfl⟩⟩ := splitPair_eq_error_iff.mp hsplit
            · exact .unpaired hfree
            · exact .nameless
  · intro hrefuses
    cases hrefuses with
    | single hcause => exact map_eq_error_iff.mpr hcause
    | optional hcause => exact map_eq_error_iff.mpr hcause
    | array hcause => exact map_eq_error_iff.mpr hcause
    | collection hcause => exact map_eq_error_iff.mpr hcause
    | valueless => rfl
    | unpaired hfree => rw [read, splitPair_of_not_mem hfree, Except.map]
    | nameless => rw [read, splitPair_nameless, Except.map]

/-- The elements of the buffer of a slot: values of one type, or pairs that are compared and
reported by their names. -/
def elements (slot : Slot) : Elements Item where
  convert := slot.read
  same := Item.clashes
  reported := repetition

/-- The end of one call, the buffer included. -/
def outcome (slot : Slot) (held : List Item) (offer : Offer) :
    EStateM.Result AcceptError (List Item) Unit :=
  match slot.accept held offer.value offer.unique with
  | .ok grown => .ok () grown
  | .error error => .error error held

/-- A failing call has not touched the buffer, so nothing is lost where a result without one stands
for it. -/
theorem run_elements_accept {slot : Slot} (hkind : slot.kind.isMultiValued = true)
    (held : List Item) (offer : Offer) :
    run (slot.elements.accept offer) held = slot.outcome held offer := by
  unfold outcome
  cases hread : slot.read offer.value with
  | error cause =>
      rw [Elements.run_accept_of_error (e := slot.elements) hread]
      simp [accept, hread]
  | ok item =>
      rw [Elements.run_accept_of_ok (e := slot.elements) hread,
        accept_of_multiValued hread hkind]
      change (if offer.unique && held.any (·.clashes item) then _ else _) = _
      split <;> rfl

/-! ### Repetitions -/

/-- Two items of which a unique argument takes only one. -/
inductive Matches : Item → Item → Prop
  | value {a b : Value} : a.same b = true → Matches (.value a) (.value b)
  | pair (name first second : String) : Matches (.pair name first) (.pair name second)

theorem clashes_eq_true_iff {earlier later : Item} :
    earlier.clashes later = true ↔ Matches earlier later := by
  constructor
  · intro hclashes
    cases earlier with
    | value a =>
        cases later with
        | value b => exact .value hclashes
        | pair name text => contradiction
    | pair name first =>
        cases later with
        | value b => contradiction
        | pair other second =>
            obtain rfl : name = other := by simpa [Item.clashes] using hclashes
            exact .pair name first second
  · intro hmatches
    cases hmatches with
    | value hsame => exact hsame
    | pair name first second => simp [Item.clashes]

/-- The end of one call to a slot whose buffer holds `held`; exactly one of the rules applies. -/
inductive Answers (slot : Slot) (offer : Offer) (held : List Item) :
    EStateM.Result AcceptError (List Item) Unit → Prop
  | invalid {cause : ValueError} : slot.Refuses offer.value cause →
      Answers slot offer held (.error (.invalid cause) held)
  | repeatedValue {v : Value} : slot.Reads offer.value (.value v) → offer.unique = true →
      (∃ earlier ∈ held, Matches earlier (.value v)) →
        Answers slot offer held (.error (.repeated (offer.value.getD "")) held)
  | repeatedName {name text : String} : slot.Reads offer.value (.pair name text) →
      offer.unique = true → (∃ earlier ∈ held, Matches earlier (.pair name text)) →
        Answers slot offer held (.error (.repeated name) held)
  | accepted {item : Item} : slot.Reads offer.value item →
      (offer.unique = true → ∀ earlier ∈ held, ¬ Matches earlier item) →
        Answers slot offer held (.ok () (held ++ [item]))

theorem Answers.of_elements {slot : Slot} {offer : Offer} {held : List Item}
    {result : EStateM.Result AcceptError (List Item) Unit}
    (hanswers : slot.elements.Answers offer held result) : slot.Answers offer held result := by
  cases hanswers with
  | invalid hconvert => exact .invalid (read_eq_error_iff.mp hconvert)
  | @repeated item hconvert hunique hsame =>
      have hread : slot.Reads offer.value item := read_eq_ok_iff.mp hconvert
      obtain ⟨earlier, hmem, hclashes⟩ := hsame
      have hmatches : Matches earlier item := clashes_eq_true_iff.mp hclashes
      cases item with
      | value v => exact .repeatedValue hread hunique ⟨earlier, hmem, hmatches⟩
      | pair name text => exact .repeatedName hread hunique ⟨earlier, hmem, hmatches⟩
  | accepted hconvert hfree =>
      refine .accepted (read_eq_ok_iff.mp hconvert) ?_
      intro hunique earlier hmem hmatches
      have hdiffer := hfree hunique earlier hmem
      exact Bool.false_ne_true (hdiffer.symm.trans (clashes_eq_true_iff.mpr hmatches))

theorem Answers.elements {slot : Slot} {offer : Offer} {held : List Item}
    {result : EStateM.Result AcceptError (List Item) Unit}
    (hanswers : slot.Answers offer held result) : slot.elements.Answers offer held result := by
  have hclashes : ∀ {item : Item}, (∃ earlier ∈ held, Matches earlier item) →
      ∃ earlier ∈ held, slot.elements.same earlier item = true := by
    rintro item ⟨earlier, hmem, hmatches⟩
    exact ⟨earlier, hmem, clashes_eq_true_iff.mpr hmatches⟩
  cases hanswers with
  | invalid hrefuses => exact .invalid (read_eq_error_iff.mpr hrefuses)
  | repeatedValue hread hunique hmatches =>
      exact .repeated (read_eq_ok_iff.mpr hread) hunique (hclashes hmatches)
  | repeatedName hread hunique hmatches =>
      exact .repeated (read_eq_ok_iff.mpr hread) hunique (hclashes hmatches)
  | accepted hread hfree =>
      refine .accepted (read_eq_ok_iff.mpr hread) ?_
      intro hunique earlier hmem
      rw [← Bool.not_eq_true]
      exact fun hsame => hfree hunique earlier hmem (clashes_eq_true_iff.mp hsame)

theorem outcome_eq_iff {slot : Slot} (hkind : slot.kind.isMultiValued = true)
    {held : List Item} {offer : Offer} {result : EStateM.Result AcceptError (List Item) Unit} :
    slot.outcome held offer = result ↔ slot.Answers offer held result := by
  rw [← run_elements_accept hkind, Elements.run_accept_eq_iff]
  exact ⟨Answers.of_elements, Answers.elements⟩

/-- The calls to one slot, on a buffer that holds `held` at first. -/
structure Collects (slot : Slot) (held : List Item) (offers : List Offer) : Prop where
  answers : ∀ contents offer result,
    slot.outcome contents offer = result ↔ slot.Answers offer contents result
  outcome : ∀ contents offer,
    run (slot.elements.accept offer) contents = slot.outcome contents offer
  reads : ∀ value item, slot.elements.convert value = .ok item ↔ slot.Reads value item
  refuses : ∀ value cause, slot.elements.convert value = .error cause ↔ slot.Refuses value cause
  accumulates : slot.elements.Accumulates held offers
  distinct : held = [] → (∀ offer ∈ offers, offer.unique = true) →
    (slot.elements.after held offers).Pairwise fun earlier later =>
      ¬ Matches earlier later ∧ ¬ Matches later earlier

theorem pairwise_after {slot : Slot} {offers : List Offer}
    (hunique : ∀ offer ∈ offers, offer.unique = true) :
    (slot.elements.after [] offers).Pairwise fun earlier later =>
      ¬ Matches earlier later ∧ ¬ Matches later earlier := by
  have hearlier := (slot.elements.accumulates [] offers).distinct rfl hunique
  refine hearlier.imp ?_
  intro earlier later hdiffer
  have hclashes : earlier.clashes later = false := hdiffer
  rw [← clashes_eq_true_iff, ← clashes_eq_true_iff, Item.clashes_comm later, hclashes]
  exact ⟨Bool.false_ne_true, Bool.false_ne_true⟩

/-- A call to a slot for many values fails with the reason for which its value is not converted, or
else as a repetition if it is unique and the buffer has an equal value, or a pair with the same
name, by then, and leaves the buffer alone; any other call adds its element at the end.  Buffers of
every other type of elements fill in the same way. -/
theorem accept_accumulates :
    (∀ slot : Slot, slot.kind.isMultiValued = true → ∀ held offers, slot.Collects held offers) ∧
      ∀ (α : Type) (convert : Option String → Except ValueError α) (same : α → α → Bool)
        (held : List α) (offers : List Offer),
        Elements.Accumulates ⟨convert, same, fun value _ => value.getD ""⟩ held offers := by
  refine ⟨?_, fun _ _ _ held offers => Elements.accumulates _ held offers⟩
  intro slot hkind held offers
  constructor
  · exact fun _ _ _ => outcome_eq_iff hkind
  · exact run_elements_accept hkind
  · exact fun _ _ => read_eq_ok_iff
  · exact fun _ _ => read_eq_error_iff
  · exact slot.elements.accumulates held offers
  · rintro rfl hunique
    exact pairwise_after hunique

/-- Numbers are compared as numbers, and only by the calls that are unique; a repetition is reported
as it was written, and in a map by its name. -/
theorem spellings_of_a_number_accepted :
    let bytes := Slot.collection (.integer ⟨false, 8⟩) .list
    let offers : List Offer := [⟨some "1", true⟩, ⟨some "01", true⟩, ⟨some "+1", false⟩,
      ⟨none, true⟩, ⟨some "256", false⟩, ⟨some "2", true⟩]
    let settings := Slot.map .arrivalMap
    (bytes.kind.isMultiValued = true ∧ bytes.Collects [] offers ∧
      bytes.elements.after [] offers =
        [.value (.integer 1), .value (.integer 1), .value (.integer 2)]) ∧
      bytes.outcome [.value (.integer 1)] ⟨some "01", true⟩ =
        .error (.repeated "01") [.value (.integer 1)] ∧
      settings.kind.isMultiValued = true ∧
      settings.outcome [.pair "level" "1"] ⟨some "level=2", true⟩ =
        .error (.repeated "level") [.pair "level" "1"] := by
  intro bytes offers settings
  have hbytes : bytes.Collects [] offers := accept_accumulates.1 bytes rfl [] offers
  have hsettings : settings.Collects [] [] := accept_accumulates.1 settings rfl [] []
  have hnumber : bytes.Reads (some "01") (.value (.integer 1)) :=
    (hbytes.reads _ _).mp (by decide)
  have hpair : settings.Reads (some "level=2") (.pair "level" "2") :=
    (hsettings.reads _ _).mp (by decide)
  refine ⟨⟨rfl, hbytes, ?_⟩, ?_, rfl, ?_⟩
  · rw [hbytes.accumulates.appended]
    decide
  · rw [hbytes.answers]
    exact .repeatedValue hnumber rfl ⟨_, List.mem_singleton_self _, .value rfl⟩
  · rw [hsettings.answers]
    exact .repeatedName hpair rfl ⟨_, List.mem_singleton_self _, .pair _ _ _⟩

/-- What is not a number is not even equal to itself. -/
example :
    (Slot.array (.float .double)).elements.after [] [⟨some "nan", true⟩, ⟨some "NaN", true⟩] =
      [.value (.float .double FloatFormat.double.quietNaN),
        .value (.float .double FloatFormat.double.quietNaN)] := by
  decide

end Slot

end CommandLine
