import CommandLine.Proofs.Container.Maps
import CommandLine.Proofs.Container.Sets
import CommandLine.Proofs.Slot

/-!
# Slots of the standard types

The lists, sets and maps that come with the library take every item.  Of a hashed one it is only
known what it does with contents in which nothing is there twice; but such contents it has at all
times, so it takes every item as well.
-/

namespace CommandLine.Slot

open Container (IsHashedMap IsHashedSet Once names)
open Contents (ofPairs ofValues)

/-- A slot of one of the standard types, as it holds some contents: a place for one value, an array,
a list, a set in the order of arrival, in an order of its values or a hashed one, or a map, with
every type of elements.  A hashed set holds no value twice, and a hashed map no name. -/
inductive IsStandard (contents : Contents) : Slot → Prop
  | single (type : ValueType) : IsStandard contents (.single type)
  | optional (type : ValueType) : IsStandard contents (.optional type)
  | array (type : ValueType) : IsStandard contents (.array type)
  | list (type : ValueType) : IsStandard contents (.collection type .list)
  | arrivalSet (type : ValueType) : IsStandard contents (.collection type .arrivalSet)
  | sortedSet (type : ValueType) (order : Value → Value → Bool) :
      IsStandard contents (.collection type (.sortedSetBy order))
  | hashedSet (type : ValueType) {c : Container} {held : List Value} :
      c.IsHashedSet → Once held → contents = ofValues held →
        IsStandard contents (.collection type c)
  | arrivalMap : IsStandard contents (.map .arrivalMap)
  | sortedMap : IsStandard contents (.map .sortedMap)
  | hashedMap {c : Container} {held : List (String × String)} :
      c.IsHashedMap → (names held).Nodup → contents = ofPairs held → IsStandard contents (.map c)

theorem exists_ofValues_of_reads {type : ValueType} {c : Container}
    {values : List (Option String)} {items : List Item}
    (hreads : List.Forall₂ (Slot.collection type c).Reads values items) :
    ∃ vs, items = ofValues vs := by
  induction hreads with
  | nil => exact ⟨[], rfl⟩
  | cons hread _ ih =>
      obtain ⟨vs, rfl⟩ := ih
      cases hread with
      | @collection _ _ _ v hv => exact ⟨v :: vs, rfl⟩

theorem exists_ofPairs_of_reads {c : Container} {values : List (Option String)}
    {items : List Item} (hreads : List.Forall₂ (Slot.map c).Reads values items) :
    ∃ pairs, items = ofPairs pairs := by
  induction hreads with
  | nil => exact ⟨[], rfl⟩
  | cons hread _ ih =>
      obtain ⟨pairs, rfl⟩ := ih
      cases hread with
      | @map _ name value hname hfree => exact ⟨(name, value) :: pairs, rfl⟩

/-- A container that takes every item takes any number of them. -/
theorem exists_foldlM_of_total {c : Container}
    (htotal : ∀ contents item, ∃ grown, c.append contents item = .ok grown)
    (contents items : Contents) : ∃ final, items.foldlM c.append contents = .ok final := by
  induction items generalizing contents with
  | nil => exact ⟨contents, rfl⟩
  | cons item rest ih =>
      obtain ⟨grown, hgrown⟩ := htotal contents item
      obtain ⟨final, hfinal⟩ := ih grown
      exact ⟨final, by rw [List.foldlM_cons, hgrown]; exact hfinal⟩

/-- A container of a standard type takes all the items that the slot reads. -/
theorem IsStandard.exists_foldlM {slot : Slot} {c : Container} {contents items : Contents}
    {values : List (Option String)} (hstandard : slot.IsStandard contents)
    (hcontainer : slot.container? = some c) (hreads : List.Forall₂ slot.Reads values items) :
    ∃ final, items.foldlM c.append contents = .ok final := by
  cases hstandard with
  | single | optional | array => contradiction
  | list | arrivalSet | sortedSet | arrivalMap | sortedMap =>
      obtain rfl := Option.some.inj hcontainer
      exact exists_foldlM_of_total (fun _ _ => ⟨_, rfl⟩) contents items
  | hashedSet type hhashed honce hcontents =>
      obtain rfl := Option.some.inj hcontainer
      obtain ⟨vs, rfl⟩ := exists_ofValues_of_reads hreads
      have hadmits : ∀ v ∈ vs, True := fun _ _ => trivial
      obtain ⟨final, hfold, -⟩ := hhashed.foldlM trivial honce hadmits
      exact ⟨ofValues final, hcontents ▸ hfold⟩
  | hashedMap hhashed honce hcontents =>
      obtain rfl := Option.some.inj hcontainer
      obtain ⟨pairs, rfl⟩ := exists_ofPairs_of_reads hreads
      obtain ⟨final, hfold, -⟩ := hhashed.foldlM trivial honce pairs
      exact ⟨ofPairs final, hcontents ▸ hfold⟩

theorem IsStandard.not_stopsAt {slot : Slot} {contents held : Contents}
    {values : List (Option String)} {cause : Refusal} (hstandard : slot.IsStandard contents) :
    ¬ slot.StopsAt contents values held cause := by
  rintro ⟨c, taken, item, rest, hcontainer, hreads, htaken, hrefused⟩
  obtain ⟨final, hfold⟩ := hstandard.exists_foldlM hcontainer hreads
  rw [List.foldlM_append, htaken] at hfold
  simp [Bind.bind, Except.bind, hrefused] at hfold

end CommandLine.Slot
