import CommandLine.Slot
import Mathlib.Data.List.Forall2
import Mathlib.Data.List.TakeWhile

/-!
# What slots make of the values of their arguments

Three relations describe a slot without its buffer: which item one value stands for, which contents
a slot ends up with after some values, and where a container stops that refuses an item.  The
functions that a parse runs agree with them.
-/

namespace CommandLine.Slot

/-! ### Reading one value -/

/-- The item that one occurrence stands for; a pair is cut at its first `=`. -/
inductive Reads : Slot → Option String → Item → Prop
  | single {type : ValueType} {value : Option String} {v : Value} :
      type.convert value = .ok v → Reads (.single type) value (.value v)
  | optional {type : ValueType} {value : Option String} {v : Value} :
      type.convert value = .ok v → Reads (.optional type) value (.value v)
  | array {type : ValueType} {value : Option String} {v : Value} :
      type.convert value = .ok v → Reads (.array type) value (.value v)
  | collection {type : ValueType} {container : Container} {value : Option String} {v : Value} :
      type.convert value = .ok v → Reads (.collection type container) value (.value v)
  | map {container : Container} {name value : String} :
      name ≠ "" → '=' ∉ name.toList →
        Reads (.map container) (some (name ++ "=" ++ value)) (.pair name value)

theorem splitPair_eq_ok_iff {s name value : String} :
    splitPair s = .ok (name, value) ↔
      s = name ++ "=" ++ value ∧ name ≠ "" ∧ '=' ∉ name.toList := by
  constructor
  · intro hsplit
    unfold splitPair at hsplit
    dsimp only at hsplit
    split at hsplit
    · contradiction
    · next first rest hrest =>
        split at hsplit
        · contradiction
        · next hname =>
            obtain ⟨rfl, rfl⟩ := Prod.mk.inj (Except.ok.inj hsplit)
            have hfirst : first = '=' := by
              have hhead := List.head?_dropWhile_not (· ≠ '=') s.toList
              rw [hrest] at hhead
              simpa using hhead
            refine ⟨?_, ?_, ?_⟩
            · apply String.toList_injective
              have happend := List.takeWhile_append_dropWhile (p := (· ≠ '=')) (l := s.toList)
              rw [hrest, hfirst] at happend
              simpa using happend.symm
            · simpa using hname
            · intro hmem
              rw [String.toList_ofList] at hmem
              simpa using List.mem_takeWhile_imp hmem
  · rintro ⟨rfl, hname, hfree⟩
    have hbefore : ∀ c ∈ name.toList, decide (c ≠ '=') = true := by
      intro c hc
      simp only [decide_eq_true_eq]
      rintro rfl
      exact hfree hc
    unfold splitPair
    simp only [String.toList_append, List.append_assoc]
    rw [List.takeWhile_append_of_pos hbefore, List.dropWhile_append_of_pos hbefore]
    simp [hname]

theorem map_value_eq_ok {result : Except ValueError Value} {item : Item}
    (hmap : result.map Item.value = .ok item) : ∃ v, result = .ok v ∧ Item.value v = item := by
  cases result with
  | error cause => contradiction
  | ok v => exact ⟨v, rfl, Except.ok.inj hmap⟩

theorem read_eq_ok_iff {slot : Slot} {value : Option String} {item : Item} :
    slot.read value = .ok item ↔ slot.Reads value item := by
  constructor
  · intro hread
    cases slot with
    | single type =>
        obtain ⟨v, hv, rfl⟩ := map_value_eq_ok hread
        exact .single hv
    | optional type =>
        obtain ⟨v, hv, rfl⟩ := map_value_eq_ok hread
        exact .optional hv
    | array type =>
        obtain ⟨v, hv, rfl⟩ := map_value_eq_ok hread
        exact .array hv
    | collection type container =>
        obtain ⟨v, hv, rfl⟩ := map_value_eq_ok hread
        exact .collection hv
    | map container =>
        cases value with
        | none => contradiction
        | some s =>
            unfold read at hread
            cases hsplit : splitPair s with
            | error cause => simp [hsplit, Except.map] at hread
            | ok pair =>
                obtain ⟨name, text⟩ := pair
                obtain ⟨rfl, hname, hfree⟩ := splitPair_eq_ok_iff.mp hsplit
                have hitem : Item.pair name text = item := by
                  simpa [hsplit, Except.map] using hread
                exact hitem ▸ .map hname hfree
  · intro hreads
    cases hreads with
    | single hv => simp [read, hv, Except.map]
    | optional hv => simp [read, hv, Except.map]
    | array hv => simp [read, hv, Except.map]
    | collection hv => simp [read, hv, Except.map]
    | map hname hfree => simp [read, splitPair_eq_ok_iff.mpr ⟨rfl, hname, hfree⟩, Except.map]

theorem Reads.unique {slot : Slot} {value : Option String} {first second : Item}
    (hfirst : slot.Reads value first) (hsecond : slot.Reads value second) :
    first = second := by
  have hread := read_eq_ok_iff.mpr hfirst
  rw [read_eq_ok_iff.mpr hsecond] at hread
  exact (Except.ok.inj hread).symm

theorem forall₂_reads_unique {slot : Slot} {values : List (Option String)}
    {first second : List Item} (hfirst : List.Forall₂ slot.Reads values first)
    (hsecond : List.Forall₂ slot.Reads values second) : first = second := by
  induction hfirst generalizing second with
  | nil =>
      cases hsecond
      rfl
  | cons hhead _ ih =>
      cases hsecond with
      | cons hother htail => rw [hhead.unique hother, ih htail]

/-- The items of two lists of occurrences are those of the first and then those of the second. -/
theorem forall₂_reads_append {slot : Slot} {first second : List (Option String)}
    {items : List Item} (hreads : List.Forall₂ slot.Reads (first ++ second) items) :
    ∃ taken rest, items = taken ++ rest ∧ List.Forall₂ slot.Reads first taken ∧
      List.Forall₂ slot.Reads second rest := by
  have hflip : List.Forall₂ (flip slot.Reads) items (first ++ second) := hreads.flip
  refine ⟨items.take first.length, items.drop first.length, ?_, ?_, ?_⟩
  · exact (List.take_append_drop first.length items).symm
  · exact (List.forall₂_take_append items first second hflip).flip
  · exact (List.forall₂_drop_append items first second hflip).flip

end CommandLine.Slot

namespace CommandLine

/-! ### Appending items -/

namespace Container

theorem appendAll_eq_none_iff {c : Container} {initial final : Contents} {items : List Item} :
    c.appendAll initial items = (final, none) ↔
      items.foldlM c.append initial = .ok final := by
  induction items generalizing initial with
  | nil => simp [appendAll, pure, Except.pure]
  | cons item rest ih =>
      rw [appendAll, List.foldlM_cons]
      cases happend : c.append initial item with
      | error refusal => simp [bind, Except.bind]
      | ok grown => exact ih

/-- What is appended before a refusal is the longest prefix that the container takes. -/
theorem appendAll_refused {c : Container} {initial final : Contents} {items : List Item}
    {refusal : Refusal} (happendAll : c.appendAll initial items = (final, some refusal)) :
    ∃ taken item rest, items = taken ++ item :: rest ∧
      taken.foldlM c.append initial = .ok final ∧ c.append final item = .error refusal := by
  induction items generalizing initial with
  | nil => simp [appendAll] at happendAll
  | cons item rest ih =>
      rw [appendAll] at happendAll
      cases happend : c.append initial item with
      | error cause =>
          simp only [happend, Prod.mk.injEq, Option.some.injEq] at happendAll
          obtain ⟨rfl, rfl⟩ := happendAll
          exact ⟨[], item, rest, rfl, rfl, happend⟩
      | ok grown =>
          rw [happend] at happendAll
          obtain ⟨taken, refused, others, rfl, htaken, hrefused⟩ := ih happendAll
          refine ⟨item :: taken, refused, others, rfl, ?_, hrefused⟩
          rw [List.foldlM_cons, happend]
          exact htaken

end Container

namespace Slot

def container? : Slot → Option Container
  | .collection _ c | .map c => some c
  | .single _ | .optional _ | .array _ => none

/-- The contents after some occurrences.  A place for one value keeps what it held unless there was
an occurrence, an array is replaced, and a container takes all the items one by one. -/
def Settles (slot : Slot) (initial : Contents) (values : List (Option String))
    (final : Contents) : Prop :=
  match slot with
  | .single _ | .optional _ =>
      (values = [] ∧ final = initial) ∨
        ∃ value item, values = [value] ∧ slot.Reads value item ∧ final = [item]
  | .array _ => List.Forall₂ slot.Reads values final
  | .collection _ c | .map c =>
      ∃ items, List.Forall₂ slot.Reads values items ∧
        items.foldlM c.append initial = .ok final

/-- The contents when a container has taken some items one by one and refuses the next. -/
def StopsAt (slot : Slot) (initial : Contents) (values : List (Option String))
    (held : Contents) (cause : Refusal) : Prop :=
  ∃ c taken item rest, slot.container? = some c ∧
    List.Forall₂ slot.Reads values (taken ++ item :: rest) ∧
      taken.foldlM c.append initial = .ok held ∧ c.append held item = .error cause

theorem Settles.unique {slot : Slot} {initial first second : Contents}
    {values : List (Option String)} (hfirst : slot.Settles initial values first)
    (hsecond : slot.Settles initial values second) : first = second := by
  have hplace : ∀ {contents other : Contents},
      ((values = [] ∧ contents = initial) ∨
        ∃ value item, values = [value] ∧ slot.Reads value item ∧ contents = [item]) →
      ((values = [] ∧ other = initial) ∨
        ∃ value item, values = [value] ∧ slot.Reads value item ∧ other = [item]) →
      contents = other := by
    rintro contents other (⟨rfl, rfl⟩ | ⟨value, item, rfl, hitem, rfl⟩)
      (⟨hvalues, rfl⟩ | ⟨text, reading, hvalues, hreading, rfl⟩)
    · rfl
    · contradiction
    · contradiction
    · obtain ⟨rfl, -⟩ := List.cons.inj hvalues
      rw [hitem.unique hreading]
  have hgrow : ∀ {c : Container},
      (∃ items, List.Forall₂ slot.Reads values items ∧
        items.foldlM c.append initial = .ok first) →
      (∃ items, List.Forall₂ slot.Reads values items ∧
        items.foldlM c.append initial = .ok second) →
      first = second := by
    rintro c ⟨items, hitems, hfold⟩ ⟨others, hothers, hother⟩
    obtain rfl := forall₂_reads_unique hitems hothers
    rw [hfold] at hother
    exact Except.ok.inj hother
  cases slot with
  | single type => exact hplace hfirst hsecond
  | optional type => exact hplace hfirst hsecond
  | array type => exact forall₂_reads_unique hfirst hsecond
  | collection type c => exact hgrow hfirst hsecond
  | map c => exact hgrow hfirst hsecond

theorem Settles.eq_of_single {type : ValueType} {initial final items : Contents}
    {values : List (Option String)}
    (hsettles : (Slot.single type).Settles initial values final)
    (hreads : List.Forall₂ (Slot.single type).Reads values items) (hitems : items ≠ []) :
    final = items := by
  cases hsettles with
  | inl huntouched =>
      rw [huntouched.1, List.forall₂_nil_left_iff] at hreads
      contradiction
  | inr hone =>
      obtain ⟨value, item, rfl, hitem, rfl⟩ := hone
      exact forall₂_reads_unique (.cons hitem .nil) hreads

theorem Settles.foldlM_eq_ok {slot : Slot} {c : Container} {initial final items : Contents}
    {values : List (Option String)} (hsettles : slot.Settles initial values final)
    (hcontainer : slot.container? = some c) (hreads : List.Forall₂ slot.Reads values items) :
    items.foldlM c.append initial = .ok final := by
  have hgrow : (∃ others, List.Forall₂ slot.Reads values others ∧
      others.foldlM c.append initial = .ok final) → items.foldlM c.append initial = .ok final := by
    rintro ⟨others, hothers, hfold⟩
    rwa [forall₂_reads_unique hreads hothers]
  cases slot with
  | single type => contradiction
  | optional type => contradiction
  | array type => contradiction
  | collection type container =>
      obtain rfl := Option.some.inj hcontainer
      exact hgrow hsettles
  | map container =>
      obtain rfl := Option.some.inj hcontainer
      exact hgrow hsettles

theorem Settles.not_stopsAt {slot : Slot} {initial final held : Contents}
    {values : List (Option String)} {cause : Refusal}
    (hsettles : slot.Settles initial values final) :
    ¬ slot.StopsAt initial values held cause := by
  rintro ⟨c, taken, item, rest, hcontainer, hreads, htaken, hrefused⟩
  have hfold := hsettles.foldlM_eq_ok hcontainer hreads
  rw [List.foldlM_append, htaken] at hfold
  simp [Bind.bind, Except.bind, hrefused] at hfold

/-- A place that is settled by the occurrences of two lists is settled by those of the first list
and then by those of the second, unless it is an array, of which each list makes a new one. -/
theorem Settles.exists_middle {slot : Slot} {initial final : Contents}
    {first second : List (Option String)} (hkind : slot.kind ≠ .array)
    (hsettles : slot.Settles initial (first ++ second) final) :
    ∃ middle, slot.Settles initial first middle ∧ slot.Settles middle second final := by
  have hplace : ((first ++ second = [] ∧ final = initial) ∨
        ∃ value item, first ++ second = [value] ∧ slot.Reads value item ∧ final = [item]) →
      ∃ middle,
        ((first = [] ∧ middle = initial) ∨
          ∃ value item, first = [value] ∧ slot.Reads value item ∧ middle = [item]) ∧
        ((second = [] ∧ final = middle) ∨
          ∃ value item, second = [value] ∧ slot.Reads value item ∧ final = [item]) := by
    rintro (⟨hnone, rfl⟩ | ⟨value, item, hone, hitem, rfl⟩)
    · obtain ⟨rfl, rfl⟩ := List.append_eq_nil_iff.mp hnone
      exact ⟨_, .inl ⟨rfl, rfl⟩, .inl ⟨rfl, rfl⟩⟩
    · rcases List.append_eq_singleton_iff.mp hone with ⟨rfl, rfl⟩ | ⟨rfl, rfl⟩
      · exact ⟨initial, .inl ⟨rfl, rfl⟩, .inr ⟨value, item, rfl, hitem, rfl⟩⟩
      · exact ⟨[item], .inr ⟨value, item, rfl, hitem, rfl⟩, .inl ⟨rfl, rfl⟩⟩
  have hgrow : ∀ {c : Container},
      (∃ items, List.Forall₂ slot.Reads (first ++ second) items ∧
        items.foldlM c.append initial = .ok final) →
      ∃ middle,
        (∃ items, List.Forall₂ slot.Reads first items ∧
          items.foldlM c.append initial = .ok middle) ∧
        ∃ items, List.Forall₂ slot.Reads second items ∧
          items.foldlM c.append middle = .ok final := by
    rintro c ⟨items, hreads, hfold⟩
    obtain ⟨taken, rest, rfl, htaken, hrest⟩ := forall₂_reads_append hreads
    rw [List.foldlM_append] at hfold
    cases hfirst : taken.foldlM c.append initial with
    | error refusal => simp [hfirst, Bind.bind, Except.bind] at hfold
    | ok middle =>
        rw [hfirst] at hfold
        exact ⟨middle, ⟨taken, htaken, hfirst⟩, rest, hrest, hfold⟩
  cases slot with
  | single type => exact hplace hsettles
  | optional type => exact hplace hsettles
  | array type => exact absurd rfl hkind
  | collection type c => exact hgrow hsettles
  | map c => exact hgrow hsettles

/-! ### Binding -/

@[simp] theorem single_isMultiValued (type : ValueType) :
    (Slot.single type).kind.isMultiValued = false := by
  cases htoggle : type.isToggle <;> simp [kind, htoggle, Kind.isMultiValued]

@[simp] theorem optional_isMultiValued (type : ValueType) :
    (Slot.optional type).kind.isMultiValued = false := by
  cases htoggle : type.isToggle <;> simp [kind, htoggle, Kind.isMultiValued]

/-- Without an occurrence only an array changes. -/
theorem settles_nil {slot : Slot} (hkind : slot.kind ≠ .array) (initial : Contents) :
    slot.Settles initial [] initial := by
  cases slot with
  | single type => exact .inl ⟨rfl, rfl⟩
  | optional type => exact .inl ⟨rfl, rfl⟩
  | array type => exact absurd rfl hkind
  | collection type c => exact ⟨[], .nil, rfl⟩
  | map c => exact ⟨[], .nil, rfl⟩

theorem reads_of_length_le_one {slot : Slot} {values : List (Option String)}
    {items : List Item} (hreads : List.Forall₂ slot.Reads values items)
    (hlength : values.length ≤ 1) (initial : Contents) :
    (values = [] ∧ (if items = [] then initial else items) = initial) ∨
      ∃ value item, values = [value] ∧ slot.Reads value item ∧
        (if items = [] then initial else items) = [item] := by
  cases hreads with
  | nil => exact .inl ⟨rfl, rfl⟩
  | @cons value item values items hread hrest =>
      have hvalues : values = [] := by
        simpa using hlength
      subst values
      cases hrest
      exact .inr ⟨value, item, rfl, hread, rfl⟩

theorem bind_settles {slot : Slot} {initial final : Contents}
    {values : List (Option String)} {items : List Item}
    (hreads : List.Forall₂ slot.Reads values items)
    (hlength : slot.kind.isMultiValued = false → values.length ≤ 1)
    (hbind : slot.bind initial items = (final, none)) : slot.Settles initial values final := by
  cases slot with
  | single type =>
      obtain ⟨rfl, -⟩ := Prod.mk.inj hbind
      exact reads_of_length_le_one hreads (hlength (single_isMultiValued type)) initial
  | optional type =>
      obtain ⟨rfl, -⟩ := Prod.mk.inj hbind
      exact reads_of_length_le_one hreads (hlength (optional_isMultiValued type)) initial
  | array type =>
      obtain ⟨rfl, -⟩ := Prod.mk.inj hbind
      exact hreads
  | collection type c => exact ⟨items, hreads, Container.appendAll_eq_none_iff.mp hbind⟩
  | map c => exact ⟨items, hreads, Container.appendAll_eq_none_iff.mp hbind⟩

theorem bind_stopsAt {slot : Slot} {initial held : Contents}
    {values : List (Option String)} {items : List Item} {cause : Refusal}
    (hreads : List.Forall₂ slot.Reads values items)
    (hbind : slot.bind initial items = (held, some cause)) :
    slot.StopsAt initial values held cause := by
  have hgrow : ∀ {c : Container}, slot.container? = some c →
      c.appendAll initial items = (held, some cause) →
      slot.StopsAt initial values held cause := by
    intro c hcontainer happend
    obtain ⟨taken, item, rest, rfl, htaken, hrefused⟩ := Container.appendAll_refused happend
    exact ⟨c, taken, item, rest, hcontainer, hreads, htaken, hrefused⟩
  cases slot with
  | single type => simp [Slot.bind] at hbind
  | optional type => simp [Slot.bind] at hbind
  | array type => simp [Slot.bind] at hbind
  | collection type c => exact hgrow rfl hbind
  | map c => exact hgrow rfl hbind

end Slot

end CommandLine
