import CommandLine.Parse.Binding
import CommandLine.Proofs.Parse.Trace
import CommandLine.Proofs.Slot.Standard

/-!
# What a parse leaves in the destination

Binding writes the arguments one after another, each into a field of its own, so every field can be
described by the occurrences of its argument alone.  A successful parse settles all fields.  A
failed one has written nothing if it failed in its first phase; otherwise it has settled the fields
of all arguments before the one that it names, and the container of that one has taken what it
could.
-/

namespace CommandLine

/-! ### One argument -/

namespace Binding

/-- The occurrences can be read, and a place for one value has at most one. -/
structure Readable (d : Declaration) (values : List (Option String)) : Prop where
  reads : ∀ value ∈ values, ∃ item, d.slot.read value = .ok item
  single : d.kind.isMultiValued = false → values.length ≤ 1

theorem Readable.forall₂_received {d : Declaration} {values : List (Option String)}
    (hreadable : ∀ value ∈ values, ∃ item, d.slot.read value = .ok item) :
    List.Forall₂ d.slot.Reads values (d.received values) := by
  induction values with
  | nil => exact .nil
  | cons value values ih =>
      obtain ⟨item, hitem⟩ := hreadable value List.mem_cons_self
      have hrest := ih fun other hother => hreadable other (List.mem_cons_of_mem _ hother)
      rw [← List.singleton_append, Declaration.received_append,
        Declaration.received_singleton hitem]
      exact .cons (Slot.read_eq_ok_iff.mp hitem) hrest

theorem bindOne_other {r : Record} {h : Held} {field : String}
    (hfield : h.declaration.field ≠ field) : (bindOne r h).1 field = r field := by
  unfold bindOne
  dsimp only
  split
  · rfl
  · split
    · rfl
    · exact Record.set_other _ _ hfield.symm

/-- An argument is missed, passed over, or written with the items that it received. -/
theorem bindOne_cases (r : Record) (d : Declaration) (values : List (Option String)) :
    (values = [] ∧ d.policy.required = true ∧
        bindOne r (.after d values) = (r, some (.missing d.long))) ∨
      (values = [] ∧ d.kind ≠ .array ∧ bindOne r (.after d values) = (r, none)) ∨
      bindOne r (.after d values) =
        (r.set d.field (d.slot.bind (r d.field) (d.received values)).1,
          (d.slot.bind (r d.field) (d.received values)).2.map (.refused d.long)) := by
  unfold bindOne Held.after
  dsimp only
  by_cases hvalues : values = []
  · subst values
    by_cases hrequired : d.policy.required = true
    · left
      simp [hrequired]
    · by_cases hkind : d.kind = .array
      · right
        right
        simp [hrequired, hkind]
      · right
        left
        simp [hrequired, hkind]
  · right
    right
    simp [hvalues]

theorem bindOne_settles {r final : Record} {d : Declaration} {values : List (Option String)}
    (hreadable : Readable d values)
    (hbind : bindOne r (.after d values) = (final, none)) :
    d.slot.Settles (r d.field) values (final d.field) := by
  rcases bindOne_cases r d values with
    ⟨-, -, hmissing⟩ | ⟨rfl, hkind, hpassed⟩ | hwritten
  · rw [hmissing] at hbind
    simp at hbind
  · rw [hpassed] at hbind
    obtain ⟨rfl, -⟩ := Prod.mk.inj hbind
    exact Slot.settles_nil hkind (r d.field)
  · rw [hwritten] at hbind
    obtain ⟨rfl, hrefusal⟩ := Prod.mk.inj hbind
    rw [Record.set_same]
    apply Slot.bind_settles (Readable.forall₂_received hreadable.reads) hreadable.single
    exact Prod.ext rfl (Option.map_eq_none_iff.mp hrefusal)

theorem Readable.of_append {d : Declaration} {first second : List (Option String)}
    (hreadable : Readable d (first ++ second)) : Readable d first ∧ Readable d second := by
  constructor
  · constructor
    · intro value hvalue
      exact hreadable.reads value (List.mem_append_left _ hvalue)
    · intro hkind
      have hlength := hreadable.single hkind
      rw [List.length_append] at hlength
      omega
  · constructor
    · intro value hvalue
      exact hreadable.reads value (List.mem_append_right _ hvalue)
    · intro hkind
      have hlength := hreadable.single hkind
      rw [List.length_append] at hlength
      omega

theorem readable_of_accepted {t : Table} (hcoherent : t.Coherent) {tokens : List Token}
    (haccepted : t.Accepted tokens) {d : Declaration} (hd : d ∈ t.all) :
    Readable d (t.occurrences d tokens) := by
  refine ⟨haccepted.reads d hd, ?_⟩
  intro hkind
  apply haccepted.single d hd
  rw [(hcoherent.declarations d hd).multiple_eq, hkind]

/-! ### All arguments -/

def heldAfter (values : Declaration → List (Option String)) (ds : List Declaration) :
    List Held :=
  ds.map fun d => .after d (values d)

theorem held_after (t : Table) (tokens : List Token) :
    (State.after t tokens).held = heldAfter (fun d => t.occurrences d tokens) t.all := rfl

theorem bindAll_cons_of_none {r next : Record} {h : Held} {rest : List Held}
    (hfirst : bindOne r h = (next, none)) : bindAll r (h :: rest) = bindAll next rest := by
  rw [bindAll, hfirst]

theorem bindAll_cons_of_some {r next : Record} {h : Held} {rest : List Held}
    {error : ArgumentError} (hfirst : bindOne r h = (next, some error)) :
    bindAll r (h :: rest) = (next, some error) := by
  rw [bindAll, hfirst]

/-- The fields of some arguments are settled, and no other field has changed. -/
structure Bound (values : Declaration → List (Option String)) (initial final : Record)
    (ds : List Declaration) : Prop where
  settles : ∀ d ∈ ds, d.slot.Settles (initial d.field) (values d) (final d.field)
  other : ∀ field, (∀ d ∈ ds, d.field ≠ field) → final field = initial field

theorem Bound.nil (values : Declaration → List (Option String)) (r : Record) :
    Bound values r r [] := by
  constructor
  · intro d hd
    cases hd
  · intro field _
    rfl

/-- One more argument comes first; no other one writes into its field. -/
theorem Bound.cons {values : Declaration → List (Option String)} {initial next final : Record}
    {d : Declaration} {ds : List Declaration}
    (hsettles : d.slot.Settles (initial d.field) (values d) (next d.field))
    (hother : ∀ field, d.field ≠ field → next field = initial field)
    (hfresh : ∀ e ∈ ds, e.field ≠ d.field) (hbound : Bound values next final ds) :
    Bound values initial final (d :: ds) := by
  constructor
  · intro e he
    rcases List.mem_cons.mp he with rfl | hrest
    · rw [hbound.other _ hfresh]
      exact hsettles
    · rw [← hother e.field (hfresh e hrest).symm]
      exact hbound.settles e hrest
  · intro field hfield
    rw [hbound.other field fun e he => hfield e (List.mem_cons_of_mem _ he)]
    exact hother field (hfield d List.mem_cons_self)

theorem field_ne_of_nodup {d : Declaration} {ds : List Declaration}
    (hfields : ((d :: ds).map Declaration.field).Nodup) : ∀ e ∈ ds, e.field ≠ d.field := by
  intro e he hfield
  exact (List.nodup_cons.mp hfields).1 (List.mem_map.mpr ⟨e, he, hfield⟩)

theorem bindOne_next_other {r next : Record} {d : Declaration} {values : List (Option String)}
    {outcome : Option ArgumentError} (hone : bindOne r (.after d values) = (next, outcome)) :
    ∀ field, d.field ≠ field → next field = r field := by
  intro field hfield
  rw [← bindOne_other (r := r) (h := .after d values) hfield, hone]

/-- A binding that succeeds has bound the first argument and then all others. -/
theorem bindAll_cons_ok {values : Declaration → List (Option String)} {initial final : Record}
    {d : Declaration} {ds : List Declaration}
    (hbind : bindAll initial (heldAfter values (d :: ds)) = (final, none)) :
    ∃ next, bindOne initial (.after d (values d)) = (next, none) ∧
      bindAll next (heldAfter values ds) = (final, none) := by
  obtain ⟨⟨next, outcome⟩, hone⟩ :
      ∃ result, bindOne initial (.after d (values d)) = result := ⟨_, rfl⟩
  rw [heldAfter, List.map_cons] at hbind
  cases outcome with
  | some error =>
      rw [bindAll_cons_of_some hone] at hbind
      simp at hbind
  | none =>
      rw [bindAll_cons_of_none hone] at hbind
      exact ⟨next, hone, hbind⟩

theorem bindAll_bound {values : Declaration → List (Option String)} {initial final : Record}
    {ds : List Declaration} (hreadable : ∀ d ∈ ds, Readable d (values d))
    (hfields : (ds.map Declaration.field).Nodup)
    (hbind : bindAll initial (heldAfter values ds) = (final, none)) :
    Bound values initial final ds := by
  induction ds generalizing initial with
  | nil =>
      obtain ⟨rfl, -⟩ := Prod.mk.inj hbind
      exact .nil values initial
  | cons d ds ih =>
      obtain ⟨next, hone, hrest⟩ := bindAll_cons_ok hbind
      have hbound := ih (fun e he => hreadable e (List.mem_cons_of_mem _ he))
        (List.nodup_cons.mp hfields).2 hrest
      exact .cons (bindOne_settles (hreadable d List.mem_cons_self) hone)
        (bindOne_next_other hone) (field_ne_of_nodup hfields) hbound

/-- The arguments before `d` are settled, and besides their fields only that of `d` may have
changed. -/
structure StoppedAt (values : Declaration → List (Option String)) (initial final : Record)
    (before : List Declaration) (d : Declaration) : Prop where
  settles : ∀ b ∈ before, b.slot.Settles (initial b.field) (values b) (final b.field)
  other : ∀ field, (∀ b ∈ before, b.field ≠ field) → d.field ≠ field →
    final field = initial field

theorem StoppedAt.later {values : Declaration → List (Option String)}
    {initial final : Record} {before after : List Declaration} {d : Declaration}
    (hfields : ((before ++ d :: after).map Declaration.field).Nodup)
    (hstopped : StoppedAt values initial final before d) :
    ∀ e ∈ after, final e.field = initial e.field := by
  intro e he
  rw [List.map_append, List.map_cons] at hfields
  have hmem : e.field ∈ after.map Declaration.field := List.mem_map_of_mem he
  apply hstopped.other
  · intro b hb hfield
    have hne := (List.nodup_append.mp hfields).2.2 _ (List.mem_map_of_mem hb) _
      (List.mem_cons_of_mem _ hmem)
    exact hne hfield
  · intro hfield
    have hfresh := (List.nodup_cons.mp (List.nodup_append.mp hfields).2.1).1
    exact hfresh (hfield ▸ hmem)

theorem StoppedAt.cons {values : Declaration → List (Option String)}
    {initial next final : Record} {first d : Declaration} {before : List Declaration}
    (hsettles : first.slot.Settles (initial first.field) (values first) (next first.field))
    (hother : ∀ field, first.field ≠ field → next field = initial field)
    (hbefore : ∀ b ∈ before, b.field ≠ first.field) (hd : d.field ≠ first.field)
    (hstopped : StoppedAt values next final before d) :
    StoppedAt values initial final (first :: before) d := by
  constructor
  · intro b hb
    rcases List.mem_cons.mp hb with rfl | hrest
    · rw [hstopped.other _ hbefore hd]
      exact hsettles
    · rw [← hother b.field (hbefore b hrest).symm]
      exact hstopped.settles b hrest
  · intro field hfield hdField
    rw [hstopped.other field (fun b hb => hfield b (List.mem_cons_of_mem _ hb)) hdField]
    exact hother field (hfield first List.mem_cons_self)

/-- What an error of the second phase tells about the argument that it names. -/
def Blames (d : Declaration) (values : List (Option String)) (initial final : Contents) :
    ArgumentError → Prop
  | .missing name =>
      name = d.long ∧ d.policy.required = true ∧ values = [] ∧ final = initial
  | .refused name cause => name = d.long ∧ d.slot.StopsAt initial values final cause
  | _ => False

theorem bindOne_blames {r final : Record} {d : Declaration} {values : List (Option String)}
    {error : ArgumentError} (hreadable : Readable d values)
    (hbind : bindOne r (.after d values) = (final, some error)) :
    Blames d values (r d.field) (final d.field) error := by
  rcases bindOne_cases r d values with
    ⟨hvalues, hrequired, hmissing⟩ | ⟨-, -, hpassed⟩ | hwritten
  · rw [hmissing] at hbind
    obtain ⟨rfl, herror⟩ := Prod.mk.inj hbind
    obtain rfl := Option.some.inj herror
    exact ⟨rfl, hrequired, hvalues, rfl⟩
  · rw [hpassed] at hbind
    simp at hbind
  · rw [hwritten] at hbind
    obtain ⟨rfl, hrefusal⟩ := Prod.mk.inj hbind
    obtain ⟨cause, hcause, rfl⟩ := Option.map_eq_some_iff.mp hrefusal
    rw [Record.set_same]
    refine ⟨rfl, ?_⟩
    exact Slot.bind_stopsAt (Readable.forall₂_received hreadable.reads) (Prod.ext rfl hcause)

/-- A binding that fails has settled all arguments before the one that it names. -/
theorem bindAll_stoppedAt {values : Declaration → List (Option String)}
    {initial final : Record} {ds : List Declaration} {error : ArgumentError}
    (hreadable : ∀ d ∈ ds, Readable d (values d))
    (hfields : (ds.map Declaration.field).Nodup)
    (hbind : bindAll initial (heldAfter values ds) = (final, some error)) :
    ∃ before d after, ds = before ++ d :: after ∧
      StoppedAt values initial final before d ∧
        Blames d (values d) (initial d.field) (final d.field) error := by
  induction ds generalizing initial with
  | nil => simp [heldAfter, bindAll] at hbind
  | cons d ds ih =>
      have hfresh := field_ne_of_nodup hfields
      obtain ⟨⟨next, outcome⟩, hone⟩ :
          ∃ result, bindOne initial (.after d (values d)) = result := ⟨_, rfl⟩
      have hother := bindOne_next_other hone
      rw [heldAfter, List.map_cons] at hbind
      cases outcome with
      | some failure =>
          rw [bindAll_cons_of_some hone] at hbind
          obtain ⟨rfl, hfailure⟩ := Prod.mk.inj hbind
          obtain rfl := Option.some.inj hfailure
          refine ⟨[], d, ds, rfl, ⟨?_, ?_⟩, ?_⟩
          · intro b hb
            cases hb
          · intro field _ hfield
            exact hother field hfield
          · exact bindOne_blames (hreadable d List.mem_cons_self) hone
      | none =>
          rw [bindAll_cons_of_none hone] at hbind
          obtain ⟨before, e, after, rfl, hstopped, hblames⟩ :=
            ih (fun e he => hreadable e (List.mem_cons_of_mem _ he))
              (List.nodup_cons.mp hfields).2 hbind
          have he : e.field ≠ d.field := hfresh e (by simp)
          refine ⟨d :: before, e, after, rfl, ?_, ?_⟩
          · exact .cons (bindOne_settles (hreadable d List.mem_cons_self) hone) hother
              (fun b hb => hfresh b (List.mem_append_left _ hb)) he hstopped
          · rwa [hother e.field he.symm] at hblames

/-! ### When binding succeeds -/

theorem bindOne_given {r next : Record} {d : Declaration} {values : List (Option String)}
    (hone : bindOne r (.after d values) = (next, none)) (hrequired : d.policy.required = true) :
    values ≠ [] := by
  rintro rfl
  simp [bindOne, Held.after, hrequired] at hone

theorem bindAll_given {values : Declaration → List (Option String)} {initial final : Record}
    {ds : List Declaration} (hbind : bindAll initial (heldAfter values ds) = (final, none)) :
    ∀ d ∈ ds, d.policy.required = true → values d ≠ [] := by
  induction ds generalizing initial with
  | nil =>
      intro d hd
      cases hd
  | cons first ds ih =>
      obtain ⟨next, hone, hrest⟩ := bindAll_cons_ok hbind
      intro d hd
      rcases List.mem_cons.mp hd with rfl | hd
      · exact bindOne_given hone
      · exact ih hrest d hd

theorem exists_bindAll_of_not_stopsAt {values : Declaration → List (Option String)}
    {initial : Record} {ds : List Declaration} (hreadable : ∀ d ∈ ds, Readable d (values d))
    (hfields : (ds.map Declaration.field).Nodup)
    (hgiven : ∀ d ∈ ds, d.policy.required = true → values d ≠ [])
    (htakes : ∀ d ∈ ds, ∀ held cause,
      ¬ d.slot.StopsAt (initial d.field) (values d) held cause) :
    ∃ final, bindAll initial (heldAfter values ds) = (final, none) := by
  cases hbind : bindAll initial (heldAfter values ds) with
  | mk final outcome =>
      cases outcome with
      | none => exact ⟨final, rfl⟩
      | some error =>
          obtain ⟨before, d, after, rfl, -, hblames⟩ := bindAll_stoppedAt hreadable hfields hbind
          have hd : d ∈ before ++ d :: after := by simp
          cases error with
          | missing name => exact absurd hblames.2.2.1 (hgiven d hd hblames.2.1)
          | refused name cause => exact absurd hblames.2 (htakes d hd _ _)
          | _ => exact hblames.elim

/-- Nothing stops a binding in which all required arguments have values and no container refuses. -/
theorem exists_bindAll_eq {values : Declaration → List (Option String)} {initial : Record}
    {ds : List Declaration} (hreadable : ∀ d ∈ ds, Readable d (values d))
    (hfields : (ds.map Declaration.field).Nodup)
    (hgiven : ∀ d ∈ ds, d.policy.required = true → values d ≠ [])
    (hstandard : ∀ d ∈ ds, d.slot.IsStandard (initial d.field)) :
    ∃ final, bindAll initial (heldAfter values ds) = (final, none) :=
  exists_bindAll_of_not_stopsAt hreadable hfields hgiven
    fun d hd _ _ => (hstandard d hd).not_stopsAt

/-- The argument has a value if it needs one, and its slot takes all of its values. -/
structure Bindable (initial : Record) (d : Declaration) (values : List (Option String)) :
    Prop where
  given : d.policy.required = true → values ≠ []
  settles : ∃ contents, d.slot.Settles (initial d.field) values contents

/-- Binding succeeds exactly if every argument can be bound, which does not depend on the others. -/
theorem exists_bindAll_iff {values : Declaration → List (Option String)} {initial : Record}
    {ds : List Declaration} (hreadable : ∀ d ∈ ds, Readable d (values d))
    (hfields : (ds.map Declaration.field).Nodup) :
    (∃ final, bindAll initial (heldAfter values ds) = (final, none)) ↔
      ∀ d ∈ ds, Bindable initial d (values d) := by
  constructor
  · rintro ⟨final, hbind⟩ d hd
    have hbound := bindAll_bound hreadable hfields hbind
    exact ⟨bindAll_given hbind d hd, _, hbound.settles d hd⟩
  · intro hbindable
    apply exists_bindAll_of_not_stopsAt hreadable hfields
    · intro d hd
      exact (hbindable d hd).given
    · intro d hd held cause
      obtain ⟨contents, hcontents⟩ := (hbindable d hd).settles
      exact hcontents.not_stopsAt

/-- What binding leaves is determined by what it settles, in whatever order. -/
theorem Bound.unique {values : Declaration → List (Option String)}
    {initial final other : Record} {ds es : List Declaration}
    (hbound : Bound values initial final ds) (hother : Bound values initial other es)
    (hmem : ∀ d, d ∈ ds ↔ d ∈ es) : final = other := by
  funext field
  by_cases hfield : ∃ d ∈ ds, d.field = field
  · obtain ⟨d, hd, rfl⟩ := hfield
    exact (hbound.settles d hd).unique (hother.settles d ((hmem d).mp hd))
  · have hfree : ∀ d ∈ ds, d.field ≠ field := by
      simpa using hfield
    rw [hbound.other field hfree, hother.other field fun d hd => hfree d ((hmem d).mpr hd)]

/-- In another order the same arguments are bound with the same result. -/
theorem bindAll_perm {values : Declaration → List (Option String)} {initial final : Record}
    {ds es : List Declaration} (hreadable : ∀ d ∈ ds, Readable d (values d))
    (hfields : (ds.map Declaration.field).Nodup) (hperm : ds.Perm es)
    (hbind : bindAll initial (heldAfter values ds) = (final, none)) :
    bindAll initial (heldAfter values es) = (final, none) := by
  have hmem : ∀ d, d ∈ ds ↔ d ∈ es := fun _ => hperm.mem_iff
  have hother : ∀ d ∈ es, Readable d (values d) := fun d hd => hreadable d ((hmem d).mpr hd)
  have hnodup : (es.map Declaration.field).Nodup :=
    (hperm.map Declaration.field).nodup_iff.mp hfields
  have hbindable := (exists_bindAll_iff hreadable hfields).mp ⟨final, hbind⟩
  obtain ⟨reached, hreached⟩ := (exists_bindAll_iff hother hnodup).mpr
    fun d hd => hbindable d ((hmem d).mpr hd)
  have hsame : final = reached :=
    (bindAll_bound hreadable hfields hbind).unique (bindAll_bound hother hnodup hreached) hmem
  rwa [hsame]

end Binding

end CommandLine
