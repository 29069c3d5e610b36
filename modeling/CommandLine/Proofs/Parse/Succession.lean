import CommandLine.Proofs.Parse.Destination
import CommandLine.Proofs.Parse.Interleaving

/-!
# Command lines one after another

A command line that can be parsed can also be parsed in two parts, one after the other into the same
destination.  In a part a token has fewer tokens before it and stands in a shorter list, and neither
can make it a fault.  The fields end up the same, since what the values of an argument make of its
field they make of it part by part.  Only an argument that has to be given, or an array that is
replaced by every parse, can tell the difference.
-/

namespace CommandLine

/-! ### Fewer tokens in shorter lists -/

namespace Fault

theorem exclusive?_eq_none_of_le {d : Declaration} {count longer : Nat} (hcount : count ≤ longer)
    (hnone : exclusive? d longer = none) : exclusive? d count = none := by
  unfold exclusive? at hnone ⊢
  by_cases hexclusive : d.policy.exclusive = true
  · have hlonger : ¬ 1 < longer := by simpa [hexclusive] using hnone
    have hshort : ¬ 1 < count := by omega
    simp [hshort]
  · simp [hexclusive]

theorem duplicate?_eq_none_of_sublist {d : Declaration} {before others : List (Option String)}
    (hsublist : before.Sublist others) (hnone : duplicate? d others = none) :
    duplicate? d before = none := by
  unfold duplicate? at hnone ⊢
  by_cases hmultiple : d.policy.multiple = true
  · simp [hmultiple]
  · have hothers : others = [] := by simpa [hmultiple] using hnone
    have hbefore : before = [] := List.sublist_nil.mp (hothers ▸ hsublist)
    simp [hbefore]

theorem repeated?_eq_none_of_sublist {d : Declaration} {before others : List (Option String)}
    {value : Option String} (hsublist : before.Sublist others)
    (hnone : repeated? d others value = none) : repeated? d before value = none := by
  unfold repeated? at hnone ⊢
  cases hread : d.slot.read value with
  | error cause => rfl
  | ok item =>
      by_cases hunique : d.policy.unique = true
      · have hothers : others.any (recurs d.slot item) = false := by
          simpa [hread, hunique] using hnone
        have hbefore : before.any (recurs d.slot item) = false := by
          rw [List.any_eq_false] at hothers ⊢
          exact fun earlier hearlier => hothers earlier (hsublist.subset hearlier)
        simp [hbefore]
      · simp [hunique]

end Fault

theorem Table.occurrences_sublist {t : Table} {earlier others : List Token}
    (hsublist : earlier.Sublist others) (d : Declaration) :
    (t.occurrences d earlier).Sublist (t.occurrences d others) := by
  rw [occurrences_eq_filterMap, occurrences_eq_filterMap]
  exact hsublist.filterMap _

/-- A token that is no fault is none either after some of the tokens before it and in a shorter
list. -/
theorem Table.fault?_eq_none_of_sublist {t : Table} {count longer : Nat}
    {earlier others : List Token} {token : Token} (hcount : count ≤ longer)
    (hsublist : earlier.Sublist others) (hnone : t.fault? longer others token = none) :
    t.fault? count earlier token = none := by
  obtain ⟨d, value, hresolve, hnamed, hduplicate, hinvalid, hrepeated⟩ :=
    Table.fault?_eq_none_iff.mp hnone
  have hoccurrences := Table.occurrences_sublist (t := t) hsublist d
  refine Table.fault?_eq_none_iff.mpr ⟨d, value, hresolve, ?_, ?_, hinvalid, ?_⟩
  · intro htoken
    exact ⟨(hnamed htoken).1, Fault.exclusive?_eq_none_of_le hcount (hnamed htoken).2⟩
  · exact Fault.duplicate?_eq_none_of_sublist hoccurrences hduplicate
  · exact Fault.repeated?_eq_none_of_sublist hoccurrences hrepeated

/-- The first event is the second one, from a list that may be shorter. -/
inductive Event.Shortens : Event → Event → Prop
  | token {count longer : Nat} (written : Token) :
      count ≤ longer → Shortens (.token count written) (.token longer written)
  | failure (error : ArgumentError) : Shortens (.failure error) (.failure error)

theorem Event.Shortens.refl (event : Event) : event.Shortens event := by
  cases event with
  | token count written => exact .token written (Nat.le_refl count)
  | failure error => exact .failure error

theorem Event.Shortens.token?_eq {event longer : Event} (hevent : event.Shortens longer) :
    event.token? = longer.token? := by
  cases hevent <;> rfl

theorem Event.tokens_eq_of_shortens {events longer : List Event}
    (hevents : List.Forall₂ Event.Shortens events longer) :
    Event.tokens events = Event.tokens longer := by
  induction hevents with
  | nil => rfl
  | cons hevent _ ih => rw [tokens_cons, tokens_cons, hevent.token?_eq, ih]

theorem Table.firstFault?_eq_none_of_shortens {t : Table} {earlier others : List Token}
    {events longer : List Event} (hevents : List.Forall₂ Event.Shortens events longer)
    (hsublist : earlier.Sublist others) (hnone : t.firstFault? others longer = none) :
    t.firstFault? earlier events = none := by
  induction hevents generalizing earlier others with
  | nil => rfl
  | cons hevent _ ih =>
      rw [Table.firstFault?_cons, Option.or_eq_none_iff] at hnone ⊢
      cases hevent with
      | failure error => simp [Event.fault?] at hnone
      | token written hcount =>
          constructor
          · exact Table.fault?_eq_none_of_sublist hcount hsublist hnone.1
          · exact ih (hsublist.append_right _) hnone.2

/-! ### The events of two parts -/

namespace Expansion

theorem flatMap_eventsOfToken_shortens (source : Source)
    (inside : String → List String → List Event) {count longer : Nat} (hcount : count ≤ longer)
    (tokens : List Token) :
    List.Forall₂ Event.Shortens (tokens.flatMap (eventsOfToken source inside count))
      (tokens.flatMap (eventsOfToken source inside longer)) := by
  induction tokens with
  | nil => exact .nil
  | cons token rest ih =>
      rw [List.flatMap_cons, List.flatMap_cons]
      apply List.rel_append _ ih
      cases token with
      | named written name value => exact .cons (.token _ hcount) .nil
      | positional value => exact .cons (.token _ hcount) .nil
      | responseFile path => exact List.forall₂_same.mpr fun event _ => .refl event

/-- The events of a command line are those of its parts, but for the lengths of lists. -/
theorem exists_events_append (source : Source) (first second : List String) :
    ∃ before after, events source (first ++ second) = before ++ after ∧
      List.Forall₂ Event.Shortens (events source first) before ∧
        List.Forall₂ Event.Shortens (events source second) after := by
  obtain ⟨inside, hinside⟩ := eventsWithin_eq_eventsOf source source.depth
  have hlength : (first ++ second).length = first.length + second.length := List.length_append
  unfold events
  rw [hinside, eventsOf_eq_flatMap, eventsOf_eq_flatMap, eventsOf_eq_flatMap, ofArguments_append,
    List.flatMap_append]
  refine ⟨_, _, rfl, ?_, ?_⟩
  · exact flatMap_eventsOfToken_shortens source inside (by omega) _
  · exact flatMap_eventsOfToken_shortens source inside (by omega) _

end Expansion

/-! ### The two phases -/

theorem State.anySeen_after_iff {t : Table} {tokens : List Token} :
    (State.after t tokens).anySeen = true ↔ ∃ d ∈ t.all, t.occurrences d tokens ≠ [] := by
  simp [State.anySeen, State.after, Held.after]

theorem State.anySeen_after_append (t : Table) (before after : List Token) :
    (State.after t (before ++ after)).anySeen =
      ((State.after t before).anySeen || (State.after t after).anySeen) := by
  rw [Bool.eq_iff_iff, Bool.or_eq_true, anySeen_after_iff, anySeen_after_iff, anySeen_after_iff,
    ← exists_or]
  simp only [Table.occurrences_append, ne_eq, List.append_eq_nil_iff, not_and_or, and_or_left]

theorem State.warnings_after_append (t : Table) (before after : List Token) :
    (State.after t (before ++ after)).warnings =
      (State.after t before).warnings ++ (State.after t after).warnings :=
  List.filterMap_append

/-- Values that can be bound all at once can be bound in two steps, with the same result. -/
theorem Binding.bindAll_append {before after : Declaration → List (Option String)}
    {initial final : Record} {ds : List Declaration}
    (hreadable : ∀ d ∈ ds, Readable d (before d ++ after d))
    (hfields : (ds.map Declaration.field).Nodup)
    (hoptional : ∀ d ∈ ds, d.policy.required = false) (harrays : ∀ d ∈ ds, d.kind ≠ .array)
    (hbind : bindAll initial (heldAfter (fun d => before d ++ after d) ds) = (final, none)) :
    ∃ middle, bindAll initial (heldAfter before ds) = (middle, none) ∧
      bindAll middle (heldAfter after ds) = (final, none) := by
  have hreadableBefore : ∀ d ∈ ds, Readable d (before d) :=
    fun d hd => (hreadable d hd).of_append.1
  have hreadableAfter : ∀ d ∈ ds, Readable d (after d) :=
    fun d hd => (hreadable d hd).of_append.2
  have hgiven : ∀ d ∈ ds, ∀ values : List (Option String),
      d.policy.required = true → values ≠ [] := by
    intro d hd values hrequired
    rw [hoptional d hd] at hrequired
    contradiction
  have hbound := bindAll_bound hreadable hfields hbind
  have hsplit : ∀ d ∈ ds, ∃ contents, d.slot.Settles (initial d.field) (before d) contents ∧
      d.slot.Settles contents (after d) (final d.field) :=
    fun d hd => (hbound.settles d hd).exists_middle (harrays d hd)
  -- the values of the first part can be bound by themselves
  obtain ⟨middle, hmiddle⟩ := (exists_bindAll_iff hreadableBefore hfields).mpr fun d hd =>
    ⟨hgiven d hd _, (hsplit d hd).imp fun _ hcontents => hcontents.1⟩
  have hboundBefore := bindAll_bound hreadableBefore hfields hmiddle
  have hrest : ∀ d ∈ ds, d.slot.Settles (middle d.field) (after d) (final d.field) := by
    intro d hd
    obtain ⟨contents, hcontents, hlast⟩ := hsplit d hd
    rwa [← hcontents.unique (hboundBefore.settles d hd)]
  -- and those of the second one on top of it
  obtain ⟨other, hother⟩ := (exists_bindAll_iff hreadableAfter hfields).mpr fun d hd =>
    ⟨hgiven d hd _, _, hrest d hd⟩
  have hboundAfter : Bound after middle final ds := by
    refine ⟨hrest, ?_⟩
    intro field hfield
    rw [hbound.other field hfield, hboundBefore.other field hfield]
  have hsame : other = final :=
    (bindAll_bound hreadableAfter hfields hother).unique hboundAfter fun _ => .rfl
  exact ⟨middle, hmiddle, hsame ▸ hother⟩

namespace Parser

theorem takeArguments_append {p : Parser} (hcoherent : p.table.Coherent) {files : FileSystem}
    {first second : List String} {s : State}
    (htake : p.takeArguments files (first ++ second) = .ok s) :
    ∃ before after, p.takeArguments files first = .ok (.after p.table before) ∧
      p.takeArguments files second = .ok (.after p.table after) ∧
        s = .after p.table (before ++ after) ∧ p.table.Accepted (before ++ after) := by
  obtain ⟨before, after, hevents, hbefore, hafter⟩ :=
    Expansion.exists_events_append (p.source files) first second
  rw [takeArguments_eq hcoherent, hevents, Fault.guarded_eq_ok_iff,
    Table.firstFault?_append, Option.or_eq_none_iff, Event.tokens_append] at htake
  obtain ⟨⟨hnoneBefore, hnoneAfter⟩, hstate⟩ := htake
  have haccepted := (p.table.accepted_nil.append_events hcoherent hnoneBefore).append_events
    hcoherent hnoneAfter
  refine ⟨Event.tokens before, Event.tokens after, ?_, ?_, (Except.ok.inj hstate).symm, ?_⟩
  · rw [takeArguments_eq hcoherent, Event.tokens_eq_of_shortens hbefore,
      Table.firstFault?_eq_none_of_shortens hbefore (List.Sublist.refl _) hnoneBefore,
      Fault.guarded_none]
  · rw [takeArguments_eq hcoherent, Event.tokens_eq_of_shortens hafter,
      Table.firstFault?_eq_none_of_shortens hafter (List.nil_sublist _) hnoneAfter,
      Fault.guarded_none]
  · simpa using haccepted

/-- Where nothing has to be given and nothing is an array, a parse that succeeds can be made in two
steps.  These leave the same destination and the same warnings, and there are no arguments exactly
if both of them find none. -/
theorem parse_append {p : Parser} (hbuilt : p.table.Built)
    (hfields : (p.table.all.map Declaration.field).Nodup)
    (hoptional : ∀ d ∈ p.table.all, d.policy.required = false)
    (harrays : ∀ d ∈ p.table.all, d.kind ≠ .array) {files : FileSystem}
    {first second : List String} {destination final : Record} {outcome : Outcome}
    (hparse : p.parse files (first ++ second) destination = (final, .ok outcome)) :
    ∃ middle before after,
      p.parse files first destination = (middle, .ok before) ∧
        p.parse files second middle = (final, .ok after) ∧
          outcome.warnings = before.warnings ++ after.warnings ∧
            outcome.noArguments = (before.noArguments && after.noArguments) := by
  have hcoherent := hbuilt.coherent
  obtain ⟨s, htake, hbind, rfl⟩ := parse_ok hparse
  obtain ⟨before, after, hfirst, hsecond, rfl, haccepted⟩ := takeArguments_append hcoherent htake
  have hreadable : ∀ d ∈ p.table.all,
      Binding.Readable d (p.table.occurrences d before ++ p.table.occurrences d after) := by
    intro d hd
    rw [← Table.occurrences_append]
    exact Binding.readable_of_accepted hcoherent haccepted hd
  simp only [Binding.held_after, Table.occurrences_append] at hbind
  obtain ⟨middle, hmiddle, hfinal⟩ :=
    Binding.bindAll_append hreadable hfields hoptional harrays hbind
  refine ⟨middle, _, _, parse_of_bindAll hfirst hmiddle, parse_of_bindAll hsecond hfinal, ?_, ?_⟩
  · exact State.warnings_after_append p.table before after
  · simp only [State.anySeen_after_append, Bool.not_or]

/-- Both parts bring values to the same two collections, and the second one begins with an empty
argument. -/
theorem archiver_parses_in_two_parts :
    ∃ middle before after,
      archiver.parse (.empty "/") ["-include:b", "x", "-v-"] .empty = (middle, .ok before) ∧
        archiver.parse (.empty "/") ["", "-include:a", "-level:9", "x"] middle =
          ((archiver.parse (.empty "/")
            ["-include:b", "x", "-v-", "", "-include:a", "-level:9", "x"] .empty).1, .ok after) ∧
        before.warnings ++ after.warnings =
          ["Command-line argument '-include' is obsolete. Name the files instead.",
            "Command-line argument '-verbose' is obsolete. Read the log instead.",
            "Command-line argument '-include' is obsolete. Name the files instead."] := by
  have hbuilt : archiver.table.Built := by
    dsimp only [archiver]
    exact Table.ofDraftsD_built _
  have hok : (archiver.parse (.empty "/")
      (["-include:b", "x", "-v-"] ++ ["", "-include:a", "-level:9", "x"]) .empty).2 =
      .ok ⟨false,
        ["Command-line argument '-include' is obsolete. Name the files instead.",
          "Command-line argument '-verbose' is obsolete. Read the log instead.",
          "Command-line argument '-include' is obsolete. Name the files instead."]⟩ := by
    decide
  obtain ⟨middle, before, after, hfirst, hsecond, hwarnings, -⟩ :=
    parse_append hbuilt (by decide) (by decide) (by decide) (Prod.ext rfl hok)
  exact ⟨middle, before, after, hfirst, hsecond, hwarnings.symm⟩

end Parser

end CommandLine
