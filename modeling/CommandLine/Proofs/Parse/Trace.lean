import CommandLine.Proofs.Parse.Fault

/-!
# The state of a parse as a function of its tokens

The state that a parse has reached is no more than a summary of the tokens so far: an argument has
been seen if it occurs among them, and holds the items read from its occurrences, in order.  A token
is refused exactly when it is at fault, and with the error of its first fault.
-/

namespace CommandLine

namespace Event

def token? : Event → Option Token
  | .token _ written => some written
  | .failure _ => none

def tokens (events : List Event) : List Token :=
  events.filterMap token?

@[simp] theorem tokens_nil : tokens [] = [] := rfl

@[simp] theorem tokens_append (first second : List Event) :
    tokens (first ++ second) = tokens first ++ tokens second := by
  simp [tokens]

@[simp] theorem tokens_cons (event : Event) (rest : List Event) :
    tokens (event :: rest) = event.token?.toList ++ tokens rest := by
  cases event <;> simp [tokens, List.filterMap_cons, token?]

/-- A reference that leads nowhere is at fault wherever it stands. -/
def fault? (t : Table) (earlier : List Token) : Event → Option ArgumentError
  | .token count written => t.fault? count earlier written
  | .failure error => some error

end Event

/-- The fault of the first event at fault, after the tokens before all of them. -/
def Table.firstFault? (t : Table) (earlier : List Token) : List Event → Option ArgumentError
  | [] => none
  | event :: rest =>
      event.fault? t earlier <|> t.firstFault? (earlier ++ event.token?.toList) rest

@[simp] theorem Table.firstFault?_nil (t : Table) (earlier : List Token) :
    t.firstFault? earlier [] = none := rfl

theorem Table.firstFault?_cons (t : Table) (earlier : List Token) (event : Event)
    (rest : List Event) :
    t.firstFault? earlier (event :: rest) =
      (event.fault? t earlier).or (t.firstFault? (earlier ++ event.token?.toList) rest) := by
  rw [Table.firstFault?, Option.orElse_eq_orElse, Option.orElse_eq_or]

theorem Table.firstFault?_append (t : Table) (earlier : List Token) (first second : List Event) :
    t.firstFault? earlier (first ++ second) =
      (t.firstFault? earlier first).or (t.firstFault? (earlier ++ Event.tokens first) second) := by
  induction first generalizing earlier with
  | nil => simp
  | cons event rest ih =>
      rw [List.cons_append, firstFault?_cons, firstFault?_cons, ih, Option.or_assoc,
        Event.tokens_cons, List.append_assoc]

/-! ### The state after some tokens -/

/-- The items that an argument reads from the values of its occurrences. -/
def Declaration.received (d : Declaration) (values : List (Option String)) : List Item :=
  values.filterMap fun value => (d.slot.read value).toOption

def Held.after (d : Declaration) (values : List (Option String)) : Held where
  declaration := d
  seen := !values.isEmpty
  items := d.received values

def Declaration.notice? (d : Declaration) : Option String :=
  d.obsolescence.map fun o => obsolescenceNotice d.long o.message

/-- What is said about a token whose argument is obsolete. -/
def Table.notice? (t : Table) : Token → Option String
  | .named _ name _ => (t.find name).bind Declaration.notice?
  | .responseFile _ | .positional _ => none

def State.after (t : Table) (tokens : List Token) : State where
  held := t.all.map fun d => .after d (t.occurrences d tokens)
  warnings := tokens.filterMap t.notice?

theorem State.after_nil (t : Table) : State.after t [] = State.start t := rfl

@[simp] theorem Declaration.received_nil (d : Declaration) : d.received [] = [] := rfl

@[simp] theorem Declaration.received_append (d : Declaration)
    (first second : List (Option String)) :
    d.received (first ++ second) = d.received first ++ d.received second := by
  simp [Declaration.received]

theorem Declaration.received_singleton {d : Declaration} {value : Option String} {item : Item}
    (hread : d.slot.read value = .ok item) : d.received [value] = [item] := by
  simp [Declaration.received, hread, Except.toOption]

theorem Declaration.received_any (d : Declaration) (values : List (Option String)) (item : Item) :
    (d.received values).any (·.clashes item) = values.any (Fault.recurs d.slot item) := by
  induction values with
  | nil => rfl
  | cons value values ih =>
      rw [← List.singleton_append, received_append, List.any_append, ih, List.any_append]
      cases hread : d.slot.read value <;>
        simp [Declaration.received, Fault.recurs, hread, Except.toOption]

/-! ### One step -/

theorem Slot.accept_of_multiValued {slot : Slot} {collected : List Item} {value : Option String}
    {unique : Bool} {item : Item} (hread : slot.read value = .ok item)
    (hkind : slot.kind.isMultiValued = true) :
    slot.accept collected value unique =
      if unique && collected.any (·.clashes item) then
        .error (.repeated (Slot.repetition value item))
      else .ok (collected ++ [item]) := by
  simp [Slot.accept, hread, hkind]

theorem Slot.accept_of_single {slot : Slot} {collected : List Item} {value : Option String}
    {unique : Bool} {item : Item} (hread : slot.read value = .ok item)
    (hkind : slot.kind.isMultiValued = false) :
    slot.accept collected value unique = .ok [item] := by
  simp [Slot.accept, hread, hkind]

theorem Declaration.Coherent.unique_eq_false {d : Declaration} (hcoherent : d.Coherent)
    (hkind : d.kind.isMultiValued = false) : d.policy.unique = false := by
  apply Bool.eq_false_iff.mpr
  intro hunique
  rw [hcoherent.multiValued_of_unique hunique] at hkind
  contradiction

/-- Taking one occurrence either meets a fault or adds the occurrence to those before it. -/
theorem Held.take_after {d : Declaration} (hcoherent : d.Coherent)
    (before : List (Option String)) (value : Option String) :
    (Held.after d before).take value =
      Fault.guarded
        (Fault.duplicate? d before <|> Fault.invalid? d value <|> Fault.repeated? d before value)
        (.ok (.after d (before ++ [value]))) := by
  unfold Held.take Held.after Fault.duplicate? Fault.invalid? Fault.repeated?
  dsimp only
  rw [Bool.and_comm (!before.isEmpty)]
  by_cases hduplicate : (!d.policy.multiple && !before.isEmpty) = true
  · simp [hduplicate]
  by_cases hempty : value = some ""
  · simp [hduplicate, hempty]
  cases hread : d.slot.read value with
  | error cause => simp [hduplicate, hempty, Slot.accept, hread]
  | ok item =>
      have hitems : d.received (before ++ [value]) = d.received before ++ [item] := by
        rw [Declaration.received_append, Declaration.received_singleton hread]
      cases hkind : d.kind.isMultiValued with
      | false =>
          -- an earlier occurrence would have been a duplicate
          have hbefore : before = [] := by
            simpa [hcoherent.multiple_eq, hkind] using hduplicate
          subst before
          simp [hempty, Slot.accept_of_single hread hkind, hcoherent.unique_eq_false hkind,
            Declaration.received_singleton hread]
      | true =>
          rw [Slot.accept_of_multiValued hread hkind, Declaration.received_any, hitems]
          by_cases hrecurs :
              (d.policy.unique && before.any (Fault.recurs d.slot item)) = true
          · simp [hduplicate, hempty, hrecurs]
          · simp [hduplicate, hempty, hrecurs]

/-- Only the argument that a token belongs to changes. -/
theorem State.held_after_set {t : Table} (hcoherent : t.Coherent) {earlier : List Token}
    {token : Token} {position : Nat} {d : Declaration} {value : Option String}
    (hd : t.all[position]? = some d) (hresolve : t.resolve token = some (d, value)) :
    (State.after t earlier).held.set position
        (.after d (t.occurrences d earlier ++ [value])) =
      (State.after t (earlier ++ [token])).held := by
  apply List.ext_getElem?
  intro j
  unfold State.after
  simp only [List.getElem?_set, List.getElem?_map, List.length_map, Table.occurrences_append]
  by_cases hj : position = j
  · subst j
    obtain ⟨hlt, hget⟩ := List.getElem?_eq_some_iff.mp hd
    simp [hlt, hget, Table.occurrences_singleton_self hresolve]
  · rw [if_neg hj]
    cases hother : t.all[j]? with
    | none => rfl
    | some other =>
        have hlong := hcoherent.long_ne hd hother hj
        simp [Table.occurrences_singleton_other hresolve hlong]

theorem State.give_after {t : Table} (hcoherent : t.Coherent) {earlier : List Token}
    {token : Token} {position : Nat} {d : Declaration} {value : Option String}
    (hd : t.all[position]? = some d) (hresolve : t.resolve token = some (d, value))
    {s : State} (hheld : s.held = (State.after t earlier).held) :
    s.give position (.after d (t.occurrences d earlier)) value =
      Fault.guarded
        (Fault.duplicate? d (t.occurrences d earlier) <|> Fault.invalid? d value <|>
          Fault.repeated? d (t.occurrences d earlier) value)
        (.ok { s with held := (State.after t (earlier ++ [token])).held }) := by
  have hmem : d ∈ t.all := List.mem_of_getElem? hd
  unfold State.give
  rw [Held.take_after (hcoherent.declarations d hmem)]
  cases hfault : Fault.duplicate? d (t.occurrences d earlier) <|> Fault.invalid? d value <|>
      Fault.repeated? d (t.occurrences d earlier) value with
  | some error => rfl
  | none => simp only [Fault.guarded_none, hheld, State.held_after_set hcoherent hd hresolve]

theorem State.giveAmong_eq (s : State) (count position : Nat) (h : Held)
    (value : Option String) :
    s.giveAmong count position h value =
      Fault.guarded (Fault.exclusive? h.declaration count) (s.give position h value) := by
  unfold State.giveAmong Fault.exclusive?
  split <;> rfl

theorem State.takeNamed_eq (s : State) (count position : Nat) (h : Held)
    (value : Option String) :
    s.takeNamed count position h value =
      Fault.guarded (Fault.obsolete? h.declaration <|> Fault.exclusive? h.declaration count)
        ({ s with warnings := s.warnings ++ h.declaration.notice?.toList }.give
          position h value) := by
  unfold State.takeNamed Fault.obsolete? Declaration.notice?
  cases hobsolete : h.declaration.obsolescence with
  | none => simp [State.giveAmong_eq]
  | some o =>
      by_cases hfatal : o.fatal = true
      · simp [hfatal]
      · simp [hfatal, State.giveAmong_eq, State.warn]

theorem Table.notice?_of_resolve_named {t : Table} {written name : String}
    {text value : Option String} {d : Declaration}
    (hresolve : t.resolve (.named written name text) = some (d, value)) :
    t.notice? (.named written name text) = d.notice? := by
  obtain ⟨found, hfound, hpair⟩ := Option.map_eq_some_iff.mp hresolve
  obtain ⟨rfl, -⟩ := Prod.mk.inj hpair
  simp [Table.notice?, hfound]

theorem State.after_append_singleton (t : Table) (earlier : List Token) (token : Token) :
    State.after t (earlier ++ [token]) =
      { held := (State.after t (earlier ++ [token])).held
        warnings := (State.after t earlier).warnings ++ (t.notice? token).toList } := by
  cases hnotice : t.notice? token <;> simp [State.after, hnotice]

/-- One token leads from the state after the tokens before it to the state after one more, or is
refused for its first fault. -/
theorem State.takeToken_after {t : Table} (hcoherent : t.Coherent) (earlier : List Token)
    (count : Nat) (token : Token) :
    State.takeToken t (.after t earlier) count token =
      Fault.guarded (t.fault? count earlier token) (.ok (.after t (earlier ++ [token]))) := by
  unfold State.takeToken Table.fault?
  cases htarget : State.target t token with
  | none =>
      have hresolve := Table.resolve_of_target_eq_none htarget
      simp [Fault.unknown?_of_resolve_eq_none hresolve]
  | some target =>
      obtain ⟨position, value⟩ := target
      obtain ⟨d, hd, hresolve⟩ := Table.resolve_of_target htarget
      have hheld : (State.after t earlier).held[position]? =
          some (.after d (t.occurrences d earlier)) := by
        simp [State.after, hd]
      dsimp only
      rw [Fault.unknown?_of_resolve hresolve, hresolve, hheld, Fault.guarded_or,
        Fault.guarded_none, Option.bind_some, Fault.guarded_or]
      rw [State.after_append_singleton]
      cases token with
      | named written name text =>
          simp only [State.takeNamed_eq, Token.isNamed, if_true]
          rw [Table.notice?_of_resolve_named hresolve]
          exact congrArg (Fault.guarded _) (State.give_after hcoherent hd hresolve rfl)
      | positional text =>
          have hgive := State.give_after hcoherent hd hresolve
            (show (State.after t earlier).held = (State.after t earlier).held from rfl)
          simpa [Token.isNamed, Table.notice?] using hgive
      | responseFile path =>
          simp [Table.resolve] at hresolve

/-! ### A whole run -/

theorem State.take_after {t : Table} (hcoherent : t.Coherent) (earlier : List Token)
    (event : Event) :
    State.take t (.after t earlier) event =
      Fault.guarded (event.fault? t earlier)
        (.ok (.after t (earlier ++ event.token?.toList))) := by
  cases event with
  | token count token => exact State.takeToken_after hcoherent earlier count token
  | failure error => rfl

/-- A run of events ends with the first fault, or in the state after all of their tokens. -/
theorem State.takeAll_after {t : Table} (hcoherent : t.Coherent) (earlier : List Token)
    (events : List Event) :
    State.takeAll t (.after t earlier) events =
      Fault.guarded (t.firstFault? earlier events)
        (.ok (.after t (earlier ++ Event.tokens events))) := by
  unfold State.takeAll
  induction events generalizing earlier with
  | nil => simp [pure, Except.pure]
  | cons event rest ih =>
      rw [List.foldlM_cons, State.take_after hcoherent, Table.firstFault?, Fault.guarded_or]
      cases hfault : event.fault? t earlier with
      | some error => rfl
      | none =>
          have hrest := ih (earlier ++ event.token?.toList)
          rw [List.append_assoc, ← Event.tokens_cons] at hrest
          exact hrest

theorem Table.firstFault?_eq_none_iff {t : Table} {earlier : List Token}
    {events : List Event} :
    t.firstFault? earlier events = none ↔
      ∀ before event later, events = before ++ event :: later →
        event.fault? t (earlier ++ Event.tokens before) = none := by
  induction events generalizing earlier with
  | nil => simp
  | cons first rest ih =>
      rw [Table.firstFault?_cons, Option.or_eq_none_iff, ih]
      constructor
      · rintro ⟨hfirst, hrest⟩ before event later hsplit
        cases before with
        | nil =>
            obtain ⟨rfl, -⟩ := List.cons.inj hsplit
            simpa using hfirst
        | cons head before =>
            obtain ⟨rfl, htail⟩ := List.cons.inj hsplit
            simpa using hrest before event later htail
      · intro hall
        constructor
        · simpa using hall [] first rest rfl
        · intro before event later hsplit
          simpa using hall (first :: before) event later (by rw [hsplit, List.cons_append])

theorem Table.exists_fault?_eq_none {t : Table} {earlier : List Token} {events : List Event}
    {event : Event} (hnone : t.firstFault? earlier events = none) (hevent : event ∈ events) :
    ∃ before, event.fault? t before = none := by
  obtain ⟨before, later, hsplit⟩ := List.append_of_mem hevent
  exact ⟨_, Table.firstFault?_eq_none_iff.mp hnone before event later hsplit⟩

/-- A run reports the fault of an event that no event at fault comes before. -/
theorem Table.firstFault?_eq_some_iff {t : Table} {earlier : List Token}
    {events : List Event} {error : ArgumentError} :
    t.firstFault? earlier events = some error ↔
      ∃ before event later, events = before ++ event :: later ∧
        t.firstFault? earlier before = none ∧
          event.fault? t (earlier ++ Event.tokens before) = some error := by
  induction events generalizing earlier with
  | nil => simp
  | cons first rest ih =>
      rw [Table.firstFault?_cons, Option.or_eq_some_iff, ih]
      constructor
      · rintro (hfirst | ⟨hnone, before, event, later, rfl, hbefore, hevent⟩)
        · exact ⟨[], first, rest, rfl, rfl, by simpa using hfirst⟩
        · refine ⟨first :: before, event, later, rfl, ?_, by simpa using hevent⟩
          rw [Table.firstFault?_cons, hnone, hbefore]
          rfl
      · rintro ⟨before, event, later, hsplit, hbefore, hevent⟩
        cases before with
        | nil =>
            obtain ⟨rfl, -⟩ := List.cons.inj hsplit
            left
            simpa using hevent
        | cons head before =>
            obtain ⟨rfl, hrest⟩ := List.cons.inj hsplit
            rw [Table.firstFault?_cons, Option.or_eq_none_iff] at hbefore
            right
            exact ⟨hbefore.1, before, event, later, hrest, hbefore.2, by simpa using hevent⟩

/-! ### Tokens without a fault -/

/-- What holds of the occurrences of every argument among tokens without a fault. -/
structure Table.Accepted (t : Table) (tokens : List Token) : Prop where
  reads : ∀ d ∈ t.all, ∀ value ∈ t.occurrences d tokens, ∃ item, d.slot.read value = .ok item
  single : ∀ d ∈ t.all, d.policy.multiple = false → (t.occurrences d tokens).length ≤ 1

theorem Table.accepted_nil (t : Table) : t.Accepted [] := by
  constructor <;> simp

theorem Table.Accepted.append_token {t : Table} (hcoherent : t.Coherent) {count : Nat}
    {earlier : List Token} {token : Token} (haccepted : t.Accepted earlier)
    (hfault : t.fault? count earlier token = none) : t.Accepted (earlier ++ [token]) := by
  obtain ⟨found, value, hresolve, -, hduplicate, hinvalid, -⟩ :=
    Table.fault?_eq_none_iff.mp hfault
  have hfound := Table.mem_all_of_resolve hresolve
  constructor
  · intro d hd text htext
    rw [Table.occurrences_append] at htext
    rcases List.mem_append.mp htext with hearlier | hlast
    · exact haccepted.reads d hd text hearlier
    · by_cases hlong : found.long = d.long
      · obtain rfl := hcoherent.eq_of_long hfound hd hlong
        rw [Table.occurrences_singleton_self hresolve, List.mem_singleton] at hlast
        exact hlast ▸ Fault.read_of_invalid?_eq_none hinvalid
      · simp [Table.occurrences_singleton_other hresolve hlong] at hlast
  · intro d hd hmultiple
    rw [Table.occurrences_append, List.length_append]
    by_cases hlong : found.long = d.long
    · obtain rfl := hcoherent.eq_of_long hfound hd hlong
      have hbefore : t.occurrences found earlier = [] := by
        simpa [Fault.duplicate?, hmultiple] using hduplicate
      simp [hbefore, Table.occurrences_singleton_self hresolve]
    · rw [Table.occurrences_singleton_other hresolve hlong]
      exact haccepted.single d hd hmultiple

/-- What every token without a fault preserves is preserved by a run without one. -/
theorem Table.firstFault?_induction {t : Table} {invariant : List Token → Prop}
    (hstep : ∀ earlier count token, invariant earlier → t.fault? count earlier token = none →
      invariant (earlier ++ [token]))
    {earlier : List Token} {events : List Event} (hstart : invariant earlier)
    (hnone : t.firstFault? earlier events = none) :
    invariant (earlier ++ Event.tokens events) := by
  induction events generalizing earlier with
  | nil => simpa using hstart
  | cons event rest ih =>
      rw [Table.firstFault?_cons, Option.or_eq_none_iff] at hnone
      rw [Event.tokens_cons, ← List.append_assoc]
      apply ih _ hnone.2
      cases event with
      | token count token => exact hstep earlier count token hstart hnone.1
      | failure error => simp [Event.fault?] at hnone

theorem Table.Accepted.append_events {t : Table} (hcoherent : t.Coherent)
    {earlier : List Token} {events : List Event} (haccepted : t.Accepted earlier)
    (hfault : t.firstFault? earlier events = none) :
    t.Accepted (earlier ++ Event.tokens events) :=
  Table.firstFault?_induction (fun _ _ _ hbefore => hbefore.append_token hcoherent) haccepted hfault

theorem Table.firstFault?_isBinding {t : Table} {earlier : List Token} {events : List Event}
    {error : ArgumentError} (hfault : t.firstFault? earlier events = some error)
    (hfailures : ∀ failure, Event.failure failure ∈ events → failure.isBinding = false) :
    error.isBinding = false := by
  obtain ⟨before, event, later, rfl, -, hevent⟩ := Table.firstFault?_eq_some_iff.mp hfault
  cases event with
  | token count token => exact Table.fault?_isBinding hevent
  | failure failure =>
      obtain rfl := Option.some.inj hevent
      apply hfailures
      simp

end CommandLine
