import CommandLine.Proofs.Parse.Occurrence

/-!
# Faults of tokens

Every way in which a token can be at fault is stated here about the tokens before it and the length
of the list that it stands in.  Nothing refers to the state of a parse.
-/

namespace CommandLine

/-! ### Faults of a token -/

namespace Fault

def guarded {α : Type} (fault : Option ArgumentError) (next : Except ArgumentError α) :
    Except ArgumentError α :=
  match fault with
  | some error => .error error
  | none => next

@[simp] theorem guarded_none {α : Type} (next : Except ArgumentError α) :
    guarded none next = next := rfl

@[simp] theorem guarded_some {α : Type} (error : ArgumentError)
    (next : Except ArgumentError α) : guarded (some error) next = .error error := rfl

theorem guarded_or {α : Type} (first second : Option ArgumentError)
    (next : Except ArgumentError α) :
    guarded (first <|> second) next = guarded first (guarded second next) := by
  cases first <;> rfl

theorem guarded_eq_ok_iff {α : Type} {fault : Option ArgumentError}
    {next : Except ArgumentError α} {a : α} :
    guarded fault next = .ok a ↔ fault = none ∧ next = .ok a := by
  cases fault <;> simp

theorem guarded_ok_eq_error_iff {α : Type} {fault : Option ArgumentError} {a : α}
    {error : ArgumentError} :
    guarded fault (.ok a) = .error error ↔ fault = some error := by
  cases fault <;> simp

def unknown? (t : Table) : Token → Option ArgumentError
  | .named written name _ =>
      if !t.named.any (·.answersTo name) then some (.unknown written) else none
  | .positional value => if t.positional.isNone then some (.unknown value) else none
  | .responseFile path => some (.unknown ("@" ++ path))

def obsolete? (d : Declaration) : Option ArgumentError :=
  match d.obsolescence with
  | none => none
  | some o => if o.fatal then some (.obsolete d.long o.message) else none

/-- The argument has to be alone in a list of `count` arguments. -/
def exclusive? (d : Declaration) (count : Nat) : Option ArgumentError :=
  if d.policy.exclusive && 1 < count then some (.exclusive d.long) else none

def duplicate? (d : Declaration) (before : List (Option String)) : Option ArgumentError :=
  if !d.policy.multiple && !before.isEmpty then some (.duplicate d.long) else none

def invalid? (d : Declaration) (value : Option String) : Option ArgumentError :=
  if value = some "" then some (.invalidValue d.long "" .empty)
  else
    match d.slot.read value with
    | .error cause => some (.invalidValue d.long (value.getD "") cause)
    | .ok _ => none

/-- An earlier value reads as the given one, or as an entry with the same name. -/
def recurs (slot : Slot) (item : Item) (earlier : Option String) : Bool :=
  match slot.read earlier with
  | .error _ => false
  | .ok other => other.clashes item

/-- A unique argument brought the same before. -/
def repeated? (d : Declaration) (before : List (Option String)) (value : Option String) :
    Option ArgumentError :=
  match d.slot.read value with
  | .error _ => none
  | .ok item =>
      if d.policy.unique && before.any (recurs d.slot item) then
        some (.duplicateValue d.long (Slot.repetition value item))
      else none

end Fault

/-- Arguments that stand for positional values may be obsolete or exclusive without effect. -/
def Token.isNamed : Token → Bool
  | .named _ _ _ => true
  | .responseFile _ | .positional _ => false

/-- The tokens of a named argument name it. -/
theorem Table.WellNamed.isNamed_of_resolve {t : Table} (hnamed : t.WellNamed) {d : Declaration}
    (hd : d ∈ t.named) {token : Token} {value : Option String}
    (hresolve : t.resolve token = some (d, value)) : token.isNamed = true := by
  cases token with
  | named written name text => rfl
  | positional text =>
      obtain ⟨owner, howner, hpair⟩ := Option.map_eq_some_iff.mp hresolve
      obtain ⟨rfl, -⟩ := Prod.mk.inj hpair
      have hpositional := hnamed.positional owner howner
      rw [hnamed.named owner hd] at hpositional
      contradiction
  | responseFile path => simp [Table.resolve] at hresolve

theorem Table.mem_named_of_resolve {t : Table} {token : Token} {d : Declaration}
    {value : Option String} (hnamed : token.isNamed = true)
    (hresolve : t.resolve token = some (d, value)) : d ∈ t.named := by
  cases token with
  | named written name text =>
      obtain ⟨found, hfind, htarget⟩ := Option.map_eq_some_iff.mp hresolve
      obtain ⟨rfl, -⟩ := Prod.mk.inj htarget
      exact mem_named_of_find hfind
  | positional text => contradiction
  | responseFile path => contradiction

/-- The first fault of a token in a list of `count` arguments, after the tokens before it. -/
def Table.fault? (t : Table) (count : Nat) (earlier : List Token) (token : Token) :
    Option ArgumentError :=
  Fault.unknown? t token <|>
    (t.resolve token).bind fun (d, value) =>
      let before := t.occurrences d earlier
      (if token.isNamed then Fault.obsolete? d <|> Fault.exclusive? d count else none) <|>
        Fault.duplicate? d before <|> Fault.invalid? d value <|> Fault.repeated? d before value

/-! ### Tokens without a fault -/

theorem Fault.unknown?_of_resolve {t : Table} {token : Token} {d : Declaration}
    {value : Option String} (hresolve : t.resolve token = some (d, value)) :
    Fault.unknown? t token = none := by
  cases token with
  | named written name text =>
      have hfind : t.find name ≠ none := by
        intro hnone
        simp [Table.resolve, hnone] at hresolve
      have hany : t.named.any (·.answersTo name) = true := by
        by_contra hnot
        apply hfind
        apply Table.find_eq_none_iff.mpr
        simpa using hnot
      simp [Fault.unknown?, hany]
  | positional text =>
      obtain ⟨found, hfound, -⟩ := Option.map_eq_some_iff.mp hresolve
      simp [Fault.unknown?, hfound]
  | responseFile path =>
      simp [Table.resolve] at hresolve

theorem Fault.unknown?_of_resolve_eq_none {t : Table} {token : Token}
    (hresolve : t.resolve token = none) :
    Fault.unknown? t token = some (.unknown (State.writtenToken token)) := by
  cases token with
  | named written name text =>
      have hfind : t.find name = none := by
        simpa [Table.resolve] using hresolve
      have hany : t.named.any (·.answersTo name) = false := by
        simpa using Table.find_eq_none_iff.mp hfind
      simp [Fault.unknown?, hany, State.writtenToken]
  | positional text =>
      have hnone : t.positional = none := by
        simpa [Table.resolve] using hresolve
      simp [Fault.unknown?, hnone, State.writtenToken]
  | responseFile path => rfl

/-- A token without a fault belongs to an argument that no fault keeps from taking it. -/
theorem Table.fault?_eq_none_iff {t : Table} {count : Nat} {earlier : List Token}
    {token : Token} :
    t.fault? count earlier token = none ↔
      ∃ d value, t.resolve token = some (d, value) ∧
        (token.isNamed = true →
          Fault.obsolete? d = none ∧ Fault.exclusive? d count = none) ∧
        Fault.duplicate? d (t.occurrences d earlier) = none ∧
        Fault.invalid? d value = none ∧
        Fault.repeated? d (t.occurrences d earlier) value = none := by
  unfold Table.fault?
  cases hresolve : t.resolve token with
  | none => simp [Fault.unknown?_of_resolve_eq_none hresolve]
  | some target =>
      obtain ⟨d, value⟩ := target
      simp only [Fault.unknown?_of_resolve hresolve, Option.bind_some,
        Option.orElse_eq_orElse, Option.orElse_eq_or, Option.none_or, Option.or_eq_none_iff,
        Option.some.injEq, Prod.mk.injEq]
      constructor
      · rintro ⟨hnamed, hrest⟩
        refine ⟨d, value, ⟨rfl, rfl⟩, ?_, hrest⟩
        intro htoken
        simpa [htoken] using hnamed
      · rintro ⟨found, text, ⟨rfl, rfl⟩, hnamed, hrest⟩
        refine ⟨?_, hrest⟩
        by_cases htoken : token.isNamed = true
        · simpa [htoken] using hnamed htoken
        · simp [htoken]

theorem Fault.read_of_invalid?_eq_none {d : Declaration} {value : Option String}
    (hvalid : Fault.invalid? d value = none) : ∃ item, d.slot.read value = .ok item := by
  unfold Fault.invalid? at hvalid
  split at hvalid
  · contradiction
  · cases hread : d.slot.read value with
    | error cause => simp [hread] at hvalid
    | ok item => exact ⟨item, rfl⟩

/-! ### Two kinds of errors -/

/-- The errors of the second phase, in which the destination is written. -/
def ArgumentError.isBinding : ArgumentError → Bool
  | .missing _ | .refused _ _ => true
  | _ => false

theorem ArgumentError.isBinding_of_guard {condition : Prop} [Decidable condition]
    {reported error : ArgumentError}
    (hfault : (if condition then some reported else none) = some error)
    (hreported : reported.isBinding = false) : error.isBinding = false := by
  split at hfault
  · exact Option.some.inj hfault ▸ hreported
  · contradiction

theorem Fault.unknown?_isBinding {t : Table} {token : Token} {error : ArgumentError}
    (hfault : Fault.unknown? t token = some error) : error.isBinding = false := by
  cases token with
  | named written name value => exact ArgumentError.isBinding_of_guard hfault rfl
  | positional value => exact ArgumentError.isBinding_of_guard hfault rfl
  | responseFile path => exact Option.some.inj hfault ▸ rfl

theorem Fault.obsolete?_isBinding {d : Declaration} {error : ArgumentError}
    (hfault : Fault.obsolete? d = some error) : error.isBinding = false := by
  unfold Fault.obsolete? at hfault
  split at hfault
  · contradiction
  · exact ArgumentError.isBinding_of_guard hfault rfl

theorem Fault.invalid?_isBinding {d : Declaration} {value : Option String}
    {error : ArgumentError} (hfault : Fault.invalid? d value = some error) :
    error.isBinding = false := by
  unfold Fault.invalid? at hfault
  split at hfault
  · exact Option.some.inj hfault ▸ rfl
  · split at hfault
    · exact Option.some.inj hfault ▸ rfl
    · contradiction

theorem Fault.repeated?_isBinding {d : Declaration} {before : List (Option String)}
    {value : Option String} {error : ArgumentError}
    (hfault : Fault.repeated? d before value = some error) : error.isBinding = false := by
  unfold Fault.repeated? at hfault
  split at hfault
  · contradiction
  · exact ArgumentError.isBinding_of_guard hfault rfl

/-- The faults of tokens belong to the first phase. -/
theorem Table.fault?_isBinding {t : Table} {count : Nat} {earlier : List Token}
    {token : Token} {error : ArgumentError}
    (hfault : t.fault? count earlier token = some error) : error.isBinding = false := by
  unfold Table.fault? at hfault
  simp only [Option.orElse_eq_orElse, Option.orElse_eq_or, Option.or_eq_some_iff,
    Option.bind_eq_some_iff] at hfault
  rcases hfault with hunknown | ⟨-, ⟨d, value⟩, -, hnamed | ⟨-, hrest⟩⟩
  · exact Fault.unknown?_isBinding hunknown
  · split at hnamed
    · rcases Option.or_eq_some_iff.mp hnamed with hobsolete | ⟨-, hexclusive⟩
      · exact Fault.obsolete?_isBinding hobsolete
      · exact ArgumentError.isBinding_of_guard hexclusive rfl
    · contradiction
  · rcases hrest with hduplicate | ⟨-, hinvalid | ⟨-, hrepeated⟩⟩
    · exact ArgumentError.isBinding_of_guard hduplicate rfl
    · exact Fault.invalid?_isBinding hinvalid
    · exact Fault.repeated?_isBinding hrepeated

end CommandLine
