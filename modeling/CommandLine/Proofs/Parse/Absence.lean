import CommandLine.Proofs.Parse.Bookkeeping
import CommandLine.Proofs.Parse.Destination

/-!
# Options without a value

Of the standard types a toggle is the one for which an option without a value means something.
What counts is the type of the elements of a slot.  The slots for one toggle are those of the kind
that is said to take no value, but an array or a collection of toggles takes none as well.
-/

namespace CommandLine

open Expansion (Expands)

/-! ### Types of elements -/

/-- The types that come with the library, and those that are made from them. -/
inductive ValueType.IsStandard : ValueType → Prop
  | toggle : IsStandard .toggle
  | text : IsStandard .text
  | path : IsStandard .path
  | char : IsStandard .char
  | integer (name : String) (t : IntegerType) : IsStandard (.integerNamed name t)
  | float (f : FloatFormat) : IsStandard (.float f)
  | address (kind : AddressKind) : IsStandard (.address kind)
  | enumeration (name : String) (alternatives : List ValueType.Alternative) :
      IsStandard (.enumeration name alternatives)
  | renamed (name : String) {t : ValueType} : IsStandard t → IsStandard (.renamed name t)
  | refined (name : String) {t : ValueType} (check : Value → Option String) :
      IsStandard t → IsStandard (.refined name t check)

/-- A toggle without a value is on, and every other type needs one. -/
theorem ValueType.IsStandard.absent_eq {t : ValueType} (hstandard : t.IsStandard) :
    t.absent = if t.isToggle then .ok (.toggle true) else .error .needsValue := by
  induction hstandard with
  | toggle => rfl
  | renamed name _ ih => exact ih
  | text | path | char | integer | float | address | enumeration | refined => rfl

namespace Slot

/-- The type of what a slot holds; the entries of a map have none. -/
def elementType? : Slot → Option ValueType
  | .single t | .optional t | .array t | .collection t _ => some t
  | .map _ => none

def holdsToggles (slot : Slot) : Bool :=
  slot.elementType?.any ValueType.isToggle

/-- The elements of the slot are of a type that comes with the library or is made from one. -/
def HasStandardElements (slot : Slot) : Prop :=
  ∀ t, slot.elementType? = some t → t.IsStandard

theorem kind_eq_boolean_iff {slot : Slot} :
    slot.kind = .boolean ↔ slot.holdsToggles = true ∧ slot.kind.isMultiValued = false := by
  cases slot with
  | single t =>
      cases ht : t.isToggle <;> simp [kind, holdsToggles, elementType?, ht, Kind.isMultiValued]
  | optional t =>
      cases ht : t.isToggle <;> simp [kind, holdsToggles, elementType?, ht, Kind.isMultiValued]
  | array t => simp [kind, Kind.isMultiValued]
  | collection t c => simp [kind, Kind.isMultiValued]
  | map c => simp [kind, holdsToggles, elementType?]

theorem read_of_elementType? {slot : Slot} {t : ValueType} (ht : slot.elementType? = some t)
    (value : Option String) : slot.read value = (t.convert value).map .value := by
  cases slot with
  | map c => contradiction
  | _ =>
      obtain rfl := Option.some.inj ht
      rfl

theorem read_none_of_holdsToggles {slot : Slot} (hstandard : slot.HasStandardElements)
    (htoggles : slot.holdsToggles = true) : slot.read none = .ok (.value (.toggle true)) := by
  obtain ⟨t, ht, htoggle⟩ := (Option.any_eq_true _ _).mp htoggles
  rw [read_of_elementType? ht, ValueType.convert, (hstandard t ht).absent_eq, if_pos htoggle]
  rfl

theorem read_none_of_not_holdsToggles {slot : Slot} (hstandard : slot.HasStandardElements)
    (htoggles : slot.holdsToggles = false) : slot.read none = .error .needsValue := by
  cases ht : slot.elementType? with
  | none =>
      cases slot with
      | map c => rfl
      | _ => contradiction
  | some t =>
      have htoggle : t.isToggle = false := by simpa [holdsToggles, ht] using htoggles
      rw [read_of_elementType? ht, ValueType.convert, (hstandard t ht).absent_eq, htoggle]
      rfl

theorem holdsToggles_of_reads_none {slot : Slot} (hstandard : slot.HasStandardElements)
    {item : Item} (hreads : slot.Reads none item) : slot.holdsToggles = true := by
  by_contra hnot
  have hread := read_none_of_not_holdsToggles hstandard (Bool.eq_false_iff.mpr hnot)
  rw [read_eq_ok_iff.mpr hreads] at hread
  contradiction

/-- The field of a toggle that was given without a value is on. -/
theorem Settles.eq_of_bare {slot : Slot} (hstandard : slot.HasStandardElements)
    (hkind : slot.kind = .boolean) {values : List (Option String)} (hbare : none ∈ values)
    {initial final : Contents} (hsettles : slot.Settles initial values final) :
    final = [.value (.toggle true)] := by
  have hread := read_none_of_holdsToggles hstandard (kind_eq_boolean_iff.mp hkind).1
  have hplace : ((values = [] ∧ final = initial) ∨
        ∃ value item, values = [value] ∧ slot.Reads value item ∧ final = [item]) →
      final = [.value (.toggle true)] := by
    rintro (⟨rfl, -⟩ | ⟨value, item, rfl, hitem, rfl⟩)
    · simp at hbare
    · obtain rfl := List.mem_singleton.mp hbare
      rw [hitem.unique (read_eq_ok_iff.mp hread)]
  cases slot with
  | single t => exact hplace hsettles
  | optional t => exact hplace hsettles
  | array t => contradiction
  | collection t c => contradiction
  | map c => contradiction

end Slot

/-! ### Occurrences without a value -/

theorem Table.isNamed_of_resolve_none {t : Table} {token : Token} {d : Declaration}
    (hresolve : t.resolve token = some (d, none)) : token.isNamed = true := by
  cases token with
  | named written name text => rfl
  | positional text => simp [Table.resolve] at hresolve
  | responseFile path => simp [Table.resolve] at hresolve

theorem Fault.invalid?_of_needsValue {d : Declaration} (hstandard : d.slot.HasStandardElements)
    (htoggles : d.slot.holdsToggles = false) :
    Fault.invalid? d none = some (.invalidValue d.long "" .needsValue) := by
  simp [Fault.invalid?, Slot.read_none_of_not_holdsToggles hstandard htoggles]

/-- What is wrong with an option before its value is looked at. -/
def Fault.misused? (d : Declaration) (count : Nat) (before : List (Option String)) :
    Option ArgumentError :=
  Fault.obsolete? d <|> Fault.exclusive? d count <|> Fault.duplicate? d before

theorem Table.fault?_of_needsValue {t : Table} {token : Token} {d : Declaration}
    (hresolve : t.resolve token = some (d, none)) (hstandard : d.slot.HasStandardElements)
    (htoggles : d.slot.holdsToggles = false) (count : Nat) (earlier : List Token) :
    t.fault? count earlier token =
      some ((Fault.misused? d count (t.occurrences d earlier)).getD
        (.invalidValue d.long "" .needsValue)) := by
  unfold Table.fault? Fault.misused?
  simp only [Fault.unknown?_of_resolve hresolve, hresolve, isNamed_of_resolve_none hresolve,
    Fault.invalid?_of_needsValue hstandard htoggles, Option.bind_some, if_true]
  cases Fault.obsolete? d <;> cases Fault.exclusive? d count <;>
    cases Fault.duplicate? d (t.occurrences d earlier) <;> rfl

namespace Parser

theorem exists_token_of_bare {p : Parser} (hcoherent : p.table.Coherent) {flat : List String}
    {d : Declaration} (hd : d ∈ p.table.all) (hbare : none ∈ p.values flat d) :
    ∃ token, p.table.resolve token = some (d, none) := by
  obtain ⟨token, -, owner, hresolve, hlong⟩ := Table.mem_occurrences_iff.mp hbare
  obtain rfl := hcoherent.eq_of_long (Table.mem_all_of_resolve hresolve) hd hlong
  exact ⟨token, hresolve⟩

/-- Where a parse reaches an option without a value that needs one, it fails there. -/
theorem parse_needsValue {p : Parser} (hcoherent : p.table.Coherent) {files : FileSystem}
    {arguments : List String} {taken : List Event} {s : State}
    (hpasses : p.Passes files arguments taken s) {count : Nat} {token : Token}
    (hnext : taken ++ [.token count token] <+: Expansion.events (p.source files) arguments)
    {d : Declaration} (hresolve : p.table.resolve token = some (d, none))
    (hstandard : d.slot.HasStandardElements) (htoggles : d.slot.holdsToggles = false)
    (destination : Record) :
    p.parse files arguments destination =
      (destination, .error
        ((Fault.misused? d count (p.table.occurrences d (Event.tokens taken))).getD
          (.invalidValue d.long "" .needsValue))) := by
  obtain ⟨later, hevents⟩ := hnext
  have htake := hpasses.2
  rw [← State.after_nil, State.takeAll_after hcoherent, Fault.guarded_eq_ok_iff] at htake
  apply parse_of_takeArguments_error
  rw [takeArguments_eq hcoherent, ← hevents, List.append_assoc, Table.firstFault?_append, htake.1,
    List.nil_append, List.singleton_append, Table.firstFault?_cons]
  simp [Event.fault?, Table.fault?_of_needsValue hresolve hstandard htoggles]

/-- In a parse that succeeds, options without a value belong to toggles and switch them on; a toggle
is of the kind of its own unless it is an element of an array or a collection.  An option without a
value that needs one makes a parse fail that reaches it. -/
theorem parse_bare_options {p : Parser} (hbuilt : p.table.Built)
    (hstandard : ∀ d ∈ p.table.all, d.slot.HasStandardElements) (files : FileSystem)
    (arguments : List String) (destination : Record) :
    (∀ final outcome, p.parse files arguments destination = (final, .ok outcome) →
      ∃ flat, Expands (p.source files) arguments flat ∧
        (∀ d ∈ p.table.all, none ∈ p.values flat d →
          d ∈ p.table.named ∧ d.slot.holdsToggles = true ∧
            d.slot.Reads none (.value (.toggle true))) ∧
        ((p.table.all.map Declaration.field).Nodup → ∀ d ∈ p.table.all, d.kind = .boolean →
          none ∈ p.values flat d → final d.field = [.value (.toggle true)]) ∧
        ((∀ d ∈ p.table.all, none ∈ p.values flat d → d.kind = .boolean) ↔
          ∀ d ∈ p.table.all, d.kind.isMultiValued = true → d.slot.holdsToggles = true →
            none ∉ p.values flat d)) ∧
      ∀ taken s count token d, p.Passes files arguments taken s →
        taken ++ [.token count token] <+: Expansion.events (p.source files) arguments →
          p.table.resolve token = some (d, none) → d.slot.holdsToggles = false →
            p.parse files arguments destination =
              (destination, .error
                ((Fault.misused? d count (p.table.occurrences d (Event.tokens taken))).getD
                  (.invalidValue d.long "" .needsValue))) := by
  have hcoherent := hbuilt.coherent
  constructor
  · intro final outcome hparse
    obtain ⟨s, htake, -⟩ := parse_ok hparse
    obtain ⟨flat, hflat, -, hreadable⟩ := takeArguments_held hbuilt htake
    have htoggles : ∀ d ∈ p.table.all, none ∈ p.values flat d → d.slot.holdsToggles = true := by
      intro d hd hbare
      obtain ⟨item, hitem⟩ := (hreadable d hd).reads none hbare
      exact Slot.holdsToggles_of_reads_none (hstandard d hd) (Slot.read_eq_ok_iff.mp hitem)
    refine ⟨flat, hflat, ?_, ?_, ?_⟩
    · intro d hd hbare
      obtain ⟨token, hresolve⟩ := exists_token_of_bare hcoherent hd hbare
      have hnamed := Table.isNamed_of_resolve_none hresolve
      have hread := Slot.read_none_of_holdsToggles (hstandard d hd) (htoggles d hd hbare)
      exact ⟨Table.mem_named_of_resolve hnamed hresolve, htoggles d hd hbare,
        Slot.read_eq_ok_iff.mp hread⟩
    · intro hfields d hd hkind hbare
      have hsettles := ((parse_settles_fields hbuilt hfields hparse).2 flat hflat).1 d hd
      exact Slot.Settles.eq_of_bare (hstandard d hd) hkind hbare ((hsettles _).mpr rfl)
    · constructor
      · intro hboolean d hd hmultiple _ hbare
        rw [hboolean d hd hbare] at hmultiple
        contradiction
      · intro hnone d hd hbare
        apply Slot.kind_eq_boolean_iff.mpr
        refine ⟨htoggles d hd hbare, ?_⟩
        by_contra hmultiple
        exact hnone d hd (eq_true_of_ne_false hmultiple) (htoggles d hd hbare) hbare
  · intro taken s count token d hpasses hnext hresolve hneeds
    have hd := Table.mem_all_of_resolve hresolve
    exact parse_needsValue hcoherent hpasses hnext hresolve (hstandard d hd) hneeds destination

/-- The command line of a program with switches of its own and a number of others. -/
def switcher : Parser where
  table := .ofDraftsD
    [⟨"verbose", "verbose", .optional (.renamed "Flag" .toggle), [.short "v"]⟩,
      ⟨"flags", "flags", .collection .toggle .list, [.flag .multiple]⟩,
      ⟨"level", "level", .single (.integer ⟨false, 8⟩), []⟩]

theorem switcher_built : switcher.table.Built := by
  dsimp only [switcher]
  exact Table.ofDraftsD_built _

theorem switcher_hasStandardElements :
    ∀ d ∈ switcher.table.all, d.slot.HasStandardElements := by
  intro d hd t ht
  obtain ⟨draft, hdraft, rfl⟩ := Table.exists_draft_of_mem hd
  simp only [List.mem_cons, List.not_mem_nil, or_false] at hdraft
  rcases hdraft with rfl | rfl | rfl
  · obtain rfl := Option.some.inj ht
    exact .renamed _ .toggle
  · obtain rfl := Option.some.inj ht
    exact .toggle
  · obtain rfl := Option.some.inj ht
    exact .integer _ _

/-- A toggle without a value is on, by itself and among the flags, but a level needs one. -/
theorem switcher_switches_on :
    (∃ flat, Expands (switcher.source (.empty "/")) ["-flags-", "-v", "-flags"] flat ∧
      (∃ verbose ∈ switcher.table.all, verbose.kind = .boolean ∧
        none ∈ switcher.values flat verbose ∧ verbose.slot.Reads none (.value (.toggle true)) ∧
          (switcher.parse (.empty "/") ["-flags-", "-v", "-flags"] .empty).1 verbose.field =
            [.value (.toggle true)]) ∧
      ∃ flags ∈ switcher.table.all, flags.kind = .collection ∧
        none ∈ switcher.values flat flags ∧ flags.slot.Reads none (.value (.toggle true))) ∧
      ∀ destination,
        switcher.parse (.empty "/") ["-v", "-level", "-v"] destination =
          (destination, .error (.invalidValue "level" "" .needsValue)) := by
  constructor
  · have hparse : (switcher.parse (.empty "/") ["-flags-", "-v", "-flags"] .empty).2 =
        .ok ⟨false, []⟩ := by decide +kernel
    have hoptions := parse_bare_options switcher_built switcher_hasStandardElements (.empty "/")
      ["-flags-", "-v", "-flags"] .empty
    obtain ⟨flat, hflat, hon, hfield, -⟩ := hoptions.1 _ _ (Prod.ext rfl hparse)
    obtain rfl : flat = ["-flags-", "-v", "-flags"] := hflat.unique (.of_plain (by decide))
    obtain ⟨verbose, hverbose, hboolean, hbare⟩ : ∃ d ∈ switcher.table.all, d.kind = .boolean ∧
        none ∈ switcher.values ["-flags-", "-v", "-flags"] d := by
      decide +kernel
    obtain ⟨flags, hflags, hcollection, hother⟩ : ∃ d ∈ switcher.table.all,
        d.kind = .collection ∧ none ∈ switcher.values ["-flags-", "-v", "-flags"] d := by
      decide +kernel
    refine ⟨_, hflat, ⟨verbose, hverbose, hboolean, hbare, (hon verbose hverbose hbare).2.2, ?_⟩,
      flags, hflags, hcollection, hother, (hon flags hflags hother).2.2⟩
    exact hfield (by decide +kernel) verbose hverbose hboolean hbare
  · intro destination
    have hevents : Expansion.events (switcher.source (.empty "/")) ["-v", "-level", "-v"] =
        [.token 3 (.named "-v" "v" none), .token 3 (.named "-level" "level" none),
          .token 3 (.named "-v" "v" none)] := by
      rw [Expansion.events_of_plain (by decide)]
      decide
    have hnone : switcher.table.firstFault? [] [.token 3 (.named "-v" "v" none)] = none := by
      decide +kernel
    have hpasses : switcher.Passes (.empty "/") ["-v", "-level", "-v"]
        [.token 3 (.named "-v" "v" none)]
          (.after switcher.table [.named "-v" "v" none]) := by
      constructor
      · rw [hevents]
        exact List.prefix_append _ _
      · rw [← State.after_nil, State.takeAll_after switcher_built.coherent, hnone]
        rfl
    have hfound : (switcher.table.resolve (.named "-level" "level" none)).map (fun target =>
        (target.1.long, target.2, target.1.slot.holdsToggles,
          Fault.misused? target.1 3 (switcher.table.occurrences target.1 [.named "-v" "v" none]))) =
          some ("level", none, false, none) := by
      decide +kernel
    obtain ⟨⟨level, value⟩, hresolve, hfacts⟩ := Option.map_eq_some_iff.mp hfound
    simp only [Prod.mk.injEq] at hfacts
    obtain ⟨hlong, rfl, hneeds, hmisused⟩ := hfacts
    have hoptions := parse_bare_options switcher_built switcher_hasStandardElements (.empty "/")
      ["-v", "-level", "-v"] destination
    have hnext : [Event.token 3 (.named "-v" "v" none)] ++ [.token 3 (.named "-level" "level" none)]
        <+: Expansion.events (switcher.source (.empty "/")) ["-v", "-level", "-v"] := by
      rw [hevents]
      exact List.prefix_append _ _
    have hfails := hoptions.2 _ _ _ _ level hpasses hnext hresolve hneeds
    have htokens : Event.tokens [.token 3 (.named "-v" "v" none)] = [.named "-v" "v" none] := rfl
    rwa [htokens, hmisused, hlong] at hfails

/-- So a collection takes an option without a value. -/
theorem switcher_takes_bare_flags :
    switcher.table.Built ∧ (∀ d ∈ switcher.table.all, d.slot.HasStandardElements) ∧
      switcher.parse (.empty "/") ["-flags"] .empty =
          ((switcher.parse (.empty "/") ["-flags"] .empty).1, .ok ⟨false, []⟩) ∧
        (switcher.parse (.empty "/") ["-flags"] .empty).1 "flags" = [.value (.toggle true)] ∧
          ∃ flags ∈ switcher.table.named, flags.kind = .collection ∧
            switcher.values ["-flags"] flags = [none] := by
  have hparse : (switcher.parse (.empty "/") ["-flags"] .empty).2 = .ok ⟨false, []⟩ := by
    decide +kernel
  exact ⟨switcher_built, switcher_hasStandardElements, Prod.ext rfl hparse, by decide +kernel,
    by decide +kernel⟩

end Parser

end CommandLine
