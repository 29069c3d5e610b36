import CommandLine.Proofs.Schema.Fields

/-!
# Definitions and tables agree

A definition that is accepted has drafts that are apart and whose names are in order, so that a table
can only refuse them for the flags of a slot that holds one value, which the definition does not
know.  A definition that is refused for its names has drafts that a table refuses as well, although
the definition looks at every name before it compares any two.
-/

namespace CommandLine.Schema

variable {reader : Reader}

/-! ### Labels of fields -/

def ArgumentField.label (a : ArgumentField) : Label :=
  ⟨a.long, a.short, a.isPositional⟩

/-- The field is accepted and declares the argument. -/
def Member.Declares (reader : Reader) (m : Member) (a : ArgumentField) : Prop :=
  argumentOf reader m = .ok (some a)

def Member.isAnnotated (m : Member) : Bool :=
  m.attributes ≠ []

theorem Member.Declares.accepted (hsound : reader.Sound) {m : Member} {a : ArgumentField}
    (hdeclares : m.Declares reader a) : m.Accepted :=
  (argumentOf_eq_some hsound hdeclares).1

theorem Member.Declares.draft_eq (hsound : reader.Sound) {m : Member} {a : ArgumentField}
    (hdeclares : m.Declares reader a) (slots : String → Slot) :
    a.draft (slots a.field) = m.draft slots :=
  (argumentOf_eq_some hsound hdeclares).2 slots

theorem Member.Declares.label_eq (hsound : reader.Sound) {m : Member} {a : ArgumentField}
    (hdeclares : m.Declares reader a) : a.label = m.label := by
  have hdraft := hdeclares.draft_eq hsound fun _ => .single .text
  have hlong : a.long = m.longName := congrArg Draft.long hdraft
  have hclauses : a.clauses = (m.draft fun _ => .single .text).clauses :=
    congrArg Draft.clauses hdraft
  have hshort : a.short = m.shortName? := by
    rw [← m.findSome?_short?_draft, ← hclauses]
    rfl
  have hpositional : a.isPositional = m.isDefault := by
    rw [← m.contains_positional_draft, ← hclauses]
    rfl
  unfold ArgumentField.label Member.label
  rw [hlong, hshort, hpositional]

theorem map_label_of_declares (hsound : reader.Sound) {members : List Member}
    {fields : List ArgumentField}
    (hdeclares : List.Forall₂ (Member.Declares reader) members fields) :
    fields.map ArgumentField.label = members.map Member.label := by
  apply Eq.symm
  apply map_eq_map_of_forall₂
  exact hdeclares.imp fun _ _ ha => (ha.label_eq hsound).symm

/-! ### Conflicts between fields -/

theorem conflict_eq_none_iff {earlier : List ArgumentField} {a : ArgumentField} :
    conflict earlier a = none ↔ a.label.Joins (earlier.map ArgumentField.label) := by
  have hlong : earlier.any (·.long == a.long) = false ↔
      a.label.long ∉ (earlier.map ArgumentField.label).map Label.long := by
    simp [ArgumentField.label]
  have hshort : (a.short.filter fun short => earlier.any (·.short == some short)) = none ↔
      ∀ name, a.label.short = some name →
        name ∉ (earlier.map ArgumentField.label).filterMap Label.short := by
    simp [ArgumentField.label]
  have hpositional : (a.isPositional && earlier.any ArgumentField.isPositional) = false ↔
      (a.label.isPositional = true →
        (earlier.map ArgumentField.label).filter Label.isPositional = []) := by
    simp [ArgumentField.label]
  have hnone : conflict earlier a = none ↔
      earlier.any (·.long == a.long) = false ∧
        (a.short.filter fun short => earlier.any (·.short == some short)) = none ∧
          (a.isPositional && earlier.any ArgumentField.isPositional) = false := by
    unfold conflict
    split
    · next hsame => simp [hsame]
    · next hsame =>
        split
        · next hshared => simp [hshared]
        · next hshared => simp [hsame, hshared]
  rw [hnone, hlong, hshort, hpositional]
  constructor
  · rintro ⟨hlong, hshort, hpositional⟩
    exact ⟨hlong, hshort, hpositional⟩
  · intro hjoins
    exact ⟨hjoins.long, hjoins.short, hjoins.positional⟩

theorem checkConflicts_eq_ok_iff {earlier fields : List ArgumentField}
    (hapart : Label.Apart (earlier.map ArgumentField.label)) :
    checkConflicts earlier fields = .ok () ↔
      Label.Apart ((earlier ++ fields).map ArgumentField.label) := by
  induction fields generalizing earlier with
  | nil =>
      rw [List.append_nil]
      exact iff_of_true rfl hapart
  | cons a rest ih =>
      have hnext : conflict earlier a = none ↔
          Label.Apart ((earlier ++ [a]).map ArgumentField.label) := by
        rw [conflict_eq_none_iff, List.map_append, List.map_singleton,
          Label.apart_append_singleton_iff, and_iff_left hapart]
      unfold checkConflicts
      rw [List.append_cons earlier a rest]
      cases hconflict : conflict earlier a with
      | none => exact ih (hnext.mp hconflict)
      | some error =>
          refine iff_of_false (by simp) ?_
          intro hall
          rw [List.map_append] at hall
          rw [hnext.mpr hall.of_append] at hconflict
          contradiction

theorem checkConflicts_nil_eq_ok_iff {fields : List ArgumentField} :
    checkConflicts [] fields = .ok () ↔ Label.Apart (fields.map ArgumentField.label) := by
  have hempty : Label.Apart (([] : List ArgumentField).map ArgumentField.label) := Label.apart_nil
  exact checkConflicts_eq_ok_iff hempty

/-! ### The fields of a definition -/

theorem mapM_argumentOf_eq_ok (hsound : reader.Sound) {members : List Member}
    {found : List (Option ArgumentField)}
    (hfound : members.mapM (argumentOf reader) = .ok found) :
    List.Forall₂ (Member.Declares reader) (members.filter Member.isAnnotated)
      (found.filterMap id) := by
  induction members generalizing found with
  | nil =>
      obtain rfl := Except.ok.inj hfound
      exact .nil
  | cons m members ih =>
      rw [List.mapM_cons] at hfound
      obtain ⟨first, hfirst, hrest⟩ := bind_eq_ok_iff.mp hfound
      obtain ⟨others, hothers, hdone⟩ := bind_eq_ok_iff.mp hrest
      obtain rfl := Except.ok.inj hdone
      cases first with
      | none =>
          have hbare : m.isAnnotated = false := by
            simp [Member.isAnnotated, argumentOf_eq_none hfirst]
          rw [List.filter_cons_of_neg (by simp [hbare])]
          rw [List.filterMap_cons_none rfl]
          exact ih hothers
      | some a =>
          have hannotated : m.isAnnotated = true := by
            simpa [Member.isAnnotated] using (argumentOf_eq_some hsound hfirst).1.annotated
          rw [List.filter_cons_of_pos hannotated]
          exact .cons hfirst (ih hothers)

theorem mapM_argumentOf_eq_error {members : List Member} {error : Error}
    (herror : members.mapM (argumentOf reader) = .error error) :
    ∃ m ∈ members, argumentOf reader m = .error error := by
  induction members with
  | nil => contradiction
  | cons m members ih =>
      rw [List.mapM_cons, bind_eq_error_iff] at herror
      rcases herror with hfirst | ⟨first, -, hrest⟩
      · exact ⟨m, List.mem_cons_self, hfirst⟩
      · rcases bind_eq_error_iff.mp hrest with hothers | ⟨others, -, hdone⟩
        · obtain ⟨later, hlater, hfails⟩ := ih hothers
          exact ⟨later, List.mem_cons_of_mem m hlater, hfails⟩
        · contradiction

theorem argumentsOf_eq_ok (hsound : reader.Sound) {members : List Member}
    {fields : List ArgumentField} (harguments : argumentsOf reader members = .ok fields) :
    List.Forall₂ (Member.Declares reader) (members.filter Member.isAnnotated) fields ∧
      Label.Apart ((members.filter Member.isAnnotated).map Member.label) := by
  unfold argumentsOf at harguments
  obtain ⟨found, hfound, hrest⟩ := bind_eq_ok_iff.mp harguments
  obtain ⟨⟨⟩, hchecked, hdone⟩ := bind_eq_ok_iff.mp hrest
  obtain rfl := Except.ok.inj hdone
  have hdeclares := mapM_argumentOf_eq_ok hsound hfound
  refine ⟨hdeclares, ?_⟩
  rw [← map_label_of_declares hsound hdeclares]
  exact checkConflicts_nil_eq_ok_iff.mp hchecked

theorem argumentsOf_eq_error (hsound : reader.Sound) {members : List Member} {error : Error}
    (harguments : argumentsOf reader members = .error error) (hnaming : error.isNaming = true) :
    (∃ m ∈ members.filter Member.isAnnotated, ¬ m.WellNamed) ∨
      ¬ Label.Apart ((members.filter Member.isAnnotated).map Member.label) := by
  unfold argumentsOf at harguments
  rcases bind_eq_error_iff.mp harguments with hfound | ⟨found, hfound, hrest⟩
  · left
    obtain ⟨m, hm, hfails⟩ := mapM_argumentOf_eq_error hfound
    obtain ⟨hannotated, hnamed⟩ := argumentOf_eq_error hsound hfails hnaming
    exact ⟨m, List.mem_filter.mpr ⟨hm, by simpa [Member.isAnnotated] using hannotated⟩, hnamed⟩
  · right
    intro hapart
    rw [← map_label_of_declares hsound (mapM_argumentOf_eq_ok hsound hfound)] at hapart
    rw [bind_eq_error_iff, checkConflicts_nil_eq_ok_iff.mpr hapart] at hrest
    rcases hrest with hfails | ⟨_, -, hend⟩
    · contradiction
    · contradiction

/-! ### Definitions -/

namespace Definition

/-- The fields that declare arguments. -/
def annotated (d : Definition) : List Member :=
  d.members.filter Member.isAnnotated

/-- The drafts that are written in a definition, whether or not it is accepted. -/
def drafts (d : Definition) (slots : String → Slot) : List Draft :=
  d.annotated.map fun m => m.draft slots

/-- The table has the arguments that are written in the definition and no others. -/
structure Fills (d : Definition) (slots : String → Slot) (t : Table) : Prop where
  named : List.Forall₂ (Member.Reflects slots) (d.annotated.filter (!·.isDefault)) t.named
  positional :
    List.Forall₂ (Member.Reflects slots) (d.annotated.filter Member.isDefault) t.positional.toList

theorem map_label_drafts (d : Definition) (slots : String → Slot) :
    (d.drafts slots).map Draft.label = d.annotated.map Member.label := by
  unfold drafts
  rw [List.map_map]
  exact List.map_congr_left fun m _ => m.label_draft slots

end Definition

theorem argumentsWith_eq_ok (hsound : reader.Sound) {d : Definition}
    {fields : List ArgumentField} (harguments : argumentsWith reader d = .ok fields) :
    List.Forall₂ (Member.Declares reader) d.annotated fields ∧
      Label.Apart (d.annotated.map Member.label) := by
  unfold argumentsWith at harguments
  split at harguments
  · contradiction
  · split at harguments
    · exact argumentsOf_eq_ok hsound harguments
    all_goals contradiction

theorem argumentsWith_eq_error (hsound : reader.Sound) {d : Definition} {error : Error}
    (harguments : argumentsWith reader d = .error error) (hnaming : error.isNaming = true) :
    (∃ m ∈ d.annotated, ¬ m.WellNamed) ∨ ¬ Label.Apart (d.annotated.map Member.label) := by
  unfold argumentsWith at harguments
  split at harguments
  · obtain rfl := Except.error.inj harguments
    contradiction
  · split at harguments
    · exact argumentsOf_eq_error hsound harguments hnaming
    all_goals
      obtain rfl := Except.error.inj harguments
      contradiction

/-! ### Tables from definitions -/

/-- The drafts of declared arguments, in their order. -/
def draftsOf (slots : String → Slot) (fields : List ArgumentField) : List Draft :=
  fields.map fun a => a.draft (slots a.field)

theorem draftsOf_eq_drafts (hsound : reader.Sound) {d : Definition}
    {fields : List ArgumentField} (slots : String → Slot)
    (hdeclares : List.Forall₂ (Member.Declares reader) d.annotated fields) :
    draftsOf slots fields = d.drafts slots := by
  apply Eq.symm
  apply map_eq_map_of_forall₂
  exact hdeclares.imp fun _ _ ha => (ha.draft_eq hsound slots).symm

theorem Member.WellNamed.error?_stated {m : Member} (hnamed : m.WellNamed)
    (slots : String → Slot) : (m.stated slots).error? = (m.stated slots).policyError? := by
  apply Declaration.error?_of_names
  · exact nameError?_eq_none_iff.mpr hnamed.long
  · rw [Option.bind_eq_none_iff]
    exact fun name hname => nameError?_eq_none_iff.mpr (hnamed.short name hname)

/-- Only the flags of an accepted field may not suit its slot. -/
theorem Member.Declares.declaration_eq_error (hsound : reader.Sound) {m : Member}
    {a : ArgumentField} (hdeclares : m.Declares reader a) {slots : String → Slot}
    {error : ConfigurationError}
    (herror : (a.draft (slots a.field)).declaration = .error error) :
    error = .uniqueWithoutMultiple a.long ∨
      error = .multipleOnSingleValue a.long (slots a.field).kind := by
  have hstated : (a.draft (slots a.field)).stated = m.stated slots := by
    rw [hdeclares.draft_eq hsound slots, m.stated_draft slots]
  rw [Draft.declaration_eq_error_iff, hstated, (hdeclares.accepted hsound).names.error?_stated slots,
    ← hstated] at herror
  have hflags := Declaration.policyError?_eq_some herror
  rw [Draft.stated_eq] at hflags
  exact hflags

/-- Where a slot holds one value, nothing is said about how often it may be given. -/
def Member.Suits (m : Member) (slots : String → Slot) : Prop :=
  (slots (m.name.getD "")).kind.isMultiValued = true ∨
    ⟨"unique", none⟩ ∉ m.settings ∧ ⟨"multiple", none⟩ ∉ m.settings

theorem Member.Accepted.exists_declares_iff {m : Member} (haccepted : m.Accepted)
    {slots : String → Slot} : (∃ e, (m.draft slots).Declares e) ↔ m.Suits slots := by
  have hunique : isSet m.settings "unique" = true ↔ ⟨"unique", none⟩ ∈ m.settings :=
    haccepted.isSet_iff_mem (by simp [argumentKeys])
  have hmultiple : isSet m.settings "multiple" = true ↔ ⟨"multiple", none⟩ ∈ m.settings :=
    haccepted.isSet_iff_mem (by simp [argumentKeys])
  have hpolicy : (m.stated slots).policyError? = none ↔ m.Suits slots := by
    rw [Declaration.policyError?_eq_none_iff, Suits, ← hunique, ← hmultiple,
      Bool.not_eq_true, Bool.not_eq_true]
    rfl
  unfold Draft.Declares
  simp only [Draft.declaration_eq_ok_iff, m.stated_draft slots,
    haccepted.names.error?_stated slots, hpolicy, exists_and_left, exists_eq', and_true]

theorem Member.wellNamed_of_declares {m : Member} {slots : String → Slot} {e : Declaration}
    (hdeclares : (m.draft slots).Declares e) : m.WellNamed := by
  obtain ⟨herror, -⟩ := Draft.declaration_eq_ok_iff.mp hdeclares
  rw [m.stated_draft slots, Declaration.error?_eq_none_iff] at herror
  obtain ⟨-, hlong, hshort, -⟩ := herror
  constructor
  · exact nameError?_eq_none_iff.mp hlong
  · intro name hname
    exact nameError?_eq_none_iff.mp (Option.bind_eq_none_iff.mp hshort name hname)

theorem Definition.eq_map_of_declares {d : Definition} {slots : String → Slot}
    {ds : List Declaration} (hdeclares : List.Forall₂ Draft.Declares (d.drafts slots) ds) :
    ds = d.annotated.map fun m => (m.stated slots).completed := by
  have hmap : (d.drafts slots).map (fun draft => draft.stated.completed) = ds.map id := by
    apply map_eq_map_of_forall₂
    exact hdeclares.imp fun _ _ hd => (Draft.declaration_eq_ok_iff.mp hd).2
  rw [List.map_id] at hmap
  rw [← hmap]
  unfold drafts
  rw [List.map_map]
  exact List.map_congr_left fun m _ => congrArg Declaration.completed (m.stated_draft slots)

theorem Definition.fills_ofDeclarations {d : Definition} {slots : String → Slot}
    {ds : List Declaration} (haccepted : ∀ m ∈ d.annotated, m.Accepted)
    (hdeclares : List.Forall₂ Draft.Declares (d.drafts slots) ds)
    (hapart : Label.Apart (ds.map Declaration.label)) :
    d.Fills slots (Table.ofDeclarations ds) := by
  have hds := eq_map_of_declares hdeclares
  -- Whether an argument is positional is decided by the field alone, so that both parts are alike.
  have hpart : ∀ p : Bool → Bool,
      List.Forall₂ (Member.Reflects slots) (d.annotated.filter fun m => p m.isDefault)
        (ds.filter fun e => p e.isPositional) := by
    intro p
    have hsame : ((fun e : Declaration => p e.isPositional) ∘
        fun m : Member => (m.stated slots).completed) = fun m => p m.isDefault := by
      funext m
      rw [Function.comp_apply, Declaration.completed_eq]
      rfl
    rw [hds, List.filter_map, hsame, List.forall₂_map_right_iff, List.forall₂_same]
    intro m hm
    exact (haccepted m (List.mem_of_mem_filter hm)).reflects slots
  constructor
  · exact hpart not
  · rw [Table.toList_positional_ofDeclarations hapart]
    exact hpart id

/-- What a table finds out about the names that are written in a definition. -/
theorem Definition.named_apart_of_ofDrafts {d : Definition} {slots : String → Slot} {t : Table}
    (htable : Table.ofDrafts (d.drafts slots) = .ok t) :
    (∀ m ∈ d.annotated, m.WellNamed) ∧ Label.Apart (d.annotated.map Member.label) := by
  obtain ⟨ds, hds, hlabels, rfl⟩ := Table.ofDrafts_eq_ok_iff.mp htable
  rw [Draft.map_label_of_declares hds, d.map_label_drafts slots] at hlabels
  refine ⟨?_, hlabels⟩
  unfold drafts at hds
  rw [List.forall₂_map_left_iff] at hds
  exact forall_of_forall₂ hds fun _ _ hd => Member.wellNamed_of_declares hd

/-- Whatever the slots of the fields are, a definition that is accepted makes a table if and only if
the flags of each field suit its slot, and the table has what is written at the fields.  If the
definition is refused for its names, then its drafts make no table either. -/
theorem arguments_agree_with_table (hsound : reader.Sound) (d : Definition)
    (slots : String → Slot) :
    (∀ fields, argumentsWith reader d = .ok fields →
      draftsOf slots fields = d.drafts slots ∧
        ((∃ t, Table.ofDrafts (draftsOf slots fields) = .ok t) ↔
          ∀ m ∈ d.annotated, m.Suits slots) ∧
        (∀ error, Table.ofDrafts (draftsOf slots fields) = .error error →
          ∃ a ∈ fields, error = .uniqueWithoutMultiple a.long ∨
            error = .multipleOnSingleValue a.long (slots a.field).kind) ∧
        ∀ t, Table.ofDrafts (draftsOf slots fields) = .ok t → d.Fills slots t) ∧
    ∀ error, argumentsWith reader d = .error error → error.isNaming = true →
      ∃ cause, Table.ofDrafts (d.drafts slots) = .error cause := by
  constructor
  · intro fields harguments
    obtain ⟨hdeclares, hapart⟩ := argumentsWith_eq_ok hsound harguments
    have hdrafts := draftsOf_eq_drafts hsound slots hdeclares
    have haccepted : ∀ m ∈ d.annotated, m.Accepted :=
      forall_of_forall₂ hdeclares fun _ _ ha => ha.accepted hsound
    have hdeclared : ∀ a ∈ fields, ∃ m : Member, m.Declares reader a := by
      have hflip : List.Forall₂ (flip (Member.Declares reader)) fields d.annotated :=
        hdeclares.flip
      exact forall_of_forall₂ hflip fun a m ha => ⟨m, ha⟩
    rw [← d.map_label_drafts slots, ← hdrafts] at hapart
    refine ⟨hdrafts, ?_, ?_, ?_⟩
    · rw [Table.exists_ofDrafts_iff hapart, hdrafts]
      unfold Definition.drafts
      rw [List.forall_mem_map]
      exact forall₂_congr fun m hm => (haccepted m hm).exists_declares_iff
    · intro error herror
      obtain ⟨draft, hdraft, hfails⟩ := Table.ofDrafts_eq_error_of_apart hapart herror
      obtain ⟨a, ha, rfl⟩ := List.mem_map.mp hdraft
      obtain ⟨m, hm⟩ := hdeclared a ha
      exact ⟨a, ha, hm.declaration_eq_error hsound hfails⟩
    · intro t ht
      rw [hdrafts] at ht
      obtain ⟨ds, hds, hlabels, rfl⟩ := Table.ofDrafts_eq_ok_iff.mp ht
      exact Definition.fills_ofDeclarations haccepted hds hlabels
  · intro error harguments hnaming
    cases htable : Table.ofDrafts (d.drafts slots) with
    | error cause => exact ⟨cause, rfl⟩
    | ok t =>
        obtain ⟨hwellNamed, hlabels⟩ := Definition.named_apart_of_ofDrafts htable
        rcases argumentsWith_eq_error hsound harguments hnaming with ⟨m, hm, hnamed⟩ | hapart
        · exact absurd (hwellNamed m hm) hnamed
        · exact absurd hlabels hapart

/-- The last field is no argument. -/
def copying : Definition where
  shape := .record
  name := "Copying"
  members :=
    [{ name := some "sources", attributes := [[⟨"default", none⟩, ⟨"unique", none⟩]] },
      { name := some "force", attributes := [[⟨"short", some "f"⟩], [⟨"obsolete", some "always on"⟩]] },
      { name := some "copied" }]

/-- Two arguments have the same name, one of them only because its field has it. -/
def copyingTwice : Definition where
  shape := .record
  name := "CopyingTwice"
  members := { name := some "again", attributes := [[⟨"long", some "force"⟩]] } :: copying.members

def copyingSlots (field : String) : Slot :=
  if field = "sources" then .collection .path .list else .single .toggle

theorem copying_agrees_with_table :
    Reader.Sound checkedSettings ∧
      (∃ t, Table.ofDrafts (copying.drafts copyingSlots) = .ok t ∧
        copying.Fills copyingSlots t) ∧
      (∃ fields, arguments copying = .ok fields ∧ ∃ a ∈ fields,
        Table.ofDrafts (copying.drafts fun _ => .single .toggle) =
          .error (.uniqueWithoutMultiple a.long)) ∧
        ∃ cause, Table.ofDrafts (copyingTwice.drafts copyingSlots) = .error cause := by
  have hcopying : ∃ fields, arguments copying = .ok fields := ⟨_, rfl⟩
  obtain ⟨fields, hfields⟩ := hcopying
  refine ⟨checkedSettings_sound, ?_, ⟨fields, hfields, ?_⟩, ?_⟩
  · obtain ⟨hdrafts, -, -, hfills⟩ :=
      (arguments_agree_with_table checkedSettings_sound copying copyingSlots).1 fields hfields
    rw [hdrafts] at hfills
    exact ⟨_, rfl, hfills _ rfl⟩
  · obtain ⟨hdrafts, -, hfails, -⟩ :=
      (arguments_agree_with_table checkedSettings_sound copying fun _ => .single .toggle).1 fields
        hfields
    rw [hdrafts] at hfails
    have hunique : Table.ofDrafts (copying.drafts fun _ => .single .toggle) =
        .error (.uniqueWithoutMultiple "sources") := rfl
    obtain ⟨a, ha, hname | hkind⟩ := hfails _ hunique
    · exact ⟨a, ha, hname ▸ hunique⟩
    · contradiction
  · have htwice : arguments copyingTwice = .error (.repeatedLong "force") := rfl
    obtain ⟨-, hrefused⟩ :=
      arguments_agree_with_table checkedSettings_sound copyingTwice copyingSlots
    exact hrefused _ htwice rfl

end CommandLine.Schema
