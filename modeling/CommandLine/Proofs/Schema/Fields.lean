import CommandLine.Schema.Arguments
import CommandLine.Proofs.Schema.Settings
import CommandLine.Proofs.Table.Drafts

/-!
# What fields declare

The draft of an argument is written at a field of a record, each clause of it by one key.  A field
that is accepted has exactly this draft, and the declaration that becomes of the draft says what is
written at the field.
-/

namespace CommandLine.Schema

/-! ### Drafts as they are written -/

namespace Member

def longName (m : Member) : String :=
  (textOf m.settings "long").getD (m.name.getD "")

def shortName? (m : Member) : Option String :=
  textOf m.settings "short"

def description? (m : Member) : Option String :=
  (description m.settings m.docs).toOption.filter (· ≠ "")

theorem description?_eq {m : Member} {text : String}
    (htext : Schema.description m.settings m.docs = .ok text) :
    m.description? = if text = "" then none else some text := by
  unfold description?
  rw [htext]
  by_cases hempty : text = "" <;> simp [hempty, Except.toOption, Option.filter_some]

def policy (m : Member) : Policy where
  required := isSet m.settings "required"
  unique := isSet m.settings "unique"
  multiple := isSet m.settings "multiple"
  exclusive := isSet m.settings "exclusive"

def isDefault (m : Member) : Bool :=
  isSet m.settings "default"

def obsolescenceClauses (m : Member) : List Clause :=
  (Schema.obsolescenceClauses m.settings).toOption.getD []

/-- The draft that is written at a field, whether or not it is in order; what cannot be understood
is left out. -/
def draft (m : Member) (slots : String → Slot) : Draft where
  long := m.longName
  field := m.name.getD ""
  slot := slots (m.name.getD "")
  clauses := m.shortName?.toList.map .short ++ m.description?.toList.map .description ++
    flagClauses m.settings ++ m.obsolescenceClauses

/-- The declaration that the draft states, key by key. -/
def stated (m : Member) (slots : String → Slot) : Declaration where
  long := m.longName
  field := m.name.getD ""
  slot := slots (m.name.getD "")
  short := m.shortName?
  description := m.description?
  policy := m.policy
  isPositional := m.isDefault
  obsolescence := Clause.last? Clause.obsolescence? m.obsolescenceClauses

/-! ### What the clauses of a field say -/

theorem any_flagClauses (settings : List Setting) (q : Clause → Bool) :
    (flagClauses settings).any q =
      (isSet settings "required" && q (.flag .required) ||
        (isSet settings "unique" && q (.flag .unique) ||
          (isSet settings "multiple" && q (.flag .multiple) ||
            (isSet settings "exclusive" && q (.flag .exclusive) ||
              isSet settings "default" && q .positional)))) := by
  simp [flagClauses, List.any_map, List.any_filter]

theorem mem_flagClauses {settings : List Setting} {clause : Clause}
    (hclause : clause ∈ flagClauses settings) :
    clause.short? = none ∧ clause.description? = none ∧ clause.obsolescence? = none := by
  obtain ⟨⟨key, other⟩, hpair, rfl⟩ := List.mem_map.mp hclause
  have hmem := List.mem_of_mem_filter hpair
  simp only [List.mem_cons, Prod.mk.injEq, List.not_mem_nil, or_false] at hmem
  rcases hmem with ⟨-, rfl⟩ | ⟨-, rfl⟩ | ⟨-, rfl⟩ | ⟨-, rfl⟩ | ⟨-, rfl⟩ <;> exact ⟨rfl, rfl, rfl⟩

theorem obsolescenceClauses_eq (m : Member) :
    m.obsolescenceClauses = [] ∨ (∃ message, m.obsolescenceClauses = [.obsolete message]) ∨
      ∃ message, m.obsolescenceClauses = [.fatallyObsolete message] := by
  unfold obsolescenceClauses Schema.obsolescenceClauses
  dsimp only
  split
  · exact .inl rfl
  · exact .inr (.inl ⟨_, rfl⟩)
  · exact .inr (.inr ⟨_, rfl⟩)
  · exact .inl rfl

/-- Only the clause for the short name tells one. -/
theorem short?_eq_none_of_mem {m : Member} {clause : Clause}
    (hclause : clause ∈ m.description?.toList.map .description ++ flagClauses m.settings ++
      m.obsolescenceClauses) : clause.short? = none := by
  rcases List.mem_append.mp hclause with hclause | hclause
  · rcases List.mem_append.mp hclause with hclause | hclause
    · obtain ⟨text, -, rfl⟩ := List.mem_map.mp hclause
      rfl
    · exact (mem_flagClauses hclause).1
  · rcases m.obsolescenceClauses_eq with heq | ⟨message, heq⟩ | ⟨message, heq⟩ <;> rw [heq] at hclause
    · contradiction
    · rw [List.mem_singleton.mp hclause]
      rfl
    · rw [List.mem_singleton.mp hclause]
      rfl

theorem findSome?_short?_draft (m : Member) (slots : String → Slot) :
    (m.draft slots).clauses.findSome? Clause.short? = m.shortName? := by
  unfold draft
  rw [List.append_assoc, List.append_assoc, List.findSome?_append, ← List.append_assoc,
    List.findSome?_eq_none_iff.mpr fun clause hclause => short?_eq_none_of_mem hclause]
  cases m.shortName? <;> rfl

theorem last?_short?_draft (m : Member) (slots : String → Slot) :
    Clause.last? Clause.short? (m.draft slots).clauses = m.shortName? := by
  unfold draft
  rw [List.append_assoc, List.append_assoc, Clause.last?_append, ← List.append_assoc,
    Clause.last?_eq_none fun clause hclause => short?_eq_none_of_mem hclause]
  exact Clause.last?_toList_map Clause.short? Clause.short (fun _ => rfl) _

theorem last?_draft {α : Type} (m : Member) (slots : String → Slot) (tells : Clause → Option α) :
    Clause.last? tells (m.draft slots).clauses =
      (Clause.last? tells m.obsolescenceClauses).or
        ((Clause.last? tells (flagClauses m.settings)).or
          ((Clause.last? tells (m.description?.toList.map .description)).or
            (Clause.last? tells (m.shortName?.toList.map .short)))) := by
  unfold draft
  rw [Clause.last?_append, Clause.last?_append, Clause.last?_append]

theorem last?_description?_draft (m : Member) (slots : String → Slot) :
    Clause.last? Clause.description? (m.draft slots).clauses = m.description? := by
  have hobsolete : Clause.last? Clause.description? m.obsolescenceClauses = none := by
    rcases m.obsolescenceClauses_eq with heq | ⟨message, heq⟩ | ⟨message, heq⟩ <;> rw [heq] <;> rfl
  have hshort : Clause.last? Clause.description? (m.shortName?.toList.map .short) = none := by
    apply Clause.last?_eq_none
    simp [Clause.description?]
  rw [last?_draft, hobsolete, hshort,
    Clause.last?_eq_none fun clause hclause => (mem_flagClauses hclause).2.1, Option.or_none]
  exact Clause.last?_toList_map Clause.description? Clause.description (fun _ => rfl) _

theorem last?_obsolescence?_draft (m : Member) (slots : String → Slot) :
    Clause.last? Clause.obsolescence? (m.draft slots).clauses =
      Clause.last? Clause.obsolescence? m.obsolescenceClauses := by
  have hshort : Clause.last? Clause.obsolescence? (m.shortName?.toList.map .short) = none := by
    apply Clause.last?_eq_none
    simp [Clause.obsolescence?]
  have hdescription :
      Clause.last? Clause.obsolescence? (m.description?.toList.map .description) = none := by
    apply Clause.last?_eq_none
    simp [Clause.obsolescence?]
  rw [last?_draft, hshort, hdescription,
    Clause.last?_eq_none fun clause hclause => (mem_flagClauses hclause).2.2]
  exact Option.or_none

theorem any_draft (m : Member) (slots : String → Slot) {q : Clause → Bool}
    (hshort : ∀ name, q (.short name) = false) (hdescription : ∀ text, q (.description text) = false)
    (hobsolete : ∀ message, q (.obsolete message) = false ∧ q (.fatallyObsolete message) = false) :
    (m.draft slots).clauses.any q = (flagClauses m.settings).any q := by
  have hlast : m.obsolescenceClauses.any q = false := by
    rcases m.obsolescenceClauses_eq with heq | ⟨message, heq⟩ | ⟨message, heq⟩ <;>
      simp [heq, hobsolete]
  have hfirst : (m.shortName?.toList.map Clause.short).any q = false := by
    cases m.shortName? <;> simp [hshort]
  have hsecond : (m.description?.toList.map Clause.description).any q = false := by
    cases m.description? <;> simp [hdescription]
  unfold draft
  rw [List.any_append, List.any_append, List.any_append, hfirst, hsecond, hlast, Bool.or_false]
  rfl

theorem allFlags_draft (m : Member) (slots : String → Slot) :
    Clause.allFlags (m.draft slots).clauses = m.policy := by
  have hany : ∀ q : Policy → Bool, q .none = false →
      (m.draft slots).clauses.any (fun clause => q clause.flags) =
        (flagClauses m.settings).any fun clause => q clause.flags := by
    intro q hq
    exact any_draft m slots (fun _ => hq) (fun _ => hq) (fun _ => ⟨hq, hq⟩)
  unfold Clause.allFlags policy
  rw [hany _ rfl, hany _ rfl, hany _ rfl, hany _ rfl]
  simp [any_flagClauses, Clause.flags, Policy.of, Policy.none]

theorem contains_positional_draft (m : Member) (slots : String → Slot) :
    (m.draft slots).clauses.contains .positional = m.isDefault := by
  have hflag : ∀ f, (Clause.positional == Clause.flag f) = false := fun _ => rfl
  rw [List.contains_eq_any_beq,
    any_draft m slots (fun _ => rfl) (fun _ => rfl) (fun _ => ⟨rfl, rfl⟩), any_flagClauses]
  simp [hflag, isDefault]

theorem stated_draft (m : Member) (slots : String → Slot) :
    (m.draft slots).stated = m.stated slots := by
  rw [Draft.stated_eq]
  apply Declaration.ext
  · rfl
  · rfl
  · rfl
  · exact m.last?_short?_draft slots
  · exact m.last?_description?_draft slots
  · exact m.allFlags_draft slots
  · dsimp only
    rw [any_draft m slots (fun _ => rfl) (fun _ => rfl) (fun _ => ⟨rfl, rfl⟩), any_flagClauses]
    simp [Clause.isPositional, stated, isDefault]
  · exact m.last?_obsolescence?_draft slots

def label (m : Member) : Label :=
  ⟨m.longName, m.shortName?, m.isDefault⟩

theorem label_draft (m : Member) (slots : String → Slot) : (m.draft slots).label = m.label := by
  unfold Draft.label
  rw [m.stated_draft slots]
  rfl

end Member

/-! ### Accepted fields -/

structure Member.WellNamed (m : Member) : Prop where
  long : NameFault.find? m.longName = none
  short : ∀ name, m.shortName? = some name → NameFault.find? name = none

/-- Nothing is wrong with a field that declares an argument. -/
structure Member.Accepted (m : Member) : Prop where
  annotated : m.attributes ≠ []
  settings : InOrder argumentKeys m.settings
  names : m.WellNamed
  description : ∃ text, Schema.description m.settings m.docs = .ok text
  obsolescence : ∃ clauses, Schema.obsolescenceClauses m.settings = .ok clauses

theorem checkName_eq_ok_iff {role : NameRole} {name : String} :
    checkName role name = .ok () ↔ NameFault.find? name = none := by
  unfold checkName
  cases NameFault.find? name <;> simp

theorem checkShort_eq_ok_iff {short : Option String} :
    checkShort short = .ok () ↔ ∀ name, short = some name → NameFault.find? name = none := by
  cases short with
  | none => simp [checkShort]
  | some name => simp [checkShort, checkName_eq_ok_iff]

theorem declaredArgument_eq_ok {m : Member} {a : ArgumentField} (hannotated : m.attributes ≠ [])
    (horder : InOrder argumentKeys m.settings) (hdeclared : declaredArgument m m.settings = .ok a) :
    m.Accepted ∧ ∀ slots : String → Slot, a.draft (slots a.field) = m.draft slots := by
  unfold declaredArgument at hdeclared
  simp only [bind_eq_ok_iff] at hdeclared
  obtain ⟨⟨⟩, hlong, ⟨⟩, hshort, text, htext, clauses, hclauses, hfields⟩ := hdeclared
  obtain rfl := Except.ok.inj hfields
  have hnamed : m.WellNamed := ⟨checkName_eq_ok_iff.mp hlong, checkShort_eq_ok_iff.mp hshort⟩
  refine ⟨⟨hannotated, horder, hnamed, ⟨text, htext⟩, ⟨clauses, hclauses⟩⟩, ?_⟩
  intro slots
  have hdescription : m.description?.toList.map Clause.description =
      if text = "" then [] else [.description text] := by
    rw [Member.description?_eq htext]
    split <;> rfl
  have hobsolete : m.obsolescenceClauses = clauses := by
    unfold Member.obsolescenceClauses
    rw [hclauses]
    rfl
  unfold Member.draft
  rw [hdescription, hobsolete]
  rfl

/-- The errors about names, and about the argument for positional values. -/
def Error.isNaming : Error → Bool
  | .invalidName _ _ | .repeatedLong _ | .repeatedShort _ | .repeatedPositional => true
  | _ => false

theorem docTexts_not_isNaming {docs : List Doc} {error : Error}
    (hdocs : docTexts docs = .error error) : error.isNaming = false := by
  induction docs with
  | nil => contradiction
  | cons doc rest ih =>
      cases doc with
      | text s => exact ih (map_eq_error_iff.mp hdocs)
      | malformed => exact Except.error.inj hdocs ▸ rfl
      | computed => exact Except.error.inj hdocs ▸ rfl
      | unrelated => exact ih hdocs

theorem obsolescenceClauses_not_isNaming {settings : List Setting} {error : Error}
    (hclauses : obsolescenceClauses settings = .error error) : error.isNaming = false := by
  unfold obsolescenceClauses at hclauses
  dsimp only at hclauses
  split at hclauses
  · exact Except.error.inj hclauses ▸ rfl
  · contradiction
  · contradiction
  · contradiction

theorem description_not_isNaming {settings : List Setting} {docs : List Doc} {error : Error}
    (hdescription : description settings docs = .error error) : error.isNaming = false := by
  unfold description at hdescription
  split at hdescription
  · contradiction
  · exact docTexts_not_isNaming (map_eq_error_iff.mp hdescription)

theorem declaredArgument_eq_error {m : Member} {error : Error}
    (hdeclared : declaredArgument m m.settings = .error error) (hnaming : error.isNaming = true) :
    ¬ m.WellNamed := by
  intro hnamed
  have hlong : checkName .long ((textOf m.settings "long").getD (m.name.getD "")) = .ok () :=
    checkName_eq_ok_iff.mpr hnamed.long
  have hshort : checkShort (textOf m.settings "short") = .ok () :=
    checkShort_eq_ok_iff.mpr hnamed.short
  unfold declaredArgument at hdeclared
  simp only [bind_eq_error_iff, hlong, hshort] at hdeclared
  rcases hdeclared with hfails | ⟨⟨⟩, -, hfails | ⟨⟨⟩, -, htext | ⟨text, -, hclauses | ⟨_, -, hend⟩⟩⟩⟩
  · contradiction
  · contradiction
  · rw [description_not_isNaming htext] at hnaming
    contradiction
  · rw [obsolescenceClauses_not_isNaming hclauses] at hnaming
    contradiction
  · contradiction

theorem argumentKeys_unreserved : Unreserved argumentKeys :=
  ⟨by decide, by decide⟩

theorem argumentOf_eq_none {reader : Reader} {m : Member}
    (hargument : argumentOf reader m = .ok none) : m.attributes = [] := by
  unfold argumentOf at hargument
  split at hargument
  · assumption
  · split at hargument
    · contradiction
    · obtain ⟨found, -, hfound⟩ := map_eq_ok_iff.mp hargument
      contradiction

section Reader

variable {reader : Reader} (hsound : reader.Sound)

include hsound

theorem argumentOf_eq_some {m : Member} {a : ArgumentField}
    (hargument : argumentOf reader m = .ok (some a)) :
    m.Accepted ∧ ∀ slots : String → Slot, a.draft (slots a.field) = m.draft slots := by
  unfold argumentOf at hargument
  split at hargument
  · simp at hargument
  · next hannotated =>
      split at hargument
      · contradiction
      · next settings hchecked =>
          obtain ⟨rfl, horder⟩ := (hsound.taken _ argumentKeys_unreserved _ _).mp hchecked
          obtain ⟨found, hdeclared, hfound⟩ := map_eq_ok_iff.mp hargument
          obtain rfl := Option.some.inj hfound
          exact declaredArgument_eq_ok hannotated horder hdeclared

/-- An error about names at a field is about the names that are written there. -/
theorem argumentOf_eq_error {m : Member} {error : Error}
    (hargument : argumentOf reader m = .error error) (hnaming : error.isNaming = true) :
    m.attributes ≠ [] ∧ ¬ m.WellNamed := by
  unfold argumentOf at hargument
  split at hargument
  · contradiction
  · next hannotated =>
      refine ⟨hannotated, ?_⟩
      split at hargument
      · next failure hchecked =>
          obtain rfl := Except.error.inj hargument
          obtain ⟨faults, rfl⟩ := hsound.refused _ _ _ hchecked
          contradiction
      · next settings hchecked =>
          obtain ⟨rfl, -⟩ := (hsound.taken _ argumentKeys_unreserved _ _).mp hchecked
          exact declaredArgument_eq_error (map_eq_error_iff.mp hargument) hnaming

end Reader

/-! ### What becomes of an accepted field -/

namespace Member

/-- The key is set, with the message for its text or without any. -/
def Gives (m : Member) (key message : String) : Prop :=
  ⟨key, some message⟩ ∈ m.settings ∨ ⟨key, none⟩ ∈ m.settings ∧ message = ""

/-- The declaration says what is written at the field and nothing else.  Where the field allows more
than one value, the flags for this are completed. -/
structure Reflects (slots : String → Slot) (m : Member) (d : Declaration) : Prop where
  field : d.field = m.name.getD ""
  slot : d.slot = slots d.field
  long : ∀ text, ⟨"long", some text⟩ ∈ m.settings → d.long = text
  ownName : (∀ text, ⟨"long", text⟩ ∉ m.settings) → d.long = d.field
  short : ∀ name, d.short = some name ↔ ⟨"short", some name⟩ ∈ m.settings
  description : ∃ text, Schema.description m.settings m.docs = .ok text ∧
    d.description = if text = "" then none else some text
  required : d.policy.required = true ↔ ⟨"required", none⟩ ∈ m.settings
  exclusive : d.policy.exclusive = true ↔ ⟨"exclusive", none⟩ ∈ m.settings
  unique : d.policy.unique = true ↔ ⟨"unique", none⟩ ∈ m.settings ∨
    d.kind.isMultiValued = true ∧ ⟨"multiple", none⟩ ∉ m.settings
  multiple : d.policy.multiple = true ↔ ⟨"multiple", none⟩ ∈ m.settings ∨
    d.kind.isMultiValued = true
  positional : d.isPositional = true ↔ ⟨"default", none⟩ ∈ m.settings
  obsolete : ∀ message, d.obsolescence = some ⟨message, false⟩ ↔ m.Gives "obsolete" message
  fatallyObsolete : ∀ message,
    d.obsolescence = some ⟨message, true⟩ ↔ m.Gives "obsolete_fatal" message

theorem gives_iff {keys : List Key} {m : Member} {key message : String}
    (horder : InOrder keys m.settings) :
    m.Gives key message ↔
      isSet m.settings key = true ∧ (textOf m.settings key).getD "" = message := by
  constructor
  · rintro (hs | ⟨hs, rfl⟩)
    · exact ⟨isSet_iff.mpr ⟨_, hs⟩, by rw [horder.textOf_of_mem hs]; rfl⟩
    · exact ⟨isSet_iff.mpr ⟨_, hs⟩, by rw [horder.textOf_of_mem hs]; rfl⟩
  · rintro ⟨hset, rfl⟩
    obtain ⟨text, hs⟩ := isSet_iff.mp hset
    rw [horder.textOf_of_mem hs]
    cases text with
    | none => exact .inr ⟨hs, rfl⟩
    | some text => exact .inl hs

namespace Accepted

variable {m : Member}

theorem obsolescence_iff (haccepted : m.Accepted) (message : String) (fatal : Bool) :
    Clause.last? Clause.obsolescence? m.obsolescenceClauses = some ⟨message, fatal⟩ ↔
      m.Gives (if fatal then "obsolete_fatal" else "obsolete") message := by
  obtain ⟨clauses, hclauses⟩ := haccepted.obsolescence
  rw [gives_iff haccepted.settings]
  unfold Member.obsolescenceClauses
  unfold Schema.obsolescenceClauses at hclauses ⊢
  cases hobsolete : isSet m.settings "obsolete" <;>
    cases hfatally : isSet m.settings "obsolete_fatal"
  · cases fatal <;> simp [hobsolete, hfatally, Except.toOption]
  · cases fatal <;>
      simp [hobsolete, hfatally, Except.toOption, Clause.last?_singleton, Clause.obsolescence?]
  · cases fatal <;>
      simp [hobsolete, hfatally, Except.toOption, Clause.last?_singleton, Clause.obsolescence?]
  · simp [hobsolete, hfatally] at hclauses

theorem isSet_iff_mem (haccepted : m.Accepted) {key : String}
    (hkey : ∀ form, ⟨key, form⟩ ∈ argumentKeys → form = .flag) :
    isSet m.settings key = true ↔ ⟨key, none⟩ ∈ m.settings :=
  haccepted.settings.isSet_iff_of_flag hkey

theorem reflects (haccepted : m.Accepted) (slots : String → Slot) :
    m.Reflects slots (m.stated slots).completed := by
  have hrequired : isSet m.settings "required" = true ↔ ⟨"required", none⟩ ∈ m.settings :=
    haccepted.isSet_iff_mem (by simp [argumentKeys])
  have hexclusive : isSet m.settings "exclusive" = true ↔ ⟨"exclusive", none⟩ ∈ m.settings :=
    haccepted.isSet_iff_mem (by simp [argumentKeys])
  have hunique : isSet m.settings "unique" = true ↔ ⟨"unique", none⟩ ∈ m.settings :=
    haccepted.isSet_iff_mem (by simp [argumentKeys])
  have hmultiple : isSet m.settings "multiple" = true ↔ ⟨"multiple", none⟩ ∈ m.settings :=
    haccepted.isSet_iff_mem (by simp [argumentKeys])
  have hdefault : isSet m.settings "default" = true ↔ ⟨"default", none⟩ ∈ m.settings :=
    haccepted.isSet_iff_mem (by simp [argumentKeys])
  obtain ⟨described, hdescribed⟩ := haccepted.description
  rw [Declaration.completed_eq]
  constructor
  case field => rfl
  case slot => rfl
  case long =>
    intro text hs
    change (textOf m.settings "long").getD (m.name.getD "") = text
    rw [haccepted.settings.textOf_of_mem hs, Option.getD_some]
  case ownName =>
    intro hunset
    change (textOf m.settings "long").getD (m.name.getD "") = m.name.getD ""
    rw [textOf_eq_none hunset, Option.getD_none]
  case short => exact fun name => haccepted.settings.textOf_eq_some_iff
  case description => exact ⟨described, hdescribed, description?_eq hdescribed⟩
  case required => exact hrequired
  case exclusive => exact hexclusive
  case unique =>
    rw [← hunique, ← hmultiple]
    simp [stated, policy, Declaration.kind]
  case multiple =>
    rw [← hmultiple]
    simp [stated, policy, Declaration.kind]
  case positional => exact hdefault
  case obsolete => exact fun message => haccepted.obsolescence_iff message false
  case fatallyObsolete => exact fun message => haccepted.obsolescence_iff message true

end Accepted

end Member

end CommandLine.Schema
