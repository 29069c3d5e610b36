import CommandLine.Proofs.Parse.Binding
import CommandLine.Proofs.Parse.Interleaving
import CommandLine.Proofs.Parse.Spelling
import CommandLine.Proofs.Setting

/-!
# Parsing undoes rendering

A command line can spell out a setting for every argument of a table: an option for each text of a
named argument, and the texts themselves for the positional one.  Every token of it belongs to the
argument that it was written for, and no argument is at fault over its own texts, so a parse of it
sets every field as intended.
-/

namespace CommandLine

/-! ### The command line for some settings -/

/-- The option that brings one text of a setting to a named argument. -/
def Setting.option (s : Setting) (long text : String) : String :=
  match s with
  | .toggle _ => "-" ++ long ++ text
  | .text _ | .integer _ | .list _ | .map _ => "-" ++ long ++ ":" ++ text

/-- The arguments that give every argument of a table the setting under its long name. -/
def Table.rendering (t : Table) (settings : String → Setting) : List String :=
  t.named.flatMap (fun d => (settings d.long).texts.map ((settings d.long).option d.long)) ++
    t.positional.toList.flatMap fun d => (settings d.long).texts

/-- The setting suits the slot, and has a text if one is required. -/
structure Setting.Fits (s : Setting) (d : Declaration) : Prop where
  suits : s.Suits d.policy.unique d.slot
  given : d.policy.required = true → s.texts ≠ []

/-- Settings that a command line can give to all arguments of a table at once. -/
structure Table.Expresses (t : Table) (settings : String → Setting) : Prop where
  fits : ∀ d ∈ t.all, (settings d.long).Fits d
  notExclusive : ∀ d ∈ t.named, d.policy.exclusive = false
  notFatal : ∀ d ∈ t.named, ∀ o ∈ d.obsolescence, o.fatal = false
  /-- Nothing that is positional looks like an option or a reference. -/
  unmarked : ∀ d ∈ t.positional, ∀ text ∈ (settings d.long).texts,
    text.toList.head? ∉ [some '-', some '/', some '@']

/-! ### Its tokens -/

theorem Setting.Suits.classify_option {unique responseFiles : Bool} {slot : Slot} {s : Setting}
    {long text : String} (hsuits : s.Suits unique slot)
    (hlong : NameFault.find? long = none) (htext : text ∈ s.texts) :
    Token.classify responseFiles (s.option long text) =
      some (.named (s.option long text) long (some text)) := by
  have hname := NameFault.isSeparator_eq_false hlong
  cases hsuits with
  | toggle on =>
      apply Token.classify_signed (.inl rfl) hname
      rw [List.mem_singleton.mp htext]
      cases on <;> simp [Token.IsSigned]
  | text hs => exact Token.classify_assigned (.inl rfl) hname text
  | integer hrange => exact Token.classify_assigned (.inl rfl) hname text
  | list hne hnodup => exact Token.classify_assigned (.inl rfl) hname text
  | map hcontainer hnames hnodup => exact Token.classify_assigned (.inl rfl) hname text

namespace Table

variable {t : Table} {settings : String → Setting}

theorem map_resolve_texts {responseFiles : Bool} {d : Declaration} {texts : List String}
    {written : String → String}
    (hwritten : ∀ text ∈ texts, ∃ token,
      Token.classify responseFiles (written text) = some token ∧
        t.resolve token = some (d, some text)) :
    (Token.ofArguments responseFiles (texts.map written)).map t.resolve =
      texts.map fun text => some (d, some text) := by
  induction texts with
  | nil => rfl
  | cons text texts ih =>
      rw [List.forall_mem_cons] at hwritten
      obtain ⟨token, hclassify, hresolve⟩ := hwritten.1
      rw [List.map_cons, Expansion.ofArguments_cons, hclassify, Option.toList_some,
        List.singleton_append, List.map_cons, hresolve, ih hwritten.2, List.map_cons]

theorem map_resolve_flatMap {responseFiles : Bool} {ds : List Declaration}
    {arguments : Declaration → List String}
    {targets : Declaration → List (Option (Declaration × Option String))}
    (harguments : ∀ d ∈ ds,
      (Token.ofArguments responseFiles (arguments d)).map t.resolve = targets d) :
    (Token.ofArguments responseFiles (ds.flatMap arguments)).map t.resolve =
      ds.flatMap targets := by
  unfold Token.ofArguments
  rw [List.filterMap_flatMap, List.map_flatMap]
  exact List.flatMap_congr harguments

/-- Every token belongs to the argument that it was written for. -/
theorem map_resolve_rendering (hbuilt : t.Built) (hexpresses : t.Expresses settings)
    (responseFiles : Bool) :
    (Token.ofArguments responseFiles (t.rendering settings)).map t.resolve =
      t.all.flatMap fun d => (settings d.long).texts.map fun text => some (d, some text) := by
  unfold rendering all
  rw [Expansion.ofArguments_append, List.map_append, List.flatMap_append]
  congr 1
  · apply map_resolve_flatMap
    intro d hd
    have hall : d ∈ t.all := List.mem_append_left _ hd
    have hsuits := (hexpresses.fits d hall).suits
    apply map_resolve_texts
    intro text htext
    refine ⟨_, hsuits.classify_option (hbuilt.validNames d hall) htext, ?_⟩
    rw [resolve, hbuilt.coherent.find_long hd]
    rfl
  · apply map_resolve_flatMap
    intro d hd
    have hall : d ∈ t.all := List.mem_append_right _ hd
    have hsuits := (hexpresses.fits d hall).suits
    have hpositional : t.positional = some d := Option.mem_toList.mp hd
    rw [← List.map_id (settings d.long).texts, map_resolve_texts, List.map_id]
    intro text htext
    have hmark := hexpresses.unmarked d hpositional text htext
    refine ⟨_, Token.classify_positional (hsuits.text_ne_empty text htext) hmark, ?_⟩
    rw [resolve, hpositional]
    rfl

theorem resolve_of_mem_rendering (hbuilt : t.Built) (hexpresses : t.Expresses settings)
    {responseFiles : Bool} {token : Token}
    (htoken : token ∈ Token.ofArguments responseFiles (t.rendering settings)) :
    ∃ d text, t.resolve token = some (d, some text) := by
  have hresolve : t.resolve token ∈
      (Token.ofArguments responseFiles (t.rendering settings)).map t.resolve :=
    List.mem_map_of_mem htoken
  rw [map_resolve_rendering hbuilt hexpresses] at hresolve
  obtain ⟨d, -, htexts⟩ := List.mem_flatMap.mp hresolve
  obtain ⟨text, -, htext⟩ := List.mem_map.mp htexts
  exact ⟨d, text, htext.symm⟩

theorem plain_rendering (hbuilt : t.Built) (hexpresses : t.Expresses settings)
    (responseFiles : Bool) : Token.Plain responseFiles (t.rendering settings) := by
  intro path hpath
  obtain ⟨d, text, hresolve⟩ := resolve_of_mem_rendering hbuilt hexpresses hpath
  contradiction

/-! ### Its occurrences -/

theorem filter_long_of_ne {e d : Declaration} (hne : e.long ≠ d.long)
    (values : List (Option String)) :
    (values.map fun value => (e, value)).filter (·.1.long == d.long) = [] := by
  simp [List.filter_map, Function.comp_def, hne]

theorem filter_long_self (d : Declaration) (values : List (Option String)) :
    (values.map fun value => (d, value)).filter (·.1.long == d.long) =
      values.map fun value => (d, value) := by
  simp [List.filter_map, Function.comp_def]

/-- Among the values of several arguments, those of one are found by its long name. -/
theorem filter_long_flatMap {ds : List Declaration} (hlong : (ds.map Declaration.long).Nodup)
    {d : Declaration} (hd : d ∈ ds) (values : Declaration → List (Option String)) :
    (ds.flatMap fun e => (values e).map fun value => (e, value)).filter (·.1.long == d.long) =
      (values d).map fun value => (d, value) := by
  induction ds with
  | nil => cases hd
  | cons e es ih =>
      rw [List.map_cons, List.nodup_cons] at hlong
      rw [List.flatMap_cons, List.filter_append]
      rcases List.mem_cons.mp hd with rfl | hrest
      · have hothers : (es.flatMap fun e => (values e).map fun value => (e, value)).filter
            (·.1.long == d.long) = [] := by
          rw [List.filter_flatMap, List.flatMap_eq_nil_iff]
          intro e he
          apply filter_long_of_ne
          intro hsame
          exact hlong.1 (hsame ▸ List.mem_map_of_mem he)
        rw [filter_long_self, hothers, List.append_nil]
      · have hne : e.long ≠ d.long := by
          intro hsame
          exact hlong.1 (hsame ▸ List.mem_map_of_mem hrest)
        rw [filter_long_of_ne hne, ih hlong.2 hrest, List.nil_append]

/-- An argument occurs with the texts of its own setting. -/
theorem occurrences_rendering (hbuilt : t.Built) (hexpresses : t.Expresses settings)
    (responseFiles : Bool) {d : Declaration} (hd : d ∈ t.all) :
    t.occurrences d (Token.ofArguments responseFiles (t.rendering settings)) =
      (settings d.long).texts.map some := by
  have htargets : (Token.ofArguments responseFiles (t.rendering settings)).filterMap t.resolve =
      t.all.flatMap fun e => ((settings e.long).texts.map some).map fun value => (e, value) := by
    have hid : (Token.ofArguments responseFiles (t.rendering settings)).filterMap t.resolve =
        ((Token.ofArguments responseFiles (t.rendering settings)).map t.resolve).filterMap id := by
      rw [List.filterMap_map, Function.id_comp]
    rw [hid, map_resolve_rendering hbuilt hexpresses]
    simp [List.filterMap_flatMap, Function.comp_def]
  have hown := filter_long_flatMap hbuilt.coherent.longNames hd fun e =>
    (settings e.long).texts.map some
  rw [occurrences, htargets, hown, List.map_map]
  exact List.map_id _

end Table

/-! ### Its faults -/

theorem Slot.exists_read {slot : Slot} {values : List (Option String)} {items : List Item}
    (hreads : List.Forall₂ slot.Reads values items) :
    ∀ value ∈ values, ∃ item, slot.read value = .ok item := by
  induction hreads with
  | nil =>
      intro value hvalue
      cases hvalue
  | cons hread _ ih =>
      rw [List.forall_mem_cons]
      exact ⟨⟨_, read_eq_ok_iff.mpr hread⟩, ih⟩

theorem Declaration.received_eq {d : Declaration} {values : List (Option String)}
    {items : List Item} (hreads : List.Forall₂ d.slot.Reads values items) :
    d.received values = items := by
  have hreceived := Binding.Readable.forall₂_received (Slot.exists_read hreads)
  exact Slot.forall₂_reads_unique hreceived hreads

namespace Setting.Fits

variable {s : Setting} {d : Declaration}

theorem received (hfits : s.Fits d) : d.received (s.texts.map some) = s.items :=
  Declaration.received_eq hfits.suits.reads

theorem readable (hfits : s.Fits d) : Binding.Readable d (s.texts.map some) where
  reads := Slot.exists_read hfits.suits.reads
  single := by
    intro hkind
    rw [List.length_map]
    exact hfits.suits.length_texts_le hkind

theorem duplicate?_eq_none (hfits : s.Fits d) (hcoherent : d.Coherent)
    {before after : List (Option String)} {value : Option String}
    (hvalues : s.texts.map some = before ++ value :: after) :
    Fault.duplicate? d before = none := by
  unfold Fault.duplicate?
  rw [hcoherent.multiple_eq]
  cases hkind : d.kind.isMultiValued with
  | true => rfl
  | false =>
      have hlength := hfits.readable.single hkind
      rw [hvalues, List.length_append, List.length_cons] at hlength
      have hbefore : before = [] := List.length_eq_zero_iff.mp (by omega)
      simp [hbefore]

theorem repeated?_eq_none (hfits : s.Fits d)
    {before after : List (Option String)} {value : Option String} {item : Item}
    (hvalues : s.texts.map some = before ++ value :: after)
    (hread : d.slot.read value = .ok item) : Fault.repeated? d before value = none := by
  have hitems : s.items = d.received before ++ item :: d.received after := by
    rw [← hfits.received, hvalues, List.append_cons, Declaration.received_append,
      Declaration.received_append, Declaration.received_singleton hread, List.append_assoc,
      List.singleton_append]
  unfold Fault.repeated?
  rw [hread]
  dsimp only
  rw [if_neg]
  rw [Bool.and_eq_true, ← Declaration.received_any, List.any_eq_true]
  rintro ⟨hunique, other, hother, hclashes⟩
  have hdistinct := Suits.distinct (hunique ▸ hfits.suits)
  rw [hitems, List.pairwise_append] at hdistinct
  have hfresh := hdistinct.2.2 other hother item List.mem_cons_self
  rw [hclashes] at hfresh
  contradiction

/-- An argument admits the texts of a setting that fits it. -/
theorem admits (hfits : s.Fits d) (hcoherent : d.Coherent) : d.Admits (s.texts.map some) := by
  intro before value after hvalues
  have hvalue : value ∈ s.texts.map some := by
    rw [hvalues]
    exact List.mem_append_right _ List.mem_cons_self
  obtain ⟨item, hread⟩ := hfits.readable.reads value hvalue
  obtain ⟨text, htext, rfl⟩ := List.mem_map.mp hvalue
  have hne : some text ≠ some "" := by
    simpa using hfits.suits.text_ne_empty text htext
  refine ⟨hfits.duplicate?_eq_none hcoherent hvalues, ?_, hfits.repeated?_eq_none hvalues hread⟩
  unfold Fault.invalid?
  rw [if_neg hne, hread]

end Setting.Fits

theorem Table.Expresses.faultless {t : Table} {settings : String → Setting} (hbuilt : t.Built)
    (hexpresses : t.Expresses settings) (responseFiles : Bool) (count : Nat) :
    t.Faultless count (Token.ofArguments responseFiles (t.rendering settings)) := by
  have hcoherent := hbuilt.coherent
  rw [Table.faultless_iff hcoherent]
  constructor
  · intro token htoken
    obtain ⟨d, text, hresolve⟩ := Table.resolve_of_mem_rendering hbuilt hexpresses htoken
    refine ⟨d, some text, hresolve, ?_⟩
    intro hnamed
    have hd : d ∈ t.named := Table.mem_named_of_resolve hnamed hresolve
    constructor
    · unfold Fault.obsolete?
      split
      · rfl
      · next o ho => rw [if_neg (by simp [hexpresses.notFatal d hd o ho])]
    · simp [Fault.exclusive?, hexpresses.notExclusive d hd]
  · intro d hd
    rw [Table.occurrences_rendering hbuilt hexpresses responseFiles hd]
    exact (hexpresses.fits d hd).admits (hcoherent.declarations d hd)

/-! ### Parsing it -/

namespace Parser

variable {p : Parser} {settings : String → Setting} {arguments : List String}

/-- After the first phase every argument holds the texts of its setting. -/
theorem takeArguments_rendering (hbuilt : p.table.Built)
    (hexpresses : p.table.Expresses settings)
    (hrendered : p.table.Reordered p.responseFiles (p.table.rendering settings) arguments)
    (files : FileSystem) :
    ∃ s, p.takeArguments files arguments = .ok s ∧
      s.held =
        Binding.heldAfter (fun d => (settings d.long).texts.map some) p.table.all := by
  have hcoherent := hbuilt.coherent
  have hplain := Table.plain_rendering hbuilt hexpresses p.responseFiles
  have hfaultless := hexpresses.faultless hbuilt p.responseFiles
    (p.table.rendering settings).length
  have htake := (takeArguments_eq_ok_iff_of_plain hcoherent hplain files).mpr ⟨hfaultless, rfl⟩
  obtain ⟨s, hs, hheld, -⟩ := takeArguments_reordered hcoherent hplain hrendered htake
  refine ⟨s, hs, ?_⟩
  rw [← hheld]
  apply List.map_congr_left
  intro d hd
  rw [Table.occurrences_rendering hbuilt hexpresses p.responseFiles hd]

/-- A command line that spells out a setting for every argument sets every field to it, however the
arguments are interleaved. -/
theorem parse_inverts_rendering (hbuilt : p.table.Built)
    (hfields : (p.table.all.map Declaration.field).Nodup)
    (hexpresses : p.table.Expresses settings)
    (hrendered : p.table.Reordered p.responseFiles (p.table.rendering settings) arguments)
    {destination : Record}
    (hempty : ∀ d ∈ p.table.all, d.slot.container? ≠ none → destination d.field = [])
    (files : FileSystem) :
    ∃ final outcome, p.parse files arguments destination = (final, .ok outcome) ∧
      (∀ d ∈ p.table.all, (settings d.long).HeldIn (final d.field)) ∧
        ∀ field, (∀ d ∈ p.table.all, d.field ≠ field) → final field = destination field := by
  obtain ⟨s, htake, hheld⟩ := takeArguments_rendering hbuilt hexpresses hrendered files
  have hreadable : ∀ d ∈ p.table.all,
      Binding.Readable d ((settings d.long).texts.map some) :=
    fun d hd => (hexpresses.fits d hd).readable
  have hgiven : ∀ d ∈ p.table.all, d.policy.required = true →
      (settings d.long).texts.map some ≠ [] := by
    intro d hd hrequired
    simpa using (hexpresses.fits d hd).given hrequired
  have hstandard : ∀ d ∈ p.table.all, d.slot.IsStandard (destination d.field) :=
    fun d hd => (hexpresses.fits d hd).suits.isStandard (hempty d hd)
  obtain ⟨final, hbind⟩ : ∃ final, Binding.bindAll destination _ = (final, none) :=
    Binding.exists_bindAll_eq hreadable hfields hgiven hstandard
  have hbound := Binding.bindAll_bound hreadable hfields hbind
  refine ⟨final, ⟨!s.anySeen, s.warnings⟩, ?_, ?_, hbound.other⟩
  · unfold parse
    rw [htake]
    dsimp only
    rw [hheld, hbind]
  · intro d hd
    exact (hexpresses.fits d hd).suits.heldIn (hempty d hd) (hbound.settles d hd)

/-- The drafts of a program that packs files. -/
def packerDrafts : List Draft :=
  [⟨"verbose", "verbose", .single .toggle, [.obsolete "Read the log instead."]⟩,
    ⟨"title", "title", .single .text, [.flag .required]⟩,
    ⟨"level", "level", .single (.integer ⟨true, 8⟩), []⟩,
    ⟨"tag", "tags", .collection .text .list, [.flag .unique]⟩,
    ⟨"define", "defines", .map .sortedMap, [.flag .required]⟩,
    ⟨"rename", "renames", .map .arrivalMap, []⟩,
    ⟨"files", "files", .collection .text .list, [.positional, .flag .multiple]⟩]

def packer : Parser where
  table := .ofDraftsD packerDrafts
  responseFiles := true

/-- Values that hold separators, quotes and blanks. -/
def packerSettings : String → Setting
  | "verbose" => .toggle false
  | "title" => .text "-a: \"b=c\"+"
  | "level" => .integer (-128)
  | "tag" => .list [":x", " ", "@x"]
  | "define" => .map [("b", "1=2"), ("a", "")]
  | "rename" => .map []
  | _ => .list ["f", "+g:", "f"]

theorem packer_expresses : packer.table.Expresses packerSettings where
  fits := by
    intro d hd
    obtain ⟨draft, hdraft, rfl⟩ := Table.exists_draft_of_mem hd
    simp only [packerDrafts, List.mem_cons, List.not_mem_nil, or_false] at hdraft
    rcases hdraft with rfl | rfl | rfl | rfl | rfl | rfl | rfl
    · exact ⟨.toggle false, by decide⟩
    · exact ⟨.text (by decide), by decide⟩
    · exact ⟨.integer (by decide), by decide⟩
    · exact ⟨.list (by decide) (by decide), by decide⟩
    · exact ⟨.map (.inr (.inl rfl)) (by decide) (by decide), by decide⟩
    · exact ⟨.map (.inl rfl) (by decide) (by decide), by decide⟩
    · exact ⟨.list (by decide) (by decide), by decide⟩
  notExclusive := by decide +kernel
  notFatal := by decide +kernel
  unmarked := by decide +kernel

theorem packer_sets_interleaved :
    packer.table.all.map Declaration.long =
        ["verbose", "title", "level", "tag", "define", "rename", "files"] ∧
      ∃ final outcome,
        packer.parse (.empty "/")
          ["f", "-tag::x", "-define:b=1=2", "+g:", "-level:-128", "-tag: ", "-define:a=",
            "-verbose-", "-title:-a: \"b=c\"+", "-tag:@x", "f"] .empty = (final, .ok outcome) ∧
        ∀ d ∈ packer.table.all, (packerSettings d.long).HeldIn (final d.field) := by
  have hbuilt : packer.table.Built := Table.ofDraftsD_built packerDrafts
  have hrendered : packer.table.Reordered packer.responseFiles
      (packer.table.rendering packerSettings)
      ["f", "-tag::x", "-define:b=1=2", "+g:", "-level:-128", "-tag: ", "-define:a=",
        "-verbose-", "-title:-a: \"b=c\"+", "-tag:@x", "f"] :=
    ⟨by decide +kernel, by decide +kernel⟩
  have hempty : ∀ d ∈ packer.table.all, d.slot.container? ≠ none → Record.empty d.field = [] :=
    fun _ _ _ => rfl
  obtain ⟨final, outcome, hparse, hheld, -⟩ := parse_inverts_rendering hbuilt
    (by decide +kernel) packer_expresses hrendered hempty (.empty "/")
  exact ⟨by decide +kernel, final, outcome, hparse, hheld⟩

end Parser

end CommandLine
