import CommandLine.Proofs.Parse.Respelling
import CommandLine.Proofs.Parse.Succession

/-!
# What a successful parse tells

Besides the destination a parse gives its warnings, and whether there were any arguments.  A walk
along the full expansion of the command line tells the same: each option that stands for an obsolete
argument brings one warning, in its place, and there were no arguments if nothing but empty ones is
left.  In that case the arrays are emptied and all other fields stay.
-/

namespace CommandLine

open Expansion (Expands)

/-! ### Warnings along a walk -/

/-- The warnings of a walk along some tokens. -/
inductive Table.Warns (t : Table) : List Token → List String → Prop
  | done : Warns t [] []
  | obsolete {written name : String} {value : Option String} {d : Declaration}
      {o : Obsolescence} {rest : List Token} {warnings : List String} :
      d ∈ t.named → t.Calls d name → d.obsolescence = some o → Warns t rest warnings →
        Warns t (.named written name value :: rest)
          (obsolescenceNotice d.long o.message :: warnings)
  | current {written name : String} {value : Option String} {d : Declaration}
      {rest : List Token} {warnings : List String} :
      d ∈ t.named → t.Calls d name → d.obsolescence = none → Warns t rest warnings →
        Warns t (.named written name value :: rest) warnings
  | positional {value : String} {rest : List Token} {warnings : List String} :
      Warns t rest warnings → Warns t (.positional value :: rest) warnings

namespace Table

theorem notice?_named {t : Table} {name : String} {d : Declaration}
    (hfind : t.find name = some d) (written : String) (value : Option String) :
    t.notice? (.named written name value) =
      d.obsolescence.map fun o => obsolescenceNotice d.long o.message := by
  rw [notice?, hfind]
  rfl

/-- Where every token belongs to an argument, the walk brings the notice of each token. -/
theorem WellNamed.warns_iff {t : Table} (hnamed : t.WellNamed) {tokens : List Token}
    (hresolves : ∀ token ∈ tokens, t.resolve token ≠ none) {warnings : List String} :
    t.Warns tokens warnings ↔ tokens.filterMap t.notice? = warnings := by
  constructor
  · intro hwarns
    clear hresolves
    induction hwarns with
    | done => rfl
    | @obsolete written name value d o rest warnings hd hcalls hobsolete _ ih =>
        have hnotice := notice?_named ((hnamed.calls_iff hd).mp hcalls) written value
        rw [hobsolete] at hnotice
        rw [List.filterMap_cons_some hnotice, ih]
    | @current written name value d rest warnings hd hcalls hobsolete _ ih =>
        have hnotice := notice?_named ((hnamed.calls_iff hd).mp hcalls) written value
        rw [hobsolete] at hnotice
        rw [List.filterMap_cons_none hnotice, ih]
    | positional _ ih => rw [List.filterMap_cons_none rfl, ih]
  · rintro rfl
    induction tokens with
    | nil => exact .done
    | cons token rest ih =>
        have hrest := ih fun other hother => hresolves other (List.mem_cons_of_mem _ hother)
        cases token with
        | positional value => exact .positional hrest
        | responseFile path => exact absurd rfl (hresolves _ List.mem_cons_self)
        | named written name value =>
            obtain ⟨d, hfind⟩ : ∃ d, t.find name = some d := by
              apply Option.ne_none_iff_exists'.mp
              intro hnone
              exact hresolves _ List.mem_cons_self (by simp [resolve, hnone])
            have hd := mem_named_of_find hfind
            have hcalls := (hnamed.calls_iff hd).mpr hfind
            have hnotice := notice?_named hfind written value
            cases hobsolete : d.obsolescence with
            | none =>
                rw [hobsolete] at hnotice
                rw [List.filterMap_cons_none hnotice]
                exact .current hd hcalls hobsolete hrest
            | some o =>
                rw [hobsolete] at hnotice
                rw [List.filterMap_cons_some hnotice]
                exact .obsolete hd hcalls hobsolete hrest

end Table

/-! ### Fields when nothing was given -/

theorem Slot.exists_array_of_kind {slot : Slot} (hkind : slot.kind = .array) :
    ∃ type, slot = .array type := by
  cases slot with
  | single type =>
      cases htoggle : type.isToggle <;> simp [Slot.kind, htoggle] at hkind
  | optional type =>
      cases htoggle : type.isToggle <;> simp [Slot.kind, htoggle] at hkind
  | array type => exact ⟨type, rfl⟩
  | collection type container => contradiction
  | map container => contradiction

namespace Binding

/-- An argument that was not given leaves its field alone, unless it is an array. -/
theorem bindOne_unseen {r next : Record} {d : Declaration}
    (hbind : bindOne r (.after d []) = (next, none)) :
    next = if d.kind = .array then r.set d.field [] else r := by
  unfold bindOne Held.after at hbind
  by_cases hrequired : d.policy.required = true
  · simp [hrequired] at hbind
  · by_cases hkind : d.kind = .array
    · obtain ⟨type, hslot⟩ := Slot.exists_array_of_kind hkind
      have hnext : r.set d.field [] = next := by
        simpa [hrequired, hkind, hslot, Slot.bind] using hbind
      rw [if_pos hkind, hnext]
    · have hnext : r = next := by
        simpa [hrequired, hkind] using hbind
      rw [if_neg hkind, hnext]

/-- Where nothing was given only arrays are written, and they become empty. -/
theorem bindAll_unseen {initial final : Record} {ds : List Declaration}
    {values : Declaration → List (Option String)} (hnone : ∀ d ∈ ds, values d = [])
    (hbind : bindAll initial (heldAfter values ds) = (final, none)) (field : String) :
    ((∃ d ∈ ds, d.kind = .array ∧ d.field = field) → final field = []) ∧
      ((∀ d ∈ ds, d.kind = .array → d.field ≠ field) → final field = initial field) := by
  induction ds generalizing initial with
  | nil =>
      obtain ⟨rfl, -⟩ := Prod.mk.inj hbind
      simp
  | cons d ds ih =>
      obtain ⟨next, hone, hrest⟩ := bindAll_cons_ok hbind
      rw [hnone d List.mem_cons_self] at hone
      obtain ⟨harrays, hothers⟩ := ih (fun e he => hnone e (List.mem_cons_of_mem _ he)) hrest
      constructor
      · intro hfield
        by_cases hlater : ∃ e ∈ ds, e.kind = .array ∧ e.field = field
        · exact harrays hlater
        · -- only the first argument empties the field, and nothing is written there afterwards
          obtain ⟨e, he, hkind, rfl⟩ := hfield
          rcases List.mem_cons.mp he with rfl | hmem
          · rw [hothers fun other hother harray hsame => hlater ⟨other, hother, harray, hsame⟩,
              bindOne_unseen hone, if_pos hkind, Record.set_same]
          · exact absurd ⟨e, hmem, hkind, rfl⟩ hlater
      · intro hfield
        rw [hothers fun e he => hfield e (List.mem_cons_of_mem _ he), bindOne_unseen hone]
        split
        · next hkind => exact Record.set_other _ _ (hfield d List.mem_cons_self hkind).symm
        · rfl

end Binding

/-! ### Arguments that are left -/

theorem Token.ofArguments_eq_nil_iff {responseFiles : Bool} {arguments : List String} :
    ofArguments responseFiles arguments = [] ↔ ∀ argument ∈ arguments, argument = "" := by
  unfold ofArguments
  rw [List.filterMap_eq_nil_iff]
  simp only [classify_eq_none_iff]

/-- Something is seen as soon as one token belongs to an argument. -/
theorem Table.seen_iff {t : Table} {tokens : List Token}
    (hresolves : ∀ token ∈ tokens, t.resolve token ≠ none) :
    (∃ d ∈ t.all, t.occurrences d tokens ≠ []) ↔ tokens ≠ [] := by
  constructor
  · rintro ⟨d, -, hseen⟩ rfl
    exact hseen rfl
  · intro hne
    obtain ⟨token, htoken⟩ := List.exists_mem_of_ne_nil _ hne
    obtain ⟨⟨d, value⟩, hresolve⟩ := Option.ne_none_iff_exists'.mp (hresolves token htoken)
    have hvalue := mem_occurrences_iff.mpr ⟨token, htoken, d, hresolve, rfl⟩
    exact ⟨d, mem_all_of_resolve hresolve, List.ne_nil_of_mem hvalue⟩

namespace Parser

/-- A successful parse has taken the tokens of its full expansion, each by an argument. -/
theorem parse_ok_tokens {p : Parser} (hcoherent : p.table.Coherent) {files : FileSystem}
    {arguments : List String} {destination final : Record} {outcome : Outcome}
    (hparse : p.parse files arguments destination = (final, .ok outcome)) :
    ∃ flat, (∀ other, Expands (p.source files) arguments other ↔ other = flat) ∧
      (∀ token ∈ Token.ofArguments p.responseFiles flat, p.table.resolve token ≠ none) ∧
        Binding.bindAll destination (Binding.heldAfter (p.values flat) p.table.all) =
            (final, none) ∧
          outcome = ⟨!(State.after p.table (Token.ofArguments p.responseFiles flat)).anySeen,
            (State.after p.table (Token.ofArguments p.responseFiles flat)).warnings⟩ := by
  obtain ⟨s, htake, hbind, rfl⟩ := parse_ok hparse
  obtain ⟨flat, hflat, rfl, -⟩ := takeArguments_ok hcoherent htake
  refine ⟨flat, fun other => ⟨fun hother => hother.unique hflat, ?_⟩, ?_, hbind, rfl⟩
  · rintro rfl
    exact hflat
  · intro token htoken
    obtain ⟨count, hevent⟩ := exists_event_of_token hcoherent htake hflat htoken
    obtain ⟨before, hfault⟩ := exists_fault?_eq_none_of_takeArguments hcoherent htake hevent
    obtain ⟨d, value, hresolve, -⟩ := Table.fault?_eq_none_iff.mp hfault
    rw [hresolve]
    exact Option.some_ne_none _

/-- The command line of a program that merges files, with two arguments that are out of use. -/
def merger : Parser where
  table := .ofDraftsD
    [⟨"skip", "skip", .collection .text .list, [.short "s", .obsolete "Leave the file out."]⟩,
      ⟨"title", "title", .optional .text, [.obsolete "Name the first file instead."]⟩,
      ⟨"files", "files", .array .text, [.positional]⟩]
  responseFiles := true

theorem merger_built : merger.table.Built := by
  dsimp only [merger]
  exact Table.ofDraftsD_built _

/-- A file with arguments, and one that holds nothing but a remark. -/
def mergerFiles : FileSystem :=
  ((FileSystem.empty "/").addText "/more" "-s:b\n# y\nz").addText "/notes" "# y\n"

theorem merger_read_more : (merger.source mergerFiles).read "more" = .ok ["-s:b", "z"] := by
  have hresolve : mergerFiles.resolve "more" = .ok ["more".toList] :=
    FileSystem.resolve_of_foldlM (by decide) (by simp) (by decide) (by decide)
  rw [Expansion.Source.read_marked hresolve rfl]
  cbv

theorem merger_read_notes : (merger.source mergerFiles).read "notes" = .ok [] := by
  have hresolve : mergerFiles.resolve "notes" = .ok ["notes".toList] :=
    FileSystem.resolve_of_foldlM (by decide) (by simp) (by decide) (by decide)
  rw [Expansion.Source.read_marked hresolve rfl]
  cbv

theorem merger_expands_more :
    Expands (merger.source mergerFiles) ["-skip:a", "@more", "-title:r"]
      ["-skip:a", "-s:b", "z", "-title:r"] := by
  have hfirst : ∀ path, Token.classify true "-skip:a" ≠ some (.responseFile path) := by
    intro path hclassify
    rw [show Token.classify true "-skip:a" = some (.named "-skip:a" "skip" (some "a")) by decide]
      at hclassify
    simp at hclassify
  have hreference : Token.classify true "@more" = some (.responseFile "more") := by decide
  have hinner : Token.Plain true ["-s:b", "z"] := by decide
  have hlast : Token.Plain true ["-title:r"] := by decide
  exact .keep hfirst (.follow hreference merger_read_more (.of_plain hinner) (.of_plain hlast))

theorem merger_parse_more (destination : Record) :
    merger.parse mergerFiles ["-skip:a", "@more", "-title:r"] destination =
      merger.parse mergerFiles ["-skip:a", "-s:b", "z", "-title:r"] destination :=
  parse_of_refersPlainly (by decide)
    (Expansion.Source.refersPlainly_of_read (by decide) merger_read_more (by decide))
    merger_expands_more destination

theorem merger_expands_notes :
    Expands (merger.source mergerFiles) ["", "@notes"] [""] := by
  have hfirst : ∀ path, Token.classify true "" ≠ some (.responseFile path) := by
    intro path
    rw [Token.classify_eq_none_iff.mpr rfl]
    exact nofun
  have hreference : Token.classify true "@notes" = some (.responseFile "notes") := by decide
  exact .keep hfirst (.follow hreference merger_read_notes .nil .nil)

theorem merger_parse_notes (destination : Record) :
    merger.parse mergerFiles ["", "@notes"] destination =
      merger.parse mergerFiles [""] destination :=
  parse_of_refersPlainly (by decide)
    (Expansion.Source.refersPlainly_of_read (by decide) merger_read_notes (by decide))
    merger_expands_notes destination

/-- The warnings of a successful parse are those of a walk along the full expansion: one for each
use of an obsolete named argument, in order, and nothing else. -/
theorem parse_warns_along_expansion {p : Parser} (hbuilt : p.table.Built) {files : FileSystem}
    {arguments : List String} {destination final : Record} {outcome : Outcome}
    (hparse : p.parse files arguments destination = (final, .ok outcome)) :
    ∃ flat, (∀ other, Expands (p.source files) arguments other ↔ other = flat) ∧
      ∀ warnings, p.table.Warns (Token.ofArguments p.responseFiles flat) warnings ↔
        warnings = outcome.warnings := by
  obtain ⟨flat, hflat, hresolves, -, rfl⟩ := parse_ok_tokens hbuilt.coherent hparse
  refine ⟨flat, hflat, ?_⟩
  intro warnings
  rw [hbuilt.wellNamed.warns_iff hresolves, eq_comm]
  rfl

/-- Two warnings come from the command line, and the one between them from the file. -/
theorem merger_warns_within_more :
    (merger.parse mergerFiles ["-skip:a", "@more", "-title:r"] .empty).2 =
        .ok ⟨false,
          ["Command-line argument '-skip' is obsolete. Leave the file out.",
            "Command-line argument '-skip' is obsolete. Leave the file out.",
            "Command-line argument '-title' is obsolete. Name the first file instead."]⟩ ∧
      ∀ warnings,
        merger.table.Warns (Token.ofArguments true ["-skip:a", "-s:b", "z", "-title:r"])
            warnings ↔
          warnings =
            ["Command-line argument '-skip' is obsolete. Leave the file out.",
              "Command-line argument '-skip' is obsolete. Leave the file out.",
              "Command-line argument '-title' is obsolete. Name the first file instead."] := by
  have hok : (merger.parse mergerFiles ["-skip:a", "@more", "-title:r"] .empty).2 =
      .ok ⟨false,
        ["Command-line argument '-skip' is obsolete. Leave the file out.",
          "Command-line argument '-skip' is obsolete. Leave the file out.",
          "Command-line argument '-title' is obsolete. Name the first file instead."]⟩ := by
    rw [merger_parse_more]
    decide
  obtain ⟨flat, hflat, hwarns⟩ := parse_warns_along_expansion merger_built (Prod.ext rfl hok)
  obtain rfl := (hflat _).mp merger_expands_more
  exact ⟨hok, hwarns⟩

/-- A successful parse tells that there were no arguments exactly if the full expansion holds none
but empty ones.  Then the arrays are empty afterwards, and no other field has changed. -/
theorem parse_tells_no_arguments {p : Parser} (hbuilt : p.table.Built) {files : FileSystem}
    {arguments : List String} {destination final : Record} {outcome : Outcome}
    (hparse : p.parse files arguments destination = (final, .ok outcome)) :
    ∃ flat, (∀ other, Expands (p.source files) arguments other ↔ other = flat) ∧
      (outcome.noArguments = true ↔ ∀ argument ∈ flat, argument = "") ∧
      (outcome.noArguments = true → ∀ field,
        ((∃ d ∈ p.table.all, d.kind = .array ∧ d.field = field) → final field = []) ∧
          ((∀ d ∈ p.table.all, d.kind = .array → d.field ≠ field) →
            final field = destination field)) := by
  obtain ⟨flat, hflat, hresolves, hbind, rfl⟩ := parse_ok_tokens hbuilt.coherent hparse
  have hseen : (State.after p.table (Token.ofArguments p.responseFiles flat)).anySeen = true ↔
      Token.ofArguments p.responseFiles flat ≠ [] := by
    rw [State.anySeen_after_iff, Table.seen_iff hresolves]
  have hnone : (!(State.after p.table (Token.ofArguments p.responseFiles flat)).anySeen) = true ↔
      Token.ofArguments p.responseFiles flat = [] := by
    rw [Bool.not_eq_true', ← Bool.not_eq_true, hseen, not_not]
  refine ⟨flat, hflat, hnone.trans Token.ofArguments_eq_nil_iff, ?_⟩
  intro htold field
  have hvalues : ∀ d ∈ p.table.all, p.values flat d = [] := by
    intro d _
    unfold values
    rw [hnone.mp htold]
    rfl
  exact Binding.bindAll_unseen hvalues hbind field

/-- Whatever was in the fields before, an empty argument and a remark in a file leave nothing but an
empty list of files. -/
theorem merger_empties_files :
    ∃ final, merger.parse mergerFiles ["", "@notes"] (fun field => [.value (.text field)]) =
        (final, .ok ⟨true, []⟩) ∧
      final "files" = [] ∧ final "title" = [.value (.text "title")] := by
  have hok : (merger.parse mergerFiles ["", "@notes"] (fun field => [.value (.text field)])).2 =
      .ok ⟨true, []⟩ := by
    rw [merger_parse_notes]
    decide
  obtain ⟨flat, hflat, hnone, hfields⟩ := parse_tells_no_arguments merger_built (Prod.ext rfl hok)
  refine ⟨_, Prod.ext rfl hok, ?_, ?_⟩
  · exact (hfields rfl "files").1 (by decide)
  · exact (hfields rfl "title").2 (by decide)

end Parser

end CommandLine
