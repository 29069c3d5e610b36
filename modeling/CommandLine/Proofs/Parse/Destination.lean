import CommandLine.Proofs.Parse.Binding
import CommandLine.Proofs.Parse.Phases

/-!
# The destination after a parse

The two phases put together.  After a successful parse every field holds what its argument makes of
the values that it was given, wherever they stood on the fully expanded command line.  After a
failed one the error tells which fields have been written.
-/

namespace CommandLine

open Expansion (Expands)

namespace Parser

/-- The values of one argument on a fully expanded command line, in order. -/
def values (p : Parser) (flat : List String) (d : Declaration) : List (Option String) :=
  p.table.occurrences d (Token.ofArguments p.responseFiles flat)

/-- The tokens of the full expansion are among the events. -/
theorem exists_event_of_token {p : Parser} (hcoherent : p.table.Coherent)
    {files : FileSystem} {arguments flat : List String} {s : State}
    (hok : p.takeArguments files arguments = .ok s)
    (hflat : Expands (p.source files) arguments flat) {token : Token}
    (htoken : token ∈ Token.ofArguments p.responseFiles flat) :
    ∃ count, Event.token count token ∈ Expansion.events (p.source files) arguments := by
  obtain ⟨expanded, hexpanded, htokens⟩ :=
    Expansion.expands_of_events (failure_notMem_events_of_takeArguments hcoherent hok)
  obtain rfl := hexpanded.unique hflat
  rw [show p.responseFiles = (p.source files).enabled from rfl, ← htokens] at htoken
  obtain ⟨event, hevent, hwritten⟩ := List.mem_filterMap.mp htoken
  cases event with
  | failure error => contradiction
  | token count written =>
      obtain rfl := Option.some.inj hwritten
      exact ⟨count, hevent⟩

/-- What has a value on the full expansion has a token among the events. -/
theorem exists_event_of_values {p : Parser} (hcoherent : p.table.Coherent)
    {files : FileSystem} {arguments flat : List String} {s : State}
    (hok : p.takeArguments files arguments = .ok s)
    (hflat : Expands (p.source files) arguments flat) {d : Declaration} (hd : d ∈ p.table.all)
    (hseen : p.values flat d ≠ []) :
    ∃ count token value,
      Event.token count token ∈ Expansion.events (p.source files) arguments ∧
        p.table.resolve token = some (d, value) := by
  obtain ⟨value, hvalue⟩ := List.exists_mem_of_ne_nil _ hseen
  obtain ⟨token, htoken, owner, hresolve, hlong⟩ := Table.mem_occurrences_iff.mp hvalue
  obtain rfl := hcoherent.eq_of_long (Table.mem_all_of_resolve hresolve) hd hlong
  obtain ⟨count, hevent⟩ := exists_event_of_token hcoherent hok hflat htoken
  exact ⟨count, token, value, hevent, hresolve⟩

/-- After the first phase every argument holds the values of the full expansion. -/
theorem takeArguments_held {p : Parser} (hbuilt : p.table.Built) {files : FileSystem}
    {arguments : List String} {s : State} (hok : p.takeArguments files arguments = .ok s) :
    ∃ flat, Expands (p.source files) arguments flat ∧
      s.held = Binding.heldAfter (p.values flat) p.table.all ∧
        ∀ d ∈ p.table.all, Binding.Readable d (p.values flat d) := by
  obtain ⟨flat, hflat, rfl, haccepted⟩ := takeArguments_ok hbuilt.coherent hok
  refine ⟨flat, hflat, rfl, ?_⟩
  intro d hd
  exact Binding.readable_of_accepted hbuilt.coherent haccepted hd

/-- After a successful parse the command line has a full expansion, and each field is determined by
what it held and by the values that its argument has there. -/
theorem parse_settles_fields {p : Parser} (hbuilt : p.table.Built)
    (hfields : (p.table.all.map Declaration.field).Nodup)
    {files : FileSystem} {arguments : List String} {destination final : Record}
    {outcome : Outcome}
    (hparse : p.parse files arguments destination = (final, .ok outcome)) :
    (∃ flat, Expands (p.source files) arguments flat) ∧
      ∀ flat, Expands (p.source files) arguments flat →
        (∀ d ∈ p.table.all, ∀ contents,
          d.slot.Settles (destination d.field) (p.values flat d) contents ↔
            contents = final d.field) ∧
        ∀ field, (∀ d ∈ p.table.all, d.field ≠ field) → final field = destination field := by
  obtain ⟨s, htake, hbind, -⟩ := parse_ok hparse
  obtain ⟨expanded, hexpanded, hheld, hreadable⟩ := takeArguments_held hbuilt htake
  rw [hheld] at hbind
  have hbound := Binding.bindAll_bound hreadable hfields hbind
  refine ⟨⟨expanded, hexpanded⟩, ?_⟩
  intro flat hflat
  obtain rfl := hexpanded.unique hflat
  refine ⟨?_, hbound.other⟩
  intro d hd contents
  constructor
  · intro hcontents
    exact hcontents.unique (hbound.settles d hd)
  · rintro rfl
    exact hbound.settles d hd

/-- Occurrences of all arguments, in no particular order. -/
theorem copier_settles_interleaved :
    ∃ flat, Expands (copier.source (.empty "/"))
        ["-exclude:x", "w", "-define:a=b=c", "-exclude:y", "-target:t", "-f-", "z"] flat ∧
      ∀ d ∈ copier.table.all, d.slot.Settles [] (copier.values flat d)
        ((copier.parse (.empty "/")
          ["-exclude:x", "w", "-define:a=b=c", "-exclude:y", "-target:t", "-f-", "z"]
          .empty).1 d.field) := by
  have hparse : (copier.parse (.empty "/")
      ["-exclude:x", "w", "-define:a=b=c", "-exclude:y", "-target:t", "-f-", "z"] .empty).2 =
      .ok ⟨false, []⟩ := by decide +kernel
  have hsettles := parse_settles_fields copier_built (by decide +kernel) (Prod.ext rfl hparse)
  obtain ⟨⟨flat, hflat⟩, hfields⟩ := hsettles
  refine ⟨flat, hflat, ?_⟩
  intro d hd
  exact ((hfields flat hflat).1 d hd _).mpr rfl

/-- After a failed parse nothing has been written, unless the error comes from binding.  Then all
arguments before the one that it names are settled, and of that one no more is written than its
container took. -/
theorem parse_error_leaves {p : Parser} (hbuilt : p.table.Built)
    (hfields : (p.table.all.map Declaration.field).Nodup)
    {files : FileSystem} {arguments : List String} {destination final : Record}
    {error : ArgumentError}
    (hparse : p.parse files arguments destination = (final, .error error)) :
    (error.isBinding = false → final = destination) ∧
      (error.isBinding = true →
        ∃ flat before d after, Expands (p.source files) arguments flat ∧
          p.table.all = before ++ d :: after ∧
            Binding.StoppedAt (p.values flat) destination final before d ∧
              (∀ e ∈ after, final e.field = destination e.field) ∧
                Binding.Blames d (p.values flat d) (destination d.field) (final d.field) error) ∧
      ((∀ d ∈ p.table.all, d.slot.IsStandard (destination d.field)) →
        ∀ name cause, error ≠ .refused name cause) := by
  rcases parse_error hparse with ⟨htake, hfinal⟩ | ⟨s, htake, hbind⟩
  · have hkind := takeArguments_error_isBinding hbuilt.coherent htake
    refine ⟨fun _ => hfinal, ?_, ?_⟩
    · intro hbinding
      rw [hkind] at hbinding
      contradiction
    · rintro - name cause rfl
      contradiction
  · obtain ⟨flat, hflat, hheld, hreadable⟩ := takeArguments_held hbuilt htake
    rw [hheld] at hbind
    obtain ⟨before, d, after, hsplit, hstopped, hblames⟩ :=
      Binding.bindAll_stoppedAt hreadable hfields hbind
    have hkind := Binding.bindAll_isBinding hbind
    have hlater := hstopped.later (hsplit ▸ hfields)
    refine ⟨?_, fun _ => ⟨flat, before, d, after, hflat, hsplit, hstopped, hlater, hblames⟩, ?_⟩
    · intro hbinding
      rw [hkind] at hbinding
      contradiction
    · rintro hstandard name cause rfl
      have hd : d ∈ p.table.all := by
        rw [hsplit]
        simp
      exact (hstandard d hd).not_stopsAt hblames.2

/-- The command line of a program that collects files, and folders from the shortest to the
longest. -/
def collector : Parser where
  table := .ofDraftsD
    [⟨"folder", "folders", .collection .path
        (.sortedSetBy fun first second => first.written.length < second.written.length), []⟩,
      ⟨"tag", "tags", .collection .text .arrivalSet, [.flag .unique]⟩,
      ⟨"define", "defines", .map .arrivalMap, []⟩,
      ⟨"size", "sizes", .collection (.integer ⟨false, 64⟩) .sortedSet, [.flag .required]⟩,
      ⟨"files", "files", .collection .path .list, [.positional]⟩]
  responseFiles := true

theorem collector_built : collector.table.Built := by
  dsimp only [collector]
  exact Table.ofDraftsD_built _

/-- Of its sets and maps, two are taken for hashed ones. -/
theorem collector_isStandard :
    ∀ d ∈ collector.table.all, d.slot.IsStandard (Record.empty d.field) := by
  intro d hd
  obtain ⟨draft, hdraft, rfl⟩ := Table.exists_draft_of_mem hd
  simp only [List.mem_cons, List.not_mem_nil, or_false] at hdraft
  have hvalues : Container.Once [] := List.Pairwise.nil
  have hnames : (Container.names []).Nodup := List.nodup_nil
  rcases hdraft with rfl | rfl | rfl | rfl | rfl
  · exact .sortedSet _ _
  · exact .hashedSet _ Container.arrivalSet_isHashedSet hvalues rfl
  · exact .hashedMap Container.arrivalMap_isHashedMap hnames rfl
  · exact .sortedSet _ _
  · exact .list _

/-- The third exclusion is refused, and no file is written.  Where all sets and maps are of the
library, nothing is ever refused. -/
theorem copier_leaves_exclusions :
    (∃ flat before d after,
      Expands (copier.source (.empty "/"))
        ["-exclude:x", "-exclude:y", "w", "-force", "-exclude:z"] flat ∧
      copier.table.all = before ++ d :: after ∧
        (∀ e ∈ after, (copier.parse (.empty "/")
          ["-exclude:x", "-exclude:y", "w", "-force", "-exclude:z"] .empty).1 e.field = []) ∧
          d.slot.StopsAt [] (copier.values flat d)
            ((copier.parse (.empty "/")
              ["-exclude:x", "-exclude:y", "w", "-force", "-exclude:z"] .empty).1 d.field)
            ⟨"too many"⟩) ∧
      ∀ files arguments name cause,
        (collector.parse files arguments .empty).2 ≠ .error (.refused name cause) := by
  constructor
  · have hparse : (copier.parse (.empty "/")
        ["-exclude:x", "-exclude:y", "w", "-force", "-exclude:z"] .empty).2 =
        .error (.refused "exclude" ⟨"too many"⟩) := by decide +kernel
    have hleaves := parse_error_leaves copier_built (by decide +kernel) (Prod.ext rfl hparse)
    obtain ⟨flat, before, d, after, hflat, hsplit, -, hlater, -, hstops⟩ := hleaves.2.1 rfl
    exact ⟨flat, before, d, after, hflat, hsplit, hlater, hstops⟩
  · intro files arguments name cause hrefused
    have hleaves := parse_error_leaves collector_built (by decide +kernel) (Prod.ext rfl hrefused)
    exact hleaves.2.2 collector_isStandard name cause rfl

end Parser

end CommandLine
