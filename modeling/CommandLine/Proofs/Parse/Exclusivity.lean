import CommandLine.Proofs.Parse.Destination
import CommandLine.Proofs.Parse.References

/-!
# Exclusive arguments

An exclusive argument has to be alone in the list that names it.  What counts as a list is the
command line itself, and the tokens of each response file, for a parse judges every token by the
length of its own list.  So a file can hold nothing but an exclusive argument while more arguments
stand beside the reference to that file.
-/

namespace CommandLine

open Expansion (Expands)

namespace Expansion

/-! ### Lists of arguments -/

/-- The list is the command line, or the tokens of a file that a list before it refers to. -/
def Source.Reads (source : Source) (arguments list : List String) : Prop :=
  ∃ trail, Trail source arguments list trail

theorem inside_subset_eventsOf {source : Source}
    {inside : String → List String → List Event} {arguments tokens : List String} {path : String}
    (hrefers : source.Refers arguments path) (hread : source.read path = .ok tokens) :
    inside path tokens ⊆ eventsOf source inside arguments := by
  intro event hevent
  rw [eventsOf_eq_flatMap]
  refine List.mem_flatMap.mpr ⟨.responseFile path, hrefers, ?_⟩
  rwa [eventsOfToken_of_read hread]

theorem token_mem_eventsOf_iff {source : Source} {inside : String → List String → List Event}
    {arguments : List String} {count : Nat} {token : Token} :
    Event.token count token ∈ eventsOf source inside arguments ↔
      (token.reference? = none ∧ arguments.length = count ∧
          token ∈ Token.ofArguments source.enabled arguments) ∨
        ∃ path tokens, source.Refers arguments path ∧ source.read path = .ok tokens ∧
          Event.token count token ∈ inside path tokens := by
  constructor
  · intro hmem
    rw [eventsOf_eq_flatMap] at hmem
    obtain ⟨written, hwritten, hevent⟩ := List.mem_flatMap.mp hmem
    cases written with
    | named text name value =>
        obtain ⟨rfl, rfl⟩ := Event.token.inj (List.mem_singleton.mp hevent)
        exact .inl ⟨rfl, rfl, hwritten⟩
    | positional value =>
        obtain ⟨rfl, rfl⟩ := Event.token.inj (List.mem_singleton.mp hevent)
        exact .inl ⟨rfl, rfl, hwritten⟩
    | responseFile path =>
        rcases eventsOfToken_reference_cases source inside arguments.length path with
          ⟨failure, hevents, -⟩ | ⟨tokens, hread, hevents⟩
        · simp [hevents] at hevent
        · exact .inr ⟨path, tokens, hwritten, hread, hevents ▸ hevent⟩
  · rintro (⟨hreference, rfl, htoken⟩ | ⟨path, tokens, hrefers, hread, hinside⟩)
    · rw [eventsOf_eq_flatMap]
      refine List.mem_flatMap.mpr ⟨token, htoken, ?_⟩
      have hplain : ∀ path, token ≠ .responseFile path := by
        rintro path rfl
        contradiction
      rw [eventsOfToken_of_plain hplain]
      exact List.mem_singleton_self _
    · exact inside_subset_eventsOf hrefers hread hinside

theorem Trail.exists_reads_of_token_mem {source : Source}
    {arguments current trail : List String} (htrail : Trail source arguments current trail)
    {depth count : Nat} {token : Token}
    (hmem : Event.token count token ∈ eventsWithin source depth current) :
    token.reference? = none ∧ ∃ list, source.Reads arguments list ∧ list.length = count ∧
      token ∈ Token.ofArguments source.enabled list := by
  induction depth generalizing current trail with
  | zero =>
      rcases token_mem_eventsOf_iff.mp hmem with
        ⟨hreference, hlength, htoken⟩ | ⟨path, tokens, -, -, hinside⟩
      · exact ⟨hreference, current, ⟨trail, htrail⟩, hlength, htoken⟩
      · simp at hinside
  | succ depth ih =>
      rcases token_mem_eventsOf_iff.mp hmem with
        ⟨hreference, hlength, htoken⟩ | ⟨path, tokens, hrefers, hread, hinside⟩
      · exact ⟨hreference, current, ⟨trail, htrail⟩, hlength, htoken⟩
      · exact ih (htrail.into hrefers hread) hinside

/-- Without a failure every list that is read contributes all its tokens. -/
theorem Trail.exists_eventsWithin_subset {source : Source} {arguments current trail : List String}
    (hnone : ∀ error, Event.failure error ∉ events source arguments)
    (htrail : Trail source arguments current trail) :
    ∃ depth, eventsWithin source depth current ⊆ events source arguments := by
  induction htrail with
  | start => exact ⟨source.depth, List.Subset.refl _⟩
  | @into current tokens path trail hbefore hrefers hread ih =>
      obtain ⟨depth, hsubset⟩ := ih
      cases depth with
      | zero =>
          -- a file at the end of the depth would be a failure
          have hfailure := hsubset (inside_subset_eventsOf hrefers hread List.mem_cons_self)
          exact absurd hfailure (hnone (.responseFileCycle path))
      | succ depth =>
          refine ⟨depth, fun event hevent => hsubset ?_⟩
          exact inside_subset_eventsOf hrefers hread hevent

/-- Without a failure the tokens of an expansion are those of the lists that are read. -/
theorem token_mem_events_iff {source : Source} {arguments : List String}
    (hnone : ∀ error, Event.failure error ∉ events source arguments) {count : Nat}
    {token : Token} :
    Event.token count token ∈ events source arguments ↔
      token.reference? = none ∧ ∃ list, source.Reads arguments list ∧ list.length = count ∧
        token ∈ Token.ofArguments source.enabled list := by
  constructor
  · intro hmem
    exact Trail.start.exists_reads_of_token_mem hmem
  · rintro ⟨hreference, list, ⟨trail, htrail⟩, hlength, htoken⟩
    obtain ⟨depth, hsubset⟩ := htrail.exists_eventsWithin_subset hnone
    obtain ⟨inside, hinside⟩ := eventsWithin_eq_eventsOf source depth
    apply hsubset
    rw [hinside, token_mem_eventsOf_iff]
    exact .inl ⟨hreference, hlength, htoken⟩

end Expansion

/-! ### Arguments that stand alone -/

namespace Parser

/-- An argument on a command line is an occurrence of an argument of the table. -/
def Gives (p : Parser) (d : Declaration) (argument : String) : Prop :=
  ∃ token value, Token.classify p.responseFiles argument = some token ∧
    p.table.resolve token = some (d, value)

theorem takeArguments_exclusive {p : Parser} (hbuilt : p.table.Built) {files : FileSystem}
    {arguments list : List String} {s : State} (hok : p.takeArguments files arguments = .ok s)
    {d : Declaration} (hd : d ∈ p.table.named) (hexclusive : d.policy.exclusive = true)
    (hreads : (p.source files).Reads arguments list) {argument : String}
    (hargument : argument ∈ list) (hgives : p.Gives d argument) : list = [argument] := by
  obtain ⟨token, value, hclassify, hresolve⟩ := hgives
  have hnone := failure_notMem_events_of_takeArguments hbuilt.coherent hok
  have htoken : token ∈ Token.ofArguments p.responseFiles list :=
    List.mem_filterMap.mpr ⟨argument, hargument, hclassify⟩
  have hreference : token.reference? = none := by
    cases token with
    | named written name text => rfl
    | positional text => rfl
    | responseFile path => contradiction
  have hevent : Event.token list.length token ∈ Expansion.events (p.source files) arguments :=
    (Expansion.token_mem_events_iff hnone).mpr ⟨hreference, list, hreads, rfl, htoken⟩
  have hfault := (named_fault_eq_none_of_takeArguments hbuilt hok hd hevent hresolve).2
  have hlength : list.length ≤ 1 := by
    simpa [Fault.exclusive?, hexclusive] using hfault
  obtain ⟨only, rfl⟩ : ∃ only, list = [only] := by
    apply List.length_eq_one_iff.mp
    have hpositive := List.length_pos_of_mem hargument
    omega
  rw [List.mem_singleton.mp hargument]

theorem exists_gives_of_values {p : Parser} (hcoherent : p.table.Coherent) {files : FileSystem}
    {arguments flat : List String} {s : State} (hok : p.takeArguments files arguments = .ok s)
    (hflat : Expands (p.source files) arguments flat) {d : Declaration} (hd : d ∈ p.table.all)
    (hseen : p.values flat d ≠ []) :
    ∃ list, (p.source files).Reads arguments list ∧ ∃ argument ∈ list, p.Gives d argument := by
  have hnone := failure_notMem_events_of_takeArguments hcoherent hok
  obtain ⟨count, token, value, hevent, hresolve⟩ :=
    exists_event_of_values hcoherent hok hflat hd hseen
  obtain ⟨-, list, hreads, -, hmem⟩ := (Expansion.token_mem_events_iff hnone).mp hevent
  obtain ⟨argument, hargument, hclassify⟩ := List.mem_filterMap.mp hmem
  exact ⟨list, hreads, argument, hargument, token, value, hclassify, hresolve⟩

/-- After a successful parse every occurrence of an exclusive named argument is all that its list
holds, and one on the command line is all that there is. -/
theorem parse_exclusive_alone {p : Parser} (hbuilt : p.table.Built) {files : FileSystem}
    {arguments : List String} {destination final : Record} {outcome : Outcome}
    (hparse : p.parse files arguments destination = (final, .ok outcome)) {d : Declaration}
    (hd : d ∈ p.table.named) (hexclusive : d.policy.exclusive = true) :
    (∀ list, (p.source files).Reads arguments list →
        ∀ argument ∈ list, p.Gives d argument → list = [argument]) ∧
      (∀ flat, Expands (p.source files) arguments flat → p.values flat d ≠ [] →
        ∃ argument, (p.source files).Reads arguments [argument] ∧ p.Gives d argument) ∧
      ∀ argument ∈ arguments, p.Gives d argument →
        Expands (p.source files) arguments [argument] := by
  obtain ⟨s, htake, -⟩ := parse_ok hparse
  have halone : ∀ list, (p.source files).Reads arguments list →
      ∀ argument ∈ list, p.Gives d argument → list = [argument] := by
    intro list hreads argument hargument hgives
    exact takeArguments_exclusive hbuilt htake hd hexclusive hreads hargument hgives
  refine ⟨halone, ?_, ?_⟩
  · intro flat hflat hseen
    have hall : d ∈ p.table.all := List.mem_append_left _ hd
    obtain ⟨list, hreads, argument, hargument, hgives⟩ :=
      exists_gives_of_values hbuilt.coherent htake hflat hall hseen
    obtain rfl := halone list hreads argument hargument hgives
    exact ⟨argument, hreads, hgives⟩
  · intro argument hargument hgives
    obtain rfl := halone arguments ⟨[], .start⟩ argument hargument hgives
    apply Expands.of_plain
    intro path hpath
    obtain ⟨token, value, hclassify, hresolve⟩ := hgives
    have hreference : some token = some (.responseFile path) := by
      obtain ⟨written, hwritten, hother⟩ := List.mem_filterMap.mp hpath
      rw [← hclassify, ← hother, List.mem_singleton.mp hwritten]
      rfl
    obtain rfl := Option.some.inj hreference
    contradiction

/-- The command line of a program that shows files; help is shown alone. -/
def viewer : Parser where
  table := .ofDraftsD
    [⟨"help", "help", .single .toggle, [.short "h", .flag .exclusive]⟩,
      ⟨"quiet", "quiet", .single .toggle, []⟩]
  responseFiles := true

theorem viewer_built : viewer.table.Built := by
  dsimp only [viewer]
  exact Table.ofDraftsD_built _

/-- One file, which holds `-h`. -/
def helpFiles : FileSystem :=
  (FileSystem.empty "/").addFile "/help" [0x2D, 0x68]

theorem viewer_read_help : (viewer.source helpFiles).read "help" = .ok ["-h"] := by
  have hresolve : helpFiles.resolve "help" = .ok ["help".toList] :=
    FileSystem.resolve_of_foldlM (by decide) (by simp) (by decide) (by decide)
  have hnode : helpFiles.nodeAt ["help".toList] = some (.file [0x2D, 0x68]) := by decide
  have hdecode : (viewer.source helpFiles).encoding.decode [0x2D, 0x68] = .ok "-h".toList := by
    decide +kernel
  rw [Expansion.Source.read_of_resolve hresolve hnode hdecode]
  cbv

theorem viewer_refersPlainly :
    (viewer.source helpFiles).RefersPlainly ["@help", "-quiet"] :=
  Expansion.Source.refersPlainly_of_read (by decide) viewer_read_help (by decide)

theorem viewer_expands_help :
    Expands (viewer.source helpFiles) ["@help", "-quiet"] ["-h", "-quiet"] := by
  have hreference : Token.classify true "@help" = some (.responseFile "help") := by
    decide
  have hinner : Token.Plain true ["-h"] := by decide
  have hlast : Token.Plain true ["-quiet"] := by decide
  exact .follow hreference viewer_read_help (.of_plain hinner) (.of_plain hlast)

theorem viewer_events_help :
    Expansion.events (viewer.source helpFiles) ["@help", "-quiet"] =
      [.token 1 (.named "-h" "h" none), .token 2 (.named "-quiet" "quiet" none)] := by
  have htokens : Token.ofArguments (viewer.source helpFiles).enabled ["@help", "-quiet"] =
      [.responseFile "help", .named "-quiet" "quiet" none] := by
    decide
  have hinner : Token.ofArguments (viewer.source helpFiles).enabled ["-h"] =
      [.named "-h" "h" none] := by
    decide
  have hplain : Token.Plain (viewer.source helpFiles).enabled ["-h"] := by decide
  have hdepth : (viewer.source helpFiles).depth = 7 := by decide
  unfold Expansion.events
  rw [hdepth, Expansion.eventsWithin, Expansion.eventsOf_eq_flatMap, htokens,
    List.flatMap_cons, Expansion.eventsOfToken_of_read viewer_read_help,
    Expansion.eventsWithin_of_plain hplain, hinner]
  rfl

theorem viewer_parses_help :
    (viewer.parse helpFiles ["@help", "-quiet"] .empty).2 = .ok ⟨false, []⟩ := by
  unfold parse takeArguments
  rw [viewer_events_help]
  decide

/-- The option for help is alone in its file. -/
theorem viewer_reads_help_alone :
    ∃ help ∈ viewer.table.named, help.policy.exclusive = true ∧
      (∀ list, (viewer.source helpFiles).Reads ["@help", "-quiet"] list →
        ∀ argument ∈ list, viewer.Gives help argument → list = [argument]) ∧
      ∃ argument, (viewer.source helpFiles).Reads ["@help", "-quiet"] [argument] ∧
        viewer.Gives help argument := by
  have hseen : ∃ help ∈ viewer.table.named, help.policy.exclusive = true ∧
      viewer.values ["-h", "-quiet"] help ≠ [] := by
    decide
  obtain ⟨help, hhelp, hexclusive, hvalues⟩ := hseen
  obtain ⟨halone, hgiven, -⟩ :=
    parse_exclusive_alone viewer_built (Prod.ext rfl viewer_parses_help) hhelp hexclusive
  exact ⟨help, hhelp, hexclusive, halone, hgiven _ viewer_expands_help hvalues⟩

/-- Yet it is not alone after the expansion, since each list is counted for itself. -/
theorem viewer_shows_help_beside_quiet :
    viewer.table.Built ∧ (viewer.source helpFiles).Acyclic ["@help", "-quiet"] ∧
      (viewer.parse helpFiles ["@help", "-quiet"] .empty).2 = .ok ⟨false, []⟩ ∧
        Expands (viewer.source helpFiles) ["@help", "-quiet"] ["-h", "-quiet"] ∧
          (∃ help ∈ viewer.table.all, help.policy.exclusive = true ∧
            viewer.values ["-h", "-quiet"] help = [none]) ∧
              ∀ argument, ["-h", "-quiet"].filter (· ≠ "") ≠ [argument] := by
  refine ⟨viewer_built, viewer_refersPlainly.acyclic, viewer_parses_help, viewer_expands_help,
    by decide, ?_⟩
  intro argument hfilter
  simp at hfilter

end Parser

end CommandLine
