import CommandLine.Proofs.Parse.Outcome
import CommandLine.Proofs.Parse.References
import Mathlib.Data.Set.Card
import Mathlib.Data.Set.Finite.Lattice
import Mathlib.Data.Set.Finite.List

/-!
# Files within files

Loading a list of arguments visits one after the other, and a visit to a reference loads the tokens
of a file.  Nothing in this bounds how deep files are nested, and a cycle of references is followed
for ever.  Without a cycle every load comes to an end, the one that is computed from events, and
files are never nested deeper than there are paths to refer to.
-/

namespace CommandLine

open Expansion (Trail eventsOfToken eventsWithin)

namespace Expansion.Source

/-! ### The graph of references -/

/-- The paths that are referred to on a command line or in a file that it leads to. -/
def paths (source : Source) (arguments : List String) : Set String :=
  {path | source.Reachable arguments path}

theorem finite_refers (source : Source) (arguments : List String) :
    {path | source.Refers arguments path}.Finite := by
  simp only [refers_iff]
  exact List.finite_toSet _

theorem finite_leads (source : Source) (path : String) :
    {next | source.Leads path next}.Finite := by
  cases hread : source.read path with
  | error cause =>
      apply Set.finite_empty.subset
      rintro next ⟨tokens, hother, -⟩
      exact nomatch hread.symm.trans hother
  | ok tokens =>
      simp only [leads_iff_of_read hread]
      exact source.finite_refers tokens

/-- All paths to one place lead to the same paths, and there are finitely many places. -/
theorem finite_paths (source : Source) (arguments : List String) :
    (source.paths arguments).Finite := by
  have hplaces : (⋃ place ∈ {place | place ∈ source.places},
      {next | ∃ path, source.files.resolve path = place ∧ source.Leads path next}).Finite := by
    apply (List.finite_toSet source.places).biUnion
    intro place _
    by_cases hplace : ∃ path, source.files.resolve path = place
    · obtain ⟨path, hpath⟩ := hplace
      apply (source.finite_leads path).subset
      rintro next ⟨other, hother, hleads⟩
      exact leads_congr (hother.trans hpath.symm) hleads
    · apply Set.finite_empty.subset
      rintro next ⟨path, hpath, -⟩
      exact hplace ⟨path, hpath⟩
  apply ((source.finite_refers arguments).union hplaces).subset
  rintro path ⟨first, hfirst, hleads⟩
  rcases Relation.ReflTransGen.cases_tail hleads with rfl | ⟨last, -, hlast⟩
  · exact .inl hfirst
  · obtain ⟨tokens, hread, -⟩ := id hlast
    exact .inr (Set.mem_biUnion (resolve_mem_places hread) ⟨last, rfl, hlast⟩)

end Expansion.Source

namespace Expansion.Trail

variable {source : Source} {arguments current trail : List String} {path other : String}

theorem mem_paths (htrail : Trail source arguments current trail) (hmem : other ∈ trail) :
    other ∈ source.paths arguments := by
  induction htrail with
  | start => cases hmem
  | into hbefore hopened hread ih =>
      rcases List.mem_cons.mp hmem with rfl | hearlier
      · exact hbefore.reachable hopened
      · exact ih hearlier

/-- The paths of the files that are open, and one that is referred to now, are all different. -/
theorem length_lt_ncard (hacyclic : source.Acyclic arguments)
    (htrail : Trail source arguments current trail) (hrefers : source.Refers current path) :
    trail.length < (source.paths arguments).ncard := by
  have hreachable : source.Reachable arguments path := htrail.reachable hrefers
  have hnew : path ∉ trail := fun hmem =>
    hacyclic path hreachable (htrail.transGen_of_mem hrefers hmem)
  have hnodup : (path :: trail).Nodup :=
    List.nodup_cons.mpr ⟨hnew, (htrail.nodup_resolve hacyclic).of_map _⟩
  have hsubset : ((path :: trail).toFinset : Set String) ⊆ source.paths arguments := by
    intro other hother
    rcases List.mem_cons.mp (List.mem_toFinset.mp hother) with rfl | hmem
    · exact hreachable
    · exact htrail.mem_paths hmem
  have hcard := Set.ncard_le_ncard hsubset (source.finite_paths arguments)
  rw [Set.ncard_coe_finset, List.toFinset_card_of_nodup hnodup] at hcard
  exact hcard

end Expansion.Trail

/-! ### Loading -/

/-- The tokens of the file at a path, or why there are none. -/
def Expansion.Source.fetch (source : Source) (path : String) :
    Except ArgumentError (List String) :=
  if !source.files.contains path then .error (.responseFileMissing path)
  else
    match source.read path with
    | .error cause => .error (.responseFileUnreadable path cause)
    | .ok tokens => .ok tokens

theorem Expansion.Source.fetch_eq_ok_iff {source : Source} {path : String}
    {tokens : List String} : source.fetch path = .ok tokens ↔ source.read path = .ok tokens := by
  unfold fetch
  cases hread : source.read path with
  | error cause => cases source.files.contains path <;> simp
  | ok others => simp [contains_of_read hread]

/-- A reference contributes the events of what is fetched. -/
theorem Expansion.eventsOfToken_of_fetch (source : Source)
    (inside : String → List String → List Event) (count : Nat) (path : String) :
    eventsOfToken source inside count (.responseFile path) =
      match source.fetch path with
      | .error error => [.failure error]
      | .ok tokens => inside path tokens := by
  simp only [eventsOfToken, Source.fetch, Source.read]
  cases source.files.contains path with
  | false => rfl
  | true => cases ResponseFile.read source.files source.encoding path <;> rfl

theorem State.takeAll_singleton (t : Table) (s : State) (event : Event) :
    s.takeAll t [event] = take t s event := by
  unfold takeAll
  rw [List.foldlM_cons]
  exact bind_pure _

theorem State.takeAll_append (t : Table) (s : State) (first second : List Event) :
    s.takeAll t (first ++ second) = s.takeAll t first >>= fun next => next.takeAll t second :=
  List.foldlM_append

namespace Parser

mutual

/-- The rest of a list of `count` arguments is loaded.  This ends in a state, or with the error of
the argument that comes first; the depth tells how many references are followed within one another
on the way. -/
inductive Loads (p : Parser) (files : FileSystem) :
    Nat → State → List String → Except ArgumentError State → Nat → Prop
  | done {count : Nat} {s : State} : Loads p files count s [] (.ok s) 0
  | stop {count : Nat} {s : State} {argument : String} {rest : List String}
      {error : ArgumentError} {depth : Nat} :
      Visits p files count s argument (.error error) depth →
        Loads p files count s (argument :: rest) (.error error) depth
  | next {count : Nat} {s next : State} {argument : String} {rest : List String}
      {ending : Except ArgumentError State} {first later : Nat} :
      Visits p files count s argument (.ok next) first →
        Loads p files count next rest ending later →
          Loads p files count s (argument :: rest) ending (max first later)

/-- One argument of a list of `count` is visited; a reference is followed. -/
inductive Visits (p : Parser) (files : FileSystem) :
    Nat → State → String → Except ArgumentError State → Nat → Prop
  | blank {count : Nat} {s : State} {argument : String} :
      Token.classify p.responseFiles argument = none →
        Visits p files count s argument (.ok s) 0
  | take {count : Nat} {s : State} {argument : String} {token : Token}
      {ending : Except ArgumentError State} :
      Token.classify p.responseFiles argument = some token →
        (∀ path, token ≠ .responseFile path) → State.takeToken p.table s count token = ending →
          Visits p files count s argument ending 0
  | lose {count : Nat} {s : State} {argument path : String} {error : ArgumentError} :
      Token.classify p.responseFiles argument = some (.responseFile path) →
        (p.source files).fetch path = .error error →
          Visits p files count s argument (.error error) 1
  | follow {count : Nat} {s : State} {argument path : String} {tokens : List String}
      {ending : Except ArgumentError State} {depth : Nat} :
      Token.classify p.responseFiles argument = some (.responseFile path) →
        (p.source files).fetch path = .ok tokens →
          Loads p files tokens.length s tokens ending depth →
            Visits p files count s argument ending (depth + 1)

end

variable {p : Parser} {files : FileSystem}

theorem Visits.of_plain {count : Nat} {s : State} {argument : String} {token : Token}
    {ending : Except ArgumentError State} {depth : Nat}
    (hvisits : p.Visits files count s argument ending depth)
    (hclassify : Token.classify p.responseFiles argument = some token)
    (hplain : ∀ path, token ≠ .responseFile path) :
    State.takeToken p.table s count token = ending ∧ depth = 0 := by
  cases hvisits with
  | blank hblank => exact nomatch hblank.symm.trans hclassify
  | take hother _ htake =>
      obtain rfl := Option.some.inj (hother.symm.trans hclassify)
      exact ⟨htake, rfl⟩
  | lose hother | follow hother =>
      exact absurd (Option.some.inj (hclassify.symm.trans hother)) (hplain _)

theorem Visits.of_reference {count : Nat} {s : State} {argument path : String}
    {ending : Except ArgumentError State} {depth : Nat}
    (hvisits : p.Visits files count s argument ending depth)
    (hclassify : Token.classify p.responseFiles argument = some (.responseFile path)) :
    (∃ error, (p.source files).fetch path = .error error ∧ ending = .error error ∧ depth = 1) ∨
      ∃ tokens inner, (p.source files).fetch path = .ok tokens ∧
        p.Loads files tokens.length s tokens ending inner ∧ depth = inner + 1 := by
  cases hvisits with
  | blank hblank => exact nomatch hblank.symm.trans hclassify
  | take hother hplain => exact absurd (Option.some.inj (hother.symm.trans hclassify)) (hplain _)
  | lose hother hfetch =>
      obtain rfl := Token.responseFile.inj (Option.some.inj (hother.symm.trans hclassify))
      exact .inl ⟨_, hfetch, rfl, rfl⟩
  | follow hother hfetch hloads =>
      obtain rfl := Token.responseFile.inj (Option.some.inj (hother.symm.trans hclassify))
      exact .inr ⟨_, _, hfetch, hloads, rfl⟩

mutual

/-- A load ends in one way only. -/
theorem Loads.unique {count : Nat} {s : State} {arguments : List String}
    {first second : Except ArgumentError State} {m n : Nat}
    (hfirst : p.Loads files count s arguments first m)
    (hsecond : p.Loads files count s arguments second n) : first = second ∧ m = n :=
  match hfirst with
  | .done => by
      cases hsecond
      exact ⟨rfl, rfl⟩
  | .stop hvisits => by
      cases hsecond with
      | stop hother => exact hvisits.unique hother
      | next hother _ => exact nomatch (hvisits.unique hother).1
  | .next hvisits hloads => by
      cases hsecond with
      | stop hother => exact nomatch (hvisits.unique hother).1
      | next hother hrest =>
          obtain ⟨hnext, rfl⟩ := hvisits.unique hother
          obtain rfl := Except.ok.inj hnext
          obtain ⟨rfl, rfl⟩ := hloads.unique hrest
          exact ⟨rfl, rfl⟩

theorem Visits.unique {count : Nat} {s : State} {argument : String}
    {first second : Except ArgumentError State} {m n : Nat}
    (hfirst : p.Visits files count s argument first m)
    (hsecond : p.Visits files count s argument second n) : first = second ∧ m = n :=
  match hfirst with
  | .blank hblank => by
      cases hsecond with
      | blank _ => exact ⟨rfl, rfl⟩
      | take hother | lose hother | follow hother => exact nomatch hblank.symm.trans hother
  | .take hclassify hplain htake => by
      obtain ⟨hother, rfl⟩ := hsecond.of_plain hclassify hplain
      exact ⟨htake.symm.trans hother, rfl⟩
  | .lose hclassify hfetch => by
      obtain ⟨error, hlost, rfl, rfl⟩ | ⟨tokens, inner, hfound, -⟩ :=
        hsecond.of_reference hclassify
      · obtain rfl := Except.error.inj (hfetch.symm.trans hlost)
        exact ⟨rfl, rfl⟩
      · exact nomatch hfetch.symm.trans hfound
  | .follow hclassify hfetch hloads => by
      obtain ⟨error, hlost, -⟩ | ⟨tokens, inner, hfound, hinner, rfl⟩ :=
        hsecond.of_reference hclassify
      · exact nomatch hfetch.symm.trans hlost
      · obtain rfl := Except.ok.inj (hfetch.symm.trans hfound)
        obtain ⟨rfl, rfl⟩ := hloads.unique hinner
        exact ⟨rfl, rfl⟩

end

mutual

/-- Of a list that is loaded without an error, all references lead to an end. -/
theorem Loads.acc {count : Nat} {s final : State} {arguments : List String}
    {ending : Except ArgumentError State} {depth : Nat}
    (hloads : p.Loads files count s arguments ending depth) (hok : ending = .ok final)
    {path : String} (hrefers : (p.source files).Refers arguments path) :
    Acc (fun next first => (p.source files).Leads first next) path :=
  match hloads with
  | .done => nomatch hrefers
  | .stop _ => nomatch hok
  | .next hvisits hrest => by
      obtain ⟨argument, hargument, hclassify⟩ := List.mem_filterMap.mp hrefers
      rcases List.mem_cons.mp hargument with hsame | hlater
      · exact hvisits.acc rfl (hsame ▸ hclassify)
      · exact hrest.acc hok (List.mem_filterMap.mpr ⟨argument, hlater, hclassify⟩)

theorem Visits.acc {count : Nat} {s final : State} {argument : String}
    {ending : Except ArgumentError State} {depth : Nat}
    (hvisits : p.Visits files count s argument ending depth) (hok : ending = .ok final)
    {path : String} (hreference : Token.classify p.responseFiles argument =
      some (.responseFile path)) :
    Acc (fun next first => (p.source files).Leads first next) path :=
  match hvisits with
  | .blank hblank => nomatch hblank.symm.trans hreference
  | .take hclassify hplain _ =>
      absurd (Option.some.inj (hclassify.symm.trans hreference)) (hplain path)
  | .lose _ _ => nomatch hok
  | .follow hclassify hfetch hloads => by
      obtain rfl := Token.responseFile.inj (Option.some.inj (hclassify.symm.trans hreference))
      have hread := Expansion.Source.fetch_eq_ok_iff.mp hfetch
      constructor
      intro next hleads
      exact hloads.acc hok ((Expansion.Source.leads_iff_of_read hread).mp hleads)

end

/-- On a cycle no load ends in a state. -/
theorem Loads.acyclic {count depth : Nat} {s final : State} {arguments : List String}
    (hloads : p.Loads files count s arguments (.ok final) depth) :
    (p.source files).Acyclic arguments :=
  Expansion.Source.acyclic_of_acc fun _ hrefers => hloads.acc rfl hrefers

/-! ### Loads along events -/

/-- The file at a path is loaded, if there is one, with the ending that its events have, and at a
depth below a bound. -/
def LoadsInside (p : Parser) (files : FileSystem) (inside : String → List String → List Event)
    (bound : Nat) (path : String) : Prop :=
  0 < bound ∧ ∀ tokens, (p.source files).read path = .ok tokens → ∀ s : State,
    ∃ depth < bound,
      p.Loads files tokens.length s tokens (s.takeAll p.table (inside path tokens)) depth

variable {inside : String → List String → List Event} {bound : Nat}

/-- A visit does what the events of the argument do. -/
theorem exists_visits {argument : String}
    (hinside : ∀ path, Token.classify p.responseFiles argument = some (.responseFile path) →
      p.LoadsInside files inside bound path) (count : Nat) (s : State) :
    ∃ depth ≤ bound, p.Visits files count s argument
      (s.takeAll p.table ((Token.classify p.responseFiles argument).toList.flatMap
        (eventsOfToken (p.source files) inside count))) depth := by
  cases hclassify : Token.classify p.responseFiles argument with
  | none => exact ⟨0, Nat.zero_le _, .blank hclassify⟩
  | some token =>
      rw [Option.toList_some, List.flatMap_singleton]
      by_cases hreference : ∃ path, token = .responseFile path
      · obtain ⟨path, rfl⟩ := hreference
        obtain ⟨hpositive, hloads⟩ := hinside path hclassify
        rw [Expansion.eventsOfToken_of_fetch]
        cases hfetch : (p.source files).fetch path with
        | error error => exact ⟨1, hpositive, .lose hclassify hfetch⟩
        | ok tokens =>
            have hread := Expansion.Source.fetch_eq_ok_iff.mp hfetch
            obtain ⟨depth, hdepth, hinner⟩ := hloads tokens hread s
            exact ⟨depth + 1, hdepth, .follow hclassify hfetch hinner⟩
      · have hplain : ∀ path, token ≠ .responseFile path := not_exists.mp hreference
        rw [Expansion.eventsOfToken_of_plain hplain, State.takeAll_singleton]
        exact ⟨0, Nat.zero_le _, .take hclassify hplain rfl⟩

/-- A load does what the events of the list do, one argument after the other. -/
theorem exists_loads {arguments : List String}
    (hinside : ∀ path, (p.source files).Refers arguments path →
      p.LoadsInside files inside bound path) (count : Nat) (s : State) :
    ∃ depth ≤ bound, p.Loads files count s arguments
      (s.takeAll p.table ((Token.ofArguments p.responseFiles arguments).flatMap
        (eventsOfToken (p.source files) inside count))) depth := by
  induction arguments generalizing s with
  | nil => exact ⟨0, Nat.zero_le _, .done⟩
  | cons argument rest ih =>
      have hfirst : ∀ path, Token.classify p.responseFiles argument = some (.responseFile path) →
          p.LoadsInside files inside bound path := fun path hclassify =>
        hinside path (List.mem_filterMap.mpr ⟨argument, List.mem_cons_self, hclassify⟩)
      have hrest : ∀ path, (p.source files).Refers rest path →
          p.LoadsInside files inside bound path := fun path hrefers =>
        hinside path (List.filterMap_subset _ (List.subset_cons_self _ _) hrefers)
      obtain ⟨first, hbound, hvisits⟩ := exists_visits hfirst count s
      rw [Expansion.ofArguments_cons, List.flatMap_append, State.takeAll_append]
      cases hending : s.takeAll p.table _ with
      | error error =>
          rw [hending] at hvisits
          exact ⟨first, hbound, .stop hvisits⟩
      | ok next =>
          rw [hending] at hvisits
          obtain ⟨later, hlater, hloads⟩ := ih hrest next
          exact ⟨max first later, max_le hbound hlater, .next hvisits hloads⟩

/-- While some files are open, what was read last is loaded.  The depth of the events is not used
up, and the paths that are left bound the depth of the load. -/
theorem exists_loads_of_trail {arguments current trail : List String}
    (hacyclic : (p.source files).Acyclic arguments)
    (htrail : Trail (p.source files) arguments current trail) {fuel : Nat}
    (hfuel : files.size ≤ trail.length + fuel)
    (hbound : ((p.source files).paths arguments).ncard ≤ trail.length + bound) (s : State) :
    ∃ depth ≤ bound, p.Loads files current.length s current
      (s.takeAll p.table (eventsWithin (p.source files) fuel current)) depth := by
  induction fuel generalizing current trail bound s with
  | zero =>
      rw [eventsWithin, Expansion.eventsOf_eq_flatMap]
      apply exists_loads
      intro path hrefers
      have hlength := htrail.length_lt_ncard hacyclic hrefers
      refine ⟨by omega, ?_⟩
      intro tokens hread
      have hsize := (htrail.into hrefers hread).length_le_size hacyclic
      rw [List.length_cons] at hsize
      have hfiles : (p.source files).files.size = files.size := rfl
      omega
  | succ fuel ih =>
      rw [eventsWithin, Expansion.eventsOf_eq_flatMap]
      apply exists_loads
      intro path hrefers
      have hlength := htrail.length_lt_ncard hacyclic hrefers
      refine ⟨by omega, ?_⟩
      intro tokens hread state
      have hfuel' : files.size ≤ (path :: trail).length + fuel := by
        rw [List.length_cons]
        omega
      have hbound' : ((p.source files).paths arguments).ncard ≤
          (path :: trail).length + (bound - 1) := by
        rw [List.length_cons]
        omega
      obtain ⟨depth, hdepth, hloads⟩ := ih (htrail.into hrefers hread) hfuel' hbound' state
      exact ⟨depth, by omega, hloads⟩

/-- Where references form no cycle loading comes to its one end, which is what a parse computes,
and never follows more references within one another than there are paths to refer to. -/
theorem loads_of_acyclic {arguments : List String}
    (hacyclic : (p.source files).Acyclic arguments) :
    ((p.source files).paths arguments).Finite ∧
      ∃ depth ≤ ((p.source files).paths arguments).ncard,
        ∀ ending nesting,
          p.Loads files arguments.length (.start p.table) arguments ending nesting ↔
            ending = p.takeArguments files arguments ∧ nesting = depth := by
  refine ⟨(p.source files).finite_paths arguments, ?_⟩
  have hfuel : files.size ≤ 0 + (p.source files).depth :=
    Nat.le_add_left_of_le (p.source files).size_le_depth
  obtain ⟨depth, hdepth, hloads⟩ := exists_loads_of_trail hacyclic .start hfuel
    (Nat.le_add_left _ 0) (.start p.table)
  refine ⟨depth, hdepth, ?_⟩
  intro ending nesting
  constructor
  · intro hother
    exact hother.unique hloads
  · rintro ⟨rfl, rfl⟩
    exact hloads

/-- Two files that give a title, the first of which refers to the second. -/
def titleFiles : FileSystem :=
  ((FileSystem.empty "/").addText "/outer" "-title:r @inner").addText "/inner" "-title:s"

theorem merger_read_outer :
    (merger.source titleFiles).read "outer" = .ok ["-title:r", "@inner"] := by
  have hresolve : titleFiles.resolve "outer" = .ok ["outer".toList] :=
    FileSystem.resolve_of_foldlM (by decide) (by simp) (by decide) (by decide)
  rw [Expansion.Source.read_marked hresolve rfl]
  cbv

theorem merger_read_inner : (merger.source titleFiles).read "inner" = .ok ["-title:s"] := by
  have hresolve : titleFiles.resolve "inner" = .ok ["inner".toList] :=
    FileSystem.resolve_of_foldlM (by decide) (by simp) (by decide) (by decide)
  rw [Expansion.Source.read_marked hresolve rfl]
  cbv

theorem merger_acyclic_outer : (merger.source titleFiles).Acyclic ["@outer"] := by
  have hinner : Acc (fun next first => (merger.source titleFiles).Leads first next) "inner" :=
    .intro _ fun next hnext => absurd hnext
      (Expansion.Source.not_leads_of_plain merger_read_inner (by decide) next)
  have houter : Acc (fun next first => (merger.source titleFiles).Leads first next) "outer" := by
    constructor
    intro next hnext
    rw [Expansion.Source.leads_iff_of_read merger_read_outer] at hnext
    obtain rfl : next = "inner" := Expansion.Source.eq_of_refers (by decide) hnext
    exact hinner
  apply Expansion.Source.acyclic_of_acc
  intro path hrefers
  obtain rfl : path = "outer" := Expansion.Source.eq_of_refers (by decide) hrefers
  exact houter

theorem merger_loads_outer :
    merger.Loads titleFiles 1 (.start merger.table) ["@outer"] (.error (.duplicate "title")) 2 := by
  have htake : State.takeToken merger.table (.start merger.table) 2
      (.named "-title:r" "title" (some "r")) =
        .ok (.after merger.table [.named "-title:r" "title" (some "r")]) := by
    have hfault : merger.table.fault? 2 [] (.named "-title:r" "title" (some "r")) = none := by
      decide
    rw [← State.after_nil, State.takeToken_after merger_built.coherent, hfault]
    rfl
  have hrefuse : State.takeToken merger.table
      (.after merger.table [.named "-title:r" "title" (some "r")]) 1
        (.named "-title:s" "title" (some "s")) = .error (.duplicate "title") := by
    have hfault : merger.table.fault? 1 [.named "-title:r" "title" (some "r")]
        (.named "-title:s" "title" (some "s")) = some (.duplicate "title") := by
      decide
    rw [State.takeToken_after merger_built.coherent, hfault]
    rfl
  have hinner : merger.Loads titleFiles 1
      (.after merger.table [.named "-title:r" "title" (some "r")]) ["-title:s"]
        (.error (.duplicate "title")) 0 :=
    .stop (.take (by decide) (by simp) hrefuse)
  have houter : merger.Loads titleFiles 2 (.start merger.table) ["-title:r", "@inner"]
      (.error (.duplicate "title")) 1 :=
    .next (.take (by decide) (by simp) htake)
      (.stop (.follow (by decide) (Expansion.Source.fetch_eq_ok_iff.mpr merger_read_inner) hinner))
  exact .stop (.follow (by decide) (Expansion.Source.fetch_eq_ok_iff.mpr merger_read_outer) houter)

/-- The title is given again in the inner file, two references deep. -/
theorem merger_stops_within_outer :
    2 ≤ ((merger.source titleFiles).paths ["@outer"]).ncard ∧
      ∀ ending nesting, merger.Loads titleFiles 1 (.start merger.table) ["@outer"] ending nesting ↔
        ending = .error (.duplicate "title") ∧ nesting = 2 := by
  obtain ⟨-, depth, hdepth, hloads⟩ := loads_of_acyclic merger_acyclic_outer
  obtain ⟨hending, rfl⟩ := (hloads _ _).mp merger_loads_outer
  refine ⟨hdepth, ?_⟩
  rw [hending]
  exact hloads

end Parser

end CommandLine
