import CommandLine.Proofs.Table.Names

/-!
# The construction of tables

A table is constructed by requests, some of which may fail.  Each request is a sequence of steps that
look at the table, fail or change it; what a step has changed by then is not taken back.  Since the
only change comes behind all checks, a request that fails still leaves the table as it was, so only
tables that can be built are ever constructed.
-/

namespace CommandLine

open EStateM (run)

namespace Table

/-! ### Steps -/

abbrev Step := EStateM ConfigurationError Table Unit

abbrev StepResult := EStateM.Result ConfigurationError Table Unit

namespace Step

def leaves (step : Step) (t : Table) : Table :=
  match run step t with
  | .ok _ changed => changed
  | .error _ changed => changed

def checkLong (d : Declaration) : Step := do
  if (← get).usesLong d.long then throw (.duplicateLongName d.long)

def checkShort (d : Declaration) : Step := do
  match d.short with
  | none => pure ()
  | some short => if (← get).usesShort short then throw (.duplicateShortName short)

def place (d : Declaration) : Step := do
  if d.isPositional then
    match (← get).positional with
    | some first => throw (.duplicateDefault first.long d.long)
    | none => modify fun t => { t with positional := some d }
  else modify fun t => { t with named := t.named ++ [d] }

def add (d : Declaration) : Step := do
  checkLong d
  checkShort d
  place d

/-- Checks a draft by itself before its declaration is added. -/
def addDraft (draft : Draft) : Step :=
  match draft.declaration with
  | .error error => throw error
  | .ok d => add d

/-! ### What the steps amount to -/

/-- The end of a step that fails without a change, or succeeds and leaves `changed`. -/
def guarded (error? : Option ConfigurationError) (t changed : Table) : StepResult :=
  match error? with
  | some error => .error error t
  | none => .ok () changed

theorem run_checkLong (d : Declaration) (t : Table) :
    run (checkLong d) t =
      guarded (if t.usesLong d.long then some (.duplicateLongName d.long) else none) t t := by
  simp only [checkLong, EStateM.run_bind, EStateM.run_get]
  by_cases hused : t.usesLong d.long = true
  · simp [hused, guarded]
  · simp [hused, guarded]

theorem run_checkShort (d : Declaration) (t : Table) :
    run (checkShort d) t =
      guarded ((d.short.filter t.usesShort).map .duplicateShortName) t t := by
  unfold checkShort
  cases d.short with
  | none => rfl
  | some short =>
      simp only [EStateM.run_bind, EStateM.run_get]
      by_cases hused : t.usesShort short = true
      · simp [hused, guarded, Option.filter_some]
      · simp [hused, guarded, Option.filter_some]

theorem run_place (d : Declaration) (t : Table) :
    run (place d) t =
      guarded
        (if d.isPositional then
          t.positional.map fun first => .duplicateDefault first.long d.long
        else none) t (t.insert d) := by
  unfold place Table.insert
  by_cases hpositional : d.isPositional = true
  · simp only [hpositional, if_true, EStateM.run_bind, EStateM.run_get]
    cases t.positional with
    | none => simp [guarded]
    | some first => simp [guarded]
  · simp [hpositional, guarded]

/-- The steps fail for the first conflict, before the table has changed. -/
theorem run_add_eq_guarded (d : Declaration) (t : Table) :
    run (add d) t = guarded (t.conflict? d) t (t.insert d) := by
  unfold add Table.conflict?
  simp only [EStateM.run_bind, run_checkLong, run_checkShort, run_place]
  by_cases hlong : t.usesLong d.long = true
  · simp [hlong, guarded]
  · cases hshort : d.short.filter t.usesShort with
    | some short => simp [hlong, hshort, guarded]
    | none => simp [hlong, hshort, guarded]

/-- The table that an addition yields, or the one that it started from. -/
def settled (t : Table) : Except ConfigurationError Table → StepResult
  | .ok grown => .ok () grown
  | .error error => .error error t

theorem run_add (d : Declaration) (t : Table) : run (add d) t = settled t (t.add d) := by
  rw [run_add_eq_guarded]
  unfold Table.add
  cases t.conflict? d <;> rfl

theorem run_addDraft (draft : Draft) (t : Table) :
    run (addDraft draft) t = settled t (t.addDraft draft) := by
  unfold addDraft Table.addDraft
  cases draft.declaration with
  | error error => rfl
  | ok d => exact run_add d t

end Step

/-! ### Requests -/

/-- A draft to be checked and added, or a declaration whose draft has passed the checks before. -/
inductive Request
  | argument (draft : Draft)
  | add (d : Declaration) (hdrafted : ∃ draft : Draft, draft.declaration = .ok d)

namespace Request

def declaration : Request → Except ConfigurationError Declaration
  | .argument draft => draft.declaration
  | .add d _ => .ok d

def step : Request → Step
  | .argument draft => .addDraft draft
  | .add d _ => .add d

theorem exists_draft (request : Request) :
    ∃ draft : Draft, draft.declaration = request.declaration ∧
      ∀ t, run request.step t = Step.settled t (t.addDraft draft) := by
  cases request with
  | argument draft => exact ⟨draft, rfl, Step.run_addDraft draft⟩
  | add d hdrafted =>
      obtain ⟨draft, hdraft⟩ := hdrafted
      refine ⟨draft, hdraft, ?_⟩
      intro t
      have hadd : t.addDraft draft = t.add d := by
        unfold Table.addDraft
        rw [hdraft]
      rw [hadd]
      exact Step.run_add d t

end Request

structure Admits (t : Table) (d : Declaration) : Prop where
  long : ∀ other ∈ t.all, other.long ≠ d.long
  short : ∀ name, d.short = some name → ∀ other ∈ t.all, other.short ≠ some name
  positional : d.isPositional = true → t.positional = none

/-- The second table is the first one and a declaration, at the end or for positional values. -/
structure Gains (t : Table) (d : Declaration) (grown : Table) : Prop where
  named : grown.named = if d.isPositional then t.named else t.named ++ [d]
  positional : grown.positional = if d.isPositional then some d else t.positional

/-- A request is refused and the table stays, or its declaration is in order and is added. -/
inductive Answers (t : Table) (request : Request) (next : Table) : Prop
  | refused (error : ConfigurationError) :
      run request.step t = .error error next → next = t →
        (∀ d, request.declaration = .ok d → ¬ t.Admits d) → Answers t request next
  | served (d : Declaration) :
      run request.step t = .ok () next → request.declaration = .ok d → t.Admits d →
        t.Gains d next → Answers t request next

theorem conflict?_eq_none_iff {t : Table} {d : Declaration} :
    t.conflict? d = none ↔ t.Admits d := by
  constructor
  · intro hfree
    constructor
    · have hunused := usesLong_eq_false_of_conflict? hfree
      simpa [usesLong] using hunused
    · intro name hname
      have hunused := usesShort_eq_false_of_conflict? hfree hname
      simpa [usesShort] using hunused
    · exact positional_eq_none_of_conflict? hfree
  · intro hadmits
    have hlong : t.usesLong d.long = false := by
      simpa [usesLong] using hadmits.long
    have hshort : d.short.filter t.usesShort = none := by
      cases hname : d.short with
      | none => rfl
      | some name => simpa [usesShort, Option.filter_some] using hadmits.short name hname
    unfold conflict?
    simpa [hlong, hshort] using hadmits.positional

theorem gains_insert (t : Table) (d : Declaration) : t.Gains d (t.insert d) := by
  unfold Table.insert
  by_cases hpositional : d.isPositional = true
  · constructor <;> simp [hpositional]
  · constructor <;> simp [hpositional]

theorem not_admits_of_addDraft {t : Table} {draft : Draft} {error : ConfigurationError}
    (hadd : t.addDraft draft = .error error) {d : Declaration}
    (hdraft : draft.declaration = .ok d) : ¬ t.Admits d := by
  intro hadmits
  unfold Table.addDraft Table.add at hadd
  simp [hdraft, conflict?_eq_none_iff.mpr hadmits] at hadd

theorem answers_step (t : Table) (request : Request) :
    t.Answers request (request.step.leaves t) := by
  obtain ⟨draft, hdraft, hrun⟩ := request.exists_draft
  unfold Step.leaves
  rw [hrun]
  cases hadd : t.addDraft draft with
  | error error =>
      apply Answers.refused error
      · rw [hrun, hadd]
        rfl
      · rfl
      · intro d hd
        exact not_admits_of_addDraft hadd (hdraft.trans hd)
  | ok grown =>
      obtain ⟨d, hd, hfree, rfl⟩ := addDraft_cases hadd
      apply Answers.served d
      · rw [hrun, hadd]
        rfl
      · rw [← hdraft, hd]
      · exact conflict?_eq_none_iff.mp hfree
      · exact gains_insert t d

theorem Built.step {t : Table} (hbuilt : t.Built) (request : Request) :
    (request.step.leaves t).Built := by
  obtain ⟨draft, -, hrun⟩ := request.exists_draft
  unfold Step.leaves
  rw [hrun]
  cases hadd : t.addDraft draft with
  | error error => exact hbuilt
  | ok grown => exact hbuilt.add hadd

/-! ### Sequences of requests -/

/-- Serves requests one after another, whether those before have failed or not. -/
def serve (t : Table) (requests : List Request) : Table :=
  requests.foldl (fun t request => request.step.leaves t) t

def constructed (requests : List Request) : Table :=
  empty.serve requests

theorem Built.serve {t : Table} (hbuilt : t.Built) (requests : List Request) :
    (t.serve requests).Built := by
  unfold Table.serve
  induction requests generalizing t with
  | nil => exact hbuilt
  | cons request requests ih => exact ih (hbuilt.step request)

theorem constructed_append_singleton (requests : List Request) (request : Request) :
    constructed (requests ++ [request]) =
      request.step.leaves (constructed requests) := by
  simp [constructed, Table.serve]

/-- Every name leads to the argument that it should lead to. -/
structure FindsByName (t : Table) : Prop where
  nothing : ∀ name, t.find name = none ↔ ∀ d ∈ t.named, d.long ≠ name ∧ d.short ≠ some name
  long : ∀ d ∈ t.named, t.find d.long = some d
  short : ∀ d ∈ t.named, ∀ name, d.short = some name →
    (t.find name = some d ↔ ∀ other ∈ t.named, other.long = name → other = d)

theorem WellNamed.findsByName {t : Table} (hnamed : t.WellNamed) : t.FindsByName := by
  constructor
  · intro name
    rw [find_eq_none_iff]
    simp [Declaration.answersTo]
  · intro d hd
    exact find_long_of_nodup hnamed.longNames hd
  · intro d hd name hshort
    exact hnamed.find_short_iff hd hshort

/-- Whatever requests a table has been constructed by, the next one adds its declaration or leaves
the table as it is, names are kept apart, and every argument is found by its own names. -/
theorem constructed_keeps_names_apart (requests : List Request) :
    (∀ request,
        (constructed requests).Answers request (constructed (requests ++ [request]))) ∧
      (constructed requests).WellNamed ∧
        ((constructed requests).all.filter Declaration.isPositional).length ≤ 1 ∧
          (constructed requests).FindsByName := by
  have hbuilt : (constructed requests).Built := Built.empty.serve requests
  have hnamed := hbuilt.wellNamed
  refine ⟨?_, hnamed, ?_, hnamed.findsByName⟩
  · intro request
    rw [constructed_append_singleton]
    exact answers_step _ request
  · rw [hnamed.filter_isPositional]
    exact Option.length_toList_le

/-- Two arguments, of which the second has for its long name what the first has for its short
one. -/
def counting : List Request :=
  [.argument ⟨"count", "count", .single (.integer ⟨false, 32⟩), [.short "verbose"]⟩,
    .argument ⟨"verbose", "verbose", .single .toggle, [.short "v"]⟩]

def verboseAgain : Request :=
  .argument ⟨"verbose", "again", .single .text, []⟩

theorem constructed_counting_refuses_verbose :
    constructed (counting ++ [verboseAgain]) = constructed counting ∧
      ∃ count ∈ (constructed counting).named, ∃ verbose ∈ (constructed counting).named,
        count.short = some "verbose" ∧ (constructed counting).find "verbose" = some verbose ∧
          (constructed counting).find "verbose" ≠ some count := by
  obtain ⟨hanswers, -, -, hfinds⟩ := constructed_keeps_names_apart counting
  constructor
  · cases hanswers verboseAgain with
    | refused error hrun hnext hdeclared => exact hnext
    | served d hrun hdeclared hadmits hgains =>
        have hfails : (match run verboseAgain.step (constructed counting) with
          | .ok _ _ => true
          | .error _ _ => false) = false := by decide
        rw [hrun] at hfails
        contradiction
  · have hlength : (constructed counting).named.length = 2 := by decide
    obtain ⟨count, verbose, hnamed⟩ := List.length_eq_two.mp hlength
    have hlong : [count.long, verbose.long] = ["count", "verbose"] := by
      rw [show [count.long, verbose.long] = [count, verbose].map Declaration.long from rfl,
        ← hnamed]
      decide
    have hshort : [count.short, verbose.short] = [some "verbose", some "v"] := by
      rw [show [count.short, verbose.short] = [count, verbose].map Declaration.short from rfl,
        ← hnamed]
      decide
    simp only [List.cons.injEq, and_true] at hlong hshort
    have hcount : count ∈ (constructed counting).named := by simp [hnamed]
    have hverbose : verbose ∈ (constructed counting).named := by simp [hnamed]
    refine ⟨count, hcount, verbose, hverbose, hshort.1, ?_, ?_⟩
    · rw [← hlong.2]
      exact hfinds.long verbose hverbose
    · intro hfind
      have hsame := (hfinds.short count hcount "verbose" hshort.1).mp hfind verbose hverbose hlong.2
      rw [hsame, hlong.1] at hlong
      simp at hlong

end Table

end CommandLine
