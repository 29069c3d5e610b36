import CommandLine.Proofs.Parse.Phases
import CommandLine.Proofs.Parse.References

/-!
# Response files and their tokens in place

A token that stands in a response file differs from the same token on the command line only by the
length of its list, which nothing but an exclusive argument looks at.  Where no argument is
exclusive, a command line is therefore parsed like its full expansion, as long as the expansion can
be completed.
-/

namespace CommandLine

/-! ### What a step changes -/

theorem Held.take_declaration {h taken : Held} {value : Option String}
    (htake : h.take value = .ok taken) : taken.declaration = h.declaration := by
  unfold Held.take at htake
  dsimp only at htake
  split at htake
  · contradiction
  · split at htake
    · contradiction
    · split at htake
      · obtain rfl := Except.ok.inj htake
        rfl
      · contradiction
      · contradiction

namespace State

theorem give_ok_cases {s next : State} {position : Nat} {h : Held} {value : Option String}
    (hgive : s.give position h value = .ok next) :
    ∃ taken, h.take value = .ok taken ∧ next.held = s.held.set position taken := by
  unfold give at hgive
  cases htake : h.take value with
  | error error => simp [htake] at hgive
  | ok taken =>
      refine ⟨taken, rfl, ?_⟩
      rw [htake] at hgive
      obtain rfl := Except.ok.inj hgive
      rfl

/-- A token that is taken is given to one argument. -/
theorem takeToken_ok_cases {t : Table} {s next : State} {count : Nat} {token : Token}
    (htoken : takeToken t s count token = .ok next) :
    ∃ position h value taken, target t token = some (position, value) ∧
      s.held[position]? = some h ∧ h.take value = .ok taken ∧
        next.held = s.held.set position taken := by
  unfold takeToken at htoken
  cases htarget : target t token with
  | none => simp [htarget] at htoken
  | some goal =>
      obtain ⟨position, value⟩ := goal
      rw [htarget] at htoken
      cases hheld : s.held[position]? with
      | none => simp [hheld] at htoken
      | some h =>
          have hgiven : ∃ taken, h.take value = .ok taken ∧
              next.held = s.held.set position taken := by
            cases token with
            | named written name text =>
                simp only [hheld, takeNamed_eq, Fault.guarded_eq_ok_iff] at htoken
                obtain ⟨taken, htaken, hnext⟩ := give_ok_cases htoken.2
                exact ⟨taken, htaken, hnext⟩
            | positional text =>
                simp only [hheld] at htoken
                exact give_ok_cases htoken
            | responseFile path => simp [target] at htarget
          obtain ⟨taken, htaken, hnext⟩ := hgiven
          exact ⟨position, h, value, taken, rfl, hheld, htaken, hnext⟩

/-- The arguments of a state are those of the table, in its order. -/
def Follows (s : State) (t : Table) : Prop :=
  s.held.map Held.declaration = t.all

theorem start_follows (t : Table) : (start t).Follows t := by
  simp [Follows, start, Function.comp_def]

theorem Follows.takeToken {t : Table} {s next : State} {count : Nat} {token : Token}
    (hfollows : s.Follows t) (htoken : State.takeToken t s count token = .ok next) :
    next.Follows t := by
  obtain ⟨position, h, value, taken, -, hheld, htake, hnext⟩ := takeToken_ok_cases htoken
  have hdeclaration := Held.take_declaration htake
  unfold Follows
  rw [← hfollows, hnext, List.map_set, hdeclaration]
  obtain ⟨hlt, hget⟩ := List.getElem?_eq_some_iff.mp hheld
  have hlength : position < (s.held.map Held.declaration).length := by
    simpa using hlt
  have hentry : (s.held.map Held.declaration)[position] = h.declaration := by
    simp [hget]
  rw [← hentry, List.set_getElem_self]

theorem Follows.declaration_mem {t : Table} {s : State} (hfollows : s.Follows t)
    {position : Nat} {h : Held} (hheld : s.held[position]? = some h) :
    h.declaration ∈ t.all := by
  rw [← hfollows]
  exact List.mem_map_of_mem (List.mem_of_getElem? hheld)

/-! ### Lengths of lists -/

theorem takeNamed_count {h : Held} (hexclusive : h.declaration.policy.exclusive = false)
    (s : State) (first second position : Nat) (value : Option String) :
    s.takeNamed first position h value = s.takeNamed second position h value := by
  have hnone : ∀ count, Fault.exclusive? h.declaration count = none := by
    intro count
    simp [Fault.exclusive?, hexclusive]
  rw [takeNamed_eq, takeNamed_eq, hnone, hnone]

/-- Without exclusive arguments the length of a token's list is of no account. -/
theorem takeToken_count {t : Table} {s : State} (hfollows : s.Follows t)
    (hexclusive : ∀ d ∈ t.all, d.policy.exclusive = false) (first second : Nat)
    (token : Token) : takeToken t s first token = takeToken t s second token := by
  unfold takeToken
  cases htarget : target t token with
  | none => rfl
  | some goal =>
      obtain ⟨position, value⟩ := goal
      dsimp only
      cases hheld : s.held[position]? with
      | none => rfl
      | some h =>
          cases token with
          | named written name text =>
              exact takeNamed_count (hexclusive _ (hfollows.declaration_mem hheld)) s _ _ _ _
          | positional text => rfl
          | responseFile path => rfl

/-- A run over events without a failure is one over their tokens, in a list of any length. -/
theorem takeAll_tokens {t : Table} {s : State} (hfollows : s.Follows t)
    (hexclusive : ∀ d ∈ t.all, d.policy.exclusive = false) {events : List Event}
    (hnone : ∀ error, Event.failure error ∉ events) (count : Nat) :
    s.takeAll t events = s.takeAll t ((Event.tokens events).map (.token count)) := by
  unfold takeAll
  induction events generalizing s with
  | nil => rfl
  | cons event rest ih =>
      have hrest : ∀ error, Event.failure error ∉ rest := by
        intro error hmem
        exact hnone error (List.mem_cons_of_mem _ hmem)
      cases event with
      | failure error => exact absurd List.mem_cons_self (hnone error)
      | token given token =>
          have hstep : take t s (.token given token) = take t s (.token count token) :=
            takeToken_count hfollows hexclusive given count token
          simp only [Event.tokens_cons, Event.token?, Option.toList_some, List.singleton_append,
            List.map_cons, List.foldlM_cons, hstep]
          cases htaken : take t s (.token count token) with
          | error error => rfl
          | ok next => exact ih (hfollows.takeToken htaken) hrest

end State

namespace Parser

theorem parse_eq_of_takeArguments_eq {p : Parser} {files : FileSystem}
    {first second : List String}
    (htake : p.takeArguments files first = p.takeArguments files second)
    (destination : Record) :
    p.parse files first destination = p.parse files second destination := by
  unfold parse
  rw [htake]

/-- Events without a failure are taken like those of the full expansion. -/
theorem takeArguments_inlined {p : Parser} {files : FileSystem} {arguments flat : List String}
    (hexclusive : ∀ d ∈ p.table.all, d.policy.exclusive = false)
    (hnone : ∀ error, Event.failure error ∉ Expansion.events (p.source files) arguments)
    (hflat : Expansion.Expands (p.source files) arguments flat) :
    p.takeArguments files arguments = p.takeArguments files flat := by
  obtain ⟨expanded, hexpanded, htokens⟩ := Expansion.expands_of_events hnone
  obtain rfl := hexpanded.unique hflat
  unfold takeArguments
  rw [State.takeAll_tokens (State.start_follows _) hexclusive hnone expanded.length, htokens,
    Expansion.events_of_plain hflat.plain]

theorem parse_of_refersPlainly {p : Parser} {files : FileSystem} {arguments flat : List String}
    (hexclusive : ∀ d ∈ p.table.all, d.policy.exclusive = false)
    (hrefers : (p.source files).RefersPlainly arguments)
    (hflat : Expansion.Expands (p.source files) arguments flat) (destination : Record) :
    p.parse files arguments destination = p.parse files flat destination :=
  parse_eq_of_takeArguments_eq
    (takeArguments_inlined hexclusive
      (hrefers.acyclic.failure_notMem_events hrefers.allReadable) hflat) destination

/-- One file that refers to no other. -/
def moreFiles : FileSystem :=
  (FileSystem.empty "/").addFile "/more" "-define:a=b\n# y\nz".toUTF8.toList

theorem copier_read_more :
    (copier.source moreFiles).read "more" = .ok ["-define:a=b", "z"] := by
  have hresolve : moreFiles.resolve "more" = .ok ["more".toList] :=
    FileSystem.resolve_of_foldlM (by decide) (by simp) (by decide) (by decide +kernel)
  have hnode : moreFiles.nodeAt ["more".toList] =
      some (.file "-define:a=b\n# y\nz".toUTF8.toList) := by decide +kernel
  have hdecode : (copier.source moreFiles).encoding.decode "-define:a=b\n# y\nz".toUTF8.toList =
      .ok "-define:a=b\n# y\nz".toList := by decide +kernel
  rw [Expansion.Source.read_of_resolve hresolve hnode hdecode]
  cbv

theorem copier_not_leads_more (path : String) :
    ¬ (copier.source moreFiles).Leads "more" path :=
  Expansion.Source.not_leads_of_plain copier_read_more (by decide +kernel) path

theorem copier_reachable_more {path : String}
    (hreachable : (copier.source moreFiles).Reachable ["w", "@more", "-target:t"] path) :
    path = "more" := by
  obtain ⟨first, hrefers, hleads⟩ := hreachable
  obtain rfl : first = "more" := Expansion.Source.eq_of_refers (by decide +kernel) hrefers
  rcases Relation.ReflTransGen.cases_head hleads with hsame | ⟨next, hnext, -⟩
  · exact hsame.symm
  · exact absurd hnext (copier_not_leads_more next)

theorem copier_expands_more :
    Expansion.Expands (copier.source moreFiles) ["w", "@more", "-target:t"]
      ["w", "-define:a=b", "z", "-target:t"] := by
  have hfirst : ∀ path, Token.classify true "w" ≠ some (.responseFile path) := by
    intro path hclassify
    rw [show Token.classify true "w" = some (.positional "w") by decide +kernel] at hclassify
    simp at hclassify
  have hreference : Token.classify true "@more" = some (.responseFile "more") := by
    decide +kernel
  have hinner : Token.Plain true ["-define:a=b", "z"] := by decide +kernel
  have hlast : Token.Plain true ["-target:t"] := by decide +kernel
  exact .keep hfirst (.follow hreference copier_read_more (.of_plain hinner) (.of_plain hlast))

/-- A command line whose references form no cycle and can all be read has one full expansion, and
is parsed like it. -/
theorem parse_inlined {p : Parser} (hexclusive : ∀ d ∈ p.table.all, d.policy.exclusive = false)
    {files : FileSystem} {arguments : List String}
    (hacyclic : (p.source files).Acyclic arguments)
    (hreadable : (p.source files).AllReadable arguments) :
    ∃ flat, (∀ other, Expansion.Expands (p.source files) arguments other ↔ other = flat) ∧
      Token.Plain p.responseFiles flat ∧
        ∀ destination,
          p.parse files arguments destination = p.parse files flat destination := by
  have hnone := hacyclic.failure_notMem_events hreadable
  obtain ⟨flat, hflat, -⟩ := Expansion.expands_of_events hnone
  refine ⟨flat, ?_, hflat.plain, ?_⟩
  · intro other
    constructor
    · intro hother
      exact hother.unique hflat
    · rintro rfl
      exact hflat
  · exact parse_eq_of_takeArguments_eq (takeArguments_inlined hexclusive hnone hflat)

theorem copier_parses_more_inlined :
    Token.Plain copier.responseFiles ["w", "-define:a=b", "z", "-target:t"] ∧
      ∀ destination,
        copier.parse moreFiles ["w", "@more", "-target:t"] destination =
          copier.parse moreFiles ["w", "-define:a=b", "z", "-target:t"] destination := by
  have hacyclic : (copier.source moreFiles).Acyclic ["w", "@more", "-target:t"] := by
    intro path hreachable hcycle
    obtain rfl := copier_reachable_more hreachable
    obtain ⟨next, hnext, -⟩ := Relation.TransGen.head'_iff.mp hcycle
    exact copier_not_leads_more next hnext
  have hreadable : (copier.source moreFiles).AllReadable ["w", "@more", "-target:t"] := by
    intro path hreachable
    obtain rfl := copier_reachable_more hreachable
    exact ⟨_, copier_read_more⟩
  obtain ⟨flat, hflat, hplain, hparse⟩ :=
    parse_inlined (p := copier) (by decide +kernel) hacyclic hreadable
  obtain rfl := (hflat _).mp copier_expands_more
  exact ⟨hplain, hparse⟩

end Parser

end CommandLine
