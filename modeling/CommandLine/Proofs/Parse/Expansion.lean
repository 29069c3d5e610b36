import CommandLine.Proofs.Parse.Trace
import CommandLine.Proofs.Text.Encoding

/-!
# Full expansions of command lines

A command line is fully expanded when each reference to a response file has given way, in place, to
the fully expanded tokens of that file.  This relation knows neither depth nor events.  A command
line has at most one full expansion, and events without a failure are the tokens of one.
-/

namespace CommandLine

theorem FileSystem.read_eq_ok_iff {fs : FileSystem} {path : String} {content : List UInt8} :
    fs.read path = .ok content ↔
      ∃ place, fs.resolve path = .ok place ∧ fs.nodeAt place = some (.file content) := by
  unfold FileSystem.read
  cases hresolve : fs.resolve path with
  | error error => simp
  | ok place =>
      cases hnode : fs.nodeAt place with
      | none => simp [hnode]
      | some node =>
          cases node with
          | directory => simp [hnode]
          | file found => simp [hnode]

theorem FileSystem.resolve_of_foldlM {fs : FileSystem} {path : String} {place : Place}
    (hne : path ≠ "") (hzero : path.contains '\x00' = false)
    (hsize : path.utf8ByteSize ≤ longestPath)
    (hsteps : (Text.piecesAt '/' path.toList).foldlM fs.step (fs.start path) = .ok place) :
    fs.resolve path = .ok place := by
  unfold resolve
  rw [if_neg hne, hzero, if_neg Bool.false_ne_true, if_neg (by omega), hsteps]

/-- Adds a text as a file in UTF-8, with a byte order mark. -/
def FileSystem.addText (fs : FileSystem) (path text : String) : FileSystem :=
  fs.addFile path (Text.Encoding.utf8.mark ++ Text.Encoding.utf8.encode text.toList)

namespace Token

def reference? : Token → Option String
  | .responseFile path => some path
  | .named _ _ _ | .positional _ => none

/-- A command line in which nothing refers to a response file. -/
def Plain (responseFiles : Bool) (arguments : List String) : Prop :=
  ∀ path, Token.responseFile path ∉ ofArguments responseFiles arguments

theorem plain_iff_reference? {responseFiles : Bool} {arguments : List String} :
    Plain responseFiles arguments ↔
      ∀ token ∈ ofArguments responseFiles arguments, token.reference? = none := by
  constructor
  · intro hplain token htoken
    cases token with
    | responseFile path => exact absurd htoken (hplain path)
    | named written name value => rfl
    | positional value => rfl
  · intro hnone path hpath
    have hreference := hnone _ hpath
    contradiction

instance (responseFiles : Bool) (arguments : List String) :
    Decidable (Plain responseFiles arguments) :=
  decidable_of_iff _ plain_iff_reference?.symm

end Token

namespace Expansion

def Source.read (source : Source) (path : String) :
    Except ResponseFile.ReadError (List String) :=
  ResponseFile.read source.files source.encoding path

theorem Source.read_file {source : Source} {path : String} {tokens : List String}
    (hread : source.read path = .ok tokens) :
    ∃ content, source.files.read path = .ok content := by
  unfold Source.read ResponseFile.read at hread
  cases hfile : source.files.read path with
  | error error => simp [hfile] at hread
  | ok content => exact ⟨content, rfl⟩

theorem Source.read_of_resolve {source : Source} {path : String} {place : Place}
    {content : List UInt8} {text : List Char}
    (hresolve : source.files.resolve path = .ok place)
    (hnode : source.files.nodeAt place = some (.file content))
    (hdecode : source.encoding.decode content = .ok text) :
    source.read path = .ok ((ResponseFile.tokensOfChars text).map String.ofList) := by
  have hfile := FileSystem.read_eq_ok_iff.mpr ⟨place, hresolve, hnode⟩
  simp only [Source.read, ResponseFile.read, hfile, hdecode]

/-- A file that begins with the mark of an encoding is read as the text that follows the mark. -/
theorem Source.read_marked {source : Source} {path : String} {place : Place}
    {e : Text.Encoding} {text : List Char} (hresolve : source.files.resolve path = .ok place)
    (hnode : source.files.nodeAt place = some (.file (e.mark ++ e.encode text))) :
    source.read path = .ok ((ResponseFile.tokensOfChars text).map String.ofList) :=
  read_of_resolve hresolve hnode (Text.Encoding.decode_mark_append_encode source.encoding e text)

/-- The second list is the first one with every reference followed. -/
inductive Expands (source : Source) : List String → List String → Prop
  | nil : Expands source [] []
  | keep {argument : String} {rest flat : List String} :
      (∀ path, Token.classify source.enabled argument ≠ some (.responseFile path)) →
        Expands source rest flat → Expands source (argument :: rest) (argument :: flat)
  | follow {argument path : String} {tokens inner rest flat : List String} :
      Token.classify source.enabled argument = some (.responseFile path) →
        source.read path = .ok tokens → Expands source tokens inner →
          Expands source rest flat → Expands source (argument :: rest) (inner ++ flat)

namespace Expands

theorem unique {source : Source} {arguments first second : List String}
    (hfirst : Expands source arguments first) (hsecond : Expands source arguments second) :
    first = second := by
  induction hfirst generalizing second with
  | nil =>
      cases hsecond
      rfl
  | keep hplain _ ih =>
      cases hsecond with
      | keep _ hrest => rw [ih hrest]
      | follow hreference => exact absurd hreference (hplain _)
  | follow hreference hread _ _ ihInner ihRest =>
      cases hsecond with
      | keep hplain => exact absurd hreference (hplain _)
      | follow hother hotherRead hinner hrest =>
          rw [hreference] at hother
          obtain ⟨rfl⟩ := Token.responseFile.inj (Option.some.inj hother)
          rw [hread] at hotherRead
          obtain ⟨rfl⟩ := Except.ok.inj hotherRead
          rw [ihInner hinner, ihRest hrest]

theorem plain {source : Source} {arguments flat : List String}
    (hexpands : Expands source arguments flat) : Token.Plain source.enabled flat := by
  induction hexpands with
  | nil =>
      intro path hmem
      cases hmem
  | keep hplain _ ih =>
      intro path hmem
      obtain ⟨argument, hargument, hclassify⟩ := List.mem_filterMap.mp hmem
      rcases List.mem_cons.mp hargument with rfl | hrest
      · exact hplain path hclassify
      · exact ih path (List.mem_filterMap.mpr ⟨argument, hrest, hclassify⟩)
  | follow _ _ _ _ ihInner ihRest =>
      intro path hmem
      unfold Token.ofArguments at hmem
      rw [List.filterMap_append] at hmem
      rcases List.mem_append.mp hmem with hinner | hrest
      · exact ihInner path hinner
      · exact ihRest path hrest

theorem of_plain {source : Source} {arguments : List String}
    (hplain : Token.Plain source.enabled arguments) : Expands source arguments arguments := by
  induction arguments with
  | nil => exact .nil
  | cons argument rest ih =>
      apply Expands.keep
      · intro path hclassify
        exact hplain path (List.mem_filterMap.mpr ⟨argument, List.mem_cons_self, hclassify⟩)
      · apply ih
        intro path hmem
        obtain ⟨other, hother, hclassify⟩ := List.mem_filterMap.mp hmem
        exact hplain path
          (List.mem_filterMap.mpr ⟨other, List.mem_cons_of_mem _ hother, hclassify⟩)

end Expands

/-! ### The events of one token -/

/-- What a token in a list of `count` arguments contributes. -/
def eventsOfToken (source : Source) (inside : String → List String → List Event)
    (count : Nat) : Token → List Event
  | .responseFile path =>
      if !source.files.contains path then [.failure (.responseFileMissing path)]
      else
        match ResponseFile.read source.files source.encoding path with
        | .error cause => [.failure (.responseFileUnreadable path cause)]
        | .ok tokens => inside path tokens
  | token => [.token count token]

theorem eventsOf_eq_flatMap (source : Source) (inside : String → List String → List Event)
    (arguments : List String) :
    eventsOf source inside arguments =
      (Token.ofArguments source.enabled arguments).flatMap
        (eventsOfToken source inside arguments.length) := by
  unfold eventsOf
  apply List.flatMap_congr
  intro token _
  cases token <;> rfl

theorem contains_of_read {source : Source} {path : String} {tokens : List String}
    (hread : source.read path = .ok tokens) : source.files.contains path = true := by
  obtain ⟨content, hcontent⟩ := Source.read_file hread
  obtain ⟨place, hplace, -⟩ := FileSystem.read_eq_ok_iff.mp hcontent
  simp [FileSystem.contains, hplace]

theorem eventsOfToken_of_read {source : Source}
    {inside : String → List String → List Event} {count : Nat} {path : String}
    {tokens : List String} (hread : source.read path = .ok tokens) :
    eventsOfToken source inside count (.responseFile path) = inside path tokens := by
  have hcontains := contains_of_read hread
  unfold Source.read at hread
  simp [eventsOfToken, hcontains, hread]

/-- A reference contributes a failure of its own, or the events of a file that could be read. -/
theorem eventsOfToken_reference_cases (source : Source)
    (inside : String → List String → List Event) (count : Nat) (path : String) :
    (∃ error, eventsOfToken source inside count (.responseFile path) = [.failure error] ∧
        (error = .responseFileMissing path ∨
          ∃ cause, error = .responseFileUnreadable path cause) ∧
        ∀ tokens, source.read path ≠ .ok tokens) ∨
      ∃ tokens, source.read path = .ok tokens ∧
        eventsOfToken source inside count (.responseFile path) = inside path tokens := by
  cases hread : source.read path with
  | ok tokens => exact .inr ⟨tokens, rfl, eventsOfToken_of_read hread⟩
  | error cause =>
      left
      unfold Source.read at hread
      by_cases hcontains : source.files.contains path = true
      · refine ⟨.responseFileUnreadable path cause, ?_, .inr ⟨cause, rfl⟩, ?_⟩
        · simp [eventsOfToken, hcontains, hread]
        · intro tokens
          simp
      · refine ⟨.responseFileMissing path, ?_, .inl rfl, ?_⟩
        · simp [eventsOfToken, hcontains]
        · intro tokens
          simp

theorem eventsOfToken_of_plain {source : Source}
    {inside : String → List String → List Event} {count : Nat} {token : Token}
    (hplain : ∀ path, token ≠ .responseFile path) :
    eventsOfToken source inside count token = [.token count token] := by
  cases token with
  | named written name value => rfl
  | positional value => rfl
  | responseFile path => exact absurd rfl (hplain path)

/-! ### The events of a command line -/

theorem eventsWithin_eq_eventsOf (source : Source) (depth : Nat) :
    ∃ inside, eventsWithin source depth = eventsOf source inside := by
  cases depth with
  | zero => exact ⟨_, rfl⟩
  | succ depth => exact ⟨_, rfl⟩

theorem eventsWithin_of_plain {source : Source} {arguments : List String}
    (hplain : Token.Plain source.enabled arguments) (depth : Nat) :
    eventsWithin source depth arguments =
      (Token.ofArguments source.enabled arguments).map (.token arguments.length) := by
  obtain ⟨inside, hinside⟩ := eventsWithin_eq_eventsOf source depth
  rw [hinside, eventsOf_eq_flatMap, List.map_eq_flatMap]
  apply List.flatMap_congr
  intro token htoken
  apply eventsOfToken_of_plain
  intro path hpath
  exact hplain path (hpath ▸ htoken)

theorem events_of_plain {source : Source} {arguments : List String}
    (hplain : Token.Plain source.enabled arguments) :
    events source arguments =
      (Token.ofArguments source.enabled arguments).map (.token arguments.length) :=
  eventsWithin_of_plain hplain source.depth

@[simp] theorem tokens_map_token (count : Nat) (tokens : List Token) :
    Event.tokens (tokens.map (.token count)) = tokens := by
  simp [Event.tokens, Function.comp_def, Event.token?]

/-- The list below a reference expands as soon as what it contributes has no failure. -/
def ExpandsInside (source : Source) (inside : String → List String → List Event) : Prop :=
  ∀ path tokens, (∀ error, Event.failure error ∉ inside path tokens) →
    ∃ flat, Expands source tokens flat ∧
      Event.tokens (inside path tokens) = Token.ofArguments source.enabled flat

theorem ofArguments_cons (responseFiles : Bool) (argument : String) (rest : List String) :
    Token.ofArguments responseFiles (argument :: rest) =
      (Token.classify responseFiles argument).toList ++
        Token.ofArguments responseFiles rest := by
  unfold Token.ofArguments
  cases hclassify : Token.classify responseFiles argument <;> simp [hclassify]

theorem ofArguments_append (responseFiles : Bool) (first second : List String) :
    Token.ofArguments responseFiles (first ++ second) =
      Token.ofArguments responseFiles first ++ Token.ofArguments responseFiles second := by
  simp [Token.ofArguments]

theorem ExpandsInside.exists_expands {source : Source}
    {inside : String → List String → List Event} (hinside : ExpandsInside source inside)
    (count : Nat) {arguments : List String}
    (hnone : ∀ error, Event.failure error ∉
      (Token.ofArguments source.enabled arguments).flatMap
        (eventsOfToken source inside count)) :
    ∃ flat, Expands source arguments flat ∧
      Event.tokens ((Token.ofArguments source.enabled arguments).flatMap
        (eventsOfToken source inside count)) = Token.ofArguments source.enabled flat := by
  induction arguments with
  | nil => exact ⟨[], .nil, rfl⟩
  | cons argument rest ih =>
      rw [ofArguments_cons, List.flatMap_append] at hnone ⊢
      obtain ⟨flat, hflat, htokens⟩ := ih fun error hmem =>
        hnone error (List.mem_append_right _ hmem)
      rw [Event.tokens_append, htokens]
      by_cases hreference :
          ∃ path, Token.classify source.enabled argument = some (.responseFile path)
      · obtain ⟨path, hpath⟩ := hreference
        simp only [hpath, Option.toList_some, List.flatMap_singleton] at hnone ⊢
        rcases eventsOfToken_reference_cases source inside count path with
          ⟨error, hevents, -⟩ | ⟨tokens, hread, hevents⟩
        · exact absurd (List.mem_append_left _ (by simp [hevents])) (hnone error)
        · rw [hevents] at hnone ⊢
          obtain ⟨inner, hinner, hinnerTokens⟩ := hinside path tokens fun error hmem =>
            hnone error (List.mem_append_left _ hmem)
          refine ⟨inner ++ flat, .follow hpath hread hinner hflat, ?_⟩
          rw [hinnerTokens, ofArguments_append]
      · have hplain : ∀ path,
            Token.classify source.enabled argument ≠ some (.responseFile path) :=
          fun path hpath => hreference ⟨path, hpath⟩
        refine ⟨argument :: flat, .keep hplain hflat, ?_⟩
        rw [ofArguments_cons]
        cases hclassify : Token.classify source.enabled argument with
        | none => rfl
        | some token =>
            have htoken : ∀ path, token ≠ .responseFile path := by
              intro path hpath
              exact hplain path (hpath ▸ hclassify)
            simp [eventsOfToken_of_plain htoken, Event.token?]

theorem ExpandsInside.eventsOf {source : Source}
    {inside : String → List String → List Event} (hinside : ExpandsInside source inside) :
    ExpandsInside source fun _ => eventsOf source inside := by
  intro _ arguments hnone
  simp only [eventsOf_eq_flatMap] at hnone ⊢
  exact hinside.exists_expands arguments.length hnone

theorem eventsWithin_expands (source : Source) (depth : Nat) :
    ExpandsInside source fun _ => eventsWithin source depth := by
  induction depth with
  | zero =>
      apply ExpandsInside.eventsOf
      -- at depth zero every file that could be read is a failure
      intro path tokens hnone
      exact absurd List.mem_cons_self (hnone (.responseFileCycle path))
  | succ depth ih => exact ih.eventsOf

/-- Events without a failure are the tokens of the full expansion. -/
theorem expands_of_events {source : Source} {arguments : List String}
    (hnone : ∀ error, Event.failure error ∉ events source arguments) :
    ∃ flat, Expands source arguments flat ∧
      Event.tokens (events source arguments) = Token.ofArguments source.enabled flat :=
  eventsWithin_expands source source.depth "" arguments hnone

/-! ### Failures among events -/

/-- A failure comes from a reference that cannot be followed, or from inside a file. -/
theorem failure_mem_eventsOf {source : Source}
    {inside : String → List String → List Event} {arguments : List String}
    {error : ArgumentError} (hmem : Event.failure error ∈ eventsOf source inside arguments) :
    ∃ path, Token.responseFile path ∈ Token.ofArguments source.enabled arguments ∧
      (((error = .responseFileMissing path ∨
            ∃ cause, error = .responseFileUnreadable path cause) ∧
          ∀ tokens, source.read path ≠ .ok tokens) ∨
        ∃ tokens, source.read path = .ok tokens ∧ Event.failure error ∈ inside path tokens) := by
  rw [eventsOf_eq_flatMap] at hmem
  obtain ⟨token, htoken, hevent⟩ := List.mem_flatMap.mp hmem
  cases token with
  | named written name value => simp [eventsOfToken] at hevent
  | positional value => simp [eventsOfToken] at hevent
  | responseFile path =>
      refine ⟨path, htoken, ?_⟩
      rcases eventsOfToken_reference_cases source inside arguments.length path with
        ⟨failure, hevents, hkind, hunread⟩ | ⟨tokens, hread, hevents⟩
      · rw [hevents, List.mem_singleton] at hevent
        obtain rfl := Event.failure.inj hevent
        exact .inl ⟨hkind, hunread⟩
      · exact .inr ⟨tokens, hread, hevents ▸ hevent⟩

theorem failure_isBinding {source : Source} {depth : Nat} {arguments : List String}
    {error : ArgumentError}
    (hmem : Event.failure error ∈ eventsWithin source depth arguments) :
    error.isBinding = false := by
  induction depth generalizing arguments with
  | zero =>
      obtain ⟨path, -, ⟨rfl | ⟨cause, rfl⟩, -⟩ | ⟨tokens, -, hinside⟩⟩ :=
        failure_mem_eventsOf hmem
      · rfl
      · rfl
      · obtain rfl := Event.failure.inj (List.mem_singleton.mp hinside)
        rfl
  | succ depth ih =>
      obtain ⟨path, -, ⟨rfl | ⟨cause, rfl⟩, -⟩ | ⟨tokens, -, hinside⟩⟩ :=
        failure_mem_eventsOf hmem
      · rfl
      · rfl
      · exact ih hinside

end Expansion

end CommandLine
