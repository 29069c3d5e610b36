import CommandLine.Proofs.Token.Split

/-!
# Separators of a text

A delimiter separates two tokens if an even number of quotes comes before it in the whole text.
Cutting a text at all its separators at once, and dropping the quotes and what is empty then, gives
the same tokens as reading them one by one.  The reader does not remember from one token to the next
whether a quote is open, but a token only ends where none is, or at the end of the text.
-/

namespace CommandLine.Token

variable {delimiters : List Char}

/-! ### Cutting a text at once -/

/-- The character separates in a text that has `before` in front of it. -/
def separates (delimiters before : List Char) (c : Char) : Bool :=
  c ≠ '"' && delimiters.contains c && before.count '"' % 2 == 0

/-- Every character of a text that has `before` in front of it, and whether it separates. -/
def marks (delimiters before cs : List Char) : List (Char × Bool) :=
  cs.mapIdx fun i c => (c, separates delimiters (before ++ cs.take i) c)

/-- What stands between the separators. -/
def pieces (delimiters before cs : List Char) : List (List Char) :=
  ((marks delimiters before cs).splitOnP Prod.snd).map (·.map Prod.fst)

/-- The pieces without their quotes, where anything is left of them. -/
def unquoted (pieces : List (List Char)) : List (List Char) :=
  (pieces.map (·.filter (· ≠ '"'))).filter (· ≠ [])

theorem marks_cons (before : List Char) (c : Char) (cs : List Char) :
    marks delimiters before (c :: cs) =
      (c, separates delimiters before c) :: marks delimiters (before ++ [c]) cs := by
  simp [marks, List.mapIdx_cons]

/-- Only the number of quotes before a text tells which of its characters separate. -/
theorem marks_congr {before other : List Char}
    (hcount : before.count '"' % 2 = other.count '"' % 2) (cs : List Char) :
    marks delimiters before cs = marks delimiters other cs := by
  induction cs generalizing before other with
  | nil => rfl
  | cons c cs ih =>
      have hnext : (before ++ [c]).count '"' % 2 = (other ++ [c]).count '"' % 2 := by
        rw [List.count_append, List.count_append]
        omega
      have hfirst : separates delimiters before c = separates delimiters other c := by
        unfold separates
        rw [hcount]
      rw [marks_cons, marks_cons, ih hnext, hfirst]

@[simp] theorem pieces_nil (before : List Char) : pieces delimiters before [] = [[]] := rfl

theorem exists_pieces_eq_cons (delimiters before cs : List Char) :
    ∃ first rest, pieces delimiters before cs = first :: rest := by
  apply List.exists_cons_of_ne_nil
  simp [pieces, List.splitOnP_ne_nil]

theorem pieces_cons_of_separates {before : List Char} {c : Char}
    (hc : separates delimiters before c = true) (cs : List Char) :
    pieces delimiters before (c :: cs) = [] :: pieces delimiters (before ++ [c]) cs := by
  simp [pieces, marks_cons, List.splitOnP_cons_eq_if_modifyHead, hc]

theorem pieces_cons_of_not_separates {before : List Char} {c : Char}
    (hc : separates delimiters before c = false) (cs : List Char) :
    pieces delimiters before (c :: cs) =
      (pieces delimiters (before ++ [c]) cs).modifyHead (c :: ·) := by
  simp only [pieces, marks_cons, List.splitOnP_cons_eq_if_modifyHead, hc]
  cases List.splitOnP Prod.snd (marks delimiters (before ++ [c]) cs) <;> simp

/-- After an open quote nothing separates. -/
theorem pieces_of_open {before rest : List Char} (hopen : before.count '"' % 2 = 1)
    (hfree : '"' ∉ rest) : pieces delimiters before rest = [rest] := by
  induction rest generalizing before with
  | nil => rfl
  | cons c rest ih =>
      have hc : '"' ∉ [c] := by
        rw [List.mem_singleton]
        rintro rfl
        exact hfree List.mem_cons_self
      have hnext : (before ++ [c]).count '"' % 2 = 1 := by
        rw [List.count_append, List.count_eq_zero_of_not_mem hc]
        exact hopen
      have hnot : separates delimiters before c = false := by simp [separates, hopen]
      have hrest : '"' ∉ rest := fun hmem => hfree (List.mem_cons_of_mem _ hmem)
      rw [pieces_cons_of_not_separates hnot, ih hnext hrest]
      rfl

/-- Where nothing separates any more, the last piece goes on to the end. -/
theorem exists_pieces_append (before first : List Char) {second : List Char}
    (hsecond : pieces delimiters (before ++ first) second = [second]) :
    ∃ init last, pieces delimiters before (first ++ second) = init ++ [last ++ second] := by
  induction first generalizing before with
  | nil => exact ⟨[], [], by simpa using hsecond⟩
  | cons c first ih =>
      obtain ⟨init, last, hpieces⟩ := ih (before ++ [c]) (by simpa using hsecond)
      rw [List.cons_append]
      cases hc : separates delimiters before c with
      | true =>
          rw [pieces_cons_of_separates hc, hpieces]
          exact ⟨[] :: init, last, rfl⟩
      | false =>
          rw [pieces_cons_of_not_separates hc, hpieces]
          cases init with
          | nil => exact ⟨[], c :: last, rfl⟩
          | cons piece init => exact ⟨(c :: piece) :: init, last, rfl⟩

@[simp] theorem unquoted_nil : unquoted [] = [] := rfl

theorem unquoted_append (first second : List (List Char)) :
    unquoted (first ++ second) = unquoted first ++ unquoted second := by
  simp [unquoted]

theorem unquoted_cons (piece : List Char) (rest : List (List Char)) :
    unquoted (piece :: rest) = unquoted [piece] ++ unquoted rest := by
  rw [← unquoted_append, List.singleton_append]

theorem filter_ne_quote {piece : List Char} (hfree : '"' ∉ piece) :
    piece.filter (· ≠ '"') = piece := by
  apply List.filter_eq_self.mpr
  intro c hc
  have hne : c ≠ '"' := ne_of_mem_of_not_mem hc hfree
  simpa using hne

theorem unquoted_singleton {piece : List Char} (hfree : '"' ∉ piece) :
    unquoted [piece] = if piece = [] then [] else [piece] := by
  unfold unquoted
  rw [List.map_singleton, filter_ne_quote hfree]
  split
  · next hempty => simp [hempty]
  · next hne => simp [hne]

theorem unquoted_quote (held piece : List Char) (rest : List (List Char)) :
    unquoted ((held ++ '"' :: piece) :: rest) = unquoted ((held ++ piece) :: rest) := by
  simp [unquoted]

/-! ### Reading on -/

/-- The tokens that are still to come when `held` has been read of the next one. -/
def tokensFrom (delimiters : List Char) (quoted : Bool) (held cs : List Char) :
    List (List Char) :=
  match scan delimiters quoted held cs with
  | none => []
  | some (token, rest) => token :: splitChars delimiters rest

theorem tokensFrom_start (cs : List Char) :
    tokensFrom delimiters false [] cs = splitChars delimiters cs := by
  unfold tokensFrom
  cases hscan : scan delimiters false [] cs with
  | none => exact (splitChars_of_next?_eq_none hscan).symm
  | some result => exact (splitChars_of_next?_eq_some hscan).symm

theorem tokensFrom_nil (quoted : Bool) {held : List Char} (hfree : '"' ∉ held) :
    tokensFrom delimiters quoted held [] = unquoted [held.reverse] := by
  rw [unquoted_singleton (by simpa using hfree)]
  unfold tokensFrom
  by_cases hheld : held = []
  · simp [scan, hheld]
  · simp [scan, hheld]

theorem tokensFrom_quote (quoted : Bool) (held cs : List Char) :
    tokensFrom delimiters quoted held ('"' :: cs) = tokensFrom delimiters (!quoted) held cs := by
  unfold tokensFrom
  rw [scan, if_pos rfl]

theorem tokensFrom_delimiter {c : Char} (hc : c ∈ delimiters) (hquote : c ≠ '"')
    {held : List Char} (hfree : '"' ∉ held) (cs : List Char) :
    tokensFrom delimiters false held (c :: cs) =
      unquoted [held.reverse] ++ splitChars delimiters cs := by
  rw [unquoted_singleton (by simpa using hfree)]
  by_cases hheld : held = []
  · subst held
    have hnext := splitChars_congr (next?_cons_delimiter hc hquote cs)
    rw [tokensFrom_start, hnext]
    rfl
  · unfold tokensFrom
    rw [scan_cons_delimiter hheld hc hquote]
    simp [hheld]

theorem tokensFrom_ordinary {quoted : Bool} {c : Char} (hquote : c ≠ '"')
    (hordinary : (!quoted && delimiters.contains c) = false) (held cs : List Char) :
    tokensFrom delimiters quoted held (c :: cs) = tokensFrom delimiters quoted (c :: held) cs := by
  unfold tokensFrom
  rw [scan, if_neg hquote, hordinary]
  rfl

/-- Whether a quote is open is the number of quotes before, and what is held begins the next
piece. -/
theorem tokensFrom_eq_unquoted {before held : List Char} {quoted : Bool} (hfree : '"' ∉ held)
    (hquoted : quoted = (before.count '"' % 2 == 1)) (cs : List Char) :
    tokensFrom delimiters quoted held cs =
      unquoted ((pieces delimiters before cs).modifyHead (held.reverse ++ ·)) := by
  induction cs generalizing before held quoted with
  | nil => simp [tokensFrom_nil quoted hfree]
  | cons c cs ih =>
      obtain ⟨first, rest, hpieces⟩ := exists_pieces_eq_cons delimiters (before ++ [c]) cs
      by_cases hquote : c = '"'
      · subst c
        have hopen : (!quoted) = ((before ++ ['"']).count '"' % 2 == 1) := by
          rw [hquoted, List.count_append, List.count_singleton_self]
          grind
        have hnot : separates delimiters before '"' = false := by simp [separates]
        rw [tokensFrom_quote, ih hfree hopen, pieces_cons_of_not_separates hnot, hpieces]
        simp [unquoted_quote]
      · have hsame : quoted = ((before ++ [c]).count '"' % 2 == 1) := by
          rw [hquoted, List.count_append, List.count_singleton]
          simp [hquote]
        have hseparates :
            separates delimiters before c = (!quoted && delimiters.contains c) := by
          rw [hquoted]
          grind [separates]
        cases hordinary : (!quoted && delimiters.contains c) with
        | false =>
            have hheld : '"' ∉ c :: held := by simp [hfree, Ne.symm hquote]
            rw [tokensFrom_ordinary hquote hordinary, ih hheld hsame,
              pieces_cons_of_not_separates (hseparates.trans hordinary), hpieces]
            simp
        | true =>
            obtain ⟨rfl, hc⟩ : quoted = false ∧ c ∈ delimiters := by simpa using hordinary
            have hrest := ih List.not_mem_nil hsame
            rw [tokensFrom_delimiter hc hquote hfree,
              pieces_cons_of_separates (hseparates.trans hordinary), ← tokensFrom_start, hrest,
              hpieces]
            simpa using (unquoted_cons held.reverse (first :: rest)).symm

/-- Reading the tokens of a text one by one is cutting it at its separators. -/
theorem splitChars_eq_unquoted_pieces (cs : List Char) :
    splitChars delimiters cs = unquoted (pieces delimiters [] cs) := by
  obtain ⟨first, rest, hpieces⟩ := exists_pieces_eq_cons delimiters [] cs
  have hclosed : false = (([] : List Char).count '"' % 2 == 1) := rfl
  rw [← tokensFrom_start, tokensFrom_eq_unquoted List.not_mem_nil hclosed, hpieces]
  rfl

/-! ### Calls of the iterator -/

/-- One call, in which `held` has been read of a token: the token that is returned, if there is one,
and the characters that are left for the next call. -/
def readNext (delimiters : List Char) (quoted : Bool) (held : List Char) :
    List Char → Option (List Char) × List Char
  | [] => (if held.isEmpty then none else some held.reverse, [])
  | c :: rest =>
      if c = '"' then readNext delimiters (!quoted) held rest
      else if !quoted && delimiters.contains c then
        if held.isEmpty then readNext delimiters quoted held rest else (some held.reverse, rest)
      else readNext delimiters quoted (c :: held) rest

/-- What is left of a text after some calls. -/
def remaining (delimiters cs : List Char) : Nat → List Char
  | 0 => cs
  | calls + 1 => remaining delimiters (readNext delimiters false [] cs).2 calls

/-- What is returned after some calls. -/
def answer (delimiters cs : List Char) (calls : Nat) : Option (List Char) :=
  (readNext delimiters false [] (remaining delimiters cs calls)).1

/-- A call that finds no token has read everything. -/
theorem readNext_eq_scan (delimiters : List Char) (quoted : Bool) (held cs : List Char) :
    readNext delimiters quoted held cs =
      match scan delimiters quoted held cs with
      | none => (none, [])
      | some (token, rest) => (some token, rest) := by
  induction cs generalizing quoted held with
  | nil => cases held <;> rfl
  | cons c rest ih =>
      rw [readNext, scan]
      by_cases hquote : c = '"'
      · rw [if_pos hquote, if_pos hquote, ih]
      · rw [if_neg hquote, if_neg hquote]
        split
        · split
          · exact ih quoted held
          · rfl
        · exact ih quoted (c :: held)

theorem answer_succ (cs : List Char) (calls : Nat) :
    answer delimiters cs (calls + 1) =
      answer delimiters (readNext delimiters false [] cs).2 calls := rfl

theorem answer_eq_getElem? (cs : List Char) (calls : Nat) :
    answer delimiters cs calls = (splitChars delimiters cs)[calls]? := by
  induction calls generalizing cs with
  | zero =>
      have hcall := readNext_eq_scan delimiters false [] cs
      cases hnext : next? delimiters cs with
      | none =>
          rw [show scan delimiters false [] cs = none from hnext] at hcall
          simp [answer, remaining, hcall, splitChars_of_next?_eq_none hnext]
      | some result =>
          rw [show scan delimiters false [] cs = some result from hnext] at hcall
          simp [answer, remaining, hcall, splitChars_of_next?_eq_some hnext]
  | succ calls ih =>
      rw [answer_succ, ih, readNext_eq_scan]
      cases hnext : next? delimiters cs with
      | none =>
          rw [show scan delimiters false [] cs = none from hnext]
          simp [splitChars_of_next?_eq_none hnext]
      | some result =>
          rw [show scan delimiters false [] cs = some result from hnext]
          simp [splitChars_of_next?_eq_some hnext]

/-- Whatever is left after a token has no open quote before it. -/
theorem readNext_balanced (delimiters : List Char) (quoted : Bool) (held cs : List Char) :
    ∃ read, cs = read ++ (readNext delimiters quoted held cs).2 ∧
      ((readNext delimiters quoted held cs).2 ≠ [] →
        (quoted.toNat + read.count '"') % 2 = 0) := by
  induction cs generalizing quoted held with
  | nil => exact ⟨[], rfl, fun hrest => absurd rfl hrest⟩
  | cons c rest ih =>
      rw [readNext]
      split
      · next hquote =>
          obtain ⟨read, hread, hbalanced⟩ := ih (!quoted) held
          refine ⟨c :: read, congrArg (c :: ·) hread, ?_⟩
          intro hrest
          have hrest := hbalanced hrest
          subst c
          cases quoted <;> simp at hrest ⊢ <;> omega
      · next hquote =>
          have hcount : ∀ read : List Char, (c :: read).count '"' = read.count '"' := by
            intro read
            simp [hquote]
          split
          · next hseparates =>
              have hclosed : quoted = false := by
                simp only [Bool.and_eq_true] at hseparates
                simpa using hseparates.1
              split
              · obtain ⟨read, hread, hbalanced⟩ := ih quoted held
                exact ⟨c :: read, congrArg (c :: ·) hread, by rwa [hcount]⟩
              · refine ⟨[c], rfl, fun _ => ?_⟩
                rw [hcount, hclosed]
                rfl
          · obtain ⟨read, hread, hbalanced⟩ := ih quoted (c :: held)
            exact ⟨c :: read, congrArg (c :: ·) hread, by rwa [hcount]⟩

/-- What is left after some calls has the separators that it has in the whole text. -/
theorem exists_read_remaining (cs : List Char) (calls : Nat) :
    ∃ read, cs = read ++ remaining delimiters cs calls ∧
      marks delimiters [] (remaining delimiters cs calls) =
        marks delimiters read (remaining delimiters cs calls) := by
  induction calls generalizing cs with
  | zero => exact ⟨[], rfl, rfl⟩
  | succ calls ih =>
      obtain ⟨first, hfirst, hbalanced⟩ := readNext_balanced delimiters false [] cs
      obtain ⟨second, hsecond, hmarks⟩ := ih (readNext delimiters false [] cs).2
      refine ⟨first ++ second, ?_, ?_⟩
      · rw [List.append_assoc]
        exact hsecond ▸ hfirst
      · rw [remaining, hmarks]
        by_cases hrest : (readNext delimiters false [] cs).2 = []
        · rw [hrest] at hsecond ⊢
          rw [(List.append_eq_nil_iff.mp hsecond.symm).2]
          rfl
        · apply marks_congr
          have hcount := hbalanced hrest
          rw [List.count_append]
          simp at hcount
          omega

/-- A quote that is never closed keeps all that follows it in one token. -/
theorem exists_unquoted_pieces_of_open {before rest : List Char}
    (hclosed : before.count '"' % 2 = 0) (hfree : '"' ∉ rest) (hrest : rest ≠ []) :
    ∃ tokens begun,
      unquoted (pieces delimiters [] (before ++ '"' :: rest)) = tokens ++ [begun ++ rest] := by
  have hopen : (before ++ ['"']).count '"' % 2 = 1 := by
    rw [List.count_append, List.count_singleton_self]
    omega
  obtain ⟨init, last, hpieces⟩ :=
    exists_pieces_append [] (before ++ ['"']) (pieces_of_open hopen hfree)
  have hlast : unquoted [last ++ rest] = [last.filter (· ≠ '"') ++ rest] := by
    unfold unquoted
    rw [List.map_singleton, List.filter_append, filter_ne_quote hfree]
    simp [hrest]
  refine ⟨unquoted init, last.filter (· ≠ '"'), ?_⟩
  rw [List.append_cons, hpieces, unquoted_append, hlast]

/-- The tokens of a text are its pieces between separators, which the iterator returns one by one
and then nothing any more.  It need not remember whether a quote is open, since what is left always
has the separators that it has in the whole text. -/
theorem split_at_separators (delimiters : List Char) (text : String) :
    split delimiters text =
        (unquoted (pieces delimiters [] text.toList)).map String.ofList ∧
      (∀ calls, answer delimiters text.toList calls =
        (unquoted (pieces delimiters [] text.toList))[calls]?) ∧
      (∀ calls later, calls ≤ later → answer delimiters text.toList calls = none →
        answer delimiters text.toList later = none) ∧
      (∀ calls, ∃ read, text.toList = read ++ remaining delimiters text.toList calls ∧
        marks delimiters [] (remaining delimiters text.toList calls) =
          marks delimiters read (remaining delimiters text.toList calls)) ∧
      ∀ before rest, text.toList = before ++ '"' :: rest → before.count '"' % 2 = 0 →
        '"' ∉ rest → rest ≠ [] → ∃ tokens begun,
          unquoted (pieces delimiters [] text.toList) = tokens ++ [begun ++ rest] := by
  have htokens : splitChars delimiters text.toList = unquoted (pieces delimiters [] text.toList) :=
    splitChars_eq_unquoted_pieces text.toList
  have hanswers : ∀ calls, answer delimiters text.toList calls =
      (unquoted (pieces delimiters [] text.toList))[calls]? := by
    intro calls
    rw [answer_eq_getElem?, htokens]
  refine ⟨by rw [split, htokens], hanswers, ?_, exists_read_remaining text.toList, ?_⟩
  · intro calls later hle hnone
    rw [hanswers, List.getElem?_eq_none_iff] at hnone ⊢
    omega
  · intro before rest htext hclosed hfree hrest
    rw [htext]
    exact exists_unquoted_pieces_of_open hclosed hfree hrest

theorem split_keeps_open_rest :
    ∃ tokens begun,
      unquoted (pieces [' '] [] "ab\"c d\"ef \"\" g\"x y".toList) =
        tokens ++ [begun ++ "x y".toList] :=
  (split_at_separators [' '] "ab\"c d\"ef \"\" g\"x y").2.2.2.2 "ab\"c d\"ef \"\" g".toList
    "x y".toList (by decide) (by decide) (by decide) (by decide)

/-- A quote never separates, even where it is one of the delimiters. -/
example : unquoted (pieces ['"', ' '] [] "a\"b c\" \"\" d".toList) =
    ["ab c".toList, "d".toList] := by decide

end CommandLine.Token
