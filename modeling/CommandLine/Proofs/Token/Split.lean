import CommandLine.Token.Split
import Mathlib.Data.List.Basic

/-!
# Tokens of a text

What the reader does with the next piece of a text: it passes over delimiters, takes a quoted run as
it stands, and ends a token at the delimiter after it.  Whatever the text, its tokens are not empty,
hold no quotes and consist of characters of the text.
-/

namespace CommandLine.Token

variable {delimiters : List Char}

/-! ### One token -/

theorem scan_quoted {token : List Char} (hfree : '"' ∉ token) (held rest : List Char) :
    scan delimiters true held (token ++ '"' :: rest) =
      scan delimiters false (token.reverse ++ held) rest := by
  induction token generalizing held with
  | nil => simp [scan]
  | cons c token ih =>
      have hc : c ≠ '"' := by
        rintro rfl
        exact hfree List.mem_cons_self
      have hrest := ih (fun hmem => hfree (List.mem_cons_of_mem _ hmem)) (c :: held)
      rw [List.cons_append, scan, if_neg hc]
      simpa using hrest

/-- A token that begins with a quoted run goes on after it. -/
theorem next?_quoted {token : List Char} (hfree : '"' ∉ token) (rest : List Char) :
    next? delimiters ('"' :: token ++ '"' :: rest) =
      scan delimiters false token.reverse rest := by
  rw [next?, List.cons_append, scan, if_pos rfl, Bool.not_false, scan_quoted hfree [] rest,
    List.append_nil]

theorem next?_cons_delimiter {c : Char} (hc : c ∈ delimiters) (hquote : c ≠ '"')
    (cs : List Char) : next? delimiters (c :: cs) = next? delimiters cs := by
  rw [next?, scan, if_neg hquote]
  simp [hc, next?]

theorem scan_cons_delimiter {held cs : List Char} {c : Char} (hheld : held ≠ [])
    (hc : c ∈ delimiters) (hquote : c ≠ '"') :
    scan delimiters false held (c :: cs) = some (held.reverse, cs) := by
  rw [scan, if_neg hquote]
  simp [hc, hheld]

theorem scan_nil {held : List Char} (hheld : held ≠ []) :
    scan delimiters false held [] = some (held.reverse, []) := by
  simp [scan, hheld]

/-- What is known of a token that was read on from `held`, and of what remains of the text. -/
structure ReadFrom (held cs token rest : List Char) : Prop where
  nonempty : token ≠ []
  quoteFree : '"' ∉ token
  token_mem : ∀ c ∈ token, c ∈ held ∨ c ∈ cs
  rest_mem : ∀ c ∈ rest, c ∈ cs

theorem ReadFrom.skip {held cs token rest : List Char} (hread : ReadFrom held cs token rest)
    (first : Char) : ReadFrom held (first :: cs) token rest where
  nonempty := hread.nonempty
  quoteFree := hread.quoteFree
  token_mem := fun c hc => (hread.token_mem c hc).imp_right (List.mem_cons_of_mem _)
  rest_mem := fun c hc => List.mem_cons_of_mem _ (hread.rest_mem c hc)

theorem ReadFrom.hold {held cs token rest : List Char} {first : Char}
    (hread : ReadFrom (first :: held) cs token rest) :
    ReadFrom held (first :: cs) token rest where
  nonempty := hread.nonempty
  quoteFree := hread.quoteFree
  token_mem := by
    intro c hc
    have horigin := hread.token_mem c hc
    simp only [List.mem_cons] at horigin ⊢
    tauto
  rest_mem := fun c hc => List.mem_cons_of_mem _ (hread.rest_mem c hc)

theorem ReadFrom.done {held : List Char} (hheld : held ≠ []) (hfree : '"' ∉ held)
    (rest : List Char) : ReadFrom held rest held.reverse rest where
  nonempty := by simpa using hheld
  quoteFree := by simpa using hfree
  token_mem := fun _ hc => .inl (List.mem_reverse.mp hc)
  rest_mem := fun _ hc => hc

theorem scan_readFrom {quoted : Bool} {held cs token rest : List Char} (hfree : '"' ∉ held)
    (hscan : scan delimiters quoted held cs = some (token, rest)) :
    ReadFrom held cs token rest := by
  induction cs generalizing quoted held with
  | nil =>
      have hheld : held ≠ [] := by
        rintro rfl
        simp [scan] at hscan
      have hresult : held.reverse = token ∧ [] = rest := by
        simpa [scan, hheld] using hscan
      obtain ⟨rfl, rfl⟩ := hresult
      exact .done hheld hfree []
  | cons first cs ih =>
      rw [scan] at hscan
      by_cases hquote : first = '"'
      · rw [if_pos hquote] at hscan
        exact (ih hfree hscan).skip first
      · rw [if_neg hquote] at hscan
        split at hscan
        · split at hscan
          · exact (ih hfree hscan).skip first
          · next hnonempty =>
              have hheld : held ≠ [] := by
                simpa using hnonempty
              have hresult : held.reverse = token ∧ cs = rest := by
                simpa using hscan
              obtain ⟨rfl, rfl⟩ := hresult
              exact (ReadFrom.done hheld hfree cs).skip first
        · have hnext : '"' ∉ first :: held := by
            simp [hfree, Ne.symm hquote]
          exact (ih hnext hscan).hold

/-! ### All tokens -/

theorem splitChars_of_next?_eq_some {cs token rest : List Char}
    (hnext : next? delimiters cs = some (token, rest)) :
    splitChars delimiters cs = token :: splitChars delimiters rest := by
  rw [splitChars]
  split
  · next hnone =>
      rw [hnext] at hnone
      contradiction
  · next first others hsome =>
      rw [hnext] at hsome
      obtain ⟨rfl, rfl⟩ := Prod.mk.inj (Option.some.inj hsome)
      rfl

theorem splitChars_of_next?_eq_none {cs : List Char} (hnext : next? delimiters cs = none) :
    splitChars delimiters cs = [] := by
  rw [splitChars]
  split
  · rfl
  · next hsome =>
      rw [hnext] at hsome
      contradiction

@[simp] theorem splitChars_nil (delimiters : List Char) : splitChars delimiters [] = [] :=
  splitChars_of_next?_eq_none (by simp [next?, scan])

theorem splitChars_congr {first second : List Char}
    (hnext : next? delimiters first = next? delimiters second) :
    splitChars delimiters first = splitChars delimiters second := by
  cases hsecond : next? delimiters second with
  | none =>
      rw [splitChars_of_next?_eq_none hsecond, splitChars_of_next?_eq_none (hnext.trans hsecond)]
  | some result =>
      obtain ⟨token, rest⟩ := result
      rw [splitChars_of_next?_eq_some hsecond,
        splitChars_of_next?_eq_some (hnext.trans hsecond)]

/-- Delimiters before a token are passed over. -/
theorem splitChars_append_delimiters {gap : List Char}
    (hgap : ∀ c ∈ gap, c ∈ delimiters ∧ c ≠ '"') (cs : List Char) :
    splitChars delimiters (gap ++ cs) = splitChars delimiters cs := by
  induction gap with
  | nil => rfl
  | cons c gap ih =>
      have hc := hgap c List.mem_cons_self
      have hrest := ih fun other hother => hgap other (List.mem_cons_of_mem _ hother)
      rw [List.cons_append, splitChars_congr (next?_cons_delimiter hc.1 hc.2 _), hrest]

theorem mem_splitChars {cs token : List Char} (htoken : token ∈ splitChars delimiters cs) :
    token ≠ [] ∧ '"' ∉ token ∧ ∀ c ∈ token, c ∈ cs := by
  fun_induction splitChars delimiters cs with
  | case1 cs hnone => simp at htoken
  | case2 cs first rest hnext ih =>
      have hread : ReadFrom [] cs first rest := scan_readFrom (by simp) hnext
      rcases List.mem_cons.mp htoken with rfl | hrest
      · refine ⟨hread.nonempty, hread.quoteFree, ?_⟩
        intro c hc
        simpa using hread.token_mem c hc
      · have hlater := ih hrest
        refine ⟨hlater.1, hlater.2.1, ?_⟩
        intro c hc
        exact hread.rest_mem c (hlater.2.2 c hc)

end CommandLine.Token
