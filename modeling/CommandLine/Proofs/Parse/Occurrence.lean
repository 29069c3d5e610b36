import CommandLine.Parse.State
import CommandLine.Proofs.Table.Names
import Mathlib.Data.List.Basic

/-!
# Occurrences of arguments

Which argument of a table a token belongs to, and the values that a list of tokens holds for one
argument.  Arguments are told apart by their long names, while a parse finds them by position; in a
table with distinct long names both give the same.
-/

namespace CommandLine

namespace Table

/-- The argument that a token belongs to, and the value that the token brings. -/
def resolve (t : Table) : Token → Option (Declaration × Option String)
  | .named _ name value => (t.find name).map (·, value)
  | .positional value => t.positional.map (·, some value)
  | .responseFile _ => none

/-- The values of one argument among tokens, in order; `none` is an occurrence without a value. -/
def occurrences (t : Table) (d : Declaration) (tokens : List Token) : List (Option String) :=
  ((tokens.filterMap t.resolve).filter (·.1.long == d.long)).map Prod.snd

/-! ### Finding an argument -/

/-- Where a token is sent is the place of the argument that it belongs to. -/
theorem resolve_of_target {t : Table} {token : Token} {position : Nat} {value : Option String}
    (htarget : State.target t token = some (position, value)) :
    ∃ d, t.all[position]? = some d ∧ t.resolve token = some (d, value) := by
  cases token with
  | named written name text =>
      obtain ⟨found, hfound, hpair⟩ := Option.map_eq_some_iff.mp htarget
      obtain ⟨rfl, rfl⟩ := Prod.mk.inj hpair
      obtain ⟨d, hd⟩ := getElem?_named_of_position hfound
      have hlt : found < t.named.length := (List.getElem?_eq_some_iff.mp hd).1
      refine ⟨d, ?_, ?_⟩
      · unfold Table.all
        rw [List.getElem?_append_left hlt, hd]
      · simp [resolve, find, hfound, hd]
  | positional text =>
      obtain ⟨d, hd, hpair⟩ := Option.map_eq_some_iff.mp htarget
      obtain ⟨rfl, rfl⟩ := Prod.mk.inj hpair
      exact ⟨d, by simp [Table.all, hd], by simp [resolve, hd]⟩
  | responseFile path =>
      simp [State.target] at htarget

theorem resolve_of_target_eq_none {t : Table} {token : Token}
    (htarget : State.target t token = none) : t.resolve token = none := by
  cases token with
  | named written name value =>
      have hname : t.position name = none := by
        simpa [State.target] using htarget
      simp [resolve, find, hname]
  | positional text => simpa [State.target, resolve] using htarget
  | responseFile path => rfl

theorem mem_all_of_resolve {t : Table} {token : Token} {d : Declaration} {value : Option String}
    (hresolve : t.resolve token = some (d, value)) : d ∈ t.all := by
  cases htarget : State.target t token with
  | none =>
      rw [resolve_of_target_eq_none htarget] at hresolve
      contradiction
  | some target =>
      obtain ⟨found, hfound, hother⟩ := resolve_of_target htarget
      rw [hresolve] at hother
      obtain ⟨rfl, -⟩ := Prod.mk.inj (Option.some.inj hother)
      exact List.mem_of_getElem? hfound

/-! ### Occurrences along a list of tokens -/

@[simp] theorem occurrences_nil (t : Table) (d : Declaration) : t.occurrences d [] = [] := rfl

@[simp] theorem occurrences_append (t : Table) (d : Declaration) (first second : List Token) :
    t.occurrences d (first ++ second) = t.occurrences d first ++ t.occurrences d second := by
  simp [occurrences]

theorem occurrences_singleton_self {t : Table} {token : Token} {d : Declaration}
    {value : Option String} (hresolve : t.resolve token = some (d, value)) :
    t.occurrences d [token] = [value] := by
  simp [occurrences, hresolve]

theorem occurrences_singleton_other {t : Table} {token : Token} {d other : Declaration}
    {value : Option String} (hresolve : t.resolve token = some (d, value))
    (hlong : d.long ≠ other.long) : t.occurrences other [token] = [] := by
  simp [occurrences, hresolve, hlong]

/-- The value that a token brings to the argument, if it belongs to it. -/
def valueFor? (t : Table) (d : Declaration) (token : Token) : Option (Option String) :=
  ((t.resolve token).filter (·.1.long == d.long)).map Prod.snd

theorem occurrences_eq_filterMap (t : Table) (d : Declaration) (tokens : List Token) :
    t.occurrences d tokens = tokens.filterMap (t.valueFor? d) := by
  unfold occurrences valueFor?
  rw [List.filter_filterMap, List.map_filterMap]

theorem valueFor?_eq_some_iff {t : Table} {d : Declaration} {token : Token}
    {value : Option String} :
    t.valueFor? d token = some value ↔
      ∃ owner, t.resolve token = some (owner, value) ∧ owner.long = d.long := by
  unfold valueFor?
  constructor
  · intro hvalue
    obtain ⟨⟨owner, text⟩, htarget, hsecond⟩ := Option.map_eq_some_iff.mp hvalue
    have howner := Option.filter_eq_some_iff.mp htarget
    have htext : text = value := hsecond
    subst text
    exact ⟨owner, howner.1, by simpa using howner.2⟩
  · rintro ⟨owner, hresolve, hlong⟩
    simp [hresolve, hlong]

theorem mem_occurrences_iff {t : Table} {d : Declaration} {tokens : List Token}
    {value : Option String} :
    value ∈ t.occurrences d tokens ↔
      ∃ token ∈ tokens, ∃ owner, t.resolve token = some (owner, value) ∧ owner.long = d.long := by
  rw [occurrences_eq_filterMap, List.mem_filterMap]
  simp only [valueFor?_eq_some_iff]

/-- An occurrence is brought by a token, after those that bring the occurrences before it. -/
theorem exists_token_of_occurrences {t : Table} {d : Declaration} {tokens : List Token}
    {before after : List (Option String)} {value : Option String}
    (hvalues : t.occurrences d tokens = before ++ value :: after) :
    ∃ earlier token later, tokens = earlier ++ token :: later ∧
      t.occurrences d earlier = before ∧
        ∃ owner, t.resolve token = some (owner, value) ∧ owner.long = d.long := by
  rw [occurrences_eq_filterMap] at hvalues
  obtain ⟨first, rest, rfl, hfirst, hrest⟩ := List.filterMap_eq_append_iff.mp hvalues
  obtain ⟨skipped, token, later, rfl, hskipped, htoken, -⟩ :=
    List.filterMap_eq_cons_iff.mp hrest
  refine ⟨first ++ skipped, token, later, by simp, ?_, valueFor?_eq_some_iff.mp htoken⟩
  have hnone : skipped.filterMap (t.valueFor? d) = [] :=
    List.filterMap_eq_nil_iff.mpr hskipped
  rw [occurrences_eq_filterMap, List.filterMap_append, hfirst, hnone, List.append_nil]

/-- Arguments at different places have different long names. -/
theorem Coherent.long_ne {t : Table} (hcoherent : t.Coherent) {i j : Nat} {d other : Declaration}
    (hi : t.all[i]? = some d) (hj : t.all[j]? = some other) (hij : i ≠ j) :
    d.long ≠ other.long := by
  intro hlong
  apply hij
  have hbound : i < (t.all.map Declaration.long).length := by
    simpa using (List.getElem?_eq_some_iff.mp hi).1
  apply (List.getElem?_inj hbound hcoherent.longNames).mp
  simp [hi, hj, hlong]

end Table

end CommandLine
