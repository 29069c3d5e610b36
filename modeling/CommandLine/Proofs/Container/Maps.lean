import CommandLine.Proofs.Container
import Mathlib.Data.List.Nodup
import Mathlib.Data.String.Basic

/-!
# Maps

A map takes an entry under a new name, and puts any other one in the place of the entry that it has
under that name.  However it arranges its entries, a name is then looked up in the entries that were
put in, the last ones first, and after them in the initial ones.
-/

namespace CommandLine

/-- The contents of a map. -/
def Contents.ofPairs (pairs : List (String × String)) : Contents :=
  pairs.map fun entry => .pair entry.1 entry.2

namespace Container

open Contents (ofPairs)

def names (pairs : List (String × String)) : List String :=
  pairs.map Prod.fst

/-- What a map holds after pairs have been put into it that holds the initial ones at first. -/
structure FillsMap (initial buffer final : List (String × String)) : Prop where
  lookup : ∀ name, final.lookup name = (buffer.reverse.lookup name).or (initial.lookup name)
  once : (names final).Nodup

theorem FillsMap.refl {initial : List (String × String)} (honce : (names initial).Nodup) :
    FillsMap initial [] initial where
  lookup _ := rfl
  once := honce

theorem FillsMap.append {initial middle final first second : List (String × String)}
    (hfirst : FillsMap initial first middle) (hsecond : FillsMap middle second final) :
    FillsMap initial (first ++ second) final where
  lookup name := by
    rw [hsecond.lookup, hfirst.lookup, List.reverse_append, List.lookup_append, Option.or_assoc]
  once := hsecond.once

/-- What is put under a name into the entries of a map, whose order it is free to change. -/
structure Puts (held : List (String × String)) (name value : String)
    (grown : List (String × String)) : Prop where
  fresh : name ∉ names held → grown.Perm ((name, value) :: held)
  present : ∀ before old after, held = before ++ (name, old) :: after →
    grown.Perm (before ++ (name, value) :: after)

theorem lookup_eq_some_iff_mem {pairs : List (String × String)} (honce : (names pairs).Nodup)
    {name value : String} : pairs.lookup name = some value ↔ (name, value) ∈ pairs := by
  induction pairs with
  | nil => simp
  | cons entry rest ih =>
      obtain ⟨other, text⟩ := entry
      obtain ⟨hother, hrest⟩ := List.nodup_cons.mp honce
      rw [List.lookup_cons, List.mem_cons]
      by_cases hname : name = other
      · subst hname
        have hnot : (name, value) ∉ rest := by
          intro hmem
          exact hother (List.mem_map.mpr ⟨_, hmem, rfl⟩)
        simp [hnot, eq_comm]
      · simp [beq_false_of_ne hname, hname, ih hrest]

theorem lookup_eq_of_perm {first second : List (String × String)} (honce : (names first).Nodup)
    (hperm : first.Perm second) (name : String) : first.lookup name = second.lookup name := by
  have hother : (names second).Nodup := (hperm.map Prod.fst).nodup_iff.mp honce
  apply Option.ext
  intro value
  rw [lookup_eq_some_iff_mem honce, lookup_eq_some_iff_mem hother, hperm.mem_iff]

theorem names_replaced (before after : List (String × String)) (name value old : String) :
    names (before ++ (name, value) :: after) = names (before ++ (name, old) :: after) := by
  simp [names]

/-- A new value under a name makes no difference to other names. -/
theorem lookup_replaced {before after : List (String × String)} {name old : String}
    (honce : (names (before ++ (name, old) :: after)).Nodup) (value other : String) :
    (before ++ (name, value) :: after).lookup other =
      (List.lookup other [(name, value)]).or
        ((before ++ (name, old) :: after).lookup other) := by
  simp only [List.lookup_append, List.lookup_cons, List.lookup_nil]
  by_cases hother : other = name
  · subst hother
    have hbefore : before.lookup other = none := by
      rw [List.lookup_eq_none_iff]
      intro entry hentry
      rw [names, List.map_append, List.map_cons, List.nodup_append] at honce
      have hdiffer := honce.2.2 entry.1 (List.mem_map_of_mem hentry) other List.mem_cons_self
      simpa using Ne.symm hdiffer
    simp [hbefore]
  · simp [beq_false_of_ne hother]

theorem Puts.fillsMap {held grown : List (String × String)} {name value : String}
    (hputs : Puts held name value grown) (honce : (names held).Nodup) :
    FillsMap held [(name, value)] grown := by
  by_cases hname : name ∈ names held
  · obtain ⟨⟨other, old⟩, hentry, rfl⟩ := List.mem_map.mp hname
    obtain ⟨before, after, rfl⟩ := List.append_of_mem hentry
    have hperm := hputs.present before old after rfl
    have hreplaced : (names (before ++ (other, value) :: after)).Nodup := by
      rwa [names_replaced before after other value old]
    have hgrown : (names grown).Nodup := (hperm.map Prod.fst).nodup_iff.mpr hreplaced
    refine ⟨?_, hgrown⟩
    intro name
    rw [lookup_eq_of_perm hgrown hperm, lookup_replaced honce]
    rfl
  · have hperm := hputs.fresh hname
    have hcons : (names ((name, value) :: held)).Nodup := List.nodup_cons.mpr ⟨hname, honce⟩
    have hgrown : (names grown).Nodup := (hperm.map Prod.fst).nodup_iff.mpr hcons
    refine ⟨?_, hgrown⟩
    intro other
    rw [lookup_eq_of_perm hgrown hperm, ← List.singleton_append, List.lookup_append]
    rfl

/-- The container puts entries under their names, and what it holds stays arranged by what it has
taken. -/
def PutsOnce (c : Container)
    (Arranged : List (String × String) → List (String × String) → Prop) : Prop :=
  ∀ taken held name value, Arranged taken held → (names held).Nodup →
    ∃ grown, c.append (ofPairs held) (.pair name value) = .ok (ofPairs grown) ∧
      Puts held name value grown ∧ Arranged (taken ++ [(name, value)]) grown

/-- Putting pairs one by one makes the last one of each name count. -/
theorem PutsOnce.foldlM {c : Container}
    {Arranged : List (String × String) → List (String × String) → Prop}
    (hputs : c.PutsOnce Arranged) {initial : List (String × String)}
    (harranged : Arranged [] initial) (honce : (names initial).Nodup)
    (buffer : List (String × String)) :
    ∃ final, (ofPairs buffer).foldlM c.append (ofPairs initial) = .ok (ofPairs final) ∧
      FillsMap initial buffer final ∧ Arranged buffer final := by
  have hstep : ∀ taken held entry, FillsMap initial taken held ∧ Arranged taken held → True →
      ∃ grown, c.append (ofPairs held) (.pair entry.1 entry.2) = .ok (ofPairs grown) ∧
        FillsMap initial (taken ++ [entry]) grown ∧ Arranged (taken ++ [entry]) grown := by
    rintro taken held ⟨name, value⟩ ⟨hfills, hheld⟩ -
    obtain ⟨grown, happend, hone, hgrown⟩ := hputs taken held name value hheld hfills.once
    exact ⟨grown, happend, hfills.append (hone.fillsMap hfills.once), hgrown⟩
  exact exists_foldlM hstep ⟨.refl honce, harranged⟩ fun _ _ => trivial

/-- Pairs with different names are what an empty map holds after they have been put into it. -/
theorem PutsOnce.perm_of_foldlM {c : Container}
    {Arranged : List (String × String) → List (String × String) → Prop}
    (hputs : c.PutsOnce Arranged) (harranged : Arranged [] [])
    {entries : List (String × String)} (hdistinct : (names entries).Nodup) {final : Contents}
    (hfold : (ofPairs entries).foldlM c.append [] = .ok final) :
    final.Perm (ofPairs entries) := by
  obtain ⟨held, hheld, hfills, -⟩ := hputs.foldlM harranged List.nodup_nil entries
  obtain rfl : final = ofPairs held := Except.ok.inj (hfold.symm.trans hheld)
  have hreverse : (names entries.reverse).Nodup := by
    rw [names, List.map_reverse]
    exact List.nodup_reverse.mpr hdistinct
  have hmem : ∀ entry, entry ∈ held ↔ entry ∈ entries := by
    rintro ⟨name, value⟩
    have hlookup := hfills.lookup name
    rw [List.lookup_nil, Option.or_none] at hlookup
    rw [← lookup_eq_some_iff_mem hfills.once, hlookup, lookup_eq_some_iff_mem hreverse,
      List.mem_reverse]
  have hheldNodup : held.Nodup := List.Nodup.of_map Prod.fst hfills.once
  have hentriesNodup : entries.Nodup := List.Nodup.of_map Prod.fst hdistinct
  exact ((List.perm_ext_iff_of_nodup hheldNodup hentriesNodup).mpr hmem).map _

/-- A hashed map puts entries under their names as every map does and says nothing of their
order. -/
def IsHashedMap (c : Container) : Prop :=
  c.PutsOnce fun _ _ => True

theorem Puts.cons {held grown : List (String × String)} {name value other text : String}
    (hputs : Puts held name value grown) (hdiffer : other ≠ name) :
    Puts ((other, text) :: held) name value ((other, text) :: grown) where
  fresh := by
    intro hname
    have hheld : name ∉ names held := fun hmem => hname (List.mem_cons_of_mem _ hmem)
    exact ((hputs.fresh hheld).cons _).trans (.swap _ _ held)
  present := by
    intro before old after hsplit
    cases before with
    | nil =>
        obtain ⟨hhead, -⟩ := List.cons.inj hsplit
        exact absurd (congrArg Prod.fst hhead) hdiffer
    | cons head before =>
        obtain ⟨rfl, htail⟩ := List.cons.inj hsplit
        exact (hputs.present before old after htail).cons _

/-- The first entry is the one of the name. -/
theorem Puts.replace {held : List (String × String)} {name old : String}
    (honce : (names ((name, old) :: held)).Nodup) (value : String) :
    Puts ((name, old) :: held) name value ((name, value) :: held) where
  fresh hname := absurd List.mem_cons_self hname
  present := by
    intro before other after hsplit
    cases before with
    | nil =>
        obtain ⟨-, rfl⟩ := List.cons.inj hsplit
        exact .refl _
    | cons head before =>
        obtain ⟨rfl, rfl⟩ := List.cons.inj hsplit
        have hmem : name ∈ names (before ++ (name, other) :: after) :=
          List.mem_map_of_mem (List.mem_append_right _ List.mem_cons_self)
        exact absurd hmem (List.nodup_cons.mp honce).1

theorem Puts.singleton (name value : String) : Puts [] name value [(name, value)] where
  fresh _ := .refl _
  present before old after hsplit := by simp at hsplit

/-! ### In the order of arrival -/

theorem replaceOrAdd_ofPairs_cons (name value other text : String)
    (rest : List (String × String)) :
    replaceOrAdd (.pair name value) (ofPairs ((other, text) :: rest)) =
      if (other == name) = true then ofPairs ((name, value) :: rest)
      else .pair other text :: replaceOrAdd (.pair name value) (ofPairs rest) :=
  rfl

theorem replaceOrAdd_puts {held : List (String × String)} (honce : (names held).Nodup)
    (name value : String) :
    ∃ grown, replaceOrAdd (.pair name value) (ofPairs held) = ofPairs grown ∧
      Puts held name value grown ∧ names grown = arrive (· == ·) (names held) name := by
  induction held with
  | nil => exact ⟨[(name, value)], rfl, .singleton name value, rfl⟩
  | cons entry rest ih =>
      obtain ⟨other, text⟩ := entry
      rw [replaceOrAdd_ofPairs_cons]
      by_cases hname : other = name
      · subst hname
        rw [if_pos (beq_self_eq_true other)]
        refine ⟨_, rfl, .replace honce value, ?_⟩
        simp [arrive, names]
      · obtain ⟨grown, hgrown, hputs, hnames⟩ := ih (List.nodup_cons.mp honce).2
        rw [if_neg (by simpa using hname), hgrown]
        refine ⟨(other, text) :: grown, rfl, hputs.cons hname, ?_⟩
        have harrive := arrive_cons_of_differ (· == ·) (beq_false_of_ne hname) (names rest)
        exact (congrArg (other :: ·) hnames).trans harrive.symm

theorem arrivalMap_putsOnce (initial : List (String × String)) :
    arrivalMap.PutsOnce fun taken held =>
      names held = (names taken).foldl (arrive (· == ·)) (names initial) := by
  intro taken held name value hnames honce
  obtain ⟨grown, hgrown, hputs, harrive⟩ := replaceOrAdd_puts honce name value
  refine ⟨grown, congrArg Except.ok hgrown, hputs, ?_⟩
  have htaken : names (taken ++ [(name, value)]) = names taken ++ [name] := by
    simp [names]
  dsimp only
  rw [harrive, hnames, htaken, List.foldl_append]
  rfl

theorem arrivalMap_isHashedMap : arrivalMap.IsHashedMap := by
  intro taken held name value _ honce
  obtain ⟨grown, hgrown, hputs, -⟩ := replaceOrAdd_puts honce name value
  exact ⟨grown, congrArg Except.ok hgrown, hputs, trivial⟩

/-! ### In ascending order -/

/-- The entries are in strictly ascending order of their names. -/
def AscendsByName (held : List (String × String)) : Prop :=
  held.Pairwise fun first second => first.1 < second.1

theorem AscendsByName.once {held : List (String × String)} (hascends : AscendsByName held) :
    (names held).Nodup := by
  unfold names List.Nodup
  rw [List.pairwise_map]
  exact hascends.imp fun hless => hless.ne

theorem Puts.cons_of_least {held : List (String × String)} {name : String}
    (hleast : ∀ entry ∈ held, name < entry.1) (value : String) :
    Puts held name value ((name, value) :: held) where
  fresh _ := .refl _
  present := by
    rintro before old after rfl
    exact absurd (hleast (name, old) (List.mem_append_right _ List.mem_cons_self)) (lt_irrefl name)

theorem Puts.mem_names {held grown : List (String × String)} {name value other : String}
    (hputs : Puts held name value grown) (hother : other ∈ names grown) :
    other = name ∨ other ∈ names held := by
  by_cases hname : name ∈ names held
  · obtain ⟨⟨key, old⟩, hentry, rfl⟩ := List.mem_map.mp hname
    obtain ⟨before, after, rfl⟩ := List.append_of_mem hentry
    have hperm := (hputs.present before old after rfl).map Prod.fst
    right
    rw [← names_replaced before after key value old]
    exact hperm.mem_iff.mp hother
  · exact List.mem_cons.mp (((hputs.fresh hname).map Prod.fst).mem_iff.mp hother)

theorem replaceSorted_ofPairs_cons (name value other text : String)
    (rest : List (String × String)) :
    replaceSorted (.pair name value) (ofPairs ((other, text) :: rest)) =
      if decide (name < other) = true then ofPairs ((name, value) :: (other, text) :: rest)
      else if (other == name) = true then ofPairs ((name, value) :: rest)
      else .pair other text :: replaceSorted (.pair name value) (ofPairs rest) :=
  rfl

theorem replaceSorted_puts {held : List (String × String)} (hascends : AscendsByName held)
    (name value : String) :
    ∃ grown, replaceSorted (.pair name value) (ofPairs held) = ofPairs grown ∧
      Puts held name value grown ∧ AscendsByName grown := by
  induction held with
  | nil => exact ⟨[(name, value)], rfl, .singleton name value, List.pairwise_singleton _ _⟩
  | cons entry rest ih =>
      obtain ⟨other, text⟩ := entry
      have honce := hascends.once
      obtain ⟨hleast, hrest⟩ := List.pairwise_cons.mp hascends
      rw [replaceSorted_ofPairs_cons]
      rcases lt_trichotomy name other with hbelow | hsame | habove
      · have hall : ∀ entry ∈ (other, text) :: rest, name < entry.1 :=
          List.forall_mem_cons.mpr ⟨hbelow, fun entry hentry => hbelow.trans (hleast entry hentry)⟩
        rw [if_pos (decide_eq_true hbelow)]
        exact ⟨_, rfl, .cons_of_least hall value, List.pairwise_cons.mpr ⟨hall, hascends⟩⟩
      · subst hsame
        have hnot : ¬decide (name < name) = true := by
          rw [decide_eq_true_iff]
          exact lt_irrefl name
        rw [if_neg hnot, if_pos (beq_self_eq_true name)]
        exact ⟨_, rfl, .replace honce value, List.pairwise_cons.mpr ⟨hleast, hrest⟩⟩
      · obtain ⟨grown, hgrown, hputs, hascending⟩ := ih hrest
        have hall : ∀ entry ∈ grown, other < entry.1 := by
          intro entry hentry
          rcases hputs.mem_names (List.mem_map_of_mem hentry) with hname | hold
          · rwa [hname]
          · obtain ⟨earlier, hearlier, hkey⟩ := List.mem_map.mp hold
            rw [← hkey]
            exact hleast earlier hearlier
        have hnot : ¬decide (name < other) = true := by
          rw [decide_eq_true_iff]
          exact habove.not_gt
        rw [if_neg hnot, if_neg (by simpa using habove.ne), hgrown]
        exact ⟨(other, text) :: grown, rfl, hputs.cons habove.ne,
          List.pairwise_cons.mpr ⟨hall, hascending⟩⟩

theorem sortedMap_putsOnce : sortedMap.PutsOnce fun _ => AscendsByName := by
  intro _ held name value hascends _
  obtain ⟨grown, hgrown, hputs, hascending⟩ := replaceSorted_puts hascends name value
  exact ⟨grown, congrArg Except.ok hgrown, hputs, hascending⟩

end Container

end CommandLine
