import CommandLine.Proofs.Table.Built
import Mathlib.Data.List.Pairwise

/-!
# Names in tables that can be built

In every table that can be built the long names are pairwise distinct, and so are the short ones;
every name passes the checks of names; and only the argument for positional values is declared as
such.  A name is therefore found exactly where the table says: a long name at its own argument, and
a short one at its own argument unless it is the long name of another one.
-/

namespace CommandLine

/-! ### Names of drafted arguments -/

theorem NameFault.isSeparator_eq_false {name : String} (hname : NameFault.find? name = none) :
    ∀ c ∈ name.toList, Token.isSeparator c = false := by
  unfold NameFault.find? at hname
  dsimp only at hname
  split at hname
  · contradiction
  · split at hname
    · contradiction
    · next hseparator => simpa using hseparator

theorem NameFault.isBlank_eq_false {name : String} (hname : NameFault.find? name = none) :
    ∀ c ∈ name.toList, Text.isBlank c = false := by
  unfold NameFault.find? at hname
  dsimp only at hname
  split at hname
  · contradiction
  · split at hname
    · contradiction
    · split at hname
      · contradiction
      · next hblank => simpa using hblank

theorem nameError?_eq_none_iff {name : String} :
    nameError? name = none ↔ NameFault.find? name = none := by
  simp [nameError?]

theorem Declaration.answersTo_iff {d : Declaration} {name : String} :
    d.answersTo name = true ↔ d.long = name ∨ d.short = some name := by
  simp [Declaration.answersTo]

theorem Declaration.completed_long (d : Declaration) : d.completed.long = d.long := by
  unfold Declaration.completed
  split <;> rfl

theorem Declaration.completed_short (d : Declaration) : d.completed.short = d.short := by
  unfold Declaration.completed
  split <;> rfl

theorem Draft.declaration_validNames {draft : Draft} {d : Declaration}
    (hdraft : draft.declaration = .ok d) {name : String} (hname : d.answersTo name = true) :
    nameError? name = none := by
  obtain ⟨herror, rfl⟩ := Draft.declaration_eq_ok_iff.mp hdraft
  obtain ⟨-, hlong, hshort, -⟩ := Declaration.error?_eq_none_iff.mp herror
  rw [Declaration.answersTo_iff, Declaration.completed_long, Declaration.completed_short] at hname
  rcases hname with rfl | hname
  · exact hlong
  · simpa [hname] using hshort

/-! ### What holds of the names of a table -/

structure Table.WellNamed (t : Table) : Prop where
  longNames : (t.all.map Declaration.long).Nodup
  shortNames : (t.all.filterMap Declaration.short).Nodup
  named : ∀ d ∈ t.named, d.isPositional = false
  positional : ∀ d, t.positional = some d → d.isPositional = true
  validNames : ∀ d ∈ t.all, ∀ name, d.answersTo name = true → nameError? name = none

namespace Table

theorem usesShort_eq_false_of_conflict? {t : Table} {d : Declaration}
    (hfree : t.conflict? d = none) {short : String} (hshort : d.short = some short) :
    t.usesShort short = false := by
  unfold Table.conflict? at hfree
  split at hfree
  · contradiction
  · split at hfree
    · contradiction
    · next hnone => simpa [hshort] using hnone

theorem WellNamed.insert {t : Table} {d : Declaration} (hnamed : t.WellNamed)
    (hcoherent : (t.insert d).Coherent) (hfree : t.conflict? d = none)
    (hvalid : ∀ name, d.answersTo name = true → nameError? name = none) :
    (t.insert d).WellNamed := by
  have hperm := all_insert_perm hfree
  constructor
  · exact hcoherent.longNames
  · rw [(hperm.filterMap Declaration.short).nodup_iff]
    cases hshort : d.short with
    | none => simpa [hshort] using hnamed.shortNames
    | some short =>
        have hunused := usesShort_eq_false_of_conflict? hfree hshort
        have hfresh : short ∉ t.all.filterMap Declaration.short := by
          unfold usesShort at hunused
          intro hmem
          obtain ⟨other, hother, hsame⟩ := List.mem_filterMap.mp hmem
          exact List.any_eq_false.mp hunused other hother (by simp [hsame])
        rw [List.filterMap_cons_some hshort]
        exact List.nodup_cons.mpr ⟨hfresh, hnamed.shortNames⟩
  · intro other hother
    unfold Table.insert at hother
    split at hother
    · exact hnamed.named other hother
    · next hpositional =>
        rcases List.mem_append.mp hother with hold | hnew
        · exact hnamed.named other hold
        · obtain rfl := List.mem_singleton.mp hnew
          exact Bool.eq_false_iff.mpr hpositional
  · intro other hother
    unfold Table.insert at hother
    split at hother
    · next hpositional =>
        obtain rfl := Option.some.inj hother
        exact hpositional
    · exact hnamed.positional other hother
  · intro other hother
    rcases List.mem_cons.mp (hperm.mem_iff.mp hother) with rfl | hold
    · exact hvalid
    · exact hnamed.validNames other hold

theorem Built.wellNamed {t : Table} (hbuilt : t.Built) : t.WellNamed := by
  induction hbuilt with
  | empty => constructor <;> simp [Table.empty, Table.all]
  | add hbefore hadd ih =>
      have hcoherent := (Built.add hbefore hadd).coherent
      obtain ⟨d, hdraft, hfree, rfl⟩ := addDraft_cases hadd
      exact ih.insert hcoherent hfree fun name hname => Draft.declaration_validNames hdraft hname

theorem Built.validNames {t : Table} (hbuilt : t.Built) :
    ∀ d ∈ t.all, NameFault.find? d.long = none := by
  intro d hd
  have hlong : d.answersTo d.long = true := Declaration.answersTo_iff.mpr (.inl rfl)
  exact nameError?_eq_none_iff.mp (hbuilt.wellNamed.validNames d hd d.long hlong)

/-- Among all arguments only the one for positional values is declared as such. -/
theorem WellNamed.filter_isPositional {t : Table} (hnamed : t.WellNamed) :
    t.all.filter Declaration.isPositional = t.positional.toList := by
  have hnone : t.named.filter Declaration.isPositional = [] := by
    simpa using hnamed.named
  unfold all
  rw [List.filter_append, hnone, List.nil_append]
  cases hpositional : t.positional with
  | none => rfl
  | some d => simp [hnamed.positional d hpositional]

/-! ### Finding an argument by a name -/

theorem getElem?_named_of_position {t : Table} {name : String} {position : Nat}
    (hposition : t.position name = some position) :
    ∃ d, t.named[position]? = some d := by
  have hlt : position < t.named.length := by
    unfold Table.position at hposition
    rw [Option.orElse_eq_orElse, Option.orElse_eq_or, Option.or_eq_some_iff] at hposition
    rcases hposition with hlong | ⟨-, hshort⟩
    · exact (List.findIdx?_eq_some_iff_getElem.mp hlong).1
    · exact (List.findIdx?_eq_some_iff_getElem.mp hshort).1
  exact ⟨t.named[position], List.getElem?_eq_getElem hlt⟩

/-- A name is found unless no named argument answers to it. -/
theorem find_eq_none_iff {t : Table} {name : String} :
    t.find name = none ↔ ∀ d ∈ t.named, d.answersTo name = false := by
  have hposition : t.position name = none ↔ ∀ d ∈ t.named, d.answersTo name = false := by
    unfold Table.position Declaration.answersTo
    rw [Option.orElse_eq_orElse, Option.orElse_eq_or, Option.or_eq_none_iff,
      List.findIdx?_eq_none_iff, List.findIdx?_eq_none_iff, ← forall₂_and]
    simp only [Bool.or_eq_false_iff]
  rw [← hposition]
  unfold Table.find
  cases hname : t.position name with
  | none => simp
  | some position =>
      obtain ⟨d, hd⟩ := getElem?_named_of_position hname
      simp [hd]

theorem mem_named_of_find {t : Table} {name : String} {d : Declaration}
    (hfind : t.find name = some d) : d ∈ t.named := by
  obtain ⟨position, -, hd⟩ := Option.bind_eq_some_iff.mp hfind
  exact List.mem_of_getElem? hd

theorem find_long_of_nodup {t : Table} (hlong : (t.all.map Declaration.long).Nodup)
    {d : Declaration} (hd : d ∈ t.named) : t.find d.long = some d := by
  have hall : ∀ e ∈ t.named, e ∈ t.all := fun e he => List.mem_append_left _ he
  cases hindex : t.named.findIdx? (·.long == d.long) with
  | none =>
      have hother := List.findIdx?_eq_none_iff.mp hindex d hd
      simp at hother
  | some index =>
      obtain ⟨hlt, hname, -⟩ := List.findIdx?_eq_some_iff_getElem.mp hindex
      have hfound : t.named[index] = d :=
        List.inj_on_of_nodup_map hlong (hall _ (List.getElem_mem hlt)) (hall d hd)
          (by simpa using hname)
      simp [Table.find, Table.position, hindex, hlt, hfound]

theorem Coherent.find_long {t : Table} {d : Declaration} (hcoherent : t.Coherent)
    (hd : d ∈ t.named) : t.find d.long = some d :=
  find_long_of_nodup hcoherent.longNames hd

/-- What is found answers to the name that it is found by. -/
theorem answersTo_of_find {t : Table} {name : String} {d : Declaration}
    (hfind : t.find name = some d) : d.long = name ∨ d.short = some name := by
  obtain ⟨position, hposition, hd⟩ := Option.bind_eq_some_iff.mp hfind
  obtain ⟨hlt, rfl⟩ := List.getElem?_eq_some_iff.mp hd
  unfold Table.position at hposition
  rw [Option.orElse_eq_orElse, Option.orElse_eq_or, Option.or_eq_some_iff] at hposition
  rcases hposition with hlong | ⟨-, hshort⟩
  · obtain ⟨_, hname, -⟩ := List.findIdx?_eq_some_iff_getElem.mp hlong
    exact .inl (by simpa using hname)
  · obtain ⟨_, hname, -⟩ := List.findIdx?_eq_some_iff_getElem.mp hshort
    exact .inr (by simpa using hname)

theorem WellNamed.eq_of_short {t : Table} {d other : Declaration} {name : String}
    (hnamed : t.WellNamed) (hd : d ∈ t.all) (hother : other ∈ t.all)
    (hshort : d.short = some name) (hsame : other.short = some name) : d = other := by
  have hpairwise := List.pairwise_filterMap.mp hnamed.shortNames
  have hsymm : Std.Symm fun first second : Declaration =>
      ∀ a, first.short = some a → ∀ b, second.short = some b → a ≠ b :=
    ⟨fun _ _ hne b hb a ha => (hne a ha b hb).symm⟩
  by_contra hne
  exact hpairwise.forall hd hother hne name hshort name hsame rfl

/-- A short name leads to its own argument unless it is the long name of another one. -/
theorem WellNamed.find_short_iff {t : Table} (hnamed : t.WellNamed) {d : Declaration}
    {name : String} (hd : d ∈ t.named) (hshort : d.short = some name) :
    t.find name = some d ↔ ∀ e ∈ t.named, e.long = name → e = d := by
  have hall : ∀ e ∈ t.named, e ∈ t.all := fun e he => List.mem_append_left _ he
  constructor
  · rintro hfind e he rfl
    rw [find_long_of_nodup hnamed.longNames he] at hfind
    exact Option.some.inj hfind
  · intro hlong
    cases hfind : t.find name with
    | none =>
        have hother := find_eq_none_iff.mp hfind d hd
        simp [Declaration.answersTo, hshort] at hother
    | some e =>
        have he := mem_named_of_find hfind
        rcases answersTo_of_find hfind with hname | hsame
        · rw [hlong e he hname]
        · rw [hnamed.eq_of_short (hall d hd) (hall e he) hshort hsame]

end Table

end CommandLine
