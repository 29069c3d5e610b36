import CommandLine.Proofs.Table.Clauses
import CommandLine.Proofs.Table.Construction
import Mathlib.Data.List.Induction

/-!
# Drafts that go together

A list of drafts makes a table if each of them is in order by itself and all of them are apart: no
name is used twice, and only one argument receives the positional values.  The table then has all of
the declarations, the named ones in the order of the list.  Adding drafts one by one finds out
whether they are apart, although each is compared only with those before it.
-/

namespace CommandLine

/-! ### What keeps arguments apart -/

/-- The names of an argument, and whether it receives the positional values. -/
structure Label where
  long : String
  short : Option String
  isPositional : Bool

namespace Label

structure Apart (labels : List Label) : Prop where
  longNames : (labels.map long).Nodup
  shortNames : (labels.filterMap short).Nodup
  positional : (labels.filter isPositional).length ≤ 1

/-- The label shares nothing with any of the others. -/
structure Joins (label : Label) (labels : List Label) : Prop where
  long : label.long ∉ labels.map long
  short : ∀ name, label.short = some name → name ∉ labels.filterMap short
  positional : label.isPositional = true → labels.filter isPositional = []

theorem apart_nil : Apart [] := by
  constructor <;> simp

theorem Apart.perm {labels others : List Label} (hapart : Apart labels)
    (hperm : labels.Perm others) : Apart others := by
  constructor
  · exact (hperm.map long).nodup_iff.mp hapart.longNames
  · exact (hperm.filterMap short).nodup_iff.mp hapart.shortNames
  · rw [← (hperm.filter isPositional).length_eq]
    exact hapart.positional

theorem Apart.of_append {labels others : List Label} (hapart : Apart (labels ++ others)) :
    Apart labels := by
  have hsublist : labels.Sublist (labels ++ others) := List.sublist_append_left labels others
  constructor
  · exact hapart.longNames.sublist (hsublist.map long)
  · exact hapart.shortNames.sublist (hsublist.filterMap short)
  · exact Nat.le_trans (hsublist.filter isPositional).length_le hapart.positional

theorem apart_cons_iff {label : Label} {labels : List Label} :
    Apart (label :: labels) ↔ label.Joins labels ∧ Apart labels := by
  have hshort : ((label :: labels).filterMap short).Nodup ↔
      (∀ name, label.short = some name → name ∉ labels.filterMap short) ∧
        (labels.filterMap short).Nodup := by
    cases hname : label.short with
    | none => simp [hname]
    | some name => simp [hname]
  have hpositional : ((label :: labels).filter isPositional).length ≤ 1 ↔
      (label.isPositional = true → labels.filter isPositional = []) ∧
        (labels.filter isPositional).length ≤ 1 := by
    cases hlabel : label.isPositional with
    | false => simp [hlabel]
    | true =>
        rw [List.filter_cons_of_pos hlabel, List.length_cons, ← List.length_eq_zero_iff]
        simp only [forall_const]
        omega
  constructor
  · intro hapart
    have hlong := List.nodup_cons.mp hapart.longNames
    exact ⟨⟨hlong.1, (hshort.mp hapart.shortNames).1, (hpositional.mp hapart.positional).1⟩,
      ⟨hlong.2, (hshort.mp hapart.shortNames).2, (hpositional.mp hapart.positional).2⟩⟩
  · rintro ⟨hjoins, hapart⟩
    exact ⟨List.nodup_cons.mpr ⟨hjoins.long, hapart.longNames⟩,
      hshort.mpr ⟨hjoins.short, hapart.shortNames⟩,
      hpositional.mpr ⟨hjoins.positional, hapart.positional⟩⟩

theorem apart_append_singleton_iff {labels : List Label} {label : Label} :
    Apart (labels ++ [label]) ↔ label.Joins labels ∧ Apart labels := by
  rw [← apart_cons_iff]
  have hperm : (labels ++ [label]).Perm (label :: labels) := List.perm_append_singleton label labels
  exact ⟨fun hapart => hapart.perm hperm, fun hapart => hapart.perm hperm.symm⟩

end Label

def Declaration.label (d : Declaration) : Label :=
  ⟨d.long, d.short, d.isPositional⟩

/-- The draft is in order and becomes the declaration. -/
def Draft.Declares (draft : Draft) (d : Declaration) : Prop :=
  draft.declaration = .ok d

theorem Draft.Declares.field_eq {draft : Draft} {d : Declaration} (hdeclares : draft.Declares d) :
    d.field = draft.field := by
  obtain ⟨-, rfl⟩ := Draft.declaration_eq_ok_iff.mp hdeclares
  rw [Declaration.completed_eq, Draft.stated_eq]

/-- The label that the clauses of the draft state. -/
def Draft.label (draft : Draft) : Label :=
  draft.stated.label

theorem Draft.Declares.label_eq {draft : Draft} {d : Declaration} (hdeclares : draft.Declares d) :
    d.label = draft.label := by
  obtain ⟨-, rfl⟩ := Draft.declaration_eq_ok_iff.mp hdeclares
  rw [Declaration.completed_eq]
  rfl

theorem map_eq_map_of_forall₂ {α β γ : Type} {f : α → γ} {g : β → γ} {as : List α} {bs : List β}
    (hsame : List.Forall₂ (fun a b => f a = g b) as bs) : as.map f = bs.map g := by
  rw [← List.forall₂_eq_eq_eq, List.forall₂_map_left_iff, List.forall₂_map_right_iff]
  exact hsame

theorem forall_of_forall₂ {α β : Type} {R : α → β → Prop} {p : α → Prop} {as : List α}
    {bs : List β} (hrelated : List.Forall₂ R as bs) (hp : ∀ a b, R a b → p a) : ∀ a ∈ as, p a := by
  have hboth : List.Forall₂ (fun a b => p a ∧ R a b) as bs :=
    hrelated.imp fun a b hab => ⟨hp a b hab, hab⟩
  exact ((List.forall₂_and_left as bs).mp hboth).1

theorem Draft.map_field_of_declares {drafts : List Draft} {ds : List Declaration}
    (hdeclares : List.Forall₂ Draft.Declares drafts ds) :
    ds.map Declaration.field = drafts.map Draft.field := by
  apply Eq.symm
  apply map_eq_map_of_forall₂
  exact hdeclares.imp fun _ _ hd => hd.field_eq.symm

theorem Draft.map_label_of_declares {drafts : List Draft} {ds : List Declaration}
    (hdeclares : List.Forall₂ Draft.Declares drafts ds) :
    ds.map Declaration.label = drafts.map Draft.label := by
  apply Eq.symm
  apply map_eq_map_of_forall₂
  exact hdeclares.imp fun _ _ hd => hd.label_eq.symm

namespace Table

def ofDeclarations (ds : List Declaration) : Table where
  named := ds.filter (!·.isPositional)
  positional := ds.find? Declaration.isPositional

theorem toList_positional_ofDeclarations {ds : List Declaration}
    (hapart : Label.Apart (ds.map Declaration.label)) :
    (ofDeclarations ds).positional.toList = ds.filter Declaration.isPositional := by
  have hlength : (ds.filter Declaration.isPositional).length ≤ 1 := by
    have hlabels := hapart.positional
    rw [List.filter_map, List.length_map] at hlabels
    exact hlabels
  unfold ofDeclarations
  rw [← List.head?_filter]
  cases hfilter : ds.filter Declaration.isPositional with
  | nil => rfl
  | cons first rest =>
      rw [hfilter, List.length_cons] at hlength
      have hrest : rest = [] := List.length_eq_zero_iff.mp (by omega)
      rw [hrest]
      rfl

theorem ofDeclarations_all_perm {ds : List Declaration}
    (hapart : Label.Apart (ds.map Declaration.label)) : (ofDeclarations ds).all.Perm ds := by
  unfold Table.all
  rw [toList_positional_ofDeclarations hapart]
  exact List.perm_append_comm.trans (List.filter_append_perm Declaration.isPositional ds)

theorem admits_ofDeclarations_iff {ds : List Declaration} {d : Declaration}
    (hapart : Label.Apart (ds.map Declaration.label)) :
    (ofDeclarations ds).Admits d ↔ d.label.Joins (ds.map Declaration.label) := by
  have hmem : ∀ other, other ∈ (ofDeclarations ds).all ↔ other ∈ ds :=
    fun _ => (ofDeclarations_all_perm hapart).mem_iff
  have hlong : (∀ other ∈ (ofDeclarations ds).all, other.long ≠ d.long) ↔
      d.label.long ∉ (ds.map Declaration.label).map Label.long := by
    simp [hmem, Declaration.label]
  have hshort : ∀ name, (∀ other ∈ (ofDeclarations ds).all, other.short ≠ some name) ↔
      name ∉ (ds.map Declaration.label).filterMap Label.short := by
    intro name
    simp [hmem, Declaration.label]
  have hpositional : (ofDeclarations ds).positional = none ↔
      (ds.map Declaration.label).filter Label.isPositional = [] := by
    simp [ofDeclarations, Declaration.label]
  constructor
  · intro hadmits
    exact ⟨hlong.mp hadmits.long, fun name hname => (hshort name).mp (hadmits.short name hname),
      fun hd => hpositional.mp (hadmits.positional hd)⟩
  · intro hjoins
    exact ⟨hlong.mpr hjoins.long, fun name hname => (hshort name).mpr (hjoins.short name hname),
      fun hd => hpositional.mpr (hjoins.positional hd)⟩

theorem insert_ofDeclarations {ds : List Declaration} {d : Declaration}
    (hadmits : (ofDeclarations ds).Admits d) :
    (ofDeclarations ds).insert d = ofDeclarations (ds ++ [d]) := by
  unfold Table.insert ofDeclarations
  by_cases hpositional : d.isPositional = true
  · have hnone : ds.find? Declaration.isPositional = none := hadmits.positional hpositional
    simp [hpositional, hnone]
  · simp [hpositional]

/-! ### Adding drafts one by one -/

theorem addDraft_ofDeclarations_eq_ok_iff {ds : List Declaration} {draft : Draft} {t : Table}
    (hapart : Label.Apart (ds.map Declaration.label)) :
    (ofDeclarations ds).addDraft draft = .ok t ↔
      ∃ d, draft.Declares d ∧ Label.Apart ((ds ++ [d]).map Declaration.label) ∧
        t = ofDeclarations (ds ++ [d]) := by
  have hadmits : ∀ d, (ofDeclarations ds).Admits d ↔
      Label.Apart ((ds ++ [d]).map Declaration.label) := by
    intro d
    rw [admits_ofDeclarations_iff hapart, List.map_append, List.map_singleton,
      Label.apart_append_singleton_iff, and_iff_left hapart]
  constructor
  · intro hadd
    obtain ⟨d, hd, hfree, rfl⟩ := addDraft_cases hadd
    have hd' := conflict?_eq_none_iff.mp hfree
    exact ⟨d, hd, (hadmits d).mp hd', insert_ofDeclarations hd'⟩
  · rintro ⟨d, hd, hlabels, rfl⟩
    have hd' := (hadmits d).mpr hlabels
    unfold Draft.Declares at hd
    unfold addDraft
    rw [hd]
    exact add_eq_ok_iff.mpr ⟨conflict?_eq_none_iff.mpr hd', insert_ofDeclarations hd'⟩

theorem foldlM_addDraft_eq_ok_iff {drafts : List Draft} {ds : List Declaration} {t : Table}
    (hapart : Label.Apart (ds.map Declaration.label)) :
    drafts.foldlM addDraft (ofDeclarations ds) = .ok t ↔
      ∃ es, List.Forall₂ Draft.Declares drafts es ∧
        Label.Apart ((ds ++ es).map Declaration.label) ∧ t = ofDeclarations (ds ++ es) := by
  induction drafts generalizing ds with
  | nil =>
      simp [pure, Except.pure, hapart, eq_comm]
  | cons draft drafts ih =>
      rw [List.foldlM_cons]
      constructor
      · intro hfold
        obtain ⟨next, hfirst, hrest⟩ := bind_eq_ok_iff.mp hfold
        obtain ⟨d, hd, hnext, rfl⟩ := (addDraft_ofDeclarations_eq_ok_iff hapart).mp hfirst
        obtain ⟨es, hes, hlabels, rfl⟩ := (ih hnext).mp hrest
        refine ⟨d :: es, .cons hd hes, ?_, ?_⟩
        · simpa using hlabels
        · simp
      · rintro ⟨es, hes, hlabels, rfl⟩
        obtain ⟨d, es, hd, hrest, rfl⟩ := List.forall₂_cons_left_iff.mp hes
        rw [List.append_cons, List.map_append] at hlabels
        have hnext := hlabels.of_append
        rw [(addDraft_ofDeclarations_eq_ok_iff hapart).mpr ⟨d, hd, hnext, rfl⟩]
        refine (ih hnext).mpr ⟨es, hrest, ?_, ?_⟩
        · rwa [List.map_append]
        · rw [List.append_cons]

/-- A table can be made of drafts that are in order and apart, and of no others. -/
theorem ofDrafts_eq_ok_iff {drafts : List Draft} {t : Table} :
    ofDrafts drafts = .ok t ↔
      ∃ ds, List.Forall₂ Draft.Declares drafts ds ∧
        Label.Apart (ds.map Declaration.label) ∧ t = ofDeclarations ds := by
  have hempty : Label.Apart (([] : List Declaration).map Declaration.label) := Label.apart_nil
  exact foldlM_addDraft_eq_ok_iff hempty

/-- The first draft that cannot be added to those before it decides the error. -/
theorem ofDrafts_eq_error {drafts : List Draft} {error : ConfigurationError}
    (herror : ofDrafts drafts = .error error) :
    ∃ before draft after ds, drafts = before ++ draft :: after ∧
      List.Forall₂ Draft.Declares before ds ∧ Label.Apart (ds.map Declaration.label) ∧
        (ofDeclarations ds).addDraft draft = .error error := by
  induction drafts using List.reverseRecOn with
  | nil => cases herror
  | append_singleton drafts draft ih =>
      unfold ofDrafts at herror ih
      rw [List.foldlM_append, bind_eq_error_iff] at herror
      rcases herror with hbefore | ⟨t, hbefore, hlast⟩
      · obtain ⟨before, failing, after, ds, rfl, hrest⟩ := ih hbefore
        exact ⟨before, failing, after ++ [draft], ds, by simp, hrest⟩
      · obtain ⟨ds, hds, hlabels, rfl⟩ := ofDrafts_eq_ok_iff.mp hbefore
        refine ⟨drafts, draft, [], ds, rfl, hds, hlabels, ?_⟩
        simpa [List.foldlM_cons] using hlast

/-- Drafts that are apart fail for nothing but one of their own. -/
theorem ofDrafts_eq_error_of_apart {drafts : List Draft} {error : ConfigurationError}
    (hapart : Label.Apart (drafts.map Draft.label)) (herror : ofDrafts drafts = .error error) :
    ∃ draft ∈ drafts, draft.declaration = .error error := by
  obtain ⟨before, draft, after, ds, rfl, hds, hlabels, hlast⟩ := ofDrafts_eq_error herror
  refine ⟨draft, by simp, ?_⟩
  cases hdraft : draft.declaration with
  | error failure =>
      unfold addDraft at hlast
      rw [hdraft] at hlast
      exact congrArg Except.error (Except.error.inj hlast)
  | ok d =>
      have hlabel : d.label = draft.label := Draft.Declares.label_eq hdraft
      have hprefix : Label.Apart ((ds ++ [d]).map Declaration.label) := by
        rw [List.append_cons, List.map_append] at hapart
        have hbefore := hapart.of_append
        rwa [List.map_append, List.map_singleton, ← Draft.map_label_of_declares hds, ← hlabel,
          ← List.map_singleton, ← List.map_append] at hbefore
      rw [(addDraft_ofDeclarations_eq_ok_iff hlabels).mpr ⟨d, hdraft, hprefix, rfl⟩] at hlast
      contradiction

theorem exists_ofDrafts_iff {drafts : List Draft}
    (hapart : Label.Apart (drafts.map Draft.label)) :
    (∃ t, ofDrafts drafts = .ok t) ↔ ∀ draft ∈ drafts, ∃ d, draft.Declares d := by
  constructor
  · rintro ⟨t, ht⟩
    obtain ⟨ds, hds, -, -⟩ := ofDrafts_eq_ok_iff.mp ht
    exact forall_of_forall₂ hds fun draft d hd => ⟨d, hd⟩
  · intro hdeclares
    cases hdrafts : ofDrafts drafts with
    | ok t => exact ⟨t, rfl⟩
    | error error =>
        obtain ⟨draft, hdraft, hfails⟩ := ofDrafts_eq_error_of_apart hapart hdrafts
        obtain ⟨d, hd⟩ := hdeclares draft hdraft
        unfold Draft.Declares at hd
        rw [hfails] at hd
        contradiction

end Table

end CommandLine
