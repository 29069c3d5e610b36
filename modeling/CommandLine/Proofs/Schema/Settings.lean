import CommandLine.Schema.Settings
import Mathlib.Data.List.Nodup

/-!
# Settings in order

Nothing is wrong with the settings of a member if each of them is known, comes with a text where its
key wants one, and is the only one with its key.  What is looked up in them is then simply what is
written: no setting hides another one.
-/

namespace CommandLine.Schema

/-- Where no two items have the same key, each is found by its own. -/
theorem find?_key_eq_some_iff {α : Type} {key : α → String} {items : List α}
    (hdistinct : (items.map key).Nodup) {k : String} {item : α} :
    items.find? (fun other => key other == k) = some item ↔ item ∈ items ∧ key item = k := by
  constructor
  · intro hfind
    exact ⟨List.mem_of_find?_eq_some hfind, by simpa using List.find?_some hfind⟩
  · rintro ⟨hitem, rfl⟩
    cases hfind : items.find? (fun other => key other == key item) with
    | none => simpa using List.find?_eq_none.mp hfind item hitem
    | some found =>
        have hkey : key found = key item := by simpa using List.find?_some hfind
        rw [List.inj_on_of_nodup_map hdistinct (List.mem_of_find?_eq_some hfind) hitem hkey]

structure InOrder (keys : List Key) (settings : List Setting) : Prop where
  allowed : ∀ s ∈ settings, ∃ form, ⟨s.key, form⟩ ∈ keys ∧ form.fault s.text = none
  distinct : (settings.map Setting.key).Nodup

theorem settingFault_eq_none {keys : List Key} {earlier : List String} {s : Setting}
    (hnone : settingFault keys earlier s = none) :
    s.key ∉ earlier ∧ ∃ form, ⟨s.key, form⟩ ∈ keys ∧ form.fault s.text = none := by
  unfold settingFault at hnone
  cases hfind : keys.find? (·.name == s.key) with
  | none => simp [hfind] at hnone
  | some key =>
      have hname : key.name = s.key := by simpa using List.find?_some hfind
      have hkey : ⟨s.key, key.form⟩ ∈ keys := hname ▸ List.mem_of_find?_eq_some hfind
      by_cases hearlier : s.key ∈ earlier
      · simp [hfind, hearlier] at hnone
      · exact ⟨hearlier, key.form, hkey, by simpa [hfind, hearlier] using hnone⟩

theorem settingFaults_eq_nil {keys : List Key} {earlier : List String} {settings : List Setting}
    (hnil : settingFaults keys earlier settings = []) :
    InOrder keys settings ∧ ∀ s ∈ settings, s.key ∉ earlier := by
  induction settings generalizing earlier with
  | nil => exact ⟨⟨by simp, by simp⟩, by simp⟩
  | cons first rest ih =>
      rw [settingFaults, List.append_eq_nil_iff, Option.toList_eq_nil_iff] at hnil
      obtain ⟨hfresh, hallowed⟩ := settingFault_eq_none hnil.1
      obtain ⟨hrest, hlater⟩ := ih hnil.2
      refine ⟨⟨?_, ?_⟩, ?_⟩
      · exact List.forall_mem_cons.mpr ⟨hallowed, hrest.allowed⟩
      · rw [List.map_cons, List.nodup_cons]
        refine ⟨?_, hrest.distinct⟩
        intro hmem
        obtain ⟨s, hs, hkey⟩ := List.mem_map.mp hmem
        exact hlater s hs (by simp [hkey])
      · refine List.forall_mem_cons.mpr ⟨hfresh, ?_⟩
        intro s hs hearlier
        exact hlater s hs (List.mem_cons_of_mem _ hearlier)

theorem InOrder.append {keys : List Key} {settings others : List Setting}
    (hsettings : InOrder keys settings) (hothers : InOrder keys others)
    (hfresh : ∀ s ∈ others, s.key ∉ settings.map Setting.key) :
    InOrder keys (settings ++ others) := by
  constructor
  · intro s hs
    exact (List.mem_append.mp hs).elim (hsettings.allowed s) (hothers.allowed s)
  · rw [List.map_append, List.nodup_append]
    refine ⟨hsettings.distinct, hothers.distinct, ?_⟩
    rintro key hkey other hother rfl
    obtain ⟨s, hs, rfl⟩ := List.mem_map.mp hother
    exact hfresh s hs hkey

theorem attributeFaults_eq_nil {keys : List Key} {earlier : List String}
    {attributes : List (List Setting)} (hnil : attributeFaults keys earlier attributes = []) :
    InOrder keys attributes.flatten ∧ ∀ s ∈ attributes.flatten, s.key ∉ earlier := by
  induction attributes generalizing earlier with
  | nil => exact ⟨⟨by simp, by simp⟩, by simp⟩
  | cons settings rest ih =>
      rw [attributeFaults] at hnil
      split at hnil
      · contradiction
      · rw [List.append_eq_nil_iff] at hnil
        obtain ⟨hfirst, hfresh⟩ := settingFaults_eq_nil hnil.1
        obtain ⟨hrest, hlater⟩ := ih hnil.2
        rw [List.flatten_cons]
        refine ⟨hfirst.append hrest ?_, ?_⟩
        · intro s hs hkey
          exact hlater s hs (List.mem_append_left _ hkey)
        · intro s hs
          rcases List.mem_append.mp hs with hs | hs
          · exact hfresh s hs
          · intro hearlier
            exact hlater s hs (List.mem_append_right _ hearlier)

theorem checkedSettings_eq_ok {keys : List Key} {m : Member} {settings : List Setting}
    (hchecked : checkedSettings keys m = .ok settings) :
    settings = m.settings ∧ InOrder keys m.settings := by
  unfold checkedSettings at hchecked
  split at hchecked
  · next hnil => exact ⟨(Except.ok.inj hchecked).symm, (attributeFaults_eq_nil hnil).1⟩
  · contradiction

/-! ### Keys of which nothing is reserved -/

/-- Keys with different names, none of which is a reserved word. -/
structure Unreserved (keys : List Key) : Prop where
  distinct : (keys.map Key.name).Nodup
  free : ∀ key ∈ keys, key.name ∉ reservedWords

theorem settingFault_of_allowed {keys : List Key} (hkeys : Unreserved keys)
    {earlier : List String} {s : Setting} (hfresh : s.key ∉ earlier)
    (hallowed : ∃ form, ⟨s.key, form⟩ ∈ keys ∧ form.fault s.text = none) :
    settingFault keys earlier s = none := by
  obtain ⟨form, hmem, hfault⟩ := hallowed
  have hfind : keys.find? (·.name == s.key) = some ⟨s.key, form⟩ :=
    (find?_key_eq_some_iff hkeys.distinct).mpr ⟨hmem, rfl⟩
  simp [settingFault, hfind, hfresh, hfault]

theorem settingFaults_of_inOrder {keys : List Key} (hkeys : Unreserved keys)
    {earlier : List String} {settings : List Setting} (horder : InOrder keys settings)
    (hfresh : ∀ s ∈ settings, s.key ∉ earlier) : settingFaults keys earlier settings = [] := by
  induction settings generalizing earlier with
  | nil => rfl
  | cons first rest ih =>
      obtain ⟨hfirst, hrest⟩ := List.forall_mem_cons.mp hfresh
      obtain ⟨hallowed, hothers⟩ := List.forall_mem_cons.mp horder.allowed
      obtain ⟨hdiffer, hdistinct⟩ := List.nodup_cons.mp horder.distinct
      rw [settingFaults, settingFault_of_allowed hkeys hfirst hallowed, Option.toList_none,
        List.nil_append]
      apply ih ⟨hothers, hdistinct⟩
      intro s hs hearlier
      rcases List.mem_cons.mp hearlier with hsame | hearlier
      · exact hdiffer (hsame ▸ List.mem_map_of_mem hs)
      · exact hrest s hs hearlier

theorem InOrder.of_append {keys : List Key} {settings others : List Setting}
    (horder : InOrder keys (settings ++ others)) :
    InOrder keys settings ∧ InOrder keys others ∧
      ∀ s ∈ others, s.key ∉ settings.map Setting.key := by
  have hdistinct := horder.distinct
  rw [List.map_append, List.nodup_append] at hdistinct
  obtain ⟨hfirst, hsecond, hapart⟩ := hdistinct
  refine ⟨⟨?_, hfirst⟩, ⟨?_, hsecond⟩, ?_⟩
  · exact fun s hs => horder.allowed s (List.mem_append_left _ hs)
  · exact fun s hs => horder.allowed s (List.mem_append_right _ hs)
  · exact fun s hs hkey => hapart s.key hkey s.key (List.mem_map_of_mem hs) rfl

theorem InOrder.reservedWord?_eq_none {keys : List Key} (hkeys : Unreserved keys)
    {settings : List Setting} (horder : InOrder keys settings) :
    reservedWord? settings = none := by
  unfold reservedWord?
  rw [Option.map_eq_none_iff, List.find?_eq_none]
  intro s hs
  obtain ⟨form, hmem, -⟩ := horder.allowed s hs
  have hfree : s.key ∉ reservedWords := hkeys.free _ hmem
  simp [hfree]

theorem attributeFaults_of_inOrder {keys : List Key} (hkeys : Unreserved keys)
    {earlier : List String} {attributes : List (List Setting)}
    (horder : InOrder keys attributes.flatten)
    (hfresh : ∀ s ∈ attributes.flatten, s.key ∉ earlier) :
    attributeFaults keys earlier attributes = [] := by
  induction attributes generalizing earlier with
  | nil => rfl
  | cons settings rest ih =>
      rw [List.flatten_cons] at horder hfresh
      obtain ⟨hfirst, hrest⟩ := List.forall_mem_append.mp hfresh
      obtain ⟨hsettings, hothers, hapart⟩ := horder.of_append
      rw [attributeFaults, hsettings.reservedWord?_eq_none hkeys]
      simp only [settingFaults_of_inOrder hkeys hsettings hfirst, List.nil_append]
      apply ih hothers
      intro s hs hearlier
      rcases List.mem_append.mp hearlier with hkey | hearlier
      · exact hapart s hs hkey
      · exact hrest s hs hearlier

/-- Settings are taken exactly if they are in order. -/
theorem checkedSettings_eq_ok_iff {keys : List Key} (hkeys : Unreserved keys) {m : Member}
    {settings : List Setting} :
    checkedSettings keys m = .ok settings ↔ settings = m.settings ∧ InOrder keys m.settings := by
  constructor
  · exact checkedSettings_eq_ok
  · rintro ⟨rfl, horder⟩
    unfold checkedSettings
    rw [attributeFaults_of_inOrder hkeys horder (by simp)]

/-- What is asked of a reader: settings are taken exactly if they are in order, and whatever else it
may find wrong with them is no fault of another kind. -/
structure Reader.Sound (reader : Reader) : Prop where
  taken : ∀ keys, Unreserved keys → ∀ m settings,
    reader keys m = .ok settings ↔ settings = m.settings ∧ InOrder keys m.settings
  refused : ∀ keys m error, reader keys m = .error error → ∃ faults, error = .settings faults

theorem checkedSettings_sound : Reader.Sound checkedSettings := by
  constructor
  · exact fun keys hkeys m settings => checkedSettings_eq_ok_iff hkeys
  · intro keys m error hchecked
    unfold checkedSettings at hchecked
    split at hchecked
    · contradiction
    · exact ⟨_, (Except.error.inj hchecked).symm⟩

/-! ### Looking up a key -/

theorem isSet_iff {settings : List Setting} {key : String} :
    isSet settings key = true ↔ ∃ text, ⟨key, text⟩ ∈ settings := by
  unfold isSet
  rw [List.any_eq_true]
  constructor
  · rintro ⟨s, hs, hkey⟩
    obtain rfl : s.key = key := by simpa using hkey
    exact ⟨s.text, hs⟩
  · rintro ⟨text, hs⟩
    exact ⟨_, hs, by simp⟩

theorem textOf_eq_none {settings : List Setting} {key : String}
    (hunset : ∀ text, ⟨key, text⟩ ∉ settings) : textOf settings key = none := by
  have hfind : settings.find? (·.key == key) = none := by
    rw [List.find?_eq_none]
    rintro ⟨other, text⟩ hs hkey
    obtain rfl : other = key := by simpa using hkey
    exact hunset text hs
  unfold textOf
  rw [hfind, Option.bind_none]

namespace InOrder

variable {keys : List Key} {settings : List Setting}

theorem find?_eq_some (horder : InOrder keys settings) {s : Setting} (hs : s ∈ settings) :
    settings.find? (·.key == s.key) = some s :=
  (find?_key_eq_some_iff horder.distinct).mpr ⟨hs, rfl⟩

theorem textOf_of_mem (horder : InOrder keys settings) {key : String} {text : Option String}
    (hs : ⟨key, text⟩ ∈ settings) : textOf settings key = text := by
  unfold textOf
  rw [horder.find?_eq_some hs, Option.bind_some]

theorem textOf_eq_some_iff (horder : InOrder keys settings) {key text : String} :
    textOf settings key = some text ↔ ⟨key, some text⟩ ∈ settings := by
  constructor
  · intro htext
    obtain ⟨s, hfind, hs⟩ := Option.bind_eq_some_iff.mp htext
    have hkey : s.key = key := by simpa using List.find?_some hfind
    rw [← hkey, ← hs]
    exact List.mem_of_find?_eq_some hfind
  · exact horder.textOf_of_mem

/-- A key that takes no text has none. -/
theorem isSet_iff_of_flag (horder : InOrder keys settings) {key : String}
    (hform : ∀ form, ⟨key, form⟩ ∈ keys → form = .flag) :
    isSet settings key = true ↔ ⟨key, none⟩ ∈ settings := by
  rw [isSet_iff]
  constructor
  · rintro ⟨text, hs⟩
    obtain ⟨form, hkey, hfault⟩ := horder.allowed _ hs
    obtain rfl := hform form hkey
    cases text with
    | none => exact hs
    | some text => simp [KeyForm.fault] at hfault
  · intro hs
    exact ⟨none, hs⟩

end InOrder

end CommandLine.Schema
