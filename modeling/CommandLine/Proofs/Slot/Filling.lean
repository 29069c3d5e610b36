import CommandLine.Proofs.Container.Maps
import CommandLine.Proofs.Container.Sets
import CommandLine.Proofs.Slot

/-!
# What collections and maps hold in the end

A list keeps everything.  Sets hold a union and maps agree on what they hold under each name; they
differ by their order alone.
-/

namespace CommandLine

open Contents (ofPairs ofValues)

open Container

namespace Slot

theorem bind_list (type : ValueType) (initial buffer : List Value) :
    (Slot.collection type .list).bind (ofValues initial) (ofValues buffer) =
      (ofValues (initial ++ buffer), none) := by
  apply appendAll_eq_none_iff.mpr
  rw [foldlM_list]
  simp [ofValues]

theorem bind_set {c : Container} {Admits : Value → Prop}
    {Arranged : List Value → List Value → Prop} (hinserts : c.InsertsOnce Admits Arranged)
    {initial : List Value} (harranged : Arranged [] initial) (honce : Once initial)
    {buffer : List Value} (hbuffer : ∀ v ∈ buffer, Admits v) (type : ValueType) :
    ∃ final, (Slot.collection type c).bind (ofValues initial) (ofValues buffer) =
        (ofValues final, none) ∧
      FillsSet initial buffer final ∧ Arranged buffer final := by
  obtain ⟨final, hfold, hfills, hfinal⟩ := hinserts.foldlM harranged honce hbuffer
  exact ⟨final, appendAll_eq_none_iff.mpr hfold, hfills, hfinal⟩

theorem bind_map {c : Container}
    {Arranged : List (String × String) → List (String × String) → Prop}
    (hputs : c.PutsOnce Arranged) {initial : List (String × String)}
    (harranged : Arranged [] initial) (honce : (names initial).Nodup)
    (buffer : List (String × String)) :
    ∃ final, (Slot.map c).bind (ofPairs initial) (ofPairs buffer) = (ofPairs final, none) ∧
      FillsMap initial buffer final ∧ Arranged buffer final := by
  obtain ⟨final, hfold, hfills, hfinal⟩ := hputs.foldlM harranged honce buffer
  exact ⟨final, appendAll_eq_none_iff.mpr hfold, hfills, hfinal⟩

/-- What becomes of any contents when any values are bound into them.  Lists keep all in order; sets
hold the union, each value once; maps hold under each name the last value that came with it, or else
what they held.  Sorted ones are in ascending order, those in the order of arrival keep the initial
order and go on with what is new as it first appears, and nothing is known of the order of hashed
ones. -/
theorem bind_fills_containers :
    (∀ type initial buffer,
      (Slot.collection type .list).bind (ofValues initial) (ofValues buffer) =
        (ofValues (initial ++ buffer), none)) ∧
    (∀ type initial buffer, Once initial →
      (Slot.collection type .arrivalSet).bind (ofValues initial) (ofValues buffer) =
          (ofValues (initial ++ newcomers Value.same initial buffer), none) ∧
        FillsSet initial buffer (initial ++ newcomers Value.same initial buffer)) ∧
    (∀ type order OfType initial buffer, Orders order OfType → Ascends order OfType initial →
      (∀ v ∈ buffer, OfType v) →
        ∃ final, (Slot.collection type (.sortedSetBy order)).bind (ofValues initial)
            (ofValues buffer) = (ofValues final, none) ∧
          FillsSet initial buffer final ∧ Ascends order OfType final) ∧
    (∀ type c initial buffer, c.IsHashedSet → Once initial →
      ∃ final, (Slot.collection type c).bind (ofValues initial) (ofValues buffer) =
          (ofValues final, none) ∧ FillsSet initial buffer final) ∧
    (∀ initial buffer, (names initial).Nodup →
      ∃ final, (Slot.map .arrivalMap).bind (ofPairs initial) (ofPairs buffer) =
          (ofPairs final, none) ∧ FillsMap initial buffer final ∧
        names final = names initial ++ newcomers (· == ·) (names initial) (names buffer)) ∧
    (∀ initial buffer, AscendsByName initial →
      ∃ final, (Slot.map .sortedMap).bind (ofPairs initial) (ofPairs buffer) =
          (ofPairs final, none) ∧ FillsMap initial buffer final ∧ AscendsByName final) ∧
    ∀ c initial buffer, c.IsHashedMap → (names initial).Nodup →
      ∃ final, (Slot.map c).bind (ofPairs initial) (ofPairs buffer) = (ofPairs final, none) ∧
        FillsMap initial buffer final := by
  refine ⟨bind_list, ?_, ?_, ?_, ?_, ?_, ?_⟩
  · intro type initial buffer honce
    have hstart : initial = [].foldl (arrive Value.same) initial := rfl
    obtain ⟨final, hbind, hfills, hfinal⟩ :=
      bind_set (arrivalSet_insertsOnce initial) hstart honce (fun _ _ => trivial) type
    rw [foldl_arrive] at hfinal
    exact hfinal ▸ ⟨hbind, hfills⟩
  · intro type order OfType initial buffer horders hascends hbuffer
    exact bind_set (sortedSetBy_insertsOnce horders) hascends (hascends.once horders) hbuffer type
  · intro type c initial buffer hhashed honce
    obtain ⟨final, hbind, hfills, -⟩ :=
      bind_set hhashed trivial honce (fun _ _ => trivial) type
    exact ⟨final, hbind, hfills⟩
  · intro initial buffer honce
    obtain ⟨final, hbind, hfills, hnames⟩ :=
      bind_map (arrivalMap_putsOnce initial) rfl honce buffer
    rw [foldl_arrive] at hnames
    exact ⟨final, hbind, hfills, hnames⟩
  · intro initial buffer hascends
    exact bind_map sortedMap_putsOnce hascends hascends.once buffer
  · intro c initial buffer hhashed honce
    obtain ⟨final, hbind, hfills, -⟩ := bind_map hhashed trivial honce buffer
    exact ⟨final, hbind, hfills⟩

/-- Paths that are the same and written differently, numbers and texts in between, and a name that
is given twice and was there before. -/
theorem containers_filled :
    ((Slot.collection .path .arrivalSet).bind (ofValues [.path "a/b"])
        (ofValues [.path "d", .path "a//b", .path "c", .path "d/"]) =
      (ofValues [.path "a/b", .path "d", .path "c"], none)) ∧
    (∃ final, (Slot.collection (.integer ⟨false, 32⟩) .sortedSet).bind (ofValues [.integer 5])
        (ofValues [.integer 3, .integer 1, .integer 3]) = (ofValues final, none) ∧
      FillsSet [.integer 5] [.integer 3, .integer 1, .integer 3] final ∧
        Ascends Value.precedes (fun v => ∃ n, v = .integer n) final) ∧
    (∃ final, (Slot.collection .text .sortedSet).bind (ofValues [.text "lib"])
        (ofValues [.text "src", .text "bin", .text "src"]) = (ofValues final, none) ∧
      FillsSet [.text "lib"] [.text "src", .text "bin", .text "src"] final ∧
        Ascends Value.precedes (fun v => ∃ s, v = .text s) final) ∧
    (∃ final, (Slot.collection .text .arrivalSet).bind (ofValues []) (ofValues [.text "x"]) =
        (ofValues final, none) ∧ FillsSet [] [.text "x"] final) ∧
    (∃ final, (Slot.map .arrivalMap).bind (ofPairs [("b", "0"), ("c", "0")])
        (ofPairs [("d", "1"), ("b", "2"), ("a", "3"), ("b", "4")]) = (ofPairs final, none) ∧
      final.lookup "b" = some "4" ∧ final.lookup "c" = some "0" ∧ final.lookup "e" = none ∧
        names final = ["b", "c", "d", "a"]) ∧
    (∃ final, (Slot.map .sortedMap).bind (ofPairs [("b", "0"), ("c", "0")])
        (ofPairs [("d", "1"), ("b", "2"), ("a", "3"), ("b", "4")]) = (ofPairs final, none) ∧
      final.lookup "b" = some "4" ∧ AscendsByName final) ∧
    ∃ final, (Slot.map .arrivalMap).bind (ofPairs [("b", "0")]) (ofPairs [("b", "2"), ("b", "4")]) =
        (ofPairs final, none) ∧ final.lookup "b" = some "4" := by
  obtain ⟨-, harrival, hsorted, hhashed, hmap, hsortedMap, hhashedMap⟩ := bind_fills_containers
  refine ⟨?_, ?_, ?_, ?_, ?_, ?_, ?_⟩
  · exact (harrival .path [.path "a/b"] _ (List.pairwise_singleton _ _)).1
  · apply hsorted _ _ _ _ _ integers_ordered
    · exact ⟨by simp, List.pairwise_singleton _ _⟩
    · simp
  · apply hsorted _ _ _ _ _ texts_ordered
    · exact ⟨by simp, List.pairwise_singleton _ _⟩
    · simp
  · exact hhashed _ _ _ _ arrivalSet_isHashedSet List.Pairwise.nil
  · obtain ⟨final, hbind, hfills, hnames⟩ := hmap [("b", "0"), ("c", "0")]
      [("d", "1"), ("b", "2"), ("a", "3"), ("b", "4")] (by decide)
    refine ⟨final, hbind, ?_, ?_, ?_, hnames⟩
    · rw [hfills.lookup]
      rfl
    · rw [hfills.lookup]
      rfl
    · rw [hfills.lookup]
      rfl
  · have hinitial : AscendsByName [("b", "0"), ("c", "0")] := List.pairwise_pair.mpr (by decide)
    obtain ⟨final, hbind, hfills, hascends⟩ := hsortedMap _
      [("d", "1"), ("b", "2"), ("a", "3"), ("b", "4")] hinitial
    refine ⟨final, hbind, ?_, hascends⟩
    rw [hfills.lookup]
    rfl
  · obtain ⟨final, hbind, hfills⟩ := hhashedMap .arrivalMap [("b", "0")] [("b", "2"), ("b", "4")]
      arrivalMap_isHashedMap (by decide)
    refine ⟨final, hbind, ?_⟩
    rw [hfills.lookup]
    rfl

end Slot

end CommandLine
