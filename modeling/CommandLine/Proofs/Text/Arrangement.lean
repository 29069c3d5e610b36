import CommandLine.Proofs.Text.Breaks
import Mathlib.Algebra.GroupWithZero.Nat

/-!
# Cheapest arrangements

The lines that pieces are arranged in are those of a cheapest arrangement: the last line of so many
pieces starts where it costs the least, together with the best way to arrange the pieces before it.
A line costs far more than it can save, and a piece without text takes no room at the end of a line;
so no line but the first is made of such pieces alone.
-/

namespace CommandLine.Text

/-! ### The cost of a line -/

theorem le_lineCost (limit width : Nat) (isLast single : Bool) :
    1000 ≤ lineCost limit width isLast single :=
  Nat.le_add_right _ _

/-- That a line is the last one adds next to nothing to its cost. -/
theorem lineCost_le_add (limit width : Nat) (isLast single single' : Bool) :
    lineCost limit width isLast single ≤ lineCost limit width false single' + 25 := by
  unfold lineCost
  rw [Bool.not_false, if_pos rfl]
  split
  · omega
  · split
    · omega
    · split <;> omega

/-! ### Choices -/

theorem Choice.better_cases (a b : Choice) :
    (a.better b = a ∧ a.cost ≤ b.cost) ∨ (a.better b = b ∧ b.cost < a.cost) := by
  unfold Choice.better
  split
  · next hless => exact .inr ⟨rfl, hless⟩
  · next hmore => exact .inl ⟨rfl, Nat.le_of_not_lt hmore⟩

/-- The best of the options `0` to `n`. -/
def bestOf (option : Nat → Choice) (n : Nat) : Choice :=
  (List.range n).foldl (fun found i => found.better (option (i + 1))) (option 0)

theorem bestOf_succ (option : Nat → Choice) (n : Nat) :
    bestOf option (n + 1) = (bestOf option n).better (option (n + 1)) := by
  unfold bestOf
  rw [List.range_succ, List.foldl_append]
  rfl

theorem exists_bestOf_eq (option : Nat → Choice) (n : Nat) :
    ∃ k ≤ n, bestOf option n = option k ∧ ∀ j ≤ n, (option k).cost ≤ (option j).cost := by
  induction n with
  | zero =>
      refine ⟨0, Nat.le_refl 0, rfl, ?_⟩
      intro j hj
      rw [Nat.le_zero.mp hj]
  | succ n ih =>
      obtain ⟨k, hk, hbest, hleast⟩ := ih
      rw [bestOf_succ, hbest]
      rcases (option k).better_cases (option (n + 1)) with ⟨hbetter, hle⟩ | ⟨hbetter, hlt⟩
      · refine ⟨k, by omega, hbetter, ?_⟩
        intro j hj
        rcases Nat.le_succ_iff.mp hj with hearlier | rfl
        · exact hleast j hearlier
        · exact hle
      · refine ⟨n + 1, Nat.le_refl _, hbetter, ?_⟩
        intro j hj
        rcases Nat.le_succ_iff.mp hj with hearlier | rfl
        · have hcost := hleast j hearlier
          omega
        · exact Nat.le_refl _

section

variable (limit : Nat) (ps : List Piece)

/-- The columns of the line from one position to another. -/
def columnsBetween (first last : Nat) : Nat :=
  (runningColumns ps)[last]! - (runningColumns ps)[first]! -
    (ps.map Piece.spaces).toArray[last - 1]!

def costBetween (first last : Nat) : Nat :=
  lineCost limit (columnsBetween ps first last) (last == ps.length) (first + 1 == last)

/-- To end with the line from one position to another. -/
def endingWith (best : Array Choice) (last first : Nat) : Choice :=
  ⟨best[first]!.cost + costBetween limit ps first last, first⟩

/-- The choices for the first numbers of pieces. -/
def choicesUpTo (count : Nat) : Array Choice :=
  (List.range count).foldl
    (fun best before => best.push (bestOf (endingWith limit ps best (before + 1)) before))
    #[⟨0, 0⟩]

theorem bestChoices_eq : bestChoices limit ps = choicesUpTo limit ps ps.length :=
  rfl

theorem choicesUpTo_succ (n : Nat) :
    choicesUpTo limit ps (n + 1) = (choicesUpTo limit ps n).push
      (bestOf (endingWith limit ps (choicesUpTo limit ps n) (n + 1)) n) := by
  rw [choicesUpTo, List.range_succ, List.foldl_append]
  rfl

theorem size_choicesUpTo (n : Nat) : (choicesUpTo limit ps n).size = n + 1 := by
  induction n with
  | zero => rfl
  | succ n ih => rw [choicesUpTo_succ, Array.size_push, ih]

theorem getElem!_choicesUpTo_of_le {n k : Nat} (hk : k ≤ n) :
    (choicesUpTo limit ps (n + 1))[k]! = (choicesUpTo limit ps n)[k]! := by
  have hold : k < (choicesUpTo limit ps n).size := by
    rw [size_choicesUpTo]
    omega
  have hnew : k < (choicesUpTo limit ps (n + 1)).size := by
    rw [size_choicesUpTo]
    omega
  rw [getElem!_pos _ k hnew, getElem!_pos _ k hold]
  simp only [choicesUpTo_succ]
  exact Array.getElem_push_lt hold

theorem getElem!_choicesUpTo_self (n : Nat) :
    (choicesUpTo limit ps (n + 1))[n + 1]! =
      bestOf (endingWith limit ps (choicesUpTo limit ps n) (n + 1)) n := by
  have hsize := size_choicesUpTo limit ps n
  rw [choicesUpTo_succ, ← hsize]
  simp

/-- The best way to arrange the pieces up to a position ends in a line that starts before it, and no
other line would make it cheaper. -/
structure Settled (best : Array Choice) (last : Nat) : Prop where
  start_lt : best[last]!.start < last
  cost_eq : best[last]!.cost = best[best[last]!.start]!.cost +
    costBetween limit ps best[last]!.start last
  cost_le : ∀ first < last, best[last]!.cost ≤ best[first]!.cost +
    costBetween limit ps first last

theorem settled_choicesUpTo {n last : Nat} (hpositive : 0 < last) (hlast : last ≤ n) :
    Settled limit ps (choicesUpTo limit ps n) last := by
  induction n with
  | zero => omega
  | succ n ih =>
      have hkept : ∀ k ≤ n, (choicesUpTo limit ps (n + 1))[k]! =
          (choicesUpTo limit ps n)[k]! :=
        fun k hk => getElem!_choicesUpTo_of_le limit ps hk
      rcases Nat.le_succ_iff.mp hlast with hearlier | rfl
      · obtain ⟨hstart, hcost, hleast⟩ := ih hearlier
        constructor
        · rw [hkept last hearlier]
          exact hstart
        · rw [hkept last hearlier, hkept _ (by omega)]
          exact hcost
        · intro first hfirst
          rw [hkept last hearlier, hkept first (by omega)]
          exact hleast first hfirst
      · have hself := getElem!_choicesUpTo_self limit ps n
        obtain ⟨k, hk, hbest, hleast⟩ :=
          exists_bestOf_eq (endingWith limit ps (choicesUpTo limit ps n) (n + 1)) n
        rw [hbest] at hself
        constructor
        · rw [hself]
          exact Nat.lt_succ_of_le hk
        · rw [hself, endingWith, hkept k hk]
        · intro first hfirst
          rw [hself, hkept first (by omega)]
          exact hleast first (by omega)

/-- An arrangement has a line from the first of the positions to the second. -/
structure HasLine (first last : Nat) : Prop where
  first_lt : first < last
  last_le : last ≤ ps.length
  start_eq : (bestChoices limit ps)[last]!.start = first

theorem hasLine_start {last : Nat} (hpositive : 0 < last) (hlast : last ≤ ps.length) :
    HasLine limit ps (bestChoices limit ps)[last]!.start last :=
  ⟨(settled_choicesUpTo limit ps hpositive hlast).start_lt, hlast, rfl⟩

theorem isChain_lineEnds {last : Nat} {later : List Nat} (hlast : last ≤ ps.length)
    (hlater : (last :: later).IsChain (HasLine limit ps)) :
    (0 :: lineEnds (bestChoices limit ps) last later).IsChain (HasLine limit ps) := by
  fun_induction lineEnds (bestChoices limit ps) last later with
  | case1 later => exact hlater
  | case2 later n start hstart ih =>
      exact ih (by omega) (.cons_cons (hasLine_start limit ps n.succ_pos hlast) hlater)
  | case3 later n start hstart =>
      exact absurd (hasLine_start limit ps n.succ_pos hlast).first_lt hstart

theorem getLast?_lineEnds (best : Array Choice) (last : Nat) (later : List Nat) :
    (0 :: lineEnds best last later).getLast? = (last :: later).getLast? := by
  fun_induction lineEnds best last later with
  | case1 later => rfl
  | case2 later n start hstart ih => rw [ih, List.getLast?_cons_cons]
  | case3 later n start hstart => rw [List.getLast?_cons_cons]

/-- Every part but the first is a line between two positions, and another line ends where it
starts. -/
theorem exists_hasLine_of_mem_cutAt {positions : List Nat} {earlier before : Nat}
    {line : List Piece} (hbefore : HasLine limit ps earlier before)
    (hchain : (before :: positions).IsChain (HasLine limit ps))
    (hlast : (before :: positions).getLast? = some ps.length)
    (hline : line ∈ cutAt before positions (ps.drop before)) :
    ∃ first middle last, HasLine limit ps first middle ∧ HasLine limit ps middle last ∧
      line = (ps.drop middle).take (last - middle) := by
  induction positions generalizing earlier before with
  | nil =>
      have hend : before = ps.length := by simpa using hlast
      rw [hend, List.drop_length] at hline
      cases hline
  | cons position rest ih =>
      obtain ⟨hposition, hrest⟩ := List.isChain_cons_cons.mp hchain
      have hnext : before + (position - before) = position :=
        Nat.add_sub_cancel' (Nat.le_of_lt hposition.first_lt)
      rw [cutAt, List.drop_drop, hnext] at hline
      rw [List.getLast?_cons_cons] at hlast
      rcases List.mem_cons.mp hline with rfl | hlater
      · exact ⟨earlier, before, position, hbefore, hposition, rfl⟩
      · exact ih hposition hrest hlast hlater

theorem exists_hasLine_of_mem_tail {line : List Piece}
    (hline : line ∈ (arrange limit ps).tail) :
    ∃ first middle last, HasLine limit ps first middle ∧ HasLine limit ps middle last ∧
      line = (ps.drop middle).take (last - middle) := by
  have hchain := isChain_lineEnds limit ps (Nat.le_refl ps.length) (.singleton _)
  have hlast := getLast?_lineEnds (bestChoices limit ps) ps.length []
  unfold arrange at hline
  cases hends : lineEnds (bestChoices limit ps) ps.length [] with
  | nil =>
      rw [hends] at hline
      cases ps <;> simp [cutAt] at hline
  | cons position rest =>
      rw [hends] at hline hchain hlast
      obtain ⟨hfirst, hrest⟩ := List.isChain_cons_cons.mp hchain
      rw [List.getLast?_cons_cons] at hlast
      exact exists_hasLine_of_mem_cutAt limit ps hfirst hrest hlast hline

theorem head?_of_head?_arrange {line : List Piece} (hline : (arrange limit ps).head? = some line) :
    line.head? = ps.head? := by
  have hchain := isChain_lineEnds limit ps (Nat.le_refl ps.length) (.singleton _)
  unfold arrange at hline
  cases hends : lineEnds (bestChoices limit ps) ps.length [] with
  | nil =>
      rw [hends] at hline
      cases ps <;> simp_all [cutAt]
  | cons position rest =>
      rw [hends] at hline hchain
      have hfirst := (List.isChain_cons_cons.mp hchain).1
      have htake : ps.take position = line := by simpa [cutAt] using hline
      rw [← htake, List.head?_take, if_neg (Nat.ne_of_gt hfirst.first_lt)]

end

/-! ### Columns -/

def Piece.room (p : Piece) : Nat :=
  p.width + p.spaces

theorem runningColumns_append_singleton (ps : List Piece) (p : Piece) :
    runningColumns (ps ++ [p]) =
      (runningColumns ps).push ((runningColumns ps).back! + p.width + p.spaces) := by
  simp [runningColumns, List.foldl_append]

theorem size_runningColumns (ps : List Piece) : (runningColumns ps).size = ps.length + 1 := by
  induction ps using List.reverseRecOn with
  | nil => rfl
  | append_singleton ps p ih =>
      rw [runningColumns_append_singleton, Array.size_push, ih, List.length_append]
      rfl

theorem getElem!_runningColumns {ps : List Piece} {k : Nat} (hk : k ≤ ps.length) :
    (runningColumns ps)[k]! = ((ps.take k).map Piece.room).sum := by
  induction ps using List.reverseRecOn generalizing k with
  | nil =>
      rw [Nat.le_zero.mp hk]
      rfl
  | append_singleton ps p ih =>
      have hsize := size_runningColumns ps
      have hnewSize := size_runningColumns (ps ++ [p])
      have hback : (runningColumns ps).back! = (ps.map Piece.room).sum := by
        rw [Array.back!, hsize, Nat.add_sub_cancel, ih (Nat.le_refl ps.length), List.take_length]
      rcases Nat.lt_or_eq_of_le hk with hless | rfl
      · rw [List.length_append, List.length_singleton] at hless
        have hearlier : k ≤ ps.length := Nat.le_of_lt_succ hless
        have hold : k < (runningColumns ps).size := by omega
        have hnew : k < (runningColumns (ps ++ [p])).size := by omega
        rw [List.take_append_of_le_length hearlier, ← ih hearlier, getElem!_pos _ k hnew,
          getElem!_pos _ k hold]
        simp only [runningColumns_append_singleton]
        exact Array.getElem_push_lt hold
      · rw [List.take_length, runningColumns_append_singleton, hback, List.length_append,
          List.length_singleton, ← hsize]
        simp [Piece.room, Nat.add_assoc]

theorem sum_room_of_blank {ps : List Piece} {final : Piece} (htight : BlanksTight ps)
    (hblank : ∀ piece ∈ ps, piece.text = []) (hfinal : ps.getLast? = some final) :
    (ps.map Piece.room).sum = final.spaces := by
  induction ps with
  | nil => cases hfinal
  | cons p rest ih =>
      obtain ⟨hp, hrest⟩ := List.forall_mem_cons.mp hblank
      have hwidth : p.width = 0 := by
        unfold Piece.width
        rw [hp]
        rfl
      cases rest with
      | nil =>
          obtain rfl : p = final := by simpa using hfinal
          simp [Piece.room, hwidth]
      | cons q rest =>
          obtain ⟨hpq, hlater⟩ := List.isChain_cons_cons.mp htight
          have hspaces : p.spaces = 0 := hpq (hrest q List.mem_cons_self)
          rw [List.getLast?_cons_cons] at hfinal
          rw [List.map_cons, List.sum_cons, ih hlater hrest hfinal, Piece.room, hwidth, hspaces,
            Nat.zero_add]

theorem getElem!_spaces {ps : List Piece} {k : Nat} {piece : Piece} (hpiece : ps[k]? = some piece) :
    (ps.map Piece.spaces).toArray[k]! = piece.spaces := by
  simp [hpiece]

theorem BlanksTight.spaces_eq_zero {ps : List Piece} (htight : BlanksTight ps) {k : Nat}
    {before piece : Piece} (hbefore : ps[k]? = some before) (hpiece : ps[k + 1]? = some piece)
    (hblank : piece.text = []) : before.spaces = 0 := by
  obtain ⟨hk, rfl⟩ := List.getElem?_eq_some_iff.mp hpiece
  obtain ⟨-, rfl⟩ := List.getElem?_eq_some_iff.mp hbefore
  exact List.isChain_iff_getElem.mp htight k hk hblank

theorem BlanksTight.part {ps : List Piece} (htight : BlanksTight ps) (first count : Nat) :
    BlanksTight ((ps.drop first).take count) :=
  (List.IsChain.drop htight first).take count

theorem getLast?_take_drop {α : Type} {xs : List α} {first last : Nat} (hfirst : first < last)
    (hlast : last ≤ xs.length) : ((xs.drop first).take (last - first)).getLast? = xs[last - 1]? := by
  have hcount : ((xs.drop first).take (last - first)).length = last - first := by
    rw [List.length_take, List.length_drop]
    omega
  have hposition : first + (last - first - 1) = last - 1 := by omega
  rw [List.getLast?_eq_getElem?, hcount, List.getElem?_take_of_lt (by omega), List.getElem?_drop,
    hposition]

theorem columnsBetween_eq {ps : List Piece} {first last : Nat} {final : Piece}
    (hfirst : first ≤ last) (hlast : last ≤ ps.length) (hfinal : ps[last - 1]? = some final) :
    columnsBetween ps first last =
      ((ps.take last).map Piece.room).sum - ((ps.take first).map Piece.room).sum -
        final.spaces := by
  unfold columnsBetween
  rw [getElem!_spaces hfinal, getElem!_runningColumns hlast,
    getElem!_runningColumns (Nat.le_trans hfirst hlast)]

/-- Pieces without text at the end of a line take up no columns. -/
theorem columnsBetween_of_blank {limit : Nat} {ps : List Piece} (htight : BlanksTight ps)
    {first middle last : Nat} (hbefore : HasLine limit ps first middle)
    (hline : HasLine limit ps middle last)
    (hblank : ∀ piece ∈ (ps.drop middle).take (last - middle), piece.text = []) :
    columnsBetween ps first last = columnsBetween ps first middle := by
  have hmiddle := hbefore.first_lt
  have hlast := hline.first_lt
  have hlength := hline.last_le
  obtain ⟨final, hfinal⟩ : ∃ final, ps[last - 1]? = some final :=
    ⟨_, List.getElem?_eq_getElem (by omega)⟩
  obtain ⟨previous, hprevious⟩ : ∃ previous, ps[middle - 1]? = some previous :=
    ⟨_, List.getElem?_eq_getElem (by omega)⟩
  obtain ⟨piece, hpiece⟩ : ∃ piece, ps[middle]? = some piece :=
    ⟨_, List.getElem?_eq_getElem (by omega)⟩
  -- the line begins with a piece without text, so no spaces come before it
  have hspaces : previous.spaces = 0 := by
    have hhead : ((ps.drop middle).take (last - middle)).head? = some piece := by
      rw [List.head?_take, if_neg (by omega), List.head?_drop, hpiece]
    refine htight.spaces_eq_zero hprevious ?_ (hblank piece (List.mem_of_head? hhead))
    rwa [Nat.sub_add_cancel (by omega)]
  have hroom : (((ps.drop middle).take (last - middle)).map Piece.room).sum = final.spaces := by
    refine sum_room_of_blank (htight.part middle (last - middle)) hblank ?_
    rw [getLast?_take_drop hlast hlength, hfinal]
  have hsum : ((ps.take last).map Piece.room).sum =
      ((ps.take middle).map Piece.room).sum + final.spaces := by
    rw [← hroom, ← List.sum_append, ← List.map_append, ← List.take_add,
      Nat.add_sub_cancel' (Nat.le_of_lt hlast)]
  rw [columnsBetween_eq (by omega) hlength hfinal,
    columnsBetween_eq (Nat.le_of_lt hmiddle) hbefore.last_le hprevious, hsum, hspaces]
  omega

theorem exists_text_of_mem_tail_arrange {limit : Nat} {ps line : List Piece}
    (htight : BlanksTight ps) (hline : line ∈ (arrange limit ps).tail) :
    ∃ piece ∈ line, piece.text ≠ [] := by
  obtain ⟨first, middle, last, hbefore, hlast, rfl⟩ := exists_hasLine_of_mem_tail limit ps hline
  by_contra hnone
  have hblank : ∀ piece ∈ (ps.drop middle).take (last - middle), piece.text = [] := by
    intro piece hpiece
    by_contra htext
    exact hnone ⟨piece, hpiece, htext⟩
  have hcolumns := columnsBetween_of_blank htight hbefore hlast hblank
  have hmiddlePositive : 0 < middle := Nat.zero_lt_of_lt hbefore.first_lt
  have hlastPositive : 0 < last := Nat.zero_lt_of_lt hlast.first_lt
  -- it would have been cheaper to go on with the line before
  have hmiddleCost := (settled_choicesUpTo limit ps hmiddlePositive hbefore.last_le).cost_eq
  have hlastCost := (settled_choicesUpTo limit ps hlastPositive hlast.last_le).cost_eq
  have hlonger := (settled_choicesUpTo limit ps hlastPositive hlast.last_le).cost_le first
    (Nat.lt_trans hbefore.first_lt hlast.first_lt)
  rw [← bestChoices_eq] at hmiddleCost hlastCost hlonger
  rw [hbefore.start_eq] at hmiddleCost
  rw [hlast.start_eq] at hlastCost
  have hadded : costBetween limit ps first last ≤ costBetween limit ps first middle + 25 := by
    have hnotLast : (middle == ps.length) = false := by
      have hlt := Nat.lt_of_lt_of_le hlast.first_lt hlast.last_le
      simpa using Nat.ne_of_lt hlt
    unfold costBetween
    rw [hcolumns, hnotLast]
    exact lineCost_le_add _ _ _ _ _
  have hown : 1000 ≤ costBetween limit ps middle last := le_lineCost _ _ _ _
  omega

/-! ### Wrapped lines -/

theorem lineText_ne_nil {line : List Piece} (htext : ∃ piece ∈ line, piece.text ≠ []) :
    lineText line ≠ [] := by
  obtain ⟨piece, hpiece, hne⟩ := htext
  obtain ⟨before, final, rfl⟩ :=
    (List.eq_nil_or_concat' line).resolve_left (List.ne_nil_of_mem hpiece)
  intro hnil
  have hempty : before.flatMap Piece.source = [] ∧ final.text = [] := by
    simpa [lineText] using hnil
  obtain ⟨hbefore, hfinal⟩ := hempty
  rcases List.mem_append.mp hpiece with hearlier | hlast
  · have hsource := List.flatMap_eq_nil_iff.mp hbefore piece hearlier
    exact hne (List.append_eq_nil_iff.mp hsource).1
  · rw [List.mem_singleton.mp hlast] at hne
    exact hne hfinal

theorem ne_nil_of_mem_tail_wrapLine {limit : Nat} {line text : List Char}
    (htext : text ∈ (wrapLine limit line).tail) : text ≠ [] := by
  unfold wrapLine at htext
  split at htext
  · cases htext
  · rw [← List.map_tail] at htext
    obtain ⟨ps, hps, rfl⟩ := List.mem_map.mp htext
    exact lineText_ne_nil (exists_text_of_mem_tail_arrange (pieces_blanksTight limit line) hps)

theorem dropEndWhile_space_of_getLast? {cs : List Char} (hlast : cs.getLast? ≠ some ' ') :
    dropEndWhile (· = ' ') cs = cs := by
  obtain ⟨n, hcs⟩ := exists_spaces_at_end cs
  cases n with
  | zero => simpa using hcs
  | succ n =>
      rw [← hcs, List.getLast?_append, List.getLast?_replicate, if_neg n.succ_ne_zero] at hlast
      exact absurd rfl hlast

theorem wrapLine_of_short {limit : Nat} {line : List Char}
    (hshort : (String.ofList line).utf8ByteSize < limit) (hlast : line.getLast? ≠ some ' ') :
    wrapLine limit line = [line] := by
  unfold wrapLine
  rw [if_pos hshort, dropEndWhile_space_of_getLast? hlast]

theorem ne_nil_of_head?_wrapLine {limit : Nat} {line text : List Char} (hne : line ≠ [])
    (hfirst : line.head? ≠ some ' ') (htext : (wrapLine limit line).head? = some text) :
    text ≠ [] := by
  unfold wrapLine at htext
  split at htext
  · obtain rfl := Option.some.inj htext
    intro hblank
    exact hfirst (head?_of_ofWord_blank hne hblank)
  · rw [List.head?_map] at htext
    obtain ⟨ps, hps, rfl⟩ := Option.map_eq_some_iff.mp htext
    have hpieces : pieces limit line ≠ [] := by
      intro hnil
      have hsource := flatMap_source_pieces limit line
      rw [hnil] at hsource
      exact hne hsource.symm
    obtain ⟨piece, rest, hcons⟩ := List.exists_cons_of_ne_nil hpieces
    have hhead : (pieces limit line).head? = some piece := by rw [hcons, List.head?_cons]
    have hmem : piece ∈ ps := by
      apply List.mem_of_head?
      rw [head?_of_head?_arrange limit _ hps, hhead]
    exact lineText_ne_nil ⟨piece, hmem, text_ne_nil_of_head?_pieces hfirst hhead⟩

theorem wrap_of_oneLine {limit : Nat} {text : List Char} (hfeed : '\n' ∉ text) :
    wrap limit text = wrapLine limit text := by
  unfold wrap
  rw [piecesAt_of_notMem hfeed, List.flatMap_singleton]

theorem lineText_append_singleton (before : List Piece) (final : Piece) :
    lineText (before ++ [final]) = before.flatMap Piece.source ++ final.text := by
  simp [lineText]

theorem getLast?_lineText_ne {line : List Piece} (htight : BlanksTight line)
    (htrimmed : ∀ piece ∈ line, piece.text.getLast? ≠ some ' ') :
    (lineText line).getLast? ≠ some ' ' := by
  induction line using List.reverseRecOn with
  | nil => simp [lineText]
  | append_singleton before final ih =>
      obtain ⟨hbefore, hfinal⟩ := List.forall_mem_append.mp htrimmed
      obtain ⟨htightBefore, -, hpair⟩ := List.isChain_append.mp htight
      rw [lineText_append_singleton]
      by_cases htext : final.text = []
      -- a last piece without text leaves the line to end in the text before it
      · rw [htext, List.append_nil]
        rcases List.eq_nil_or_concat' before with rfl | ⟨earlier, previous, rfl⟩
        · simp
        · have hspaces : previous.spaces = 0 := hpair previous (by simp) final rfl htext
          have hsource : (earlier ++ [previous]).flatMap Piece.source =
              lineText (earlier ++ [previous]) := by
            rw [lineText_append_singleton]
            simp [Piece.source, hspaces]
          rw [hsource]
          exact ih htightBefore hbefore
      · rw [List.getLast?_append_of_ne_nil _ htext]
        exact hfinal final List.mem_cons_self

theorem getLast?_ne_of_mem_wrapLine {limit : Nat} {line text : List Char}
    (hline : BreaksNoSpaces limit line) (htext : text ∈ wrapLine limit line) :
    text.getLast? ≠ some ' ' := by
  unfold wrapLine at htext
  split at htext
  · rw [List.mem_singleton.mp htext]
    exact getLast?_dropEndWhile_space_ne line
  · obtain ⟨ps, hps, rfl⟩ := List.mem_map.mp htext
    have hcontiguous : ps <:+: pieces limit line := by
      have hflatten := List.infix_of_mem_flatten hps
      unfold arrange at hflatten
      rwa [flatten_cutAt] at hflatten
    apply getLast?_lineText_ne
    · exact List.IsChain.infix (pieces_blanksTight limit line) hcontiguous
    · intro piece hpiece
      exact getLast?_of_mem_pieces hline (hcontiguous.subset hpiece)

end CommandLine.Text
