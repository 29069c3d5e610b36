import CommandLine.Proofs.Text.Arrangement

/-!
# Wrappers

What is asked of a function that breaks texts into lines, whatever lines it chooses.  It keeps the
text but for spaces and line feeds, and it trims the lines that it makes of a single line: it breaks
none that is short, nothing but the beginning of a text leaves a line empty, and no line ends in a
space unless a word with spaces in it has to be broken apart.  The wrapper that usage messages come
with does both.
-/

namespace CommandLine.Text

structure Wrapper.Keeps (wrap : Wrapper) : Prop where
  ne_nil : ∀ limit text, 0 < limit → wrap limit text ≠ []
  unbroken : ∀ limit text, ∀ line ∈ wrap limit text, '\n' ∉ line.toList
  text : ∀ limit text, unspaced (String.join (wrap limit text)).toList = unspaced text.toList

structure Wrapper.Trims (wrap : Wrapper) : Prop extends wrap.Keeps where
  /-- The empty text is a line as well. -/
  short : ∀ limit text, '\n' ∉ text.toList → text.toList.getLast? ≠ some ' ' →
    text.utf8ByteSize < limit → wrap limit text = [text]
  first_ne : ∀ limit text, '\n' ∉ text.toList → text ≠ "" → text.toList.head? ≠ some ' ' →
    (wrap limit text).head? ≠ some ""
  later_ne : ∀ limit text, '\n' ∉ text.toList → "" ∉ (wrap limit text).tail
  trimmed : ∀ limit text, '\n' ∉ text.toList → BreaksNoSpaces limit text.toList →
    ∀ line ∈ wrap limit text, line.toList.getLast? ≠ some ' '

theorem toList_join_wrapped (limit : Nat) (text : String) :
    (String.join (wrapped limit text)).toList = (wrap limit text.toList).flatten := by
  simp [wrapped, String.toList_join, List.flatMap_map, List.flatMap_id']

theorem wrapped_keeps : wrapped.Keeps := by
  constructor
  · intro limit text hlimit hnil
    exact wrap_ne_nil hlimit _ (List.map_eq_nil_iff.mp hnil)
  · intro limit text line hline
    obtain ⟨cs, hcs, rfl⟩ := List.mem_map.mp hline
    rw [String.toList_ofList]
    exact lineFeed_notMem_of_mem_wrap hcs
  · intro limit text
    rw [toList_join_wrapped, unspaced_flatten_wrap]

theorem wrapped_of_oneLine (limit : Nat) {text : String} (hfeed : '\n' ∉ text.toList) :
    wrapped limit text = (wrapLine limit text.toList).map String.ofList := by
  rw [wrapped, wrap_of_oneLine hfeed]

theorem wrapped_trims : wrapped.Trims := by
  refine { wrapped_keeps with short := ?_, first_ne := ?_, later_ne := ?_, trimmed := ?_ }
  · intro limit text hfeed hlast hshort
    have hsize : (String.ofList text.toList).utf8ByteSize < limit := by
      rwa [String.ofList_toList]
    rw [wrapped_of_oneLine limit hfeed, wrapLine_of_short hsize hlast, List.map_singleton,
      String.ofList_toList]
  · intro limit text hfeed hne hfirst hempty
    have htext : text.toList ≠ [] := by simpa using hne
    rw [wrapped_of_oneLine limit hfeed, List.head?_map] at hempty
    obtain ⟨line, hline, hnil⟩ := Option.map_eq_some_iff.mp hempty
    exact ne_nil_of_head?_wrapLine htext hfirst hline (String.ofList_eq_empty_iff.mp hnil)
  · intro limit text hfeed hempty
    rw [wrapped_of_oneLine limit hfeed, ← List.map_tail] at hempty
    obtain ⟨line, hline, hnil⟩ := List.mem_map.mp hempty
    exact ne_nil_of_mem_tail_wrapLine hline (String.ofList_eq_empty_iff.mp hnil)
  · intro limit text hfeed hbreaks line hline
    rw [wrapped_of_oneLine limit hfeed] at hline
    obtain ⟨cs, hcs, rfl⟩ := List.mem_map.mp hline
    rw [String.toList_ofList]
    exact getLast?_ne_of_mem_wrapLine hbreaks hcs

end CommandLine.Text
