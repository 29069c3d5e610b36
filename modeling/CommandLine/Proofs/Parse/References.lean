import CommandLine.Proofs.Parse.Expansion
import Mathlib.Data.List.Perm.Subperm
import Mathlib.Logic.Relation

/-!
# References between response files

A path leads to another one if the file there refers to it.  While a command line is expanded the
files that are open form a trail of such references.  Without a cycle no trail opens a file twice,
so none is longer than the file system has nodes, and the depth of an expansion is never used up.
-/

namespace CommandLine.Expansion

namespace Source

/-- A list of arguments refers to the file at a path. -/
def Refers (source : Source) (arguments : List String) (path : String) : Prop :=
  Token.responseFile path ∈ Token.ofArguments source.enabled arguments

/-- The file at the first path refers to the second one. -/
def Leads (source : Source) (first second : String) : Prop :=
  ∃ tokens, source.read first = .ok tokens ∧ source.Refers tokens second

/-- A path is referred to on the command line, or in a file that is reachable itself. -/
def Reachable (source : Source) (arguments : List String) (path : String) : Prop :=
  ∃ first, source.Refers arguments first ∧ Relation.ReflTransGen source.Leads first path

def Acyclic (source : Source) (arguments : List String) : Prop :=
  ∀ path, source.Reachable arguments path → ¬ Relation.TransGen source.Leads path path

def AllReadable (source : Source) (arguments : List String) : Prop :=
  ∀ path, source.Reachable arguments path → ∃ tokens, source.read path = .ok tokens

theorem refers_iff {source : Source} {arguments : List String} {path : String} :
    source.Refers arguments path ↔
      path ∈ (Token.ofArguments source.enabled arguments).filterMap Token.reference? := by
  constructor
  · intro hrefers
    exact List.mem_filterMap.mpr ⟨_, hrefers, rfl⟩
  · intro hmem
    obtain ⟨token, htoken, hreference⟩ := List.mem_filterMap.mp hmem
    cases token with
    | named written name value => contradiction
    | positional value => contradiction
    | responseFile other =>
        obtain rfl := Option.some.inj hreference
        exact htoken

/-- A list with one reference refers to nothing else. -/
theorem eq_of_refers {source : Source} {arguments : List String} {path only : String}
    (honly : (Token.ofArguments source.enabled arguments).filterMap Token.reference? = [only])
    (hrefers : source.Refers arguments path) : path = only := by
  rw [refers_iff, honly] at hrefers
  exact List.mem_singleton.mp hrefers

theorem leads_iff_of_read {source : Source} {path next : String} {tokens : List String}
    (hread : source.read path = .ok tokens) :
    source.Leads path next ↔ source.Refers tokens next := by
  constructor
  · rintro ⟨others, hothers, hrefers⟩
    obtain rfl := Except.ok.inj (hread.symm.trans hothers)
    exact hrefers
  · intro hrefers
    exact ⟨tokens, hread, hrefers⟩

theorem not_leads_of_plain {source : Source} {path : String} {tokens : List String}
    (hread : source.read path = .ok tokens) (hplain : Token.Plain source.enabled tokens)
    (next : String) : ¬ source.Leads path next := by
  rw [leads_iff_of_read hread]
  exact hplain next

theorem not_transGen_of_acc {source : Source} {path : String}
    (hacc : Acc (fun next first => source.Leads first next) path) :
    ¬ Relation.TransGen source.Leads path path := by
  induction hacc with
  | intro path _ ih =>
      intro hcycle
      obtain ⟨next, hnext, hback⟩ := Relation.TransGen.head'_iff.mp hcycle
      exact ih next hnext (.tail' hback hnext)

/-- Without a cycle is a command line whose references all lead to an end. -/
theorem acyclic_of_acc {source : Source} {arguments : List String}
    (hacc : ∀ path, source.Refers arguments path →
      Acc (fun next first => source.Leads first next) path) : source.Acyclic arguments := by
  rintro path ⟨first, hfirst, hleads⟩
  apply not_transGen_of_acc
  induction hleads with
  | refl => exact hacc first hfirst
  | tail _ hnext ih => exact ih.inv hnext

/-- Every file that a list of arguments refers to can be read, and refers to none itself. -/
def RefersPlainly (source : Source) (arguments : List String) : Prop :=
  ∀ path, source.Refers arguments path →
    ∃ tokens, source.read path = .ok tokens ∧ Token.Plain source.enabled tokens

/-- It is enough that this holds of the one file that is referred to. -/
theorem refersPlainly_of_read {source : Source} {arguments tokens : List String} {path : String}
    (honly : (Token.ofArguments source.enabled arguments).filterMap Token.reference? = [path])
    (hread : source.read path = .ok tokens) (hplain : Token.Plain source.enabled tokens) :
    source.RefersPlainly arguments := by
  intro other hother
  obtain rfl := eq_of_refers honly hother
  exact ⟨tokens, hread, hplain⟩

theorem RefersPlainly.acyclic {source : Source} {arguments : List String}
    (hrefers : source.RefersPlainly arguments) : source.Acyclic arguments := by
  apply acyclic_of_acc
  intro path hpath
  obtain ⟨tokens, hread, hplain⟩ := hrefers path hpath
  exact .intro _ fun next hnext => absurd hnext (not_leads_of_plain hread hplain next)

theorem RefersPlainly.allReadable {source : Source} {arguments : List String}
    (hrefers : source.RefersPlainly arguments) : source.AllReadable arguments := by
  rintro path ⟨first, hfirst, hleads⟩
  obtain ⟨tokens, hread, hplain⟩ := hrefers first hfirst
  rcases Relation.ReflTransGen.cases_head hleads with rfl | ⟨next, hnext, -⟩
  · exact ⟨tokens, hread⟩
  · exact absurd hnext (not_leads_of_plain hread hplain next)

/-! ### Places of files -/

/-- Paths to one place lead to the same tokens. -/
theorem read_congr {source : Source} {first second : String}
    (hresolve : source.files.resolve first = source.files.resolve second) :
    source.read first = source.read second := by
  unfold Source.read ResponseFile.read FileSystem.read
  rw [hresolve]

theorem leads_congr {source : Source} {first second next : String}
    (hresolve : source.files.resolve first = source.files.resolve second)
    (hleads : source.Leads first next) : source.Leads second next := by
  obtain ⟨tokens, hread, hrefers⟩ := hleads
  exact ⟨tokens, read_congr hresolve ▸ hread, hrefers⟩

def places (source : Source) : List (Except AccessError Place) :=
  source.files.nodes.map fun node => .ok node.1

theorem place_mem_of_nodeAt {fs : FileSystem} {place : Place} {content : List UInt8}
    (hnode : fs.nodeAt place = some (.file content)) : ∃ node ∈ fs.nodes, node.1 = place := by
  unfold FileSystem.nodeAt at hnode
  cases hlookup : fs.nodes.lookup place with
  | some node =>
      obtain ⟨before, later, hnodes, -⟩ := List.lookup_eq_some_iff.mp hlookup
      exact ⟨(place, node), by simp [hnodes], rfl⟩
  | none =>
      -- what is only on the way to a node is a directory
      rw [hlookup] at hnode
      dsimp only at hnode
      split at hnode
      · simp at hnode
      · contradiction

theorem resolve_mem_places {source : Source} {path : String} {tokens : List String}
    (hread : source.read path = .ok tokens) :
    source.files.resolve path ∈ source.places := by
  obtain ⟨content, hcontent⟩ := read_file hread
  obtain ⟨place, hplace, hnode⟩ := FileSystem.read_eq_ok_iff.mp hcontent
  obtain ⟨node, hmem, rfl⟩ := place_mem_of_nodeAt hnode
  exact List.mem_map.mpr ⟨node, hmem, hplace.symm⟩

end Source

/-! ### Trails of open files -/

/-- The tokens that are read while some files are open, the last one first. -/
inductive Trail (source : Source) (arguments : List String) :
    List String → List String → Prop
  | start : Trail source arguments arguments []
  | into {current tokens : List String} {path : String} {trail : List String} :
      Trail source arguments current trail → source.Refers current path →
        source.read path = .ok tokens → Trail source arguments tokens (path :: trail)

namespace Trail

variable {source : Source} {arguments current trail : List String} {path other : String}

/-- Every open file leads to what is referred to now. -/
theorem transGen_of_mem (htrail : Trail source arguments current trail)
    (hrefers : source.Refers current path) (hmem : other ∈ trail) :
    Relation.TransGen source.Leads other path := by
  induction htrail generalizing path with
  | start => cases hmem
  | into hbefore hopened hread ih =>
      have hleads : source.Leads _ path := ⟨_, hread, hrefers⟩
      rcases List.mem_cons.mp hmem with rfl | hearlier
      · exact .single hleads
      · exact .tail (ih hopened hearlier) hleads

theorem reachable (htrail : Trail source arguments current trail)
    (hrefers : source.Refers current path) : source.Reachable arguments path := by
  induction htrail generalizing path with
  | start => exact ⟨path, hrefers, .refl⟩
  | into hbefore hopened hread ih =>
      obtain ⟨first, hfirst, hleads⟩ := ih hopened
      exact ⟨first, hfirst, .tail hleads ⟨_, hread, hrefers⟩⟩

/-- Without cycles no file is opened twice, not even by another path. -/
theorem nodup_resolve (hacyclic : source.Acyclic arguments)
    (htrail : Trail source arguments current trail) :
    (trail.map source.files.resolve).Nodup := by
  induction htrail with
  | start => exact List.nodup_nil
  | @into current tokens path trail hbefore hopened hread ih =>
      rw [List.map_cons, List.nodup_cons]
      refine ⟨?_, ih⟩
      intro hmem
      obtain ⟨earlier, hearlier, hresolve⟩ := List.mem_map.mp hmem
      obtain ⟨next, hnext, hrest⟩ :=
        Relation.TransGen.head'_iff.mp (hbefore.transGen_of_mem hopened hearlier)
      have hback : source.Leads path next := Source.leads_congr hresolve hnext
      exact hacyclic path (hbefore.reachable hopened) (.head' hback hrest)

theorem resolve_mem_places (htrail : Trail source arguments current trail)
    (hmem : other ∈ trail) : source.files.resolve other ∈ source.places := by
  induction htrail with
  | start => cases hmem
  | into hbefore hopened hread ih =>
      rcases List.mem_cons.mp hmem with rfl | hearlier
      · exact Source.resolve_mem_places hread
      · exact ih hearlier

theorem length_le_size (hacyclic : source.Acyclic arguments)
    (htrail : Trail source arguments current trail) : trail.length ≤ source.files.size := by
  have hsubset : trail.map source.files.resolve ⊆ source.places := by
    intro resolved hresolved
    obtain ⟨path, hpath, rfl⟩ := List.mem_map.mp hresolved
    exact htrail.resolve_mem_places hpath
  have hlength := ((htrail.nodup_resolve hacyclic).subperm hsubset).length_le
  simpa [Source.places, FileSystem.size] using hlength

end Trail

/-! ### Expansions without a cycle -/

theorem Trail.failure_notMem_eventsWithin {source : Source} {arguments current trail : List String}
    (hacyclic : source.Acyclic arguments) (hreadable : source.AllReadable arguments)
    (htrail : Trail source arguments current trail) {depth : Nat}
    (hdepth : source.files.size ≤ trail.length + depth) (error : ArgumentError) :
    Event.failure error ∉ eventsWithin source depth current := by
  intro hmem
  induction depth generalizing current trail with
  | zero =>
      obtain ⟨path, hrefers, ⟨-, hunread⟩ | ⟨tokens, hread, -⟩⟩ := failure_mem_eventsOf hmem
      · obtain ⟨tokens, hread⟩ := hreadable path (htrail.reachable hrefers)
        exact hunread tokens hread
      · have hlength := (htrail.into hrefers hread).length_le_size hacyclic
        rw [List.length_cons] at hlength
        omega
  | succ depth ih =>
      obtain ⟨path, hrefers, ⟨-, hunread⟩ | ⟨tokens, hread, hinside⟩⟩ :=
        failure_mem_eventsOf hmem
      · obtain ⟨tokens, hread⟩ := hreadable path (htrail.reachable hrefers)
        exact hunread tokens hread
      · apply ih (htrail.into hrefers hread) _ hinside
        rw [List.length_cons]
        omega

theorem Source.size_le_depth (source : Source) : source.files.size ≤ source.depth := by
  unfold depth
  omega

/-- Nothing stops an expansion but a cycle or a file that cannot be read. -/
theorem Source.Acyclic.failure_notMem_events {source : Source} {arguments : List String}
    (hacyclic : source.Acyclic arguments) (hreadable : source.AllReadable arguments)
    (error : ArgumentError) : Event.failure error ∉ events source arguments := by
  apply Trail.start.failure_notMem_eventsWithin hacyclic hreadable
  simpa using source.size_le_depth

end CommandLine.Expansion
