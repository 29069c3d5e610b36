import CommandLine.Proofs.Parse.Binding
import CommandLine.Proofs.Parse.Inlining
import CommandLine.Proofs.Value.Equality

/-!
# The books of a parse

Binding trusts the mark that says whether an argument has been seen, and writes the items that it
holds without a look at the occurrences.  The books are in order after every prefix of a command
line that has been taken: each argument of the table has its entry at its own place, the mark tells
whether there was an occurrence, there is one item for each of them, and those of a unique argument
are pairwise different.
-/

namespace CommandLine

/-! ### Items that clash -/

theorem Item.clashes_comm (a b : Item) : a.clashes b = b.clashes a := by
  cases a <;> cases b <;> simp [Item.clashes, BEq.comm, Value.same_comm]

/-- No two of the items clash, in whichever order they are compared. -/
def Item.Distinct (items : List Item) : Prop :=
  items.Pairwise fun first second =>
    first.clashes second = false ∧ second.clashes first = false

theorem Item.Distinct.append_singleton {items : List Item} {item : Item}
    (hdistinct : Distinct items) (hfree : items.any (·.clashes item) = false) :
    Distinct (items ++ [item]) := by
  refine List.pairwise_append.mpr ⟨hdistinct, List.pairwise_singleton _ _, ?_⟩
  intro earlier hearlier last hlast
  obtain rfl := List.mem_singleton.mp hlast
  have hclash : earlier.clashes last = false := by
    simpa using List.any_eq_false.mp hfree earlier hearlier
  exact ⟨hclash, by rw [Item.clashes_comm, hclash]⟩

/-! ### The items of unique arguments -/

/-- The occurrences of every unique argument stand for items that do not clash. -/
def Table.Distinct (t : Table) (tokens : List Token) : Prop :=
  ∀ d ∈ t.all, d.policy.unique = true → Item.Distinct (d.received (t.occurrences d tokens))

theorem Table.distinct_nil (t : Table) : t.Distinct [] :=
  fun _ _ _ => List.Pairwise.nil

theorem Table.Distinct.append_token {t : Table} (hcoherent : t.Coherent) {count : Nat}
    {earlier : List Token} {token : Token} (hdistinct : t.Distinct earlier)
    (hfault : t.fault? count earlier token = none) : t.Distinct (earlier ++ [token]) := by
  obtain ⟨found, value, hresolve, -, -, hinvalid, hrepeated⟩ :=
    Table.fault?_eq_none_iff.mp hfault
  have hfound := Table.mem_all_of_resolve hresolve
  intro d hd hunique
  rw [Table.occurrences_append, Declaration.received_append]
  by_cases hlong : found.long = d.long
  · obtain rfl := hcoherent.eq_of_long hfound hd hlong
    obtain ⟨item, hitem⟩ := Fault.read_of_invalid?_eq_none hinvalid
    rw [Table.occurrences_singleton_self hresolve, Declaration.received_singleton hitem]
    apply (hdistinct found hd hunique).append_singleton
    rw [Declaration.received_any]
    simpa [Fault.repeated?, hitem, hunique] using hrepeated
  · rw [Table.occurrences_singleton_other hresolve hlong, Declaration.received_nil,
      List.append_nil]
    exact hdistinct d hd hunique

/-! ### Entries -/

/-- What is held of an argument tells the occurrences that it has had. -/
structure Held.Accounts (h : Held) (values : List (Option String)) : Prop where
  seen_iff : h.seen = true ↔ values ≠ []
  unseen : h.seen = false → h.items = []
  single : h.seen = true → h.declaration.kind.isMultiValued = false →
    ∃ value item, values = [value] ∧ h.declaration.slot.Reads value item ∧ h.items = [item]
  multiple : h.declaration.kind.isMultiValued = true →
    List.Forall₂ h.declaration.slot.Reads values h.items
  unique : h.declaration.policy.unique = true → Item.Distinct h.items

theorem Held.after_accounts {d : Declaration} {values : List (Option String)}
    (hreadable : Binding.Readable d values)
    (hdistinct : d.policy.unique = true → Item.Distinct (d.received values)) :
    (Held.after d values).Accounts values := by
  have hreads := Binding.Readable.forall₂_received hreadable.reads
  have hseen : (Held.after d values).seen = true ↔ values ≠ [] := by
    simp [Held.after]
  refine ⟨hseen, ?_, ?_, fun _ => hreads, hdistinct⟩
  · intro hunseen
    have hvalues : values = [] := by simpa [Held.after] using hunseen
    rw [hvalues]
    rfl
  · intro hgiven hkind
    obtain ⟨value, rfl⟩ : ∃ value, values = [value] := by
      apply List.length_eq_one_iff.mp
      have hpositive := List.length_pos_iff.mpr (hseen.mp hgiven)
      have hsingle := hreadable.single hkind
      omega
    obtain ⟨item, hitem⟩ := hreadable.reads value List.mem_cons_self
    exact ⟨value, item, rfl, Slot.read_eq_ok_iff.mp hitem, Declaration.received_singleton hitem⟩

/-! ### States -/

/-- A state has an entry for every argument of the table, in the order of the table and wherever a
name leads, and each tells the occurrences of its argument among the tokens. -/
structure State.Accounts (s : State) (t : Table) (tokens : List Token) : Prop where
  parallel : s.held.map Held.declaration = t.named ++ t.positional.toList
  placed : ∀ name position, t.position name = some position →
    ∃ h, s.held[position]? = some h ∧ t.named[position]? = some h.declaration ∧
      h.declaration.answersTo name = true
  entries : ∀ h ∈ s.held, h.Accounts (t.occurrences h.declaration tokens)

theorem State.after_accounts {t : Table} (hcoherent : t.Coherent) {tokens : List Token}
    (haccepted : t.Accepted tokens) (hdistinct : t.Distinct tokens) :
    (State.after t tokens).Accounts t tokens := by
  constructor
  · simp [State.after, Held.after, Table.all, Function.comp_def]
  · intro name position hposition
    obtain ⟨d, hd⟩ := Table.getElem?_named_of_position hposition
    have hfind : t.find name = some d := by
      simp [Table.find, hposition, hd]
    have hall : t.all[position]? = some d := by
      unfold Table.all
      rw [List.getElem?_append_left (List.getElem?_eq_some_iff.mp hd).1, hd]
    refine ⟨.after d (t.occurrences d tokens), ?_, hd, ?_⟩
    · simp [State.after, hall]
    · exact Declaration.answersTo_iff.mpr (Table.answersTo_of_find hfind)
  · intro h hh
    obtain ⟨d, hd, rfl⟩ := List.mem_map.mp hh
    exact Held.after_accounts (Binding.readable_of_accepted hcoherent haccepted hd)
      (hdistinct d hd)

namespace Parser

/-- Some events at the beginning of a command line, from it or from its response files, have been
taken and led to a state. -/
def Passes (p : Parser) (files : FileSystem) (arguments : List String) (taken : List Event)
    (s : State) : Prop :=
  taken <+: Expansion.events (p.source files) arguments ∧
    (State.start p.table).takeAll p.table taken = .ok s

/-- Every state that a parse passes through accounts for the tokens taken so far. -/
theorem accounts_of_passes {p : Parser} (hbuilt : p.table.Built) {files : FileSystem}
    {arguments : List String} {taken : List Event} {s : State}
    (hpasses : p.Passes files arguments taken s) :
    s.Accounts p.table (Event.tokens taken) := by
  have hcoherent := hbuilt.coherent
  have htake := hpasses.2
  rw [← State.after_nil, State.takeAll_after hcoherent, List.nil_append,
    Fault.guarded_eq_ok_iff] at htake
  obtain ⟨hnone, hstate⟩ := htake
  obtain rfl := Except.ok.inj hstate
  have haccepted := p.table.accepted_nil.append_events hcoherent hnone
  have hdistinct := Table.firstFault?_induction
    (fun _ _ _ hbefore => Table.Distinct.append_token hcoherent hbefore) p.table.distinct_nil hnone
  exact State.after_accounts hcoherent haccepted hdistinct

/-- The events of `w`, and of what is in the response file after it. -/
def takenWithinMore : List Event :=
  [.token 3 (.positional "w"), .token 2 (.named "-define:a=b" "define" (some "a=b")),
    .token 2 (.positional "z")]

theorem copier_events_more :
    Expansion.events (copier.source moreFiles) ["w", "@more", "-target:t"] =
      takenWithinMore ++ [.token 3 (.named "-target:t" "target" (some "t"))] := by
  have htokens : Token.ofArguments (copier.source moreFiles).enabled ["w", "@more", "-target:t"] =
      [.positional "w", .responseFile "more", .named "-target:t" "target" (some "t")] := by
    decide +kernel
  have hinner : Token.ofArguments (copier.source moreFiles).enabled ["-define:a=b", "z"] =
      [.named "-define:a=b" "define" (some "a=b"), .positional "z"] := by
    decide +kernel
  have hplain : Token.Plain (copier.source moreFiles).enabled ["-define:a=b", "z"] := by
    decide +kernel
  have hdepth : (copier.source moreFiles).depth = 7 := by decide +kernel
  unfold Expansion.events
  rw [hdepth, Expansion.eventsWithin, Expansion.eventsOf_eq_flatMap, htokens,
    List.flatMap_cons, List.flatMap_cons, Expansion.eventsOfToken_of_read copier_read_more,
    Expansion.eventsWithin_of_plain hplain, hinner]
  rfl

theorem copier_passes_more :
    copier.Passes moreFiles ["w", "@more", "-target:t"] takenWithinMore
      (.after copier.table (Event.tokens takenWithinMore)) := by
  have hnone : copier.table.firstFault? [] takenWithinMore = none := by decide +kernel
  constructor
  · rw [copier_events_more]
    exact List.prefix_append _ _
  · rw [← State.after_nil, State.takeAll_after copier_built.coherent, hnone]
    rfl

/-- Before the end of the response file both values of the array of files are held, and differ,
while the target that has to be given holds nothing yet. -/
theorem copier_accounts_within_more :
    copier.Passes moreFiles ["w", "@more", "-target:t"] takenWithinMore
        (.after copier.table (Event.tokens takenWithinMore)) ∧
      (∃ files ∈ (State.after copier.table (Event.tokens takenWithinMore)).held,
        files.declaration.kind = .array ∧
          List.Forall₂ files.declaration.slot.Reads [some "w", some "z"] files.items ∧
            Item.Distinct files.items) ∧
      ∃ target ∈ (State.after copier.table (Event.tokens takenWithinMore)).held,
        target.declaration.policy.required = true ∧ target.seen = false ∧ target.items = [] := by
  have haccounts := accounts_of_passes copier_built copier_passes_more
  have hentry : ∀ d ∈ copier.table.all,
      Held.after d (copier.table.occurrences d (Event.tokens takenWithinMore)) ∈
        (State.after copier.table (Event.tokens takenWithinMore)).held :=
    fun d hd => List.mem_map_of_mem hd
  refine ⟨copier_passes_more, ?_, ?_⟩
  · obtain ⟨files, hfiles, hkind, hunique, hvalues⟩ : ∃ d ∈ copier.table.all, d.kind = .array ∧
        d.policy.unique = true ∧
          copier.table.occurrences d (Event.tokens takenWithinMore) = [some "w", some "z"] := by
      decide +kernel
    have haccount := haccounts.entries _ (hentry files hfiles)
    have hmultiple : files.kind.isMultiValued = true := by
      rw [hkind]
      rfl
    refine ⟨_, hentry files hfiles, hkind, ?_, haccount.unique hunique⟩
    rw [← hvalues]
    exact haccount.multiple hmultiple
  · obtain ⟨target, htarget, hrequired, hvalues⟩ : ∃ d ∈ copier.table.all,
        d.policy.required = true ∧
          copier.table.occurrences d (Event.tokens takenWithinMore) = [] := by
      decide +kernel
    have hunseen : (Held.after target
        (copier.table.occurrences target (Event.tokens takenWithinMore))).seen = false := by
      rw [hvalues]
      rfl
    exact ⟨_, hentry target htarget, hrequired, hunseen,
      (haccounts.entries _ (hentry target htarget)).unseen hunseen⟩

end Parser

end CommandLine
