import CommandLine.Proofs.Parse.Inlining
import CommandLine.Proofs.Parse.Spelling

/-!
# Spellings of one occurrence

An occurrence of a named argument can be written with either mark, by its long name or by a short
one that leads to it, and with its value behind a colon or, if it begins with a sign, directly.
These are all the ways there are, and a parse cannot tell them apart: what it does with the token
depends on the argument and the value alone.
-/

namespace CommandLine

/-! ### Spellings -/

/-- A name by which an argument is found: its long one, or a short one that is not the long name of
another argument. -/
inductive Table.Calls (t : Table) (d : Declaration) : String → Prop
  | long : Calls t d d.long
  | short {name : String} :
      d.short = some name → (∀ other ∈ t.named, other.long = name → other = d) → Calls t d name

/-- The ways to write an occurrence of an argument with a value, or without one. -/
inductive Table.Spells (t : Table) (d : Declaration) : Option String → String → Prop
  | bare {mark name : String} :
      Token.IsMark mark → t.Calls d name → Spells t d none (mark ++ name)
  | assigned {mark name value : String} :
      Token.IsMark mark → t.Calls d name → Spells t d (some value) (mark ++ name ++ ":" ++ value)
  | signed {mark name value : String} :
      Token.IsMark mark → t.Calls d name → Token.IsSigned value.toList →
        Spells t d (some value) (mark ++ name ++ value)

namespace Table

theorem WellNamed.calls_iff {t : Table} (hnamed : t.WellNamed) {d : Declaration}
    (hd : d ∈ t.named) {name : String} : t.Calls d name ↔ t.find name = some d := by
  constructor
  · intro hcalls
    cases hcalls with
    | long => exact find_long_of_nodup hnamed.longNames hd
    | short hshort hother => exact (hnamed.find_short_iff hd hshort).mpr hother
  · intro hfind
    rcases answersTo_of_find hfind with rfl | hshort
    · exact .long
    · exact .short hshort ((hnamed.find_short_iff hd hshort).mp hfind)

/-- Names by which the same argument is found lead to the same place. -/
theorem WellNamed.exists_position {t : Table} (hnamed : t.WellNamed) {first second : String}
    {d : Declaration} (hfirst : t.find first = some d) (hsecond : t.find second = some d) :
    ∃ position, t.position first = some position ∧ t.position second = some position := by
  obtain ⟨i, hi, hd⟩ := Option.bind_eq_some_iff.mp hfirst
  obtain ⟨j, hj, hsame⟩ := Option.bind_eq_some_iff.mp hsecond
  have hall : t.all.Nodup := .of_map _ hnamed.longNames
  have hnodup : t.named.Nodup := hall.sublist (List.sublist_append_left _ _)
  have hlt : i < t.named.length := (List.getElem?_eq_some_iff.mp hd).1
  have hij : i = j := (List.getElem?_inj hlt hnodup).mp (hd.trans hsame.symm)
  exact ⟨i, hi, hij ▸ hj⟩

theorem WellNamed.isSeparator_eq_false {t : Table} (hnamed : t.WellNamed) {d : Declaration}
    (hd : d ∈ t.named) {name : String} (hcalls : t.Calls d name) :
    ∀ c ∈ name.toList, Token.isSeparator c = false := by
  have hvalid := hnamed.validNames d (List.mem_append_left _ hd) name
  have hanswers : d.answersTo name = true := by
    rw [Declaration.answersTo_iff]
    cases hcalls with
    | long => exact .inl rfl
    | short hshort _ => exact .inr hshort
  exact NameFault.isSeparator_eq_false (nameError?_eq_none_iff.mp (hvalid hanswers))

/-- The spellings of an occurrence are the options that stand for it. -/
theorem WellNamed.spells_iff {t : Table} (hnamed : t.WellNamed) {d : Declaration}
    (hd : d ∈ t.named) {value : Option String} {written : String} (responseFiles : Bool) :
    t.Spells d value written ↔
      ∃ name, Token.classify responseFiles written = some (.named written name value) ∧
        t.find name = some d := by
  constructor
  · intro hspells
    cases hspells with
    | bare hmark hcalls =>
        have hname := hnamed.isSeparator_eq_false hd hcalls
        exact ⟨_, Token.classify_bare hmark hname, (hnamed.calls_iff hd).mp hcalls⟩
    | assigned hmark hcalls =>
        have hname := hnamed.isSeparator_eq_false hd hcalls
        exact ⟨_, Token.classify_assigned hmark hname _, (hnamed.calls_iff hd).mp hcalls⟩
    | signed hmark hcalls hsigned =>
        have hname := hnamed.isSeparator_eq_false hd hcalls
        exact ⟨_, Token.classify_signed hmark hname hsigned, (hnamed.calls_iff hd).mp hcalls⟩
  · rintro ⟨name, hclassify, hfind⟩
    have hcalls := (hnamed.calls_iff hd).mpr hfind
    obtain ⟨mark, body, hmark, rfl, hsplit⟩ := Token.exists_mark_of_classify hclassify
    rcases Token.splitBody_cases hsplit with
      ⟨hvalue, hbody⟩ | ⟨text, hvalue, hbody⟩ | ⟨text, hvalue, hsigned, hbody⟩
    · obtain rfl := Option.map_eq_none_iff.mp hvalue
      rw [String.toList_inj.mp hbody]
      exact .bare hmark hcalls
    · obtain ⟨value, rfl, rfl⟩ := Option.map_eq_some_iff.mp hvalue
      have hassigned : body = name ++ ":" ++ value := by
        apply String.toList_inj.mp
        simpa using hbody
      rw [hassigned, ← String.append_assoc, ← String.append_assoc]
      exact .assigned hmark hcalls
    · obtain ⟨value, rfl, rfl⟩ := Option.map_eq_some_iff.mp hvalue
      have hdirect : body = name ++ value := by
        apply String.toList_inj.mp
        simpa using hbody
      rw [hdirect, ← String.append_assoc]
      exact .signed hmark hcalls hsigned

end Table

/-! ### Parsing -/

namespace State

/-- What an option does to a state depends on the place of its argument and on its value alone. -/
theorem takeToken_of_position {t : Table} {s : State} (hfollows : s.Follows t) {position : Nat}
    {first second : String} (hfirst : t.position first = some position)
    (hsecond : t.position second = some position) (count : Nat) (written respelled : String)
    (value : Option String) :
    takeToken t s count (.named written first value) =
      takeToken t s count (.named respelled second value) := by
  obtain ⟨d, hd⟩ := Table.getElem?_named_of_position hfirst
  have hlt : position < s.held.length := by
    have hlength : s.held.length = t.all.length := by
      rw [← hfollows, List.length_map]
    have hbound := (List.getElem?_eq_some_iff.mp hd).1
    rw [hlength, Table.all, List.length_append]
    omega
  simp only [takeToken, target, hfirst, hsecond, Option.map_some,
    List.getElem?_eq_getElem hlt]

theorem Follows.takeAll {t : Table} {s next : State} {events : List Event}
    (hfollows : s.Follows t) (htake : s.takeAll t events = .ok next) : next.Follows t := by
  unfold State.takeAll at htake
  induction events generalizing s with
  | nil =>
      obtain rfl := Except.ok.inj htake
      exact hfollows
  | cons event rest ih =>
      rw [List.foldlM_cons] at htake
      cases hevent : State.take t s event with
      | error error => simp [hevent, bind, Except.bind] at htake
      | ok middle =>
          rw [hevent] at htake
          cases event with
          | failure error => simp [State.take] at hevent
          | token count token => exact ih (hfollows.takeToken hevent) htake

/-- Events that do the same in every state can stand for each other anywhere. -/
theorem takeAll_replace {t : Table} {s : State} (hfollows : s.Follows t) {first second : Event}
    (hsame : ∀ state : State, state.Follows t → take t state first = take t state second)
    (before later : List Event) :
    s.takeAll t (before ++ first :: later) = s.takeAll t (before ++ second :: later) := by
  unfold State.takeAll
  rw [List.foldlM_append, List.foldlM_append]
  cases hbefore : before.foldlM (take t) s with
  | error error => rfl
  | ok state =>
      have hstate : state.Follows t := hfollows.takeAll hbefore
      simp only [List.foldlM_cons, hsame state hstate, bind, Except.bind]

end State

/-- An argument that is no reference contributes one event, and the others contribute the same
whatever it is. -/
theorem Expansion.exists_events_around (source : Source) (before after : List String) :
    ∃ earlier later : List Event, ∀ argument token,
      Token.classify source.enabled argument = some token → token.reference? = none →
        events source (before ++ argument :: after) =
          earlier ++ .token (before ++ argument :: after).length token :: later := by
  obtain ⟨inside, hinside⟩ := eventsWithin_eq_eventsOf source source.depth
  let count := before.length + (after.length + 1)
  refine ⟨(Token.ofArguments source.enabled before).flatMap (eventsOfToken source inside count),
    (Token.ofArguments source.enabled after).flatMap (eventsOfToken source inside count), ?_⟩
  intro argument token hclassify hreference
  have hlength : (before ++ argument :: after).length = count := by
    simp [count]
  have hevents : eventsOfToken source inside count token = [.token count token] := by
    apply eventsOfToken_of_plain
    rintro path rfl
    contradiction
  unfold events
  rw [hinside, eventsOf_eq_flatMap, hlength, ofArguments_append, ofArguments_cons, hclassify]
  simp [hevents]

namespace Parser

theorem takeArguments_respelled {p : Parser} {before after : List String}
    {written respelled first second : String} {value : Option String} {position : Nat}
    (hwritten : Token.classify p.responseFiles written = some (.named written first value))
    (hrespelled :
      Token.classify p.responseFiles respelled = some (.named respelled second value))
    (hfirst : p.table.position first = some position)
    (hsecond : p.table.position second = some position) (files : FileSystem) :
    p.takeArguments files (before ++ written :: after) =
      p.takeArguments files (before ++ respelled :: after) := by
  obtain ⟨earlier, later, hevents⟩ :=
    Expansion.exists_events_around (p.source files) before after
  have hlength : (before ++ written :: after).length = (before ++ respelled :: after).length := by
    simp
  unfold takeArguments
  rw [hevents written _ hwritten rfl, hevents respelled _ hrespelled rfl, hlength]
  apply State.takeAll_replace (State.start_follows p.table)
  intro state hfollows
  exact State.takeToken_of_position hfollows hfirst hsecond _ written respelled value

/-- An option that names an argument of the table is one of the spellings of its occurrence, and a
parse ends alike with every other one in its place. -/
theorem parse_respelled {p : Parser} (hbuilt : p.table.Built) {before after : List String}
    {written name : String} {value : Option String} {d : Declaration}
    (hclassify : Token.classify p.responseFiles written = some (.named written name value))
    (hfind : p.table.find name = some d) :
    p.table.Spells d value written ∧
      ∀ respelled, p.table.Spells d value respelled → ∀ files destination,
        p.parse files (before ++ written :: after) destination =
          p.parse files (before ++ respelled :: after) destination := by
  have hnamed := hbuilt.wellNamed
  have hd : d ∈ p.table.named := Table.mem_named_of_find hfind
  refine ⟨(hnamed.spells_iff hd p.responseFiles).mpr ⟨name, hclassify, hfind⟩, ?_⟩
  intro respelled hspells files destination
  obtain ⟨other, hother, hfound⟩ := (hnamed.spells_iff hd p.responseFiles).mp hspells
  obtain ⟨position, hposition, hsame⟩ := hnamed.exists_position hfind hfound
  exact parse_eq_of_takeArguments_eq
    (takeArguments_respelled hclassify hother hposition hsame files) destination

/-- The short name with a sign, and the long name with another mark and a colon. -/
theorem copier_parses_respelled_force :
    (∃ force ∈ copier.table.named, force.long = "force" ∧
        copier.table.Spells force (some "-") "-f-" ∧
          copier.table.Spells force (some "-") "/force:-") ∧
      copier.parse moreFiles ["w", "@more", "-f-", "-target:t"] .empty =
        copier.parse moreFiles ["w", "@more", "/force:-", "-target:t"] .empty := by
  have hclassify : Token.classify copier.responseFiles "-f-" =
      some (.named "-f-" "f" (some "-")) := by decide
  have hlong : (copier.table.find "f").map Declaration.long = some "force" := by decide
  obtain ⟨force, hfind, hname⟩ := Option.map_eq_some_iff.mp hlong
  have hforce : force ∈ copier.table.named := Table.mem_named_of_find hfind
  have hspells : copier.table.Spells force (some "-") "/force:-" := by
    rw [show "/force:-" = "/" ++ force.long ++ ":" ++ "-" by rw [hname]; decide]
    exact .assigned (.inr rfl) .long
  have hsame := @parse_respelled copier copier_built ["w", "@more"] ["-target:t"] "-f-" "f"
    (some "-") force hclassify hfind
  exact ⟨⟨force, hforce, hname, hsame.1, hspells⟩, hsame.2 _ hspells moreFiles .empty⟩

end Parser

end CommandLine
