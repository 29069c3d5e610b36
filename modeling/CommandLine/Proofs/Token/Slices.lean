import CommandLine.Proofs.Text.Boundaries
import CommandLine.Proofs.Token.Parts

/-!
# Tokens as slices of their arguments

The arguments of a command line are handed out one token at a time, and each token consists of
slices of its argument, which are found by a search among the bytes.  A slice that began or ended
inside of a character would be an error; there is none, and the slices are the bytes of the tokens
that the characters give.
-/

namespace CommandLine.Token

open Text.Utf8 (encode encodeChar cut?)

def bytes (s : String) : List UInt8 :=
  encode s.toList

/-- A token whose parts are slices of an argument. -/
inductive Slices
  | named (written name : List UInt8) (value : Option (List UInt8))
  | responseFile (path : List UInt8)
  | positional (value : List UInt8)
  deriving DecidableEq, Repr

def slices : Token → Slices
  | .named written name value => .named (bytes written) (bytes name) (value.map bytes)
  | .responseFile path => .responseFile (bytes path)
  | .positional value => .positional (bytes value)

/-! ### Slicing one argument -/

def isSeparatorByte (byte : UInt8) : Bool :=
  byte = 0x3A || byte = 0x2B || byte = 0x2D

/-- The name and the value of an option, cut at the first separator among its bytes. -/
def sliceOption (argument : List UInt8) : Option (List UInt8 × Option (List UInt8)) := do
  let (_, body) ← cut? argument 1
  match body.findIdx? isSeparatorByte with
  | none => return (body, none)
  | some stop =>
      let (name, rest) ← cut? body stop
      if rest.head? = some 0x3A then
        let (_, value) ← cut? rest 1
        return (name, some value)
      else return (name, some rest)

/-- Reads an argument that is not empty; its first byte decides how. -/
def sliceArgument (responseFiles : Bool) (argument : List UInt8) : Option Slices :=
  if argument.head? = some 0x2D || argument.head? = some 0x2F then do
    let (name, value) ← sliceOption argument
    return .named argument name value
  else if argument.head? = some 0x40 && responseFiles then do
    let (_, path) ← cut? argument 1
    return .responseFile path
  else return .positional argument

/-! ### Handing out tokens -/

/-- One call: the token of the first argument that is not empty, if there is one, and the arguments
behind it. -/
def handOut (responseFiles : Bool) :
    List (List UInt8) → Option (Option Slices × List (List UInt8))
  | [] => return (none, [])
  | argument :: rest =>
      if argument = [] then handOut responseFiles rest
      else do
        let token ← sliceArgument responseFiles argument
        return (some token, rest)

/-- What calls return one after another, up to the first that returns nothing. -/
inductive HandsOut (responseFiles : Bool) : List (List UInt8) → List Slices → Prop
  | nothing {arguments rest : List (List UInt8)} :
      handOut responseFiles arguments = some (none, rest) → HandsOut responseFiles arguments []
  | next {arguments rest : List (List UInt8)} {token : Slices} {tokens : List Slices} :
      handOut responseFiles arguments = some (some token, rest) →
        HandsOut responseFiles rest tokens → HandsOut responseFiles arguments (token :: tokens)

/-! ### Separators among bytes -/

theorem isSeparator_cases {c : Char} (hc : isSeparator c = true) : c = ':' ∨ c = '+' ∨ c = '-' := by
  simpa [isSeparator, or_assoc] using hc

theorem encodeChar_separator {c : Char} (hc : isSeparator c = true) :
    ∃ byte, encodeChar c = [byte] ∧ isSeparatorByte byte = true ∧ (byte = 0x3A ↔ c = ':') := by
  rcases isSeparator_cases hc with rfl | rfl | rfl
  · exact ⟨0x3A, by decide⟩
  · exact ⟨0x2B, by decide⟩
  · exact ⟨0x2D, by decide⟩

theorem isSeparatorByte_eq_false {c : Char} (hc : isSeparator c = false) {byte : UInt8}
    (hbyte : byte ∈ encodeChar c) : isSeparatorByte byte = false := by
  by_cases hascii : c.toNat < 0x80
  · rw [Text.Utf8.encodeChar_of_ascii hascii, List.mem_singleton] at hbyte
    have hvalue : byte.toNat = c.toNat := (Text.Utf8.eq_ofNat_iff (by omega)).mp hbyte
    have hother : ∀ d : Char, isSeparator d = true → byte.toNat ≠ d.toNat := by
      rintro d hd hsame
      rw [hvalue] at hsame
      rw [Char.toNat_inj.mp hsame, hd] at hc
      contradiction
    have hcolon := hother ':' rfl
    have hplus := hother '+' rfl
    have hminus := hother '-' rfl
    simp only [isSeparatorByte, ← UInt8.toNat_inj, Bool.or_eq_false_iff, decide_eq_false_iff_not]
    exact ⟨⟨hcolon, hplus⟩, hminus⟩
  · have hlarge := Text.Utf8.le_toNat_of_mem_encodeChar (by omega) hbyte
    have hother : ∀ n : UInt8, n.toNat < 0x80 → byte ≠ n := by
      rintro n hn rfl
      omega
    simp [isSeparatorByte, hother]

theorem findIdx?_name {name : List Char} (hfree : ∀ c ∈ name, isSeparator c = false) :
    (encode name).findIdx? isSeparatorByte = none := by
  rw [List.findIdx?_eq_none_iff]
  intro byte hbyte
  obtain ⟨c, hc, hmem⟩ := List.mem_flatMap.mp hbyte
  exact isSeparatorByte_eq_false (hfree c hc) hmem

theorem findIdx?_separator {name rest : List Char} {c : Char}
    (hfree : ∀ other ∈ name, isSeparator other = false) (hc : isSeparator c = true) :
    (encode (name ++ c :: rest)).findIdx? isSeparatorByte = some (encode name).length := by
  obtain ⟨byte, hencode, hbyte, -⟩ := encodeChar_separator hc
  rw [Text.Utf8.encode_append, Text.Utf8.encode_cons, hencode, List.findIdx?_append,
    findIdx?_name hfree, List.singleton_append, List.findIdx?_cons, hbyte]
  simp

/-! ### Slices of one argument -/

theorem cut?_first {first : Char} (hfirst : first.toNat < 0x80) (rest : List Char) :
    cut? (encode (first :: rest)) 1 = some (encode [first], encode rest) := by
  have hlength : (encode [first]).length = 1 := by
    simp [encode, Text.Utf8.encodeChar_of_ascii hfirst]
  rw [← hlength, ← List.singleton_append]
  exact Text.Utf8.cut?_encode_append [first] rest

/-- What a body is cut into at a separator in its bytes. -/
theorem sliceOption_separated {mark c : Char} (hmark : mark.toNat < 0x80) {name rest : List Char}
    (hfree : ∀ other ∈ name, isSeparator other = false) (hc : isSeparator c = true) :
    sliceOption (encode (mark :: (name ++ c :: rest))) =
      some (encode name, some (encode (if c = ':' then rest else c :: rest))) := by
  obtain ⟨byte, hencode, -, hcolon⟩ := encodeChar_separator hc
  have hhead : (encode (c :: rest)).head? = some byte := by
    rw [Text.Utf8.encode_cons, hencode]
    rfl
  unfold sliceOption
  rw [cut?_first hmark]
  simp only [Option.bind_eq_bind, Option.bind_some, findIdx?_separator hfree hc,
    Text.Utf8.cut?_encode_append, hhead, Option.some.injEq, hcolon]
  by_cases hc' : c = ':'
  · subst c
    rw [if_pos rfl, if_pos rfl, cut?_first (by decide)]
    rfl
  · rw [if_neg hc', if_neg hc']
    rfl

theorem sliceOption_eq {mark : Char} (hmark : mark.toNat < 0x80) (body : List Char) :
    sliceOption (encode (mark :: body)) =
      some (encode (splitBody body).1, (splitBody body).2.map encode) := by
  rcases hsplit : splitBody body with ⟨name, value⟩
  have hfree := splitBody_free hsplit
  rcases splitBody_cases hsplit with ⟨rfl, rfl⟩ | ⟨text, rfl, rfl⟩ | ⟨text, rfl, hsigned, rfl⟩
  · unfold sliceOption
    rw [cut?_first hmark]
    simp only [Option.bind_eq_bind, Option.bind_some, findIdx?_name hfree]
    rfl
  · exact sliceOption_separated hmark hfree rfl
  · cases text with
    | nil => simp [IsSigned] at hsigned
    | cons c rest =>
        have hc : c = '+' ∨ c = '-' := by simpa [IsSigned] using hsigned
        rcases hc with rfl | rfl
        · exact sliceOption_separated hmark hfree rfl
        · exact sliceOption_separated hmark hfree rfl

theorem head?_encode_eq_iff {first c : Char} (hc : c.toNat < 0x80) (rest : List Char) :
    (encode (first :: rest)).head? = some (UInt8.ofNat c.toNat) ↔ first = c := by
  have hbyte : (UInt8.ofNat c.toNat).toNat = c.toNat := (Text.Utf8.eq_ofNat_iff (by omega)).mp rfl
  rw [Text.Utf8.encode_cons]
  by_cases hfirst : first.toNat < 0x80
  · rw [Text.Utf8.encodeChar_of_ascii hfirst, List.singleton_append, List.head?_cons,
      Option.some.injEq, ← UInt8.toNat_inj, hbyte, (Text.Utf8.eq_ofNat_iff (by omega)).mp rfl,
      Char.toNat_inj]
  · refine iff_of_false ?_ ?_
    · intro hhead
      have hmem : UInt8.ofNat c.toNat ∈ encodeChar first := by
        rw [Text.Utf8.encodeChar_eq, List.cons_append, List.head?_cons, Option.some.injEq] at hhead
        rw [Text.Utf8.encodeChar_eq, hhead]
        exact List.mem_cons_self
      have hlarge := Text.Utf8.le_toNat_of_mem_encodeChar (by omega) hmem
      omega
    · rintro rfl
      exact hfirst hc

/-- The bytes of an argument are sliced into those of its token. -/
theorem sliceArgument_bytes {responseFiles : Bool} {argument : String} {token : Token}
    (hclassify : classify responseFiles argument = some token) :
    sliceArgument responseFiles (bytes argument) = some token.slices := by
  unfold classify at hclassify
  split at hclassify
  · contradiction
  · next first rest hargument =>
      have hbytes : bytes argument = encode (first :: rest) := congrArg encode hargument
      have hdash : (encode (first :: rest)).head? = some 0x2D ↔ first = '-' :=
        head?_encode_eq_iff (c := '-') (by decide) rest
      have hslash : (encode (first :: rest)).head? = some 0x2F ↔ first = '/' :=
        head?_encode_eq_iff (c := '/') (by decide) rest
      have hat : (encode (first :: rest)).head? = some 0x40 ↔ first = '@' :=
        head?_encode_eq_iff (c := '@') (by decide) rest
      unfold sliceArgument
      simp only [hbytes, hdash, hslash, hat]
      split at hclassify
      · next hmark =>
          have hascii : first.toNat < 0x80 := by
            have hcases : first = '-' ∨ first = '/' := by simpa using hmark
            rcases hcases with rfl | rfl <;> decide
          have htoken : token = .named argument (String.ofList (splitBody rest).1)
              ((splitBody rest).2.map String.ofList) := by
            simpa [splitOption, hargument] using hclassify.symm
          rw [if_pos hmark, sliceOption_eq hascii, htoken]
          simp [slices, bytes, hargument, Function.comp_def]
      · next hmark =>
          rw [if_neg hmark]
          split at hclassify
          · next hreference =>
              have hfirst : first = '@' := by
                simp only [Bool.and_eq_true, decide_eq_true_eq] at hreference
                exact hreference.1
              rw [if_pos hreference, cut?_first (by rw [hfirst]; decide)]
              obtain rfl := Option.some.inj hclassify
              simp [slices, bytes]
          · next hreference =>
              rw [if_neg hreference]
              obtain rfl := Option.some.inj hclassify
              simp [slices, bytes, hargument]

/-! ### All arguments -/

theorem HandsOut.unique {responseFiles : Bool} {arguments : List (List UInt8)}
    {tokens others : List Slices} (htokens : HandsOut responseFiles arguments tokens)
    (hothers : HandsOut responseFiles arguments others) : tokens = others := by
  induction htokens generalizing others with
  | nothing hcall =>
      cases hothers with
      | nothing hother => rfl
      | next hother hrest =>
          rw [hcall] at hother
          simp at hother
  | next hcall _ ih =>
      cases hothers with
      | nothing hother =>
          rw [hcall] at hother
          simp at hother
      | next hother hrest =>
          rw [hcall] at hother
          obtain ⟨rfl, rfl⟩ := by simpa using hother
          rw [ih hrest]

/-- An empty argument in front makes no difference. -/
theorem HandsOut.of_empty {responseFiles : Bool} {arguments : List (List UInt8)}
    {tokens : List Slices} (htokens : HandsOut responseFiles arguments tokens) :
    HandsOut responseFiles ([] :: arguments) tokens := by
  cases htokens with
  | nothing hcall => exact .nothing hcall
  | next hcall hrest => exact .next hcall hrest

theorem bytes_eq_nil_iff {s : String} : bytes s = [] ↔ s = "" := by
  unfold bytes
  rw [← String.toList_eq_nil_iff]
  cases s.toList with
  | nil => simp [encode]
  | cons c cs => simp [Text.Utf8.encode_cons, Text.Utf8.encodeChar_eq]

theorem handsOut_ofArguments (responseFiles : Bool) (arguments : List String) :
    HandsOut responseFiles (arguments.map bytes)
      ((ofArguments responseFiles arguments).map slices) := by
  induction arguments with
  | nil => exact .nothing rfl
  | cons argument rest ih =>
      unfold ofArguments at ih ⊢
      cases hclassify : classify responseFiles argument with
      | none =>
          obtain rfl := classify_eq_none_iff.mp hclassify
          rw [List.filterMap_cons_none hclassify]
          exact ih.of_empty
      | some token =>
          have hne : bytes argument ≠ [] := by
            rw [ne_eq, bytes_eq_nil_iff, ← classify_eq_none_iff, hclassify]
            exact Option.some_ne_none token
          rw [List.filterMap_cons_some hclassify]
          refine .next ?_ ih
          rw [List.map_cons, handOut, if_neg hne, sliceArgument_bytes hclassify]
          rfl

/-- Each argument that is not empty is handed out as one token, in order and in slices that never
cut a character.  An option can be put together again from its parts, and with every name that is
in order any value can be written. -/
theorem arguments_handed_out_in_slices (responseFiles : Bool) (arguments : List String) :
    (∀ tokens, HandsOut responseFiles (arguments.map bytes) tokens ↔
        tokens = (ofArguments responseFiles arguments).map slices) ∧
      (∀ tokens, List.Forall₂ (Means responseFiles) (arguments.filter (· ≠ "")) tokens ↔
        tokens = ofArguments responseFiles arguments) ∧
      (∀ written name value, .named written name value ∈ ofArguments responseFiles arguments →
        ∃ mark colon, IsMark mark ∧ (colon = true ↔ ∃ rest, written = mark ++ name ++ ":" ++ rest) ∧
          written = rebuilt mark name colon value) ∧
      ∀ name, NameFault.find? name = none → ∀ mark, IsMark mark →
        splitOption (mark ++ name) = (name, none) ∧
          ∀ value, splitOption (mark ++ name ++ ":" ++ value) = (name, some value) ∧
            (IsSigned value.toList → splitOption (mark ++ name ++ value) = (name, some value)) := by
  have hhandsOut := handsOut_ofArguments responseFiles arguments
  refine ⟨?_, fun tokens => forall₂_means_iff, ?_, ?_⟩
  · intro tokens
    constructor
    · exact fun htokens => htokens.unique hhandsOut
    · rintro rfl
      exact hhandsOut
  · intro written name value hmem
    obtain ⟨argument, -, hclassify⟩ := List.mem_filterMap.mp hmem
    cases classify_eq_some_iff.mp hclassify with
    | @option mark body _ _ hmark hsplits =>
        obtain ⟨colon, hcolon, hwritten⟩ := hsplits.rebuilt mark
        exact ⟨mark, colon, hmark, hcolon, hwritten⟩
  · exact fun name hname mark hmark => splitOption_of_valid hname hmark

theorem sized_options_handed_out_in_slices :
    HandsOut true (["", "-größe:+ü", "@größe", "größe"].map bytes)
        [.named (bytes "-größe:+ü") (bytes "größe") (some (bytes "+ü")),
          .responseFile (bytes "größe"), .positional (bytes "größe")] ∧
      (∃ mark colon, IsMark mark ∧
        (colon = true ↔ ∃ rest, "-größe:+ü" = mark ++ "größe" ++ ":" ++ rest) ∧
          "-größe:+ü" = rebuilt mark "größe" colon (some "+ü")) ∧
        NameFault.find? "größe" = none ∧
          splitOption ("/" ++ "größe" ++ "+ü") = ("größe", some "+ü") := by
  have htokens : ofArguments true ["", "-größe:+ü", "@größe", "größe"] =
      [.named "-größe:+ü" "größe" (some "+ü"), .responseFile "größe", .positional "größe"] := by
    decide
  have hvalid : NameFault.find? "größe" = none := by decide
  have hsigned : IsSigned "+ü".toList := .inl rfl
  obtain ⟨hslices, -, hrebuilt, hnames⟩ :=
    arguments_handed_out_in_slices true ["", "-größe:+ü", "@größe", "größe"]
  rw [htokens] at hslices hrebuilt
  refine ⟨(hslices _).mpr rfl, hrebuilt _ _ _ List.mem_cons_self, hvalid, ?_⟩
  exact ((hnames "größe" hvalid "/" (.inr rfl)).2 "+ü").2 hsigned

end CommandLine.Token
