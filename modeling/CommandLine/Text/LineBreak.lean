import CommandLine.Text.LineBreak.Class

/-!
# Line break opportunities

Where a line of text may be broken, by the rules of Unicode's Standard Annex 14.  The text is read
once from left to right; what the rules need to know of the part already read is a `Situation`, and
of the part to come they look at one character beyond the next.
-/

namespace CommandLine.Text.LineBreak

namespace Class

/-- A break is forced after it. -/
def endsLine : Class → Bool
  | .mandatory | .carriageReturn | .lineFeed | .nextLine => true
  | _ => false

/-- Belongs to the character before it, where there is one to belong to. -/
def attaches : Class → Bool
  | .combiningMark | .joiner => true
  | _ => false

/-- Nothing can belong to it. -/
def isolates : Class → Bool
  | .space | .zeroWidthSpace => true
  | c => c.endsLine

def isOpening : Class → Bool
  | .opening | .wideOpening => true
  | _ => false

def isClosing : Class → Bool
  | .closing | .closingParenthesis => true
  | _ => false

def isQuotation : Class → Bool
  | .quotation | .initialQuotation | .finalQuotation => true
  | _ => false

/-- A quotation can begin after it. -/
def leadsQuotation : Class → Bool
  | .opening | .wideOpening | .glue | .space | .zeroWidthSpace => true
  | c => c.endsLine || c.isQuotation

/-- A quotation can end before it. -/
def trailsQuotation : Class → Bool
  | .closing | .closingParenthesis | .exclamation | .infixSeparator | .symbol | .glue
  | .wordJoiner | .space | .zeroWidthSpace => true
  | c => c.endsLine || c.isQuotation

def isLetter : Class → Bool
  | .letter | .hebrewLetter | .placeholder => true
  | _ => false

def isIdeographic : Class → Bool
  | .ideographic | .emojiBase | .emojiModifier | .reservedEmoji => true
  | _ => false

/-- Begins a syllable of a Brahmic script. -/
def beginsSyllable : Class → Bool
  | .aksara | .aksaraStart | .placeholder => true
  | _ => false

def isKorean : Class → Bool
  | .leadingJamo | .vowelJamo | .trailingJamo | .openSyllable | .closedSyllable => true
  | _ => false

def isAffix : Class → Bool
  | .prefixNumeric | .postfixNumeric => true
  | _ => false

end Class

structure Situation where
  /-- The last character, not counting marks that belong to it. -/
  last : Class
  /-- The last character other than a space. -/
  base : Class
  /-- The last character is a hyphen, or a character like it, after a Hebrew letter. -/
  afterHebrew : Bool
  /-- The last character other than a space is a mark that opens a quotation. -/
  quoting : Bool
  /-- The last character is a virama in a syllable that has begun. -/
  conjoining : Bool
  /-- The last character is a regional indicator that still lacks its partner. -/
  pairable : Bool
  /-- The last character is a dotted circle that makes a pair with the one before it. -/
  paired : Bool
  /-- The text so far ends in a zero width joiner. -/
  joined : Bool

namespace Situation

/-- Rules 25 to 28 and 23 to 24, on two neighbours that are numbers, letters, ideographs or parts
of a Korean syllable. -/
def keepsTogether (last next : Class) : Bool :=
  last.isLetter && next == .numeric ||
  last == .numeric && next.isLetter ||
  last == .prefixNumeric && next.isIdeographic ||
  last.isIdeographic && next == .postfixNumeric ||
  last.isAffix && next.isLetter ||
  last.isLetter && next.isAffix ||
  (last.isClosing || last == .numeric) && next.isAffix ||
  last.isAffix && next.isOpening ||
  (last.isAffix || last == .hyphen || last == .infixSeparator || last == .numeric ||
    last == .symbol) && next == .numeric ||
  last == .leadingJamo &&
    (next == .leadingJamo || next == .vowelJamo || next == .openSyllable ||
      next == .closedSyllable) ||
  (last == .vowelJamo || last == .openSyllable) && (next == .vowelJamo || next == .trailingJamo) ||
  (last == .trailingJamo || last == .closedSyllable) && next == .trailingJamo ||
  last.isKorean && next == .postfixNumeric ||
  last == .prefixNumeric && next.isKorean ||
  last.isLetter && next.isLetter ||
  last == .infixSeparator && next.isLetter ||
  (last.isLetter || last == .numeric) && next == .opening ||
  last == .closingParenthesis && (next.isLetter || next == .numeric)

/-- Rule 28a, on the syllables of Brahmic scripts. -/
def sharesSyllable (s : Situation) (next : Class) (after : Option Class) : Bool :=
  s.last == .aksaraPrebase && next.beginsSyllable ||
  s.last.beginsSyllable && (next == .virama || next == .viramaFinal) ||
  s.conjoining && (next == .aksara || next == .placeholder) ||
  s.last.beginsSyllable && next.beginsSyllable && after == some .viramaFinal

/-- Whether a break is allowed before a character that does not belong to the one before it; a mark
without a character to belong to counts as a letter. -/
def allowsPlain (s : Situation) (next : Class) (after : Option Class) : Bool :=
  if next == .wordJoiner || s.last == .wordJoiner then false
  else if s.last == .glue then false
  else if next == .glue && !(s.last == .space || s.last == .breakAfter || s.last == .hyphen) then
    false
  else if next.isClosing || next == .exclamation || next == .infixSeparator || next == .symbol then
    false
  else if s.base.isOpening then false
  else if s.quoting then false
  else if next == .finalQuotation && after.all Class.trailsQuotation then false
  else if s.base.isClosing && next == .nonStarter then false
  else if s.base == .bothSides && next == .bothSides then false
  else if s.last == .space then true
  else if next.isQuotation || s.last.isQuotation then false
  else if next == .contingent || s.last == .contingent then true
  else if next == .breakAfter || next == .hyphen || next == .nonStarter ||
      s.last == .breakBefore then
    false
  else if s.afterHebrew then false
  else if s.last == .symbol && next == .hebrewLetter then false
  else if next == .inseparable then false
  else if s.pairable && next == .regionalIndicator then false
  else if (s.last == .emojiBase || s.last == .reservedEmoji) && next == .emojiModifier then false
  else !(keepsTogether s.last next || s.sharesSyllable next after)

/-- Whether a pair of dotted circles holds on to what follows it: marks, the final virama of its
syllable and letters, and nothing else, not even a space or a closing bracket. -/
def pairHolds (next : Class) : Bool :=
  next.attaches || next == .letter || next == .hebrewLetter || next == .viramaFinal

/-- Whether a break is allowed before a character of class `next`; `after` is the class of the one
after it and the marks that belong to it, if there is one. -/
def allows (s : Situation) (next : Class) (after : Option Class) : Bool :=
  if s.last == .carriageReturn && next == .lineFeed then false
  else if s.last.endsLine then true
  else if s.paired then !s.joined && !pairHolds next
  else if next.endsLine || next == .space || next == .zeroWidthSpace then false
  else if s.base == .zeroWidthSpace then true
  else if s.joined then false
  else if next.attaches then
    if s.last.isolates then s.allowsPlain .letter after else false
  else s.allowsPlain next after

/-- The situation after a character that begins the text, or stands apart from the one before it. -/
def start (c : Class) : Situation where
  last := if c.attaches then .letter else c
  base := if c.attaches then .letter else c
  afterHebrew := false
  quoting := c == .initialQuotation
  conjoining := false
  pairable := c == .regionalIndicator
  paired := false
  joined := c == .joiner

def advance (s : Situation) (next : Class) : Situation :=
  if next.attaches && !s.last.isolates then { s with joined := next == .joiner }
  else
    { start next with
      base := if next == .space then s.base else (start next).base
      afterHebrew := s.last == .hebrewLetter && (next == .hyphen || next == .breakAfter)
      quoting :=
        if next == .space then s.quoting
        else next == .initialQuotation && s.last.leadsQuotation
      conjoining := next == .virama && s.last.beginsSyllable && !s.paired
      pairable := next == .regionalIndicator && !s.pairable
      paired := next == .placeholder && s.last == .placeholder && !s.paired }

end Situation

/-- The class after a character and the marks that belong to it; nothing is asked of what comes
after a mark. -/
def classAfter (c : Class) (rest : List Class) : Option Class :=
  if c.attaches then none else rest.find? (!·.attaches)

/-- For each character from the second on, whether a break is allowed before it. -/
def opportunitiesFrom (s : Situation) : List Class → List Bool
  | [] => []
  | next :: rest =>
      s.allows next (classAfter next rest) :: opportunitiesFrom (s.advance next) rest

/-- For each character, whether a break is allowed after it.  At the end of the text it always
is. -/
def opportunities (cs : List Char) : List Bool :=
  match cs.map classOf with
  | [] => []
  | first :: rest => opportunitiesFrom (.start first) rest ++ [true]

end CommandLine.Text.LineBreak
