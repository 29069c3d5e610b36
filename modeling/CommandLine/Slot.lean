import CommandLine.Value.Type

/-!
# Slots

A slot is the kind of place that an argument is bound into: a single value, an optional one, an
array, a collection or a map of pairs.  It decides how a value is read, which values a unique
argument takes for repetitions, and what becomes of the place once all values are there.

The contents of every slot are a list of items: one for a single value, none or one for an optional
one, and any number for the others, in the order of the container.
-/

namespace CommandLine

/-- What one occurrence of an argument contributes. -/
inductive Item
  | value (v : Value)
  /-- An entry of a map. -/
  | pair (name value : String)
  deriving DecidableEq, Repr

abbrev Contents := List Item

namespace Item

/-- Equal values, or entries with equal names. -/
def clashes : Item → Item → Bool
  | .value a, .value b => a.same b
  | .pair a _, .pair b _ => a == b
  | _, _ => false

/-- The order of sorted containers: values in the order of their type, entries by name. -/
def precedes (order : Value → Value → Bool) : Item → Item → Bool
  | .value a, .value b => order a b
  | .pair a _, .pair b _ => a < b
  | _, _ => false

end Item

/-- A container does not take an item. -/
structure Refusal where
  message : String
  deriving DecidableEq, Repr

/-- How a growing container takes one more item. -/
structure Container where
  append : Contents → Item → Except Refusal Contents
  /-- The type of the elements is told in descriptions of the argument. -/
  showsElement : Bool := true

namespace Container

/-- Keeps everything in the order of arrival. -/
def list : Container where
  append contents item := .ok (contents ++ [item])

/-- Adds an item unless one like it is there. -/
def addNew (contents : Contents) (item : Item) : Contents :=
  if contents.any (·.clashes item) then contents else contents ++ [item]

/-- A set in the order of first arrival. -/
def arrivalSet : Container where
  append contents item := .ok (addNew contents item)

/-- Puts an item where the order wants it; what clashes with it stays. -/
def insertSorted (order : Value → Value → Bool) (item : Item) : Contents → Contents
  | [] => [item]
  | first :: rest =>
      if item.precedes order first then item :: first :: rest
      else if first.clashes item then first :: rest
      else first :: insertSorted order item rest

/-- A set in the ascending order of the type of its elements. -/
def sortedSetBy (order : Value → Value → Bool) : Container where
  append contents item := .ok (insertSorted order item contents)

/-- A set of numbers or texts in ascending order. -/
def sortedSet : Container :=
  sortedSetBy Value.precedes

/-- Replaces the entry that clashes with an item, or adds the item at the end. -/
def replaceOrAdd (item : Item) : Contents → Contents
  | [] => [item]
  | first :: rest =>
      if first.clashes item then item :: rest else first :: replaceOrAdd item rest

/-- A map in the order in which its names first arrived. -/
def arrivalMap : Container where
  append contents item := .ok (replaceOrAdd item contents)

/-- Puts an item where the order wants it, in place of what clashes with it. -/
def replaceSorted (item : Item) : Contents → Contents
  | [] => [item]
  | first :: rest =>
      if item.precedes Value.precedes first then item :: first :: rest
      else if first.clashes item then item :: rest
      else first :: replaceSorted item rest

/-- A map in ascending order of its names. -/
def sortedMap : Container where
  append contents item := .ok (replaceSorted item contents)

/-- Appends items one by one up to the first that is refused; what was appended before stays. -/
def appendAll (c : Container) (contents : Contents) : List Item → Contents × Option Refusal
  | [] => (contents, none)
  | item :: rest =>
      match c.append contents item with
      | .ok grown => c.appendAll grown rest
      | .error refusal => (contents, some refusal)

/-- The container that holds the given items from the start. -/
def ofItems (c : Container) (items : List Item) : Contents :=
  (c.appendAll [] items).1

end Container

/-- The shape of a slot, which decides how many values its argument takes. -/
inductive Kind
  | scalar
  | boolean
  | array
  | collection
  | map
  deriving DecidableEq, Repr

namespace Kind

def isMultiValued : Kind → Bool
  | .array | .collection | .map => true
  | .scalar | .boolean => false

def described : Kind → String
  | .scalar => "a single value"
  | .boolean => "a boolean toggle"
  | .array => "an array"
  | .collection => "a collection"
  | .map => "a key/value map"

end Kind

inductive Slot
  | single (type : ValueType)
  | optional (type : ValueType)
  /-- Replaced as a whole by the values of one parse. -/
  | array (type : ValueType)
  /-- Extended by the values of one parse. -/
  | collection (type : ValueType) (container : Container)
  | map (container : Container)

/-- Why an occurrence of an argument is not accepted. -/
inductive AcceptError
  | invalid (cause : ValueError)
  /-- The text of the repeated value, or the repeated name of a map. -/
  | repeated (text : String)
  deriving DecidableEq, Repr

namespace Slot

def kind : Slot → Kind
  | .single t | .optional t => if t.isToggle then .boolean else .scalar
  | .array _ => .array
  | .collection _ _ => .collection
  | .map _ => .map

def placeholder : Slot → Placeholder
  | .single t | .optional t | .array t | .collection t _ => t.placeholder
  | .map _ => .pair

/-- The name of the type of the elements, for slots that hold more than one. -/
def elementName : Slot → Option String
  | .single _ | .optional _ => none
  | .array t => some t.name
  | .collection t c => if c.showsElement then some t.name else none
  | .map c => if c.showsElement then some ValueType.text.name else none

/-- The two sides of the first `=`; the name before it may not be empty. -/
def splitPair (s : String) : Except ValueError (String × String) :=
  let name := s.toList.takeWhile (· ≠ '=')
  match s.toList.dropWhile (· ≠ '=') with
  | [] => .error .malformedPair
  | _ :: value =>
      if name = [] then .error .malformedPair
      else .ok (String.ofList name, String.ofList value)

/-- Converts one occurrence. -/
def read (slot : Slot) (value : Option String) : Except ValueError Item :=
  match slot with
  | .single t | .optional t | .array t | .collection t _ => (t.convert value).map .value
  | .map _ =>
      match value with
      | none => .error .needsValue
      | some s => (splitPair s).map fun (name, value) => .pair name value

/-- How a repeated occurrence is reported. -/
def repetition (value : Option String) : Item → String
  | .value _ => value.getD ""
  | .pair name _ => name

/-- Adds one occurrence to the items collected so far.  A single value takes the place of the one
before it. -/
def accept (slot : Slot) (collected : List Item) (value : Option String) (unique : Bool) :
    Except AcceptError (List Item) :=
  match slot.read value with
  | .error cause => .error (.invalid cause)
  | .ok item =>
      if !slot.kind.isMultiValued then .ok [item]
      else if unique && collected.any (·.clashes item) then
        .error (.repeated (repetition value item))
      else .ok (collected ++ [item])

/-- The contents of the place once the collected items are written into it. -/
def bind (slot : Slot) (contents : Contents) (collected : List Item) :
    Contents × Option Refusal :=
  match slot with
  | .single _ | .optional _ => (if collected = [] then contents else collected, none)
  | .array _ => (collected, none)
  | .collection _ c | .map c => c.appendAll contents collected

end Slot

end CommandLine
