/-!
# JSON values

A value keeps the fields of an object in the order they were written, repeated names included, so
that a reader of documents can refuse repetitions. Natural numbers are exact; no document of this
library holds any other number, so those keep only their text.
-/

namespace BugPatterns

/-- A JSON number: a natural number written with digits only, or the text of any other one. -/
inductive JsonNumber where
  | natural (value : Nat)
  | other (text : String)
  deriving DecidableEq, Repr

/-- A JSON value. `unreadable` stands for a well-formed literal that denotes no value: a string
    with an unpaired surrogate, an object with such a name, a number beyond every finite one. -/
inductive Json where
  | null
  | bool (value : Bool)
  | num (value : JsonNumber)
  | str (text : String)
  | arr (items : List Json)
  | obj (fields : List (String × Json))
  | unreadable
  deriving Repr, Inhabited

namespace Json

/-- The number `n`. -/
def nat (n : Nat) : Json := .num (.natural n)

/-- The value itself, or `null` where there is none. -/
def ofOption {α : Type} (toJson : α → Json) : Option α → Json
  | none => .null
  | some a => toJson a

/-- An array of strings. -/
def strings (texts : List String) : Json := .arr (texts.map .str)

mutual

/-- How many containers are nested in each other at most. -/
def depth : Json → Nat
  | .arr items => depthOfItems items + 1
  | .obj fields => depthOfFields fields + 1
  | _ => 0

/-- The greatest depth of a list of values. -/
def depthOfItems : List Json → Nat
  | [] => 0
  | item :: items => max item.depth (depthOfItems items)

/-- The greatest depth of the values of some fields. -/
def depthOfFields : List (String × Json) → Nat
  | [] => 0
  | (_, value) :: fields => max value.depth (depthOfFields fields)

end

mutual

/-- Nothing inside the value is unreadable. -/
def isReadable : Json → Bool
  | .arr items => areReadable items
  | .obj fields => fieldsAreReadable fields
  | .unreadable => false
  | _ => true

/-- All values of a list are readable. -/
def areReadable : List Json → Bool
  | [] => true
  | item :: items => item.isReadable && areReadable items

/-- The values of all fields are readable. -/
def fieldsAreReadable : List (String × Json) → Bool
  | [] => true
  | (_, value) :: fields => value.isReadable && fieldsAreReadable fields

end

/-- The value of the first field of that name, if the value is an object. -/
def field? (name : String) : Json → Option Json
  | .obj fields => fields.lookup name
  | _ => none

end Json

end BugPatterns
