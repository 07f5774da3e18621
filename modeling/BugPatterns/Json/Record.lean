import BugPatterns.Json.Basic

/-!
# Reading documents

A document is a JSON value read into a type of the library. A record is an object of named fields,
or an array of its fields in the order of their declaration. A keyword is one of a closed set of
words. A tagged object carries a field whose keyword says which shape the rest of it has.

Four things can be wrong with a document, and `ReadError` tells them apart.
-/

namespace BugPatterns

/-- Why a document cannot be read. -/
inductive ReadError where
  | missingField (name : String)
  | unknownVariant (name : String)
  | duplicateField (name : String)
  | invalid
  deriving DecidableEq, Repr

/-- Reads a value of type `α`. -/
abbrev Reader (α : Type) := Json → Except ReadError α

/-- Where a value stands: in the document itself, or somewhere inside a tagged object. Two
    spellings are only taken in the second place: a tag given by its number, and a keyword given
    as an object whose content is an empty object. -/
inductive Place where
  | outside
  | inTagged
  deriving DecidableEq, Repr

/-- A type that is spelled by a closed list of words. -/
class Keyword (α : Type) where
  /-- All values, in the order of their declaration. -/
  all : List α
  /-- The word that spells a value. -/
  word : α → String

namespace Keyword

variable {α : Type} [Keyword α]

/-- The value that a word spells. -/
def ofWord? (word : String) : Option α :=
  (all : List α).find? fun a => Keyword.word a = word

/-- The value that a word spells; any other word is an unknown variant. -/
def ofWord (word : String) : Except ReadError α :=
  match ofWord? word with
  | some a => .ok a
  | none => .error (.unknownVariant word)

/-- Reads a keyword: its word, or an object with the word as its only name and no content. -/
def read (place : Place) : Reader α
  | .str word => ofWord word
  | .obj [(word, content)] => do
      let a ← ofWord word
      match content, place with
      | .null, _ => return a
      | .obj [], .inTagged => return a
      | _, _ => throw .invalid
  | _ => .error .invalid

/-- Reads the tag of a tagged object: a word, or the number of the value where that is taken. -/
def readTag (place : Place) : Reader α
  | .str word => ofWord word
  | .num (.natural n) =>
      match place, (all : List α)[n]? with
      | .inTagged, some a => .ok a
      | _, _ => .error .invalid
  | _ => .error .invalid

/-- A keyword is written as its word. -/
def toJson (a : α) : Json := .str (word a)

end Keyword

namespace Json

/-- Reads a string. -/
def readString : Reader String
  | .str text => .ok text
  | _ => .error .invalid

/-- Reads a boolean. -/
def readBool : Reader Bool
  | .bool value => .ok value
  | _ => .error .invalid

/-- Reads a natural number below a bound. -/
def readNatBelow (bound : Nat) : Reader Nat
  | .num (.natural n) => if n < bound then .ok n else .error .invalid
  | _ => .error .invalid

/-- Reads a number of 32 bits. -/
def readUInt32 : Reader UInt32 := fun json => UInt32.ofNat <$> readNatBelow UInt32.size json

/-- Reads a number of 64 bits. -/
def readUInt64 : Reader UInt64 := fun json => UInt64.ofNat <$> readNatBelow UInt64.size json

/-- Reads an array whose items all have the same type. -/
def readList {α : Type} (read : Reader α) : Reader (List α)
  | .arr items => items.mapM read
  | _ => .error .invalid

/-- Reads any value but `null`, which stands for an absent one. -/
def readOption {α : Type} (read : Reader α) : Reader (Option α)
  | .null => .ok none
  | json => some <$> read json

/-- Takes the tag out of a tagged object. The tag is the field of that name, wherever it stands,
    or the first item of an array; what remains is a record. -/
def splitTag (tag : String) : Json → Except ReadError (Json × Json)
  | .obj fields =>
      match fields.filter (fun field => field.1 = tag) with
      | [] => .error (.missingField tag)
      | [(_, value)] => .ok (value, .obj (fields.filter fun field => field.1 ≠ tag))
      | _ => .error (.duplicateField tag)
  | .arr [] => .error (.missingField tag)
  | .arr (value :: rest) => .ok (value, .arr rest)
  | _ => .error .invalid

end Json

/-- The fields of a record that are present. Where they were given by position, a missing one has
    no name to complain about. -/
structure Record where
  fields : List (String × Json)
  positional : Bool
  deriving Repr

namespace Record

variable {α : Type}

/-- Some name stands more than once; the first such name. -/
def repeated? : List (String × Json) → Option String
  | [] => none
  | (name, _) :: fields => if (fields.lookup name).isSome then some name else repeated? fields

/-- Reads the fields of a record that declares `names`. Other fields of an object are ignored;
    an array may not be longer than the declaration. -/
def ofJson? (names : List String) : Json → Except ReadError Record
  | .obj fields =>
      let known := fields.filter fun field => names.contains field.1
      match repeated? known with
      | some name => .error (.duplicateField name)
      | none => .ok ⟨known, false⟩
  | .arr items =>
      if names.length < items.length then .error .invalid else .ok ⟨names.zip items, true⟩
  | _ => .error .invalid

/-- A field that has to be present. -/
def required (record : Record) (name : String) (read : Reader α) : Except ReadError α :=
  match record.fields.lookup name with
  | some value => read value
  | none => .error (if record.positional then .invalid else .missingField name)

/-- A field that has a value of its own when it is absent. -/
def withDefault (record : Record) (name : String) (default : α) (read : Reader α) :
    Except ReadError α :=
  match record.fields.lookup name with
  | some value => read value
  | none => .ok default

/-- A field that may be absent or `null`. -/
def optional (record : Record) (name : String) (read : Reader α) : Except ReadError (Option α) :=
  record.withDefault name none (Json.readOption read)

end Record

/-- An optional field as it is written: not at all where it is absent. -/
def Json.optionalField {α : Type} (name : String) (toJson : α → Json) :
    Option α → List (String × Json)
  | none => []
  | some a => [(name, toJson a)]

end BugPatterns
