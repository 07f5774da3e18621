import BugPatterns.Json.Record
import BugPatterns.Ast.Vocabulary

/-!
# Descriptions of models

A resolver describes the types of a unit by a document: a list of types with their supertypes and
members. This module holds the shape of such documents and reads and writes them.
-/

namespace BugPatterns

/-- A parameter or local variable of a method. -/
structure VariableEntry where
  name : String
  key : Option String
  type : Option String
  deriving DecidableEq, Repr

/-- Whether a member is a field or a method. -/
inductive MemberKind where
  | field
  | method
  deriving DecidableEq, Repr

instance : Keyword MemberKind where
  all := [.field, .method]
  word
    | .field => "field"
    | .method => "method"

/-- A field or method of a type. -/
structure MemberEntry where
  name : String
  key : Option String
  kind : MemberKind
  isStatic : Bool
  isFinal : Bool
  type : Option String
  constant : Option String
  params : List VariableEntry
  locals : List VariableEntry
  deriving DecidableEq, Repr

/-- A type; `owner` names the type it is nested in. -/
structure TypeEntry where
  name : String
  kind : ClassKind
  superclass : Option String
  interfaces : List String
  owner : Option String
  members : List MemberEntry
  deriving DecidableEq, Repr

/-- The types of a unit. -/
structure ModelDocument where
  types : List TypeEntry
  deriving DecidableEq, Repr

namespace VariableEntry

/-- Reads a variable. -/
def read : Reader VariableEntry := fun json => do
  let record ← Record.ofJson? ["name", "key", "type"] json
  return {
    name := ← record.required "name" Json.readString
    key := ← record.optional "key" Json.readString
    type := ← record.optional "type" Json.readString }

/-- Writes a variable. -/
def toJson (entry : VariableEntry) : Json :=
  .obj <| [("name", .str entry.name)] ++ Json.optionalField "key" .str entry.key ++
    Json.optionalField "type" .str entry.type

end VariableEntry

namespace MemberEntry

/-- Reads a member. -/
def read : Reader MemberEntry := fun json => do
  let record ← Record.ofJson?
    ["name", "key", "kind", "static", "final", "type", "constant", "params", "locals"] json
  return {
    name := ← record.required "name" Json.readString
    key := ← record.optional "key" Json.readString
    kind := ← record.withDefault "kind" .field (Keyword.read .outside)
    isStatic := ← record.withDefault "static" false Json.readBool
    isFinal := ← record.withDefault "final" false Json.readBool
    type := ← record.optional "type" Json.readString
    constant := ← record.optional "constant" Json.readString
    params := ← record.withDefault "params" [] (Json.readList VariableEntry.read)
    locals := ← record.withDefault "locals" [] (Json.readList VariableEntry.read) }

/-- Writes a member. -/
def toJson (entry : MemberEntry) : Json :=
  .obj <| [("name", .str entry.name)] ++ Json.optionalField "key" .str entry.key ++
    [("kind", Keyword.toJson entry.kind), ("static", .bool entry.isStatic),
      ("final", .bool entry.isFinal)] ++
    Json.optionalField "type" .str entry.type ++
    Json.optionalField "constant" .str entry.constant ++
    [("params", .arr (entry.params.map VariableEntry.toJson)),
      ("locals", .arr (entry.locals.map VariableEntry.toJson))]

end MemberEntry

namespace TypeEntry

/-- Reads a type. -/
def read : Reader TypeEntry := fun json => do
  let record ← Record.ofJson?
    ["name", "kind", "superclass", "interfaces", "owner", "members"] json
  return {
    name := ← record.required "name" Json.readString
    kind := ← record.withDefault "kind" .ordinary (Keyword.read .outside)
    superclass := ← record.optional "superclass" Json.readString
    interfaces := ← record.withDefault "interfaces" [] (Json.readList Json.readString)
    owner := ← record.optional "owner" Json.readString
    members := ← record.withDefault "members" [] (Json.readList MemberEntry.read) }

/-- Writes a type. -/
def toJson (entry : TypeEntry) : Json :=
  .obj <| [("name", .str entry.name), ("kind", Keyword.toJson entry.kind)] ++
    Json.optionalField "superclass" .str entry.superclass ++
    [("interfaces", Json.strings entry.interfaces)] ++
    Json.optionalField "owner" .str entry.owner ++
    [("members", .arr (entry.members.map MemberEntry.toJson))]

end TypeEntry

namespace ModelDocument

/-- The description of no types. -/
def empty : ModelDocument := ⟨[]⟩

/-- Reads the description of a model. -/
def read : Reader ModelDocument := fun json => do
  let record ← Record.ofJson? ["types"] json
  return { types := ← record.withDefault "types" [] (Json.readList TypeEntry.read) }

/-- Writes the description of a model. -/
def toJson (document : ModelDocument) : Json :=
  .obj [("types", .arr (document.types.map TypeEntry.toJson))]

end ModelDocument

end BugPatterns
