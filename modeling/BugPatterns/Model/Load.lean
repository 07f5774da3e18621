import BugPatterns.Model.Basic
import BugPatterns.Model.Document

/-!
# Building a model from its description

All types are defined before anything refers to them, so the order of a description does not
matter to its references. Then supertypes and enclosing types are set, and last the members are
declared. A supertype that nothing declares becomes an unknown type; an enclosing type has to be
one of the description.
-/

namespace BugPatterns.Model

/-- Defines the types of a description. Their names hold no blanks and are all different. -/
def defineTypes (model : Model) (seen : List String) : List TypeEntry → Except ModelError Model
  | [] => .ok model
  | entry :: entries =>
      if entry.name.isEmpty || hasBlank entry.name then .error (.invalidTypeName entry.name)
      else if entry.name ∈ seen then .error (.duplicateType entry.name)
      else defineTypes (model.define entry.name (.declared entry.kind)).2 (entry.name :: seen)
        entries

/-- The name of the superclass of a type. Enums and ordinary classes that name none still have
    one, except for the root class. -/
def superclassName? (entry : TypeEntry) : Option String :=
  match entry.superclass, entry.kind with
  | some name, _ => some name
  | none, .enum => some enumName
  | none, .ordinary => if entry.name = objectName then none else some objectName
  | none, _ => none

/-- Sets the superclass of a type. -/
def linkSuperclass (model : Model) (id : TypeId) (entry : TypeEntry) : Model :=
  match superclassName? entry with
  | none => model.setSuperclass id none
  | some name =>
      let (superclass, model) := model.intern name
      model.setSuperclass id (some superclass)

/-- Adds an interface to a type by its name. -/
def linkInterface (id : TypeId) (model : Model) (name : String) : Model :=
  let (interface, model) := model.intern name
  model.addInterface id interface

/-- Nests a type in the one it names as its owner. -/
def linkOwner (model : Model) (declared : List String) (id : TypeId) (entry : TypeEntry) :
    Except ModelError Model :=
  match entry.owner with
  | none => .ok model
  | some owner =>
      let outer := if owner ∈ declared then
          (model.type? owner).bind fun outer => (model.type outer).symbol
        else none
      match outer, (model.type id).symbol with
      | none, _ => .error (.unknownOwner entry.name owner)
      | some outer, some nested => .ok (model.nest nested outer)
      | some _, none => .ok model

/-- Sets the supertypes and the owner of a type. -/
def linkType (declared : List String) (model : Model) (entry : TypeEntry) :
    Except ModelError Model :=
  let (id, model) := model.intern entry.name
  let model := model.linkSuperclass id entry
  let model := entry.interfaces.foldl (linkInterface id) model
  model.linkOwner declared id entry

/-- The type of a name that may be absent. -/
def internOption (model : Model) : Option String → Option TypeId × Model
  | none => (none, model)
  | some name =>
      let (id, model) := model.intern name
      (some id, model)

/-- The key of a member. -/
def memberKey (entry : TypeEntry) (member : MemberEntry) : String :=
  member.key.getD (entry.name ++ "#" ++ member.name)

/-- The key of a parameter or local variable. -/
def variableKey (entry : TypeEntry) (member : MemberEntry) (var : VariableEntry) : String :=
  var.key.getD (entry.name ++ "#" ++ member.name ++ "." ++ var.name)

/-- The kind of symbol a member is. -/
def memberSymbolKind : MemberKind → SymbolKind
  | .field => .variable
  | .method => .method

/-- Declares a parameter or local variable of a member. -/
def declareVariable (entry : TypeEntry) (member : MemberEntry) (method : SymbolId)
    (isParam : Bool) (model : Model) (var : VariableEntry) : Except ModelError Model := do
  let (id, model) ← model.declare (variableKey entry member var) var.name .variable
    (some method)
  let (type, model) := model.internOption var.type
  let model := model.modifySymbol id fun info => { info with type := type }
  return if isParam then model.addParam method id else model

/-- Declares a member of a type with its parameters and local variables. -/
def declareMember (entry : TypeEntry) (owner : SymbolId) (model : Model) (member : MemberEntry) :
    Except ModelError Model := do
  let (id, model) ← model.declare (memberKey entry member) member.name
    (memberSymbolKind member.kind) (some owner)
  let (type, model) := model.internOption member.type
  let model := model.modifySymbol id fun info =>
    { info with
      isStatic := member.isStatic
      isFinal := member.isFinal
      constant := member.constant
      type := type }
  let model ← member.params.foldlM (declareVariable entry member id true) model
  member.locals.foldlM (declareVariable entry member id false) model

/-- Declares the members of a type. -/
def declareMembers (model : Model) (entry : TypeEntry) : Except ModelError Model :=
  let (id, model) := model.intern entry.name
  match (model.type id).symbol with
  | none => .ok model
  | some owner => entry.members.foldlM (declareMember entry owner) model

/-- The model that a document describes. -/
def load (document : ModelDocument) : Except ModelError Model := do
  let model ← prelude.defineTypes [] document.types
  let model ← document.types.foldlM (linkType (document.types.map (·.name))) model
  document.types.foldlM declareMembers model

end BugPatterns.Model
