import BugPatterns.Model.Basic
import BugPatterns.Reach

/-!
# Questions about types and symbols

All questions are answered conservatively: what is unknown gives the answer `false` or nothing, so
that missing information leads to fewer reports.
-/

namespace BugPatterns.Model

variable (model : Model)

/-- The tag of a type. -/
def tag (id : TypeId) : TypeTag := (model.type id).tag

/-- The raw type of a parameterized type; any other type is its own erasure. -/
def erasure (id : TypeId) : TypeId := (model.type id).erasure.getD id

/-- Nothing declares the type. -/
def isUnknown (id : TypeId) : Bool := model.tag id = .unknown

/-- The type has that name. -/
def isNamed (id : TypeId) (name : String) : Bool := (model.type id).name = name

/-- The superclass of a type. -/
def superclass (id : TypeId) : Option TypeId := (model.type id).superclass

/-- The erased supertypes right above a type. -/
def parents (id : TypeId) : List TypeId :=
  ((model.type id).superclass.toList ++ (model.type id).interfaces).map model.erasure

/-- The erased interfaces right above a type. -/
def parentInterfaces (id : TypeId) : List TypeId :=
  (model.type id).interfaces.map model.erasure

/-- A path of supertypes leads from one erased type to another. No path is longer than there are
    types. -/
def reaches (a b : TypeId) : Bool := Reach.leadsTo model.parents (· = b) model.typeCount a

/-- The subtype relation, `levels` bounding how many array types are taken apart. Types are
    compared by their erasures. A type that is not unknown is a subtype of itself; `null` is below
    every reference type and the root class above; arrays of references are compared by their
    elements; all other types by the hierarchy. -/
def isSubtypeWithin : Nat → TypeId → TypeId → Bool
  | levels, a, b =>
      let a := model.erasure a
      let b := model.erasure b
      if model.isUnknown a || model.isUnknown b then false
      else if a = b then true
      else
        match model.tag a, model.tag b with
        | .null, tag => tag.isReference
        | .primitive _, _ | _, .primitive _ => false
        | .void, _ | _, .void | _, .null => false
        | .array, .array =>
            match levels, (model.type a).element, (model.type b).element with
            | levels + 1, some ea, some eb =>
                (model.tag ea).isReference && isSubtypeWithin levels ea eb
            | _, _, _ => false
        | tag, _ =>
            if model.isNamed b objectName then tag.isReference
            else if tag = .array then false
            else model.reaches a b

/-- A value of type `a` may be assigned to a variable of type `b` without conversion. An element
    type is older than its array type, so as many levels as there are types are enough. -/
def isSubtype (a b : TypeId) : Bool := model.isSubtypeWithin model.typeCount a b

/-- The type implements an interface of that name, directly or through other interfaces. Its
    superclasses do not count. -/
def implementsInterface (id : TypeId) (name : String) : Bool :=
  Reach.leadsOnTo model.parentInterfaces (model.isNamed · name) model.typeCount (model.erasure id)

/-- The primitive types that a numeric one widens to, besides itself. -/
def wideningTargets : Primitive → List Primitive
  | .byte => [.short, .int, .long, .float, .double]
  | .short | .char => [.int, .long, .float, .double]
  | .int => [.long, .float, .double]
  | .long => [.float, .double]
  | .float => [.double]
  | .boolean | .double => []

/-- The type is a primitive type of numbers. -/
def isNumeric (id : TypeId) : Bool :=
  match model.tag id with
  | .primitive kind => kind ≠ .boolean
  | _ => false

/-- A number of the one type is or widens to a number of the other. -/
def numericWidens (source target : TypeId) : Bool :=
  match model.tag source, model.tag target with
  | .primitive s, .primitive t =>
      s ≠ .boolean && t ≠ .boolean && (s = t || (wideningTargets s).contains t)
  | _, _ => false

/-- The type is an enum, parameterized or not. -/
def isEnum (id : TypeId) : Bool := model.tag (model.erasure id) = .declared .enum

/-- The type is a class, interface, enum or annotation, parameterized or not. -/
def isClassLike (id : TypeId) : Bool := (model.tag (model.erasure id)).isDeclared

/-- The type is that of the literal `null`. -/
def isNullType (id : TypeId) : Bool := model.tag id = .null || model.isNamed id nullTypeName

/-- The owner of a symbol. -/
def owner (id : SymbolId) : Option SymbolId := (model.symbol id).owner

/-- The symbol is that of a type. -/
def isTypeSymbol (id : SymbolId) : Bool := (model.symbol id).kind = .type

/-- The symbol is that of a method. -/
def isMethodSymbol (id : SymbolId) : Bool := (model.symbol id).kind = .method

/-- The symbol is among the parameters of the method that owns it. -/
def isParameter (id : SymbolId) : Bool :=
  match model.owner id with
  | some owner => model.isMethodSymbol owner && (model.symbol owner).params.contains id
  | none => false

/-- The symbol is a variable of a method but no parameter. -/
def isLocalVariable (id : SymbolId) : Bool :=
  (model.symbol id).kind = .variable && (model.owner id).any model.isMethodSymbol &&
    !model.isParameter id

/-- The symbol is a variable of a type. -/
def isField (id : SymbolId) : Bool :=
  (model.symbol id).kind = .variable && (model.owner id).any model.isTypeSymbol

/-- The first type symbol on a chain of owners, at most `steps` links long. -/
def firstTypeSymbol : Nat → Option SymbolId → Option SymbolId
  | _, none => none
  | 0, some _ => none
  | steps + 1, some id =>
      if model.isTypeSymbol id then some id else firstTypeSymbol steps (model.owner id)

/-- The closest type symbol around a symbol. The chain of owners may run in a circle, so as many
    links are followed as there are symbols, and one more. -/
def enclosingType (id : SymbolId) : Option SymbolId :=
  model.firstTypeSymbol (model.symbolCount + 1) (model.owner id)

/-- The type that a type symbol declares. -/
def declaredType (id : SymbolId) : Option TypeId :=
  if model.isTypeSymbol id then (model.symbol id).type else none

/-- The members of a type symbol with that simple name. -/
def membersNamed (owner : SymbolId) (name : String) : List SymbolId :=
  (model.symbol owner).members.filter fun member => (model.symbol member).name = name

/-- The text of the constant that a symbol stands for. -/
def constantValue (id : SymbolId) : Option String := (model.symbol id).constant

end BugPatterns.Model
