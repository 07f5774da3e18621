import BugPatterns.Ast.Vocabulary
import BugPatterns.InsertionOrder
import BugPatterns.Model.TypeName

/-!
# Types and symbols

The model of a unit holds the types its names stand for and the symbols it declares. Types and
symbols are numbered in the order in which they were added; each can be looked up by name or key,
where the newest entry counts.

A model grows by the operations of this module: a name is interned, a type is defined, its
supertypes are set, a symbol is declared, a type is nested in another, a parameter is added.
-/

namespace BugPatterns

/-- The number of a type in its model. A number is kept in 32 bits, so models of fewer than 2 ^ 32
    types are meant; more would not fit into memory. -/
structure TypeId where
  index : Nat
  deriving DecidableEq, Repr, Inhabited

/-- The number of a symbol in its model, which is kept in 32 bits as well. -/
structure SymbolId where
  index : Nat
  deriving DecidableEq, Repr, Inhabited

/-- The primitive types that have values. -/
inductive Primitive where
  | boolean
  | byte
  | short
  | char
  | int
  | long
  | float
  | double
  deriving DecidableEq, Repr

instance : Keyword Primitive where
  all := [.boolean, .byte, .short, .char, .int, .long, .float, .double]
  word
    | .boolean => "boolean"
    | .byte => "byte"
    | .short => "short"
    | .char => "char"
    | .int => "int"
    | .long => "long"
    | .float => "float"
    | .double => "double"

/-- What a type is. An unknown type is one that nothing declares. -/
inductive TypeTag where
  | declared (kind : ClassKind)
  | array
  | primitive (kind : Primitive)
  | null
  | void
  | unknown
  deriving DecidableEq, Repr

namespace TypeTag

/-- The tag of a class, interface, enum or annotation. -/
def isDeclared : TypeTag → Bool
  | .declared _ => true
  | _ => false

/-- The tag of a type whose values are references. -/
def isReference : TypeTag → Bool
  | .declared _ | .array | .null => true
  | _ => false

end TypeTag

/-- A type. `erasure` is the raw type of a parameterized type, `element` that of the elements of an
    array, and `symbol` the symbol a type was defined with. -/
structure TypeInfo where
  name : String
  tag : TypeTag
  superclass : Option TypeId
  interfaces : List TypeId
  symbol : Option SymbolId
  erasure : Option TypeId
  element : Option TypeId
  deriving DecidableEq, Repr

/-- A type of which only name and tag are known. -/
def TypeInfo.bare (name : String) (tag : TypeTag) : TypeInfo :=
  ⟨name, tag, none, [], none, none, none⟩

/-- What a symbol stands for. -/
inductive SymbolKind where
  | type
  | method
  | variable
  deriving DecidableEq, Repr

/-- A symbol. `type` is the type of a variable, the result type of a method, or the type that a
    type symbol declares; `constant` is the text of a compile-time constant. -/
structure SymbolInfo where
  key : String
  name : String
  kind : SymbolKind
  owner : Option SymbolId
  type : Option TypeId
  isStatic : Bool
  isFinal : Bool
  members : List SymbolId
  params : List SymbolId
  constant : Option String
  deriving DecidableEq, Repr

/-- A symbol of which only key, name, kind, owner and type are known. -/
def SymbolInfo.bare (key name : String) (kind : SymbolKind) (owner : Option SymbolId)
    (type : Option TypeId) : SymbolInfo :=
  ⟨key, name, kind, owner, type, false, false, [], [], none⟩

/-- Why a model cannot be built from its description. -/
inductive ModelError where
  | duplicateType (name : String)
  | duplicateSymbol (key : String)
  | unknownOwner (name owner : String)
  | invalidTypeName (name : String)
  deriving DecidableEq, Repr

/-- The wording of an error. -/
def ModelError.message : ModelError → String
  | .duplicateType name => s!"type `{name}` is declared more than once"
  | .duplicateSymbol key => s!"symbol key `{key}` is declared more than once"
  | .unknownOwner name owner =>
      s!"type `{name}` names `{owner}` as its enclosing type, which is not declared"
  | .invalidTypeName name => s!"`{name}` is not a valid type name"

/-- The types and symbols of a unit. The look-up lists have their newest entry first. -/
structure Model where
  types : Array TypeInfo
  symbols : Array SymbolInfo
  typeNames : List (String × TypeId)
  symbolKeys : List (String × SymbolId)
  deriving Repr

namespace Model

/-- No types and no symbols. -/
def empty : Model := ⟨#[], #[], [], []⟩

/-- What is known of a type. A number that belongs to no type is that of a nameless unknown one. -/
def type (model : Model) (id : TypeId) : TypeInfo :=
  (model.types[id.index]?).getD (.bare "" .unknown)

/-- What is known of a symbol. A number that belongs to no symbol is that of a nameless variable. -/
def symbol (model : Model) (id : SymbolId) : SymbolInfo :=
  (model.symbols[id.index]?).getD (.bare "" "" .variable none none)

/-- The type of that name. -/
def type? (model : Model) (name : String) : Option TypeId := model.typeNames.lookup name

/-- The symbol with that key. -/
def symbol? (model : Model) (key : String) : Option SymbolId := model.symbolKeys.lookup key

/-- How many types there are. -/
def typeCount (model : Model) : Nat := model.types.size

/-- How many symbols there are. -/
def symbolCount (model : Model) : Nat := model.symbols.size

/-- Changes what is known of a type. -/
def modifyType (model : Model) (id : TypeId) (f : TypeInfo → TypeInfo) : Model :=
  { model with types := model.types.modify id.index f }

/-- Changes what is known of a symbol. -/
def modifySymbol (model : Model) (id : SymbolId) (f : SymbolInfo → SymbolInfo) : Model :=
  { model with symbols := model.symbols.modify id.index f }

/-- Adds a type under its name. -/
def pushType (model : Model) (info : TypeInfo) : TypeId × Model :=
  let id := ⟨model.types.size⟩
  (id, { model with
    types := model.types.push info
    typeNames := (info.name, id) :: model.typeNames })

/-- Adds a symbol under its key. -/
def pushSymbol (model : Model) (info : SymbolInfo) : SymbolId × Model :=
  let id := ⟨model.symbols.size⟩
  (id, { model with
    symbols := model.symbols.push info
    symbolKeys := (info.key, id) :: model.symbolKeys })

/-- The type of a name. One that is not there yet is added, after the type it is built from: an
    array type, a parameterized type with the tag of its raw type, or else an unknown type. -/
def internName (model : Model) (name : TypeName) : TypeId × Model :=
  match model.type? name.text with
  | some id => (id, model)
  | none =>
      match name with
      | .plain text => model.pushType (.bare text .unknown)
      | .array text element =>
          let (element, model) := model.internName element
          model.pushType { TypeInfo.bare text .array with element := some element }
      | .parameterized text raw =>
          let (raw, model) := model.internName raw
          model.pushType { TypeInfo.bare text (model.type raw).tag with erasure := some raw }

/-- The type of a name, added if it is not there yet. -/
def intern (model : Model) (name : String) : TypeId × Model :=
  model.internName (.parse name)

/-- Gives a type a symbol whose key is the name of the type, unless it has a symbol. -/
def giveSymbol (model : Model) (id : TypeId) (name : String) : Model :=
  match (model.type id).symbol with
  | some _ => model
  | none =>
      let (symbol, model) := model.pushSymbol
        (.bare name (TypeName.simpleName name) .type none (some id))
      model.modifyType id fun info => { info with symbol := some symbol }

/-- Declares a type of that name and tag. A type that is there already takes the new tag. -/
def define (model : Model) (name : String) (tag : TypeTag) : TypeId × Model :=
  let (id, model) := match model.type? name with
    | some id => (id, model)
    | none => model.pushType (.bare name tag)
  let model := model.modifyType id fun info => { info with tag := tag }
  (id, model.giveSymbol id name)

/-- Sets or removes the superclass of a type. -/
def setSuperclass (model : Model) (id : TypeId) (superclass : Option TypeId) : Model :=
  model.modifyType id fun info => { info with superclass := superclass }

/-- Adds an interface to those a type implements or extends. -/
def addInterface (model : Model) (id interface : TypeId) : Model :=
  model.modifyType id fun info => { info with interfaces := appendNew info.interfaces interface }

/-- Makes a type symbol a member of another one. -/
def nest (model : Model) (nested outer : SymbolId) : Model :=
  (model.modifySymbol nested fun info => { info with owner := some outer }).modifySymbol outer
    fun info => { info with members := appendNew info.members nested }

/-- Declares a method or a variable under a key that no symbol has yet. A symbol whose owner is a
    type becomes a member of it. -/
def declare (model : Model) (key name : String) (kind : SymbolKind) (owner : Option SymbolId) :
    Except ModelError (SymbolId × Model) :=
  match model.symbol? key with
  | some _ => .error (.duplicateSymbol key)
  | none =>
      let (id, model) := model.pushSymbol (.bare key name kind owner none)
      match owner with
      | none => .ok (id, model)
      | some owner =>
          if (model.symbol owner).kind = .type then
            .ok (id, model.modifySymbol owner fun info =>
              { info with members := info.members ++ [id] })
          else .ok (id, model)

/-- Adds a symbol to the parameters of a method. -/
def addParam (model : Model) (method param : SymbolId) : Model :=
  model.modifySymbol method fun info => { info with params := info.params ++ [param] }

end Model

/-! ## The prelude -/

/-- The root of all reference types. -/
def objectName : String := "java.lang.Object"

/-- The type of class literals. -/
def className : String := "java.lang.Class"

/-- The superclass of all enums. -/
def enumName : String := "java.lang.Enum"

/-- The interface of all texts. -/
def charSequenceName : String := "java.lang.CharSequence"

/-- The classes of texts and of what builds them. -/
def textClassNames : List String :=
  ["java.lang.String", "java.lang.StringBuilder", "java.lang.StringBuffer"]

/-- The name of the type of the literal `null`. -/
def nullTypeName : String := "null"

/-- The name of the type without values. -/
def voidTypeName : String := "void"

namespace Model

/-- Defines a class below the root class, with the interfaces it implements. -/
def defineClass (model : Model) (object : TypeId) (name : String) (interfaces : List TypeId) :
    Model :=
  let (id, model) := model.define name (.declared .ordinary)
  interfaces.foldl (fun model interface => model.addInterface id interface)
    (model.setSuperclass id (some object))

/-- The model that every other one starts from: the primitive types, `null`, `void`, and the
    library classes that the checks reason about. -/
def prelude : Model :=
  let model := (Keyword.all : List Primitive).foldl
    (fun model kind => (model.pushType (.bare (Keyword.word kind) (.primitive kind))).2) empty
  let (_, model) := model.pushType (.bare nullTypeName .null)
  let (_, model) := model.pushType (.bare voidTypeName .void)
  let (object, model) := model.define objectName (.declared .ordinary)
  let (charSequence, model) := model.define charSequenceName (.declared .interface)
  let model := textClassNames.foldl
    (fun model name => model.defineClass object name [charSequence]) model
  [className, enumName].foldl (fun model name => model.defineClass object name []) model

end Model

end BugPatterns
