import BugPatterns.Model.Load
import BugPatterns.Model.Query
import BugPatterns.Unit.Declarations
import BugPatterns.Unit.Document

/-!
# Loaded units

A unit is ready for analysis once its model is built, the nesting of its nodes is found to be
within bounds, every type its tree mentions is in the model, and its declarations can be looked up.
Nothing in it changes afterwards.
-/

namespace BugPatterns

/-- The deepest level at which a node may lie; the unit itself lies at level one. -/
def maxNesting : Nat := 256

/-- Why a unit cannot be loaded. -/
inductive LoadError where
  | unreadable (cause : ReadError)
  | model (file : String) (cause : ModelError)
  | nesting (file : String) (span : Span)
  deriving DecidableEq, Repr

/-- The wording of an error. -/
def LoadError.message : LoadError → String
  | .unreadable _ => "parsing resolved unit json"
  | .model file cause => s!"loading model of `{file}`: {cause.message}"
  | .nesting file span =>
      s!"checking `{file}`: nodes are nested deeper than {maxNesting} levels at {span.text}"

/-- A unit ready for analysis. -/
structure LoadedUnit where
  unit : CompilationUnit Site
  model : Model
  declarations : Declarations

namespace LoadedUnit

/-- The key of the type that a node mentions. -/
def mentionedType : Node Site → Option String
  | .expr e => e.type
  | .varDecl decl => decl.type
  | _ => none

/-- Adds the types to a model that the nodes of a unit mention, in the order of the walk. -/
def internMentioned (model : Model) (unit : CompilationUnit Site) : Model :=
  (unit.tree.preorder.filterMap mentionedType).foldl (fun model name => (model.intern name).2)
    model

/-- Makes a tree and its model ready for analysis, unless a node is nested too deeply. -/
def ofTree (tree : CompilationUnit Span) (model : Model) : Except LoadError LoadedUnit :=
  let unit := tree.numbered
  match unit.tree.firstBelow? maxNesting with
  | some node => .error (.nesting unit.file node.span)
  | none => .ok ⟨unit, internMentioned model unit, .ofUnit unit⟩

/-- Makes a unit ready for analysis. -/
def ofDocument (document : UnitDocument) : Except LoadError LoadedUnit :=
  match Model.load document.model with
  | .error cause => .error (.model document.tree.file cause)
  | .ok model => ofTree document.tree model

/-- Makes the unit ready for analysis that a JSON value describes. -/
def ofJson (json : Json) : Except LoadError LoadedUnit :=
  match UnitDocument.read json with
  | .error cause => .error (.unreadable cause)
  | .ok document => ofDocument document

/-- Makes the unit ready for analysis that a text describes. -/
def parse (text : String) : Except LoadError LoadedUnit :=
  match UnitDocument.parse text with
  | .error cause => .error (.unreadable cause)
  | .ok document => ofDocument document

variable (loaded : LoadedUnit)

/-- The name of the source file. -/
def file : String := loaded.unit.file

/-- All nodes, in the order of the walk. -/
def nodes : List (Node Site) := loaded.unit.tree.preorder

/-- The type bound to an expression. -/
def typeOf (e : Expr Site) : Option TypeId := e.type.bind loaded.model.type?

/-- The symbol bound to an expression. -/
def symbolOf (e : Expr Site) : Option SymbolId := e.symbol.bind loaded.model.symbol?

/-- The symbol that a type declaration introduces. -/
def classSymbol (decl : ClassDecl Site) : Option SymbolId := decl.symbol.bind loaded.model.symbol?

end LoadedUnit

end BugPatterns
