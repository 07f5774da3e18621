import BugPatterns.Ast.Labels
import BugPatterns.Ast.NodeTree

/-!
# Declarations by symbol

The type declarations of a unit, and the fields and methods they hold, can be looked up by the key
of the symbol they introduce. Where several introduce the same symbol the last one counts, type
declarations being taken in the order of the walk.
-/

namespace BugPatterns

/-- Declarations by the key of their symbol, the newest first. -/
structure Declarations where
  fields : List (String × VarDecl Site)
  methods : List (String × MethodDecl Site)
  classes : List (String × ClassDecl Site)

namespace Declarations

/-- No declarations. -/
def empty : Declarations := ⟨[], [], []⟩

/-- Adds a declaration under its key, if it has one. -/
def insert {α : Type} (found : List (String × α)) (key : Option String) (decl : α) :
    List (String × α) :=
  match key with
  | some key => (key, decl) :: found
  | none => found

/-- Adds a type declaration with the fields and methods it holds itself. -/
def addClass (found : Declarations) (decl : ClassDecl Site) : Declarations where
  fields := decl.fields.foldl (fun found field => insert found field.symbol field) found.fields
  methods :=
    decl.methods.foldl (fun found method => insert found method.symbol method) found.methods
  classes := insert found.classes decl.symbol decl

/-- Adds what a node declares. -/
def addNode (found : Declarations) : Node Site → Declarations
  | .classDecl decl => found.addClass decl
  | _ => found

/-- The declarations of a unit. -/
def ofUnit (unit : CompilationUnit Site) : Declarations :=
  unit.tree.preorder.foldl addNode empty

/-- The field that introduces a symbol. -/
def field? (found : Declarations) (key : String) : Option (VarDecl Site) :=
  found.fields.lookup key

/-- The method that introduces a symbol. -/
def method? (found : Declarations) (key : String) : Option (MethodDecl Site) :=
  found.methods.lookup key

/-- The type declaration that introduces a symbol. -/
def class? (found : Declarations) (key : String) : Option (ClassDecl Site) :=
  found.classes.lookup key

end Declarations

end BugPatterns
