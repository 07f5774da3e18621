import BugPatterns.Ast.Reader
import BugPatterns.Ast.Writer
import BugPatterns.Json.Parser
import BugPatterns.Model.Document

/-!
# Unit documents

A resolver hands over a unit as one document: the syntax tree, and the description of the types and
symbols it refers to.
-/

namespace BugPatterns

/-- A syntax tree with the description of the model it refers to. -/
structure UnitDocument where
  model : ModelDocument
  tree : CompilationUnit Span

namespace UnitDocument

/-- Reads a unit document; only the tree has to be present. -/
def read : Reader UnitDocument := fun json => do
  let record ← Record.ofJson? ["model", "tree"] json
  return {
    model := ← record.withDefault "model" .empty ModelDocument.read
    tree := ← record.required "tree" CompilationUnit.read }

/-- Reads a unit document from text. -/
def parse (text : String) : Except ReadError UnitDocument :=
  match Json.parse? text with
  | some json => read json
  | none => .error .invalid

/-- Writes a unit document. -/
def toJson (document : UnitDocument) : Json :=
  .obj [("model", document.model.toJson), ("tree", document.tree.toJson)]

end UnitDocument

end BugPatterns
