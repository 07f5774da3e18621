import BugPatterns.Model.Basic

/-!
# Declaring a symbol in place

A host that builds a model changes it. Declaring a symbol is the only operation that may fail: the
key is checked before anything is changed.
-/

namespace BugPatterns

/-- A change of a model that may fail part way through; what it did before stays done. -/
abbrev ModelM := ExceptT ModelError (StateM Model)

namespace ModelM

/-- Runs a change: how it ends, and the model that it leaves. -/
def start {α : Type} (change : ModelM α) (model : Model) : Except ModelError α × Model :=
  StateT.run (ExceptT.run change) model

/-- Declares a method or a variable, and makes it a member of its owner if that is a type. -/
def declare (key name : String) (kind : SymbolKind) (owner : Option SymbolId) :
    ModelM SymbolId := do
  if ((← get).symbol? key).isSome then throw (.duplicateSymbol key)
  let id ← modifyGet fun model => model.pushSymbol (.bare key name kind owner none)
  if let some owner := owner then
    if ((← get).symbol owner).kind = .type then
      modify fun model => model.modifySymbol owner fun info =>
        { info with members := info.members ++ [id] }
  return id

end ModelM

end BugPatterns
