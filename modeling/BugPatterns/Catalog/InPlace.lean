import BugPatterns.Catalog.Document

/-!
# Extending a catalog in place

A host that holds a catalog changes it. Merging a document adds entry by entry and stops at the
first one that cannot be added, with what came before it merged; so an extension merges into a copy,
and the catalog is replaced by the copy once the whole document is in it.
-/

namespace BugPatterns

/-- A change of a catalog that may fail part way through; what it did before stays done. -/
abbrev CatalogM := ExceptT CatalogError (StateM Catalog)

namespace CatalogM

/-- Runs a change: how it ends, and the catalog that it leaves. -/
def start {α : Type} (change : CatalogM α) (catalog : Catalog) :
    Except CatalogError α × Catalog :=
  StateT.run (ExceptT.run change) catalog

/-- What a change makes of a copy of a catalog, unless it fails. -/
def onCopy (change : CatalogM Unit) (catalog : Catalog) : Except CatalogError Catalog :=
  match change.start catalog with
  | (.error cause, _) => .error cause
  | (.ok (), copy) => .ok copy

/-- Replaces the catalog by what is made of it, if that can be made. -/
def replace (make : Catalog → Except CatalogError Catalog) : CatalogM Unit := do
  match make (← get) with
  | .error cause => throw cause
  | .ok made => set made

end CatalogM

namespace Catalog

/-- Merges the sinks of an entry, once its names are checked. -/
def mergeSinks (entry : SinkEntry) : CatalogM Unit := do
  liftExcept (checkNames .sink entry.type entry.methods)
  entry.sinks.forM fun sink => CatalogM.replace (·.addSink sink)

/-- Merges the known calls of an entry, once its names are checked. -/
def mergeCalls (entry : CallEntry) : CatalogM Unit := do
  liftExcept (checkNames .call entry.type entry.methods)
  entry.calls.forM fun call => CatalogM.replace (·.addCall call)

/-- Merges a document, entry by entry. -/
def merge (document : CatalogDocument) : CatalogM Unit := do
  document.sinks.forM mergeSinks
  document.calls.forM mergeCalls
  document.constructors.forM fun type => CatalogM.replace (·.addConstructor type)

/-- Extends the catalog by the document that a text describes, or leaves it as it is. -/
def extendInPlace (text : String) : CatalogM Unit :=
  CatalogM.replace fun catalog =>
    match CatalogDocument.parse text with
    | .error cause => .error (.unreadable cause)
    | .ok document => (merge document).onCopy catalog

end Catalog

end BugPatterns
