import BugPatterns.Catalog.Basic
import BugPatterns.Json.Parser
import BugPatterns.Json.Record

/-!
# Extending a catalog

A catalog grows by documents. A document is taken as a whole or not at all: every name in it has to
be non-blank, and no pair of type and method may be listed twice, be it in the document or in the
catalog it is added to.
-/

namespace BugPatterns

/-- The methods of one type that run queries. -/
structure SinkEntry where
  type : String
  methods : List String
  remediation : Option String
  deriving DecidableEq, Repr

/-- The methods of one type that have the same known effect. -/
structure CallEntry where
  type : String
  methods : List String
  effect : Effect
  deriving DecidableEq, Repr

/-- Entries to add to a catalog. -/
structure CatalogDocument where
  sinks : List SinkEntry
  calls : List CallEntry
  constructors : List String
  deriving DecidableEq, Repr

/-- The three kinds of catalog entries. -/
inductive EntryKind where
  | sink
  | call
  | constructor
  deriving DecidableEq, Repr

/-- The word for a kind of entry. -/
def EntryKind.word : EntryKind → String
  | .sink => "sink"
  | .call => "call"
  | .constructor => "constructor"

/-- Why a document cannot be added to a catalog. -/
inductive CatalogError where
  | unreadable (cause : ReadError)
  | duplicateEntry (kind : EntryKind) (owner method : String)
  | emptyName (kind : EntryKind)
  deriving DecidableEq, Repr

/-- The wording of an error. -/
def CatalogError.message : CatalogError → String
  | .unreadable _ => "invalid catalog json"
  | .duplicateEntry kind owner method =>
      s!"`{owner}#{method}` is listed more than once as a {kind.word}"
  | .emptyName kind => s!"catalog {kind.word} entry has an empty type or method name"

namespace CatalogDocument

/-- Reads the sinks of one type. -/
def readSink : Reader SinkEntry := fun json => do
  let record ← Record.ofJson? ["type", "methods", "remediation"] json
  return {
    type := ← record.required "type" Json.readString
    methods := ← record.required "methods" (Json.readList Json.readString)
    remediation := ← record.optional "remediation" Json.readString }

/-- Reads the known calls of one type. -/
def readCall : Reader CallEntry := fun json => do
  let record ← Record.ofJson? ["type", "methods", "effect"] json
  return {
    type := ← record.required "type" Json.readString
    methods := ← record.required "methods" (Json.readList Json.readString)
    effect := ← record.required "effect" (Keyword.read .outside) }

/-- Reads a catalog document; all its lists may be left out. -/
def read : Reader CatalogDocument := fun json => do
  let record ← Record.ofJson? ["sinks", "calls", "constructors"] json
  return {
    sinks := ← record.withDefault "sinks" [] (Json.readList readSink)
    calls := ← record.withDefault "calls" [] (Json.readList readCall)
    constructors := ← record.withDefault "constructors" [] (Json.readList Json.readString) }

/-- Reads a catalog document from text. -/
def parse (text : String) : Except ReadError CatalogDocument :=
  match Json.parse? text with
  | some json => read json
  | none => .error .invalid

end CatalogDocument

/-- The sinks that an entry lists. -/
def SinkEntry.sinks (entry : SinkEntry) : List Sink :=
  entry.methods.map fun method => ⟨entry.type, method, entry.remediation⟩

/-- The known calls that an entry lists. -/
def CallEntry.calls (entry : CallEntry) : List KnownCall :=
  entry.methods.map fun method => ⟨entry.type, method, entry.effect⟩

namespace Catalog

/-- The type and the methods of an entry have names. -/
def checkNames (kind : EntryKind) (type : String) (methods : List String) :
    Except CatalogError Unit :=
  if isBlankText type || methods.any isBlankText then .error (.emptyName kind) else .ok ()

/-- Adds a sink, unless its owner and method are listed already. -/
def addSink (catalog : Catalog) (sink : Sink) : Except CatalogError Catalog :=
  if catalog.sinks.any fun s => s.method = sink.method && s.owner = sink.owner then
    .error (.duplicateEntry .sink sink.owner sink.method)
  else .ok { catalog with sinks := catalog.sinks ++ [sink] }

/-- Adds a known call, unless its owner and method are listed already. -/
def addCall (catalog : Catalog) (call : KnownCall) : Except CatalogError Catalog :=
  if catalog.calls.any fun c => c.method = call.method && c.owner = call.owner then
    .error (.duplicateEntry .call call.owner call.method)
  else .ok { catalog with calls := catalog.calls ++ [call] }

/-- Adds the sinks of an entry. -/
def addSinkEntry (catalog : Catalog) (entry : SinkEntry) : Except CatalogError Catalog := do
  checkNames .sink entry.type entry.methods
  entry.sinks.foldlM addSink catalog

/-- Adds the known calls of an entry. -/
def addCallEntry (catalog : Catalog) (entry : CallEntry) : Except CatalogError Catalog := do
  checkNames .call entry.type entry.methods
  entry.calls.foldlM addCall catalog

/-- Adds a class whose constructors propagate; it may be there already. -/
def addConstructor (catalog : Catalog) (type : String) : Except CatalogError Catalog :=
  if isBlankText type then .error (.emptyName .constructor)
  else .ok { catalog with constructors := appendNew catalog.constructors type }

/-- Adds all entries of a document. -/
def extend (catalog : Catalog) (document : CatalogDocument) : Except CatalogError Catalog := do
  let catalog ← document.sinks.foldlM addSinkEntry catalog
  let catalog ← document.calls.foldlM addCallEntry catalog
  document.constructors.foldlM addConstructor catalog

/-- Adds all entries of the document that a JSON value describes. -/
def extendJson (catalog : Catalog) (json : Json) : Except CatalogError Catalog :=
  match CatalogDocument.read json with
  | .error cause => .error (.unreadable cause)
  | .ok document => catalog.extend document

/-- Adds all entries of the document that a text describes. -/
def extendText (catalog : Catalog) (text : String) : Except CatalogError Catalog :=
  match CatalogDocument.parse text with
  | .error cause => .error (.unreadable cause)
  | .ok document => catalog.extend document

end Catalog

end BugPatterns
