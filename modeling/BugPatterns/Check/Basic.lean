import BugPatterns.Constancy.Trace

/-!
# Checks

A check names the kinds of nodes it wants to see. Shown a node and what surrounds it, it answers
with reports, and possibly with a failure after them. A check keeps nothing from one node to the
next, so its answer depends on the node and its surroundings only.
-/

namespace BugPatterns

/-- How serious a finding is. -/
inductive Severity where
  | minor
  | major
  | critical
  deriving DecidableEq, Repr

instance : Keyword Severity where
  all := [.minor, .major, .critical]
  word
    | .minor => "minor"
    | .major => "major"
    | .critical => "critical"

/-- A declaration around a node that matters to checks. -/
inductive Scope where
  | classDecl (decl : ClassDecl Site)
  | method (decl : MethodDecl Site)

namespace Scope

/-- The scope that a node opens for what is below it. -/
def ofNode? : Node Site → Option Scope
  | .classDecl decl => some (.classDecl decl)
  | .method decl => some (.method decl)
  | _ => none

/-- The scope as a method. -/
def method? : Scope → Option (MethodDecl Site)
  | .method decl => some decl
  | .classDecl _ => none

/-- The scope as a type declaration. -/
def class? : Scope → Option (ClassDecl Site)
  | .classDecl decl => some decl
  | .method _ => none

end Scope

/-- What surrounds a node that a check is shown: the unit, the known calls, how deeply values may
    be traced, and the scopes around the node, innermost first. -/
structure Surroundings where
  loaded : LoadedUnit
  catalog : Catalog
  maxDepth : Nat
  scopes : List Scope

namespace Surroundings

variable (here : Surroundings)

/-- The model of the unit. -/
def model : Model := here.loaded.model

/-- The method that directly contains the node; nothing in a field initializer, or where a type
    declaration is closer. -/
def enclosingMethod : Option (MethodDecl Site) := here.scopes.head?.bind Scope.method?

/-- All methods around the node, innermost first, across type declarations. -/
def enclosingMethods : List (MethodDecl Site) := here.scopes.filterMap Scope.method?

/-- The closest type declaration around the node. -/
def enclosingClass : Option (ClassDecl Site) := here.scopes.findSome? Scope.class?

/-- The verdict on an expression at the node. -/
def classify (e : Expr Site) : Verdict :=
  Tracer.classify ⟨here.loaded, here.catalog, here.maxDepth⟩ here.enclosingMethod e

end Surroundings

/-- A finding of a check: the place and kind of the node it is about, and what to tell. -/
structure Report where
  span : Span
  kind : NodeKind
  message : String
  deriving DecidableEq, Repr

/-- A finding about a node. -/
def Report.about (node : Node Site) (message : String) : Report :=
  ⟨node.span, node.kind, message⟩

/-- The answer of a check to a node: its reports, and why it failed after them, if it did. -/
structure Answer where
  reports : List Report
  failure : Option String
  deriving DecidableEq, Repr

namespace Answer

/-- Some reports and no failure. -/
def ofReports (reports : List Report) : Answer := ⟨reports, none⟩

/-- Nothing to report. -/
def nothing : Answer := ofReports []

end Answer

/-- A check: the key, title, severity and tags of its rule, the kinds of nodes it is shown, and its
    answer to them. -/
structure Check where
  key : String
  title : String
  severity : Severity
  tags : List String
  kinds : List NodeKind
  visit : Surroundings → Node Site → Answer

/-- A finding, with the rule it comes from and the file it is in. -/
structure Diagnostic where
  rule : String
  severity : Severity
  file : String
  span : Span
  kind : NodeKind
  message : String
  deriving DecidableEq, Repr

namespace Diagnostic

/-- One line of text that tells the finding. -/
def text (diagnostic : Diagnostic) : String :=
  s!"{diagnostic.file}:{diagnostic.span.text}: [{diagnostic.rule}] {diagnostic.message}"

/-- Writes a finding. -/
def toJson (diagnostic : Diagnostic) : Json :=
  .obj [("rule", .str diagnostic.rule), ("severity", Keyword.toJson diagnostic.severity),
    ("file", .str diagnostic.file), ("span", diagnostic.span.toJson),
    ("node_kind", Keyword.toJson diagnostic.kind), ("message", .str diagnostic.message)]

end Diagnostic

/-- A check that failed on a node. Only that one visit is lost. -/
structure CheckFailure where
  rule : String
  span : Span
  error : String
  deriving DecidableEq, Repr

namespace CheckFailure

/-- One line of text that tells the failure. -/
def text (failure : CheckFailure) : String :=
  s!"{failure.rule} failed at {failure.span.text}: {failure.error}"

/-- Writes a failure. -/
def toJson (failure : CheckFailure) : Json :=
  .obj [("rule", .str failure.rule), ("span", failure.span.toJson),
    ("error", .str failure.error)]

end CheckFailure

end BugPatterns
