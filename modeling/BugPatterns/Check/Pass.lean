import BugPatterns.Check.Registry

/-!
# Passes with shared state

A pass is one walk over a unit in which all checks share what there is of state: the stack of the
scopes around the node at hand, whose reports are taken, and what has been reported so far.

`Registry.walk` leaves open what happens when a node is shown to a check, so it tells in which order
that happens and under which scopes, whatever the checks do. `Registry.pass` fills in that they
report.
-/

namespace BugPatterns

namespace Registry

section Walk

variable {m : Type → Type} [Monad m] (registry : Registry) (loaded : LoadedUnit)
  (catalog : Catalog) (maxDepth : Nat) (invoke : Showing → m Unit)

/-- Shows a node to the checks that subscribe to its kind, one after the other. -/
def dispatch (node : Node Site) : StateT (List Scope) m Unit := do
  let scopes ← get
  (registry.subscribers node.kind).forM fun check =>
    StateT.lift (invoke ⟨check, ⟨loaded, catalog, maxDepth, scopes⟩, node⟩)

mutual

/-- Shows the nodes of a tree to the checks, each before those below it. While the walk is below a
    node that opens a scope, the scope is on the stack. -/
def walk : Tree (Node Site) → StateT (List Scope) m Unit
  | .node node below => do
      dispatch registry loaded catalog maxDepth invoke node
      match Scope.ofNode? node with
      | some scope => do
          modify fun scopes => scope :: scopes
          walkAll below
          modify List.tail
      | none => walkAll below

/-- Shows the nodes of some trees to the checks, tree by tree. -/
def walkAll : List (Tree (Node Site)) → StateT (List Scope) m Unit
  | [] => return
  | t :: ts => do
      walk t
      walkAll ts

end

end Walk

end Registry

/-- Under which rule, and how seriously, reports are taken. -/
structure Reporter where
  rule : String
  severity : Severity
  deriving DecidableEq, Repr

/-- What the checks of a pass share: who is reporting, and what has come up so far. -/
structure PassState where
  reporter : Option Reporter
  diagnostics : List Diagnostic
  failures : List CheckFailure
  deriving DecidableEq, Repr

namespace PassState

/-- Nobody is reporting and nothing has come up. -/
def start : PassState := ⟨none, [], []⟩

/-- Takes a report; it is dropped where nobody is reporting. -/
def report (file : String) (found : Report) : StateM PassState Unit := modify fun state =>
  match state.reporter with
  | none => state
  | some reporter => { state with
      diagnostics := state.diagnostics ++ [{
        rule := reporter.rule
        severity := reporter.severity
        file := file
        span := found.span
        kind := found.kind
        message := found.message }] }

/-- Notes that a check failed on a node. -/
def fail (rule : String) (node : Node Site) (error : String) : StateM PassState Unit :=
  modify fun state => { state with
    failures := state.failures ++ [{ rule := rule, span := node.span, error := error }] }

/-- Lets a check visit a node. It reports under its own rule, and what it reported before it failed
    stays. -/
def visit (showing : Registry.Showing) : StateM PassState Unit := do
  modify fun state => { state with
    reporter := some ⟨showing.check.key, showing.check.severity⟩ }
  let answer := showing.answer
  answer.reports.forM (report showing.here.loaded.file)
  answer.failure.forM (fail showing.check.key showing.node)
  modify fun state => { state with reporter := none }

end PassState

/-- Walks a unit once, with the checks reporting into one state. -/
def Registry.pass (registry : Registry) (loaded : LoadedUnit) (catalog : Catalog)
    (maxDepth : Nat) : PassOutput :=
  let walked := (registry.walk loaded catalog maxDepth PassState.visit loaded.unit.tree).run []
  let state := (walked.run .start).2
  ⟨state.diagnostics, state.failures⟩

end BugPatterns
