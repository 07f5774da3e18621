import BugPatterns.Check.Basic

/-!
# Registries of checks

A registry holds checks in the order of their registration, and a table that says which of them are
shown nodes of which kind. A pass over a unit walks all its nodes once, and shows each node to the
checks that subscribe to its kind, in the order of registration.
-/

namespace BugPatterns

/-- Why something cannot be registered under a name; `registry` says in what. -/
inductive RegistryError where
  | alreadyExists (registry name : String)
  | invalidName (registry name : String)
  | noSubscriptions (registry name : String)
  deriving DecidableEq, Repr

/-- The wording of an error. -/
def RegistryError.message : RegistryError → String
  | .alreadyExists registry name =>
      s!"{registry} registration failed: An item with the name '{name}' is already registered."
  | .invalidName registry name =>
      s!"{registry} registration failed: The name '{name}' is invalid " ++
        "(empty or whitespace-only names are not allowed)."
  | .noSubscriptions registry name =>
      s!"{registry} registration failed: '{name}' does not subscribe to any node kind."

/-- A name may not be blank. -/
def validateName (registry name : String) : Except RegistryError Unit :=
  if isBlankText name then .error (.invalidName registry name) else .ok ()

/-- For kinds of nodes, the positions of the checks that subscribe to them. -/
abbrev Subscriptions := List (NodeKind × List Nat)

namespace Subscriptions

/-- Adds the check at a position to the subscribers of a kind, unless it is one already. -/
def insert (position : Nat) (kind : NodeKind) : Subscriptions → Subscriptions
  | [] => [(kind, [position])]
  | (k, positions) :: rest =>
      if k = kind then (k, appendNew positions position) :: rest
      else (k, positions) :: insert position kind rest

/-- The positions of the subscribers of a kind. -/
def positions (table : Subscriptions) (kind : NodeKind) : List Nat :=
  (table.lookup kind).getD []

end Subscriptions

/-- Checks in the order of their registration, and who is shown what. -/
structure Registry where
  checks : List Check
  table : Subscriptions

/-- The findings and failures of a pass, in the order in which they came up. -/
structure PassOutput where
  diagnostics : List Diagnostic
  failures : List CheckFailure
  deriving DecidableEq, Repr

namespace Registry

/-- What a registry of checks is called in errors. -/
def kindName : String := "check"

/-- No checks. -/
def empty : Registry := ⟨[], []⟩

/-- Registers a check. Its key has to be a name that no other check has, and it has to subscribe to
    some kind. -/
def add (registry : Registry) (check : Check) : Except RegistryError Registry := do
  validateName kindName check.key
  if registry.checks.any fun c => c.key = check.key then
    throw (.alreadyExists kindName check.key)
  if check.kinds.isEmpty then throw (.noSubscriptions kindName check.key)
  return {
    checks := registry.checks ++ [check]
    table := check.kinds.foldl (fun table kind => table.insert registry.checks.length kind)
      registry.table }

/-- Registers some checks, in their order. -/
def ofChecks (checks : List Check) : Except RegistryError Registry := checks.foldlM add empty

/-- How many checks there are. -/
def size (registry : Registry) : Nat := registry.checks.length

/-- The keys of all checks. -/
def keys (registry : Registry) : List String := registry.checks.map (·.key)

/-- The checks that subscribe to a kind. -/
def subscribers (registry : Registry) (kind : NodeKind) : List Check :=
  (registry.table.positions kind).filterMap (registry.checks[·]?)

/-- A node shown to a check. -/
structure Showing where
  check : Check
  here : Surroundings
  node : Node Site

namespace Showing

/-- The answer of the check. -/
def answer (showing : Showing) : Answer := showing.check.visit showing.here showing.node

/-- The findings that the check gave as its answer. -/
def diagnostics (showing : Showing) (answer : Answer) : List Diagnostic :=
  answer.reports.map fun report =>
    { rule := showing.check.key
      severity := showing.check.severity
      file := showing.here.loaded.file
      span := report.span
      kind := report.kind
      message := report.message }

/-- The failure that the check gave as its answer. -/
def failure? (showing : Showing) (answer : Answer) : Option CheckFailure :=
  answer.failure.map fun error =>
    { rule := showing.check.key, span := showing.node.span, error := error }

end Showing

/-- All nodes of a unit as they are shown to checks, in the order of a pass. -/
def showings (registry : Registry) (loaded : LoadedUnit) (catalog : Catalog) (maxDepth : Nat) :
    List Showing :=
  (loaded.unit.tree.underScopes Scope.ofNode? []).flatMap fun (scopes, node) =>
    (registry.subscribers node.kind).map fun check =>
      ⟨check, ⟨loaded, catalog, maxDepth, scopes⟩, node⟩

/-- Walks a unit once and collects what the checks answer. -/
def run (registry : Registry) (loaded : LoadedUnit) (catalog : Catalog) (maxDepth : Nat) :
    PassOutput :=
  let answers := (registry.showings loaded catalog maxDepth).map fun showing =>
    (showing, showing.answer)
  { diagnostics := answers.flatMap fun (showing, answer) => showing.diagnostics answer
    failures := answers.filterMap fun (showing, answer) => showing.failure? answer }

end Registry

end BugPatterns
