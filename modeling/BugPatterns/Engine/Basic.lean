import BugPatterns.Catalog.Builtin
import BugPatterns.Check.Registry
import BugPatterns.Engine.Options
import BugPatterns.Rule.Equality
import BugPatterns.Rule.Finalizer
import BugPatterns.Rule.InnerCall
import BugPatterns.Rule.Injection

/-!
# The engine

An engine runs the chosen rules over units, with the built-in catalog and what was added to it. The
findings on a unit are ordered by where they start; those that start at the same place stay in the
order in which they came up. An engine keeps nothing of the units it has seen.
-/

namespace BugPatterns

/-- All rules, in the order in which they run. -/
def builtinChecks : List Check :=
  [Rule.objectEquality, Rule.sqlInjection, Rule.finalizerNulling, Rule.innerClassCalls]

/-- Why an engine cannot be built or extended, or cannot analyse a unit. -/
inductive EngineError where
  | unreadableOptions (cause : ReadError)
  | unknownRule (rule : String)
  | registry (cause : RegistryError)
  | catalog (cause : CatalogError)
  | load (cause : LoadError)
  deriving DecidableEq, Repr

/-- The wording of an error. -/
def EngineError.message : EngineError → String
  | .unreadableOptions _ => "parsing analysis options"
  | .unknownRule rule => s!"unknown rule `{rule}`"
  | .registry cause => cause.message
  | .catalog cause => "extending api catalog: " ++ cause.message
  | .load cause => cause.message

/-- The findings on one unit in source order, and the failures of checks. -/
structure AnalysisResult where
  file : String
  diagnostics : List Diagnostic
  failures : List CheckFailure
  deriving DecidableEq, Repr

/-- Writes a result. -/
def AnalysisResult.toJson (result : AnalysisResult) : Json :=
  .obj [("file", .str result.file),
    ("diagnostics", .arr (result.diagnostics.map Diagnostic.toJson)),
    ("failures", .arr (result.failures.map CheckFailure.toJson))]

/-- The chosen rules with the catalog they use. -/
structure Engine where
  registry : Registry
  catalog : Catalog
  options : Options

namespace Engine

/-- The checks of the rules that were chosen, in the order of all rules; each has to exist. -/
def chooseChecks (checks : List Check) : Option (List String) → Except EngineError (List Check)
  | none => .ok checks
  | some rules =>
      match rules.find? fun rule => !(checks.map (·.key)).contains rule with
      | some rule => .error (.unknownRule rule)
      | none => .ok (checks.filter fun check => rules.contains check.key)

/-- An engine with the built-in catalog. -/
def ofOptions (options : Options) : Except EngineError Engine := do
  let checks ← chooseChecks builtinChecks options.rules
  match Registry.ofChecks checks with
  | .error cause => throw (.registry cause)
  | .ok registry => return ⟨registry, .builtin, options⟩

/-- An engine that runs all rules. -/
def standard : Except EngineError Engine := ofOptions .standard

/-- The engine with a catalog that was extended. -/
def withCatalog (engine : Engine) : Except CatalogError Catalog → Except EngineError Engine
  | .error cause => .error (.catalog cause)
  | .ok catalog => .ok { engine with catalog := catalog }

/-- Adds the entries that a JSON value describes to the catalog. -/
def extendJson (engine : Engine) (json : Json) : Except EngineError Engine :=
  engine.withCatalog (engine.catalog.extendJson json)

/-- Adds the entries that a text describes to the catalog. -/
def extendText (engine : Engine) (text : String) : Except EngineError Engine :=
  engine.withCatalog (engine.catalog.extendText text)

/-- The keys of the rules that run. -/
def rules (engine : Engine) : List String := engine.registry.keys

/-- Analyses a unit. -/
def analyze (engine : Engine) (loaded : LoadedUnit) : AnalysisResult :=
  let output := engine.registry.run loaded engine.catalog engine.options.maxTraceDepth.toNat
  { file := loaded.file
    diagnostics := output.diagnostics.mergeSort fun a b => a.span.startsNoLater b.span
    failures := output.failures }

/-- Loads and analyses the unit that a text describes. -/
def analyzeText (engine : Engine) (text : String) : Except EngineError AnalysisResult :=
  match LoadedUnit.parse text with
  | .error cause => .error (.load cause)
  | .ok loaded => .ok (engine.analyze loaded)

end Engine

end BugPatterns
