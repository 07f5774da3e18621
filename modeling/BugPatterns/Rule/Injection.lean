import BugPatterns.Check.Basic

/-!
# Queries built from outside input

A query that is run with a text of unknown origin may run something else than was meant. The first
argument of a call that reaches a sink is traced to its origin.
-/

namespace BugPatterns.Rule

/-- What to tell about a query with an unsafe verdict. The advice for the sink counts most. -/
def injectionMessage (sink : Sink) (verdict : Verdict) : String :=
  match sink.remediation, verdict.witness with
  | some remediation, _ => remediation
  | none, some witness =>
      "\"" ++ witness.name ++
        "\" is provided externally to the method and not sanitized before use."
  | none, none => "The query is built from values that are not sanitized."

/-- The sink that a call reaches, with the query it is given. -/
def sinkOfCall? (here : Surroundings) : Expr Site → Option (Sink × Expr Site)
  | .call _ (.select _ target name _ _) (query :: _) _ _ => do
      let receiver ← here.loaded.typeOf target
      let sink ← here.catalog.sink? here.model receiver name
      return (sink, query)
  | _ => none

/-- Values in queries should be sanitized. -/
def sqlInjection : Check where
  key := "S2077"
  title := "Values passed to SQL commands should be sanitized"
  severity := .critical
  tags := ["cwe", "hibernate", "injection", "owasp-top10", "sans-top25", "security", "sql"]
  kinds := [.methodInvocation]
  visit here
    | node@(.expr call) =>
        match sinkOfCall? here call with
        | none => .nothing
        | some (sink, query) =>
            let verdict := here.classify query
            if verdict.isUnsafe then .ofReports [.about node (injectionMessage sink verdict)]
            else .nothing
    | _ => .nothing

end BugPatterns.Rule
