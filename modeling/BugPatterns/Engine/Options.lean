import BugPatterns.Json.Parser
import BugPatterns.Json.Record

/-!
# Options of an analysis
-/

namespace BugPatterns

/-- Which rules run, all of them where none are named, and how many steps a value is traced at
    most. -/
structure Options where
  rules : Option (List String)
  maxTraceDepth : UInt64
  deriving DecidableEq, Repr

namespace Options

/-- All rules, and 32 steps. -/
def standard : Options := ⟨none, 32⟩

/-- Only some rules run. -/
def isFiltered (options : Options) : Bool := options.rules.isSome

/-- Reads options; each of them may be left out. -/
def read : Reader Options := fun json => do
  let record ← Record.ofJson? ["rules", "max_trace_depth"] json
  return {
    rules := ← record.optional "rules" (Json.readList Json.readString)
    maxTraceDepth :=
      ← record.withDefault "max_trace_depth" standard.maxTraceDepth Json.readUInt64 }

/-- Writes options. -/
def toJson (options : Options) : Json :=
  .obj [("rules", Json.ofOption Json.strings options.rules),
    ("max_trace_depth", .nat options.maxTraceDepth.toNat)]

/-- Reads options from text. -/
def parse (text : String) : Except ReadError Options :=
  match Json.parse? text with
  | some json => read json
  | none => .error .invalid

end Options

end BugPatterns
