import BugPatterns.Constancy.Trace
import Mathlib.Data.Finset.Basic

/-!
# Tracing in place

A query about an expression keeps one state while it traces values: how many steps lead from the
expression to the place at hand, and which uses and fields are being traced. Every step changes the
state where it goes deeper and takes the change back when it returns; the steps that come next find
what it leaves.
-/

namespace BugPatterns

/-- What a query keeps while it runs: the steps that lead to the place at hand, and the uses of
    local variables, by node number, and the fields that are being traced. -/
structure QueryState where
  depth : Nat
  uses : Finset Nat
  fields : Finset SymbolId
  deriving DecidableEq

/-- The state at the start of a query. -/
def QueryState.start : QueryState := ⟨0, ∅, ∅⟩

/-- A computation that changes the state of a query. -/
abbrev QueryM := StateM QueryState

namespace QueryM

/-- Adds a use to those that are being traced. The answer is whether it was not among them. -/
def enterUse (use : Nat) : QueryM Bool := modifyGet fun state =>
  (decide (use ∉ state.uses), { state with uses := insert use state.uses })

/-- Removes a use from those that are being traced. -/
def leaveUse (use : Nat) : QueryM Unit := modify fun state =>
  { state with uses := state.uses.erase use }

/-- Adds a field to those that are being traced. The answer is whether it was not among them. -/
def enterField (field : SymbolId) : QueryM Bool := modifyGet fun state =>
  (decide (field ∉ state.fields), { state with fields := insert field state.fields })

/-- Removes a field from those that are being traced. -/
def leaveField (field : SymbolId) : QueryM Unit := modify fun state =>
  { state with fields := state.fields.erase field }

/-- Goes one step deeper. -/
def descend : QueryM Unit := modify fun state => { state with depth := state.depth + 1 }

/-- Comes back from a step. -/
def ascend : QueryM Unit := modify fun state => { state with depth := state.depth - 1 }

end QueryM

/-- How the expressions reached by one more step are classified: in the context of a method or of
    none. -/
abbrev QueryStep := TraceContext → Expr Site → QueryM Verdict

namespace Tracer

variable (tracer : Tracer)

mutual

/-- Classifies an expression, given how uses of symbols are classified. -/
def queryWith (onSymbol : Expr Site → SymbolId → QueryM Verdict) : Expr Site → QueryM Verdict
  | .literal .. => return .constant
  | .paren _ inner _ => queryWith onSymbol inner
  | .cast _ operand _ => queryWith onSymbol operand
  | .unary _ _ operand _ => queryWith onSymbol operand
  | .binary _ _ lhs rhs _ => do
      let left ← queryWith onSymbol lhs
      return left.join (← queryWith onSymbol rhs)
  | .conditional _ _ whenTrue whenFalse _ => do
      let left ← queryWith onSymbol whenTrue
      return left.join (← queryWith onSymbol whenFalse)
  | .assign _ _ _ value _ => queryWith onSymbol value
  | e@(.ident _ name _ _) =>
      match tracer.loaded.symbolOf e with
      | some symbol => onSymbol e symbol
      | none => return e.blame name .unresolved
  | e@(.select _ _ name _ _) =>
      match tracer.loaded.symbolOf e with
      | some symbol => onSymbol e symbol
      | none => return e.blame name .unresolved
  | e@(.call _ callee args _ _) =>
      match tracer.callEffect? e callee with
      | some .safe => return .safe
      | some _ => do
          let receiver ← queryReceiverWith onSymbol callee
          queryAllWith onSymbol receiver args
      | none => return e.blame e.describe .call
  | e@(.creation _ args body _ _) =>
      if tracer.constructs e body then queryAllWith onSymbol .constant args
      else return e.blame e.describe .call
  | e@(.index ..) => return e.blame e.describe .expression

/-- Classifies the value that a method is called on; an unqualified call adds nothing. -/
def queryReceiverWith (onSymbol : Expr Site → SymbolId → QueryM Verdict) :
    Expr Site → QueryM Verdict
  | .select _ target _ _ _ => queryWith onSymbol target
  | _ => return .constant

/-- Classifies some expressions, and joins them to a verdict that is there already. -/
def queryAllWith (onSymbol : Expr Site → SymbolId → QueryM Verdict) (verdict : Verdict) :
    List (Expr Site) → QueryM Verdict
  | [] => return verdict
  | e :: es => do
      let next ← queryWith onSymbol e
      queryAllWith onSymbol (verdict.join next) es

end

/-- Classifies what was added to a variable, and joins it to the verdict on its value. -/
def queryUpdatesWith (step : Expr Site → QueryM Verdict) (verdict : Verdict)
    (updates : List (Expr Site)) : QueryM Verdict :=
  updates.foldlM (fun verdict update => do return verdict.join (← step update)) verdict

/-- Classifies what definitions give to a variable, one step deeper. -/
def queryDefinitionsWith (step : Expr Site → QueryM Verdict) (undefined : Verdict) :
    Option Definitions → QueryM Verdict
  | some ⟨some latest, updates⟩ => do
      QueryM.descend
      let verdict ← step latest
      let verdict ← queryUpdatesWith step verdict updates
      QueryM.ascend
      return verdict
  | _ => return undefined

/-- Classifies a use of a local variable. -/
def queryLocalWith (step : QueryStep) (context : TraceContext) (use : Expr Site)
    (symbol : SymbolId) : QueryM Verdict := do
  let undefined := use.blame (tracer.loaded.model.symbol symbol).name .localVariable
  if tracer.maxDepth ≤ (← get).depth then return undefined
  if !(← QueryM.enterUse use.label.number) then return .constant
  let (definitions, context) := tracer.definitionsOf context use symbol
  let verdict ← queryDefinitionsWith (step context) undefined definitions
  QueryM.leaveUse use.label.number
  return verdict

/-- Classifies a use of a field. Only a constant initializer clears the field. -/
def queryFieldWith (step : QueryStep) (use : Expr Site) (symbol : SymbolId) : QueryM Verdict := do
  let info := tracer.loaded.model.symbol symbol
  let unsafeField := use.blame info.name .field
  if info.constant.isSome then return .constant
  if !info.isFinal || tracer.maxDepth ≤ (← get).depth then return unsafeField
  match (tracer.loaded.declarations.field? info.key).bind (·.init) with
  | none => return unsafeField
  | some init =>
      if !(← QueryM.enterField symbol) then return .constant
      QueryM.descend
      let verdict ← step none init
      QueryM.ascend
      QueryM.leaveField symbol
      return if verdict.constancy = .staticConstant then verdict else unsafeField

/-- Classifies a use of a symbol. A type is only the qualifier of a static member. -/
def querySymbolWith (step : QueryStep) (context : TraceContext) (use : Expr Site)
    (symbol : SymbolId) : QueryM Verdict :=
  let model := tracer.loaded.model
  let name := (model.symbol symbol).name
  if model.isTypeSymbol symbol then return .constant
  else if model.isParameter symbol then return use.blame name .parameter
  else if model.isLocalVariable symbol then tracer.queryLocalWith step context use symbol
  else if model.isField symbol then tracer.queryFieldWith step use symbol
  else return use.blame name .unresolved

/-- Classifies an expression, with at most so many steps within each other. -/
def queryWithin : Nat → QueryStep
  | 0, context, e =>
      tracer.queryWith (tracer.querySymbolWith (fun _ _ => return .constant) context) e
  | steps + 1, context, e =>
      tracer.queryWith (tracer.querySymbolWith (queryWithin steps) context) e

/-- Classifies an expression. No step is made at the greatest depth, so there are no more steps
    within each other than are left till there. -/
def queryExpr : QueryStep := fun context e => do
  tracer.queryWithin (tracer.maxDepth - (← get).depth) context e

end Tracer

end BugPatterns
