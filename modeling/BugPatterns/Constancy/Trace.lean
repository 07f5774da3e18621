import BugPatterns.Constancy.Definitions
import BugPatterns.Constancy.Verdict

/-!
# Tracing values to their origin

The verdict on an expression is joined from the verdicts on the parts that its value is built from.
A use of a local variable is traced to the definitions that reach it, a use of a final field to its
initializer. Each such step takes one from the depth that is left; when nothing is left the variable
or field itself is to blame. A use that is being traced already, or a field whose initializer is,
adds nothing to the verdict.
-/

namespace BugPatterns

/-- The method whose body is searched for definitions of local variables, if there is one. -/
abbrev TraceContext := Option (MethodDecl Site)

/-- The uses of local variables, by node number, and the fields that are being traced. -/
structure ActiveTraces where
  uses : List Nat
  fields : List SymbolId
  deriving DecidableEq, Repr

/-- Nothing is being traced. -/
def ActiveTraces.idle : ActiveTraces := ⟨[], []⟩

/-- A computation that enters and leaves traces. -/
abbrev TraceM := StateM ActiveTraces

/-- Runs a computation while a use is being traced. -/
def TraceM.withUse {α : Type} (use : Nat) (inner : TraceM α) : TraceM α := do
  modify fun active => { active with uses := use :: active.uses }
  let result ← inner
  modify fun active => { active with uses := active.uses.erase use }
  return result

/-- Runs a computation while the initializer of a field is being traced. -/
def TraceM.withField {α : Type} (field : SymbolId) (inner : TraceM α) : TraceM α := do
  modify fun active => { active with fields := field :: active.fields }
  let result ← inner
  modify fun active => { active with fields := active.fields.erase field }
  return result

/-- The name by which an expression is blamed. -/
def Expr.describe {α : Type} : Expr α → String
  | .ident _ name _ _ => name
  | .select _ _ name _ _ => name
  | .call _ callee _ _ _ => callee.describe
  | .creation _ _ _ _ (some type) => TypeName.simpleName type
  | .index _ target _ _ => target.describe
  | .paren _ inner _ => inner.describe
  | .cast _ operand _ => operand.describe
  | _ => "expression"

/-- Blames an expression under a name. -/
def Expr.blame (e : Expr Site) (name : String) (origin : WitnessOrigin) : Verdict :=
  .blame name e.label.span origin

/-- What the verdicts of one unit are found with. -/
structure Tracer where
  loaded : LoadedUnit
  catalog : Catalog
  maxDepth : Nat

/-- How the expressions reached by one more step are judged: in the context of a method or of
    none. -/
abbrev TraceStep := TraceContext → Expr Site → TraceM Verdict

namespace Tracer

variable (tracer : Tracer)

/-- The effect of a call, as far as it is known. -/
def callEffect? (call callee : Expr Site) : Option Effect :=
  callee.name?.bind
    (tracer.catalog.effect? tracer.loaded.model (tracer.loaded.callCandidates call))

/-- A new object is built from the arguments of its constructor; the body of an anonymous class
    may do anything else. -/
def constructs (creation : Expr Site) (body : Option (ClassDecl Site)) : Bool :=
  body.isNone &&
    (tracer.loaded.typeOf creation).any (tracer.catalog.constructs tracer.loaded.model)

mutual

/-- The verdict on an expression, given the verdicts on uses of symbols. -/
def judge (onSymbol : Expr Site → SymbolId → TraceM Verdict) : Expr Site → TraceM Verdict
  | .literal .. => return .constant
  | .paren _ inner _ => judge onSymbol inner
  | .cast _ operand _ => judge onSymbol operand
  | .unary _ _ operand _ => judge onSymbol operand
  | .binary _ _ lhs rhs _ => do
      let left ← judge onSymbol lhs
      let right ← judge onSymbol rhs
      return left.join right
  | .conditional _ _ whenTrue whenFalse _ => do
      let left ← judge onSymbol whenTrue
      let right ← judge onSymbol whenFalse
      return left.join right
  | .assign _ _ _ value _ => judge onSymbol value
  | e@(.ident _ name _ _) =>
      match tracer.loaded.symbolOf e with
      | some symbol => onSymbol e symbol
      | none => return e.blame name .unresolved
  | e@(.select _ _ name _ _) =>
      match tracer.loaded.symbolOf e with
      | some symbol => onSymbol e symbol
      | none => return e.blame name .unresolved
  | e@(.call _ callee args _ _) =>
      match tracer.callEffect? e callee with
      | some .safe => return .safe
      | some _ => do
          let receiver ← judgeReceiver onSymbol callee
          judgeAll onSymbol receiver args
      | none => return e.blame e.describe .call
  | e@(.creation _ args body _ _) =>
      if tracer.constructs e body then judgeAll onSymbol .constant args
      else return e.blame e.describe .call
  | e@(.index ..) => return e.blame e.describe .expression

/-- The verdict on the value that a method is called on; an unqualified call adds nothing. -/
def judgeReceiver (onSymbol : Expr Site → SymbolId → TraceM Verdict) :
    Expr Site → TraceM Verdict
  | .select _ target _ _ _ => judge onSymbol target
  | _ => return .constant

/-- Joins the verdicts on some expressions to one that is there already. -/
def judgeAll (onSymbol : Expr Site → SymbolId → TraceM Verdict) (verdict : Verdict) :
    List (Expr Site) → TraceM Verdict
  | [] => return verdict
  | e :: es => do
      let next ← judge onSymbol e
      judgeAll onSymbol (verdict.join next) es

end

/-- The method that declares a local variable, where it is not the method of the context. -/
def capturedFrom? (symbol : SymbolId) (context : TraceContext) : Option (MethodDecl Site) := do
  let method ← context
  let model := tracer.loaded.model
  let owner ← (model.owner symbol).filter model.isMethodSymbol
  let key := (model.symbol owner).key
  if method.symbol = some key then none else tracer.loaded.declarations.method? key

/-- The definitions that reach a use of a local variable, with the context they are judged in.
    Where the method of the context gives the variable no value, the method that declares it is
    searched. -/
def definitionsOf (context : TraceContext) (use : Expr Site) (symbol : SymbolId) :
    Option Definitions × TraceContext :=
  let key := (tracer.loaded.model.symbol symbol).key
  let direct := context.bind fun method =>
    tracer.loaded.reachingDefinitions tracer.catalog method key use
  match direct.bind (·.latest), tracer.capturedFrom? symbol context with
  | none, some method =>
      (tracer.loaded.capturedDefinitions tracer.catalog method key use, some method)
  | _, _ => (direct, context)

/-- Joins the verdicts on what was added to a variable. -/
def judgeUpdates (judgeIn : Expr Site → TraceM Verdict) (verdict : Verdict) :
    List (Expr Site) → TraceM Verdict
  | [] => return verdict
  | e :: es => do
      let next ← judgeIn e
      judgeUpdates judgeIn (verdict.join next) es

/-- The verdict on a use of a local variable; `deeper` is absent when no depth is left. -/
def traceLocal (deeper : Option TraceStep) (context : TraceContext) (use : Expr Site)
    (symbol : SymbolId) : TraceM Verdict := do
  let undefined := use.blame (tracer.loaded.model.symbol symbol).name .localVariable
  match deeper with
  | none => return undefined
  | some step =>
      if use.label.number ∈ (← get).uses then return .constant
      TraceM.withUse use.label.number do
        let (definitions, context) := tracer.definitionsOf context use symbol
        match definitions with
        | some ⟨some latest, updates⟩ =>
            let verdict ← step context latest
            judgeUpdates (step context) verdict updates
        | _ => return undefined

/-- The verdict on a use of a field; `deeper` is absent when no depth is left. Only a constant
    initializer clears the field. -/
def traceField (deeper : Option TraceStep) (use : Expr Site) (symbol : SymbolId) :
    TraceM Verdict := do
  let info := tracer.loaded.model.symbol symbol
  let unsafeField := use.blame info.name .field
  if info.constant.isSome then return .constant
  if !info.isFinal then return unsafeField
  match deeper, (tracer.loaded.declarations.field? info.key).bind (·.init) with
  | some step, some init =>
      if symbol ∈ (← get).fields then return .constant
      let verdict ← TraceM.withField symbol (step none init)
      return if verdict.constancy = .staticConstant then verdict else unsafeField
  | _, _ => return unsafeField

/-- The verdict on a use of a symbol. A type is only the qualifier of a static member. -/
def traceSymbol (deeper : Option TraceStep) (context : TraceContext) (use : Expr Site)
    (symbol : SymbolId) : TraceM Verdict :=
  let model := tracer.loaded.model
  let name := (model.symbol symbol).name
  if model.isTypeSymbol symbol then return .constant
  else if model.isParameter symbol then return use.blame name .parameter
  else if model.isLocalVariable symbol then tracer.traceLocal deeper context use symbol
  else if model.isField symbol then tracer.traceField deeper use symbol
  else return use.blame name .unresolved

/-- The verdict on an expression when at most `depth` steps may be taken. -/
def traceExpr : Nat → TraceStep
  | 0, context, e => tracer.judge (tracer.traceSymbol none context) e
  | depth + 1, context, e => tracer.judge (tracer.traceSymbol (some (traceExpr depth)) context) e

/-- The verdict on the value of an expression in a context. -/
def classify (context : TraceContext) (e : Expr Site) : Verdict :=
  ((tracer.traceExpr tracer.maxDepth context e).run .idle).1

end Tracer

end BugPatterns
