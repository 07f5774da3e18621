import BugPatterns.Ast.Node
import BugPatterns.Ast.Span

/-!
# Labels

A tree can be given new labels while its shape stays. The labels are visited in the order in which
a walk meets the nodes, so a counter numbers the nodes by their position.

A document labels its nodes with spans. In a unit under analysis the label also says which node it
is: two nodes with equal spans, or with none, still have different numbers.
-/

namespace BugPatterns

/-- Where a node is: its position in the walk of the whole unit, and its range of text. -/
structure Site where
  number : Nat
  span : Span
  deriving DecidableEq, Repr, Inhabited

mutual

/-- Gives an expression new labels. -/
def Expr.mapLabels {α β : Type} {m : Type → Type} [Monad m] (f : α → m β) : Expr α → m (Expr β)
  | .literal label kind text type => return .literal (← f label) kind text type
  | .ident label name symbol type => return .ident (← f label) name symbol type
  | .select label target name symbol type => do
      let label ← f label
      return .select label (← target.mapLabels f) name symbol type
  | .call label callee args symbol type => do
      let label ← f label
      let callee ← callee.mapLabels f
      return .call label callee (← Expr.mapAllLabels f args) symbol type
  | .creation label args body symbol type => do
      let label ← f label
      let args ← Expr.mapAllLabels f args
      return .creation label args (← ClassDecl.mapOptionLabels f body) symbol type
  | .assign label op target value type => do
      let label ← f label
      let target ← target.mapLabels f
      return .assign label op target (← value.mapLabels f) type
  | .binary label op lhs rhs type => do
      let label ← f label
      let lhs ← lhs.mapLabels f
      return .binary label op lhs (← rhs.mapLabels f) type
  | .unary label op operand type => do
      let label ← f label
      return .unary label op (← operand.mapLabels f) type
  | .paren label inner type => do
      let label ← f label
      return .paren label (← inner.mapLabels f) type
  | .cast label operand type => do
      let label ← f label
      return .cast label (← operand.mapLabels f) type
  | .conditional label cond whenTrue whenFalse type => do
      let label ← f label
      let cond ← cond.mapLabels f
      let whenTrue ← whenTrue.mapLabels f
      return .conditional label cond whenTrue (← whenFalse.mapLabels f) type
  | .index label target position type => do
      let label ← f label
      let target ← target.mapLabels f
      return .index label target (← position.mapLabels f) type

/-- Gives some expressions new labels, in their order. -/
def Expr.mapAllLabels {α β : Type} {m : Type → Type} [Monad m] (f : α → m β) :
    List (Expr α) → m (List (Expr β))
  | [] => return []
  | e :: es => do
      let e ← e.mapLabels f
      return e :: (← Expr.mapAllLabels f es)

/-- Gives an expression new labels, if there is one. -/
def Expr.mapOptionLabels {α β : Type} {m : Type → Type} [Monad m] (f : α → m β) :
    Option (Expr α) → m (Option (Expr β))
  | none => return none
  | some e => return some (← e.mapLabels f)

/-- Gives a statement new labels. -/
def Stmt.mapLabels {α β : Type} {m : Type → Type} [Monad m] (f : α → m β) : Stmt α → m (Stmt β)
  | .expression label expr => do
      let label ← f label
      return .expression label (← expr.mapLabels f)
  | .varDecl decl => return .varDecl (← decl.mapLabels f)
  | .ret label value => do
      let label ← f label
      return .ret label (← Expr.mapOptionLabels f value)
  | .ifElse label cond whenTrue whenFalse => do
      let label ← f label
      let cond ← cond.mapLabels f
      let whenTrue ← whenTrue.mapLabels f
      return .ifElse label cond whenTrue (← Stmt.mapOptionLabels f whenFalse)
  | .whileLoop label cond body => do
      let label ← f label
      let cond ← cond.mapLabels f
      return .whileLoop label cond (← body.mapLabels f)
  | .block block => return .block (← block.mapLabels f)
  | .classDecl decl => return .classDecl (← decl.mapLabels f)
  | .raise label value => do
      let label ← f label
      return .raise label (← value.mapLabels f)

/-- Gives some statements new labels, in their order. -/
def Stmt.mapAllLabels {α β : Type} {m : Type → Type} [Monad m] (f : α → m β) :
    List (Stmt α) → m (List (Stmt β))
  | [] => return []
  | s :: ss => do
      let s ← s.mapLabels f
      return s :: (← Stmt.mapAllLabels f ss)

/-- Gives a statement new labels, if there is one. -/
def Stmt.mapOptionLabels {α β : Type} {m : Type → Type} [Monad m] (f : α → m β) :
    Option (Stmt α) → m (Option (Stmt β))
  | none => return none
  | some s => return some (← s.mapLabels f)

/-- Gives a block new labels. -/
def Block.mapLabels {α β : Type} {m : Type → Type} [Monad m] (f : α → m β) : Block α → m (Block β)
  | ⟨label, stmts⟩ => do
      let label ← f label
      return ⟨label, ← Stmt.mapAllLabels f stmts⟩

/-- Gives a block new labels, if there is one. -/
def Block.mapOptionLabels {α β : Type} {m : Type → Type} [Monad m] (f : α → m β) :
    Option (Block α) → m (Option (Block β))
  | none => return none
  | some b => return some (← b.mapLabels f)

/-- Gives a variable declaration new labels. -/
def VarDecl.mapLabels {α β : Type} {m : Type → Type} [Monad m] (f : α → m β) :
    VarDecl α → m (VarDecl β)
  | ⟨label, name, symbol, type, init⟩ => do
      let label ← f label
      return ⟨label, name, symbol, type, ← Expr.mapOptionLabels f init⟩

/-- Gives some variable declarations new labels, in their order. -/
def VarDecl.mapAllLabels {α β : Type} {m : Type → Type} [Monad m] (f : α → m β) :
    List (VarDecl α) → m (List (VarDecl β))
  | [] => return []
  | v :: vs => do
      let v ← v.mapLabels f
      return v :: (← VarDecl.mapAllLabels f vs)

/-- Gives a method new labels. -/
def MethodDecl.mapLabels {α β : Type} {m : Type → Type} [Monad m] (f : α → m β) :
    MethodDecl α → m (MethodDecl β)
  | ⟨label, name, symbol, params, body⟩ => do
      let label ← f label
      let params ← VarDecl.mapAllLabels f params
      return ⟨label, name, symbol, params, ← Block.mapOptionLabels f body⟩

/-- Gives a type declaration new labels. -/
def ClassDecl.mapLabels {α β : Type} {m : Type → Type} [Monad m] (f : α → m β) :
    ClassDecl α → m (ClassDecl β)
  | ⟨label, kind, name, symbol, members⟩ => do
      let label ← f label
      return ⟨label, kind, name, symbol, ← Member.mapAllLabels f members⟩

/-- Gives a type declaration new labels, if there is one. -/
def ClassDecl.mapOptionLabels {α β : Type} {m : Type → Type} [Monad m] (f : α → m β) :
    Option (ClassDecl α) → m (Option (ClassDecl β))
  | none => return none
  | some d => return some (← d.mapLabels f)

/-- Gives a member new labels. -/
def Member.mapLabels {α β : Type} {m : Type → Type} [Monad m] (f : α → m β) :
    Member α → m (Member β)
  | .field decl => return .field (← decl.mapLabels f)
  | .method decl => return .method (← decl.mapLabels f)
  | .classDecl decl => return .classDecl (← decl.mapLabels f)
  | .initBlock block => return .initBlock (← block.mapLabels f)

/-- Gives some members new labels, in their order. -/
def Member.mapAllLabels {α β : Type} {m : Type → Type} [Monad m] (f : α → m β) :
    List (Member α) → m (List (Member β))
  | [] => return []
  | d :: ds => do
      let d ← d.mapLabels f
      return d :: (← Member.mapAllLabels f ds)

end

namespace CompilationUnit

/-- Gives a unit new labels. -/
def mapLabels {α β : Type} {m : Type → Type} [Monad m] (f : α → m β)
    (unit : CompilationUnit α) : m (CompilationUnit β) := do
  return { file := unit.file, package := unit.package, types := ← unit.types.mapM (·.mapLabels f) }

/-- The next node in the walk gets the next number. -/
def nextSite (span : Span) : StateM Nat Site := do
  let number ← get
  set (number + 1)
  return ⟨number, span⟩

/-- Numbers the nodes in the order of the walk; the unit itself is number zero. -/
def numbered (unit : CompilationUnit Span) : CompilationUnit Site :=
  ((unit.mapLabels nextSite).run 1).1

end CompilationUnit

namespace Node

/-- The number of a node. -/
def number (node : Node Site) : Nat :=
  match node.label? with
  | some site => site.number
  | none => 0

/-- The span of a node; that of the unit is unknown. -/
def span (node : Node Site) : Span :=
  match node.label? with
  | some site => site.span
  | none => .unknown

end Node

end BugPatterns
