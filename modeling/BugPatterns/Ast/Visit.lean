import BugPatterns.Ast.Node

/-!
# Visiting the parts of a node

The nodes right below a node are handed to an action place by place, as the syntax has them. An
action that can fail ends the visit where it fails, in whichever place that is.
-/

namespace BugPatterns.Node

variable {α : Type} {m : Type → Type} [Monad m] (visit : Node α → m Unit)

/-- Visits the node a member is met as. -/
def visitMember : Member α → m Unit
  | .field decl => visit (.varDecl decl)
  | .method decl => visit (.method decl)
  | .classDecl decl => visit (.classDecl decl)
  | .initBlock b => visit (.block b)

/-- Visits the parts of a statement. -/
def visitStmtParts : Stmt α → m Unit
  | .expression _ e => visit (.expr e)
  | .varDecl decl => visit (.varDecl decl)
  | .ret _ value => value.forM fun e => visit (.expr e)
  | .ifElse _ cond whenTrue whenFalse => do
      visit (.expr cond)
      visit (.ofStmt whenTrue)
      whenFalse.forM fun s => visit (.ofStmt s)
  | .whileLoop _ cond body => do
      visit (.expr cond)
      visit (.ofStmt body)
  | .block b => visit (.block b)
  | .classDecl decl => visit (.classDecl decl)
  | .raise _ value => visit (.expr value)

/-- Visits the parts of an expression. -/
def visitExprParts : Expr α → m Unit
  | .literal .. | .ident .. => return
  | .select _ target _ _ _ => visit (.expr target)
  | .call _ callee args _ _ => do
      visit (.expr callee)
      args.forM fun e => visit (.expr e)
  | .creation _ args body _ _ => do
      args.forM fun e => visit (.expr e)
      body.forM fun decl => visit (.classDecl decl)
  | .assign _ _ target value _ => do
      visit (.expr target)
      visit (.expr value)
  | .binary _ _ lhs rhs _ => do
      visit (.expr lhs)
      visit (.expr rhs)
  | .unary _ _ operand _ => visit (.expr operand)
  | .paren _ inner _ => visit (.expr inner)
  | .cast _ operand _ => visit (.expr operand)
  | .conditional _ cond whenTrue whenFalse _ => do
      visit (.expr cond)
      visit (.expr whenTrue)
      visit (.expr whenFalse)
  | .index _ target position _ => do
      visit (.expr target)
      visit (.expr position)

/-- Visits the parts of a node, in source order. -/
def visitParts : Node α → m Unit
  | .unit u => u.types.forM fun decl => visit (.classDecl decl)
  | .classDecl decl => decl.members.forM (visitMember visit)
  | .method decl => do
      decl.params.forM fun param => visit (.varDecl param)
      decl.body.forM fun b => visit (.block b)
  | .varDecl decl => decl.init.forM fun e => visit (.expr e)
  | .block b => b.stmts.forM fun s => visit (.ofStmt s)
  | .stmt s => visitStmtParts visit s
  | .expr e => visitExprParts visit e

end BugPatterns.Node
