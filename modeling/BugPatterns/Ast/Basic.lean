import BugPatterns.Ast.Vocabulary

/-!
# Resolved syntax trees

The tree of one compilation unit, as a name resolver hands it over: declarations name the symbol
they introduce, and expressions carry the keys of the symbol and of the type bound to them. Every
node but the unit carries a label of type `α`, by which it is located.
-/

namespace BugPatterns

mutual

/-- An expression. `symbol` and `type` are the keys the resolver bound to it, where it did. -/
inductive Expr (α : Type) where
  | literal (label : α) (kind : LiteralKind) (text : String) (type : Option String)
  | ident (label : α) (name : String) (symbol type : Option String)
  | select (label : α) (target : Expr α) (name : String) (symbol type : Option String)
  | call (label : α) (callee : Expr α) (args : List (Expr α)) (symbol type : Option String)
  | creation (label : α) (args : List (Expr α)) (body : Option (ClassDecl α))
      (symbol type : Option String)
  | assign (label : α) (op : AssignOp) (target value : Expr α) (type : Option String)
  | binary (label : α) (op : BinaryOp) (lhs rhs : Expr α) (type : Option String)
  | unary (label : α) (op : UnaryOp) (operand : Expr α) (type : Option String)
  | paren (label : α) (inner : Expr α) (type : Option String)
  | cast (label : α) (operand : Expr α) (type : Option String)
  | conditional (label : α) (cond whenTrue whenFalse : Expr α) (type : Option String)
  | index (label : α) (target position : Expr α) (type : Option String)

/-- A statement. Declarations and blocks that stand as statements have no label of their own. -/
inductive Stmt (α : Type) where
  | expression (label : α) (expr : Expr α)
  | varDecl (decl : VarDecl α)
  | ret (label : α) (value : Option (Expr α))
  | ifElse (label : α) (cond : Expr α) (whenTrue : Stmt α) (whenFalse : Option (Stmt α))
  | whileLoop (label : α) (cond : Expr α) (body : Stmt α)
  | block (block : Block α)
  | classDecl (decl : ClassDecl α)
  | raise (label : α) (value : Expr α)

/-- A sequence of statements. -/
structure Block (α : Type) where
  label : α
  stmts : List (Stmt α)

/-- A field, parameter or local variable. -/
structure VarDecl (α : Type) where
  label : α
  name : String
  symbol : Option String
  type : Option String
  init : Option (Expr α)

/-- A method; abstract and native ones have no body. -/
structure MethodDecl (α : Type) where
  label : α
  name : String
  symbol : Option String
  params : List (VarDecl α)
  body : Option (Block α)

/-- A type declaration; the body of an anonymous class is one without a name. -/
structure ClassDecl (α : Type) where
  label : α
  kind : ClassKind
  name : Option String
  symbol : Option String
  members : List (Member α)

/-- What a type declaration holds. -/
inductive Member (α : Type) where
  | field (decl : VarDecl α)
  | method (decl : MethodDecl α)
  | classDecl (decl : ClassDecl α)
  | initBlock (block : Block α)

end

/-- One source file. -/
structure CompilationUnit (α : Type) where
  file : String
  package : Option String
  types : List (ClassDecl α)

namespace Expr

variable {α : Type}

/-- The label of the expression. -/
def label : Expr α → α
  | .literal l .. | .ident l .. | .select l .. | .call l .. | .creation l .. | .assign l ..
  | .binary l .. | .unary l .. | .paren l .. | .cast l .. | .conditional l .. | .index l .. => l

/-- The key of the type bound to the expression. -/
def type : Expr α → Option String
  | .literal _ _ _ t | .ident _ _ _ t | .select _ _ _ _ t | .call _ _ _ _ t
  | .creation _ _ _ _ t | .assign _ _ _ _ t | .binary _ _ _ _ t | .unary _ _ _ t
  | .paren _ _ t | .cast _ _ t | .conditional _ _ _ _ t | .index _ _ _ t => t

/-- The key of the symbol bound to the expression. -/
def symbol : Expr α → Option String
  | .ident _ _ s _ | .select _ _ _ s _ | .call _ _ _ s _ | .creation _ _ _ s _ => s
  | _ => none

/-- The simple name of an identifier, a selected member or an invoked method. -/
def name? : Expr α → Option String
  | .ident _ name _ _ | .select _ _ name _ _ => some name
  | .call _ callee _ _ _ => callee.name?
  | _ => none

/-- The expression is the literal `null`. -/
def isNullLiteral : Expr α → Bool
  | .literal _ .null _ _ => true
  | _ => false

/-- The expression is the identifier `this`. -/
def isThis : Expr α → Bool
  | .ident _ name _ _ => name = "this"
  | _ => false

/-- The expression without the parentheses around it. -/
def stripParens : Expr α → Expr α
  | .paren _ inner _ => inner.stripParens
  | e => e

/-- The kind of the expression as a node. -/
def kind : Expr α → NodeKind
  | .literal _ .null _ _ => .nullLiteral
  | .literal .. => .literal
  | .ident .. => .identifier
  | .select .. => .memberSelect
  | .call .. => .methodInvocation
  | .creation .. => .newClass
  | .assign .. => .assignment
  | .binary _ op _ _ _ => .ofBinaryOp op
  | .unary .. => .unary
  | .paren .. => .parenthesized
  | .cast .. => .typeCast
  | .conditional .. => .conditional
  | .index .. => .arrayAccess

end Expr

namespace ClassDecl

variable {α : Type}

/-- The methods a declaration holds itself. -/
def methods (decl : ClassDecl α) : List (MethodDecl α) :=
  decl.members.filterMap fun
    | .method method => some method
    | _ => none

/-- The fields a declaration holds itself. -/
def fields (decl : ClassDecl α) : List (VarDecl α) :=
  decl.members.filterMap fun
    | .field field => some field
    | _ => none

end ClassDecl

end BugPatterns
