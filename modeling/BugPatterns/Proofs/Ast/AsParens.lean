import BugPatterns.Proofs.Ast.Unwrap

/-!
# Casts as parentheses

Some casts of a tree can be marked. With these as parentheses the tree keeps its shape and all its
labels, so every walk of it meets the same nodes in the same order (`Node.preorder_asParens`). What
tells the two trees apart is what is looked through: a search for the variable that an expression
names goes through parentheses and stops at a cast.
-/

namespace BugPatterns

mutual

/-- The expression with the marked casts as parentheses. -/
def Expr.asParens {α : Type} (marked : α → Bool) : Expr α → Expr α
  | .literal label kind text type => .literal label kind text type
  | .ident label name symbol type => .ident label name symbol type
  | .select label target name symbol type =>
      .select label (target.asParens marked) name symbol type
  | .call label callee args symbol type =>
      .call label (callee.asParens marked) (Expr.asParensAll marked args) symbol type
  | .creation label args body symbol type =>
      .creation label (Expr.asParensAll marked args) (ClassDecl.asParensOption marked body) symbol
        type
  | .assign label op target value type =>
      .assign label op (target.asParens marked) (value.asParens marked) type
  | .binary label op lhs rhs type =>
      .binary label op (lhs.asParens marked) (rhs.asParens marked) type
  | .unary label op operand type => .unary label op (operand.asParens marked) type
  | .paren label inner type => .paren label (inner.asParens marked) type
  | .cast label operand type =>
      if marked label then .paren label (operand.asParens marked) type
      else .cast label (operand.asParens marked) type
  | .conditional label cond whenTrue whenFalse type =>
      .conditional label (cond.asParens marked) (whenTrue.asParens marked)
        (whenFalse.asParens marked) type
  | .index label target position type =>
      .index label (target.asParens marked) (position.asParens marked) type

/-- Some expressions with the marked casts as parentheses. -/
def Expr.asParensAll {α : Type} (marked : α → Bool) : List (Expr α) → List (Expr α)
  | [] => []
  | e :: es => e.asParens marked :: Expr.asParensAll marked es

/-- An expression that may be absent, with the marked casts as parentheses. -/
def Expr.asParensOption {α : Type} (marked : α → Bool) : Option (Expr α) → Option (Expr α)
  | none => none
  | some e => some (e.asParens marked)

/-- The statement with the marked casts as parentheses. -/
def Stmt.asParens {α : Type} (marked : α → Bool) : Stmt α → Stmt α
  | .expression label expr => .expression label (expr.asParens marked)
  | .varDecl decl => .varDecl (decl.asParens marked)
  | .ret label value => .ret label (Expr.asParensOption marked value)
  | .ifElse label cond whenTrue whenFalse =>
      .ifElse label (cond.asParens marked) (whenTrue.asParens marked)
        (Stmt.asParensOption marked whenFalse)
  | .whileLoop label cond body => .whileLoop label (cond.asParens marked) (body.asParens marked)
  | .block block => .block (block.asParens marked)
  | .classDecl decl => .classDecl (decl.asParens marked)
  | .raise label value => .raise label (value.asParens marked)

/-- Some statements with the marked casts as parentheses. -/
def Stmt.asParensAll {α : Type} (marked : α → Bool) : List (Stmt α) → List (Stmt α)
  | [] => []
  | s :: ss => s.asParens marked :: Stmt.asParensAll marked ss

/-- A statement that may be absent, with the marked casts as parentheses. -/
def Stmt.asParensOption {α : Type} (marked : α → Bool) : Option (Stmt α) → Option (Stmt α)
  | none => none
  | some s => some (s.asParens marked)

/-- The block with the marked casts as parentheses. -/
def Block.asParens {α : Type} (marked : α → Bool) : Block α → Block α
  | ⟨label, stmts⟩ => ⟨label, Stmt.asParensAll marked stmts⟩

/-- A block that may be absent, with the marked casts as parentheses. -/
def Block.asParensOption {α : Type} (marked : α → Bool) : Option (Block α) → Option (Block α)
  | none => none
  | some b => some (b.asParens marked)

/-- The variable declaration with the marked casts as parentheses. -/
def VarDecl.asParens {α : Type} (marked : α → Bool) : VarDecl α → VarDecl α
  | ⟨label, name, symbol, type, init⟩ =>
      ⟨label, name, symbol, type, Expr.asParensOption marked init⟩

/-- Some variable declarations with the marked casts as parentheses. -/
def VarDecl.asParensAll {α : Type} (marked : α → Bool) : List (VarDecl α) → List (VarDecl α)
  | [] => []
  | v :: vs => v.asParens marked :: VarDecl.asParensAll marked vs

/-- The method with the marked casts as parentheses. -/
def MethodDecl.asParens {α : Type} (marked : α → Bool) : MethodDecl α → MethodDecl α
  | ⟨label, name, symbol, params, body⟩ =>
      ⟨label, name, symbol, VarDecl.asParensAll marked params, Block.asParensOption marked body⟩

/-- The type declaration with the marked casts as parentheses. -/
def ClassDecl.asParens {α : Type} (marked : α → Bool) : ClassDecl α → ClassDecl α
  | ⟨label, kind, name, symbol, members⟩ =>
      ⟨label, kind, name, symbol, Member.asParensAll marked members⟩

/-- A type declaration that may be absent, with the marked casts as parentheses. -/
def ClassDecl.asParensOption {α : Type} (marked : α → Bool) :
    Option (ClassDecl α) → Option (ClassDecl α)
  | none => none
  | some d => some (d.asParens marked)

/-- The member with the marked casts as parentheses. -/
def Member.asParens {α : Type} (marked : α → Bool) : Member α → Member α
  | .field decl => .field (decl.asParens marked)
  | .method decl => .method (decl.asParens marked)
  | .classDecl decl => .classDecl (decl.asParens marked)
  | .initBlock block => .initBlock (block.asParens marked)

/-- Some members with the marked casts as parentheses. -/
def Member.asParensAll {α : Type} (marked : α → Bool) : List (Member α) → List (Member α)
  | [] => []
  | d :: ds => d.asParens marked :: Member.asParensAll marked ds

end

variable {α : Type} (marked : α → Bool)

/-- The unit with the marked casts as parentheses. -/
def CompilationUnit.asParens (unit : CompilationUnit α) : CompilationUnit α :=
  { unit with types := unit.types.map (ClassDecl.asParens marked) }

/-- The node with the marked casts as parentheses. -/
def Node.asParens : Node α → Node α
  | .unit u => .unit (u.asParens marked)
  | .classDecl decl => .classDecl (decl.asParens marked)
  | .method decl => .method (decl.asParens marked)
  | .varDecl decl => .varDecl (decl.asParens marked)
  | .block b => .block (b.asParens marked)
  | .stmt s => .stmt (s.asParens marked)
  | .expr e => .expr (e.asParens marked)

/-- The expression is a marked cast. -/
def Expr.isMarkedCast : Expr α → Bool
  | .cast label _ _ => marked label
  | _ => false

/-- The node is a marked cast. -/
def Node.isMarkedCast : Node α → Bool
  | .expr e => e.isMarkedCast marked
  | _ => false

/-- A marked cast stands on the way that a search takes through an expression: through parentheses,
    and through calls to what they are made on. -/
def Expr.castsRoot : Expr α → Bool
  | .cast label _ _ => marked label
  | .paren _ inner _ => inner.castsRoot
  | .call _ (.select _ target _ _ _) _ _ _ => target.castsRoot
  | _ => false

variable {marked}

namespace Expr

@[simp] theorem asParensAll_eq_map (es : List (Expr α)) :
    asParensAll marked es = es.map (asParens marked) := by
  induction es with
  | nil => rfl
  | cons e es ih => rw [asParensAll, ih, List.map_cons]

@[simp] theorem asParensOption_eq_map (e : Option (Expr α)) :
    asParensOption marked e = e.map (asParens marked) := by
  cases e <;> rfl

end Expr

@[simp] theorem Stmt.asParensAll_eq_map (ss : List (Stmt α)) :
    asParensAll marked ss = ss.map (asParens marked) := by
  induction ss with
  | nil => rfl
  | cons s ss ih => rw [asParensAll, ih, List.map_cons]

@[simp] theorem Stmt.asParensOption_eq_map (s : Option (Stmt α)) :
    asParensOption marked s = s.map (asParens marked) := by
  cases s <;> rfl

@[simp] theorem Block.asParensOption_eq_map (b : Option (Block α)) :
    asParensOption marked b = b.map (asParens marked) := by
  cases b <;> rfl

@[simp] theorem VarDecl.asParensAll_eq_map (vs : List (VarDecl α)) :
    asParensAll marked vs = vs.map (asParens marked) := by
  induction vs with
  | nil => rfl
  | cons v vs ih => rw [asParensAll, ih, List.map_cons]

@[simp] theorem ClassDecl.asParensOption_eq_map (decl : Option (ClassDecl α)) :
    asParensOption marked decl = decl.map (asParens marked) := by
  cases decl <;> rfl

@[simp] theorem Member.asParensAll_eq_map (ms : List (Member α)) :
    asParensAll marked ms = ms.map (asParens marked) := by
  induction ms with
  | nil => rfl
  | cons m ms ih => rw [asParensAll, ih, List.map_cons]

theorem VarDecl.asParens_eq (decl : VarDecl α) : decl.asParens marked =
    { decl with init := decl.init.map (Expr.asParens marked) } := by
  obtain ⟨label, name, symbol, type, init⟩ := decl
  rw [asParens, Expr.asParensOption_eq_map]

theorem MethodDecl.asParens_eq (decl : MethodDecl α) : decl.asParens marked =
    { decl with
      params := decl.params.map (VarDecl.asParens marked)
      body := decl.body.map (Block.asParens marked) } := by
  obtain ⟨label, name, symbol, params, body⟩ := decl
  rw [asParens, VarDecl.asParensAll_eq_map, Block.asParensOption_eq_map]

theorem ClassDecl.asParens_eq (decl : ClassDecl α) : decl.asParens marked =
    { decl with members := decl.members.map (Member.asParens marked) } := by
  obtain ⟨label, kind, name, symbol, members⟩ := decl
  rw [asParens, Member.asParensAll_eq_map]

theorem VarDecl.symbol_asParens (decl : VarDecl α) :
    (decl.asParens marked).symbol = decl.symbol := by
  rw [asParens_eq]

theorem MethodDecl.symbol_asParens (decl : MethodDecl α) :
    (decl.asParens marked).symbol = decl.symbol := by
  rw [asParens_eq]

theorem ClassDecl.symbol_asParens (decl : ClassDecl α) :
    (decl.asParens marked).symbol = decl.symbol := by
  rw [asParens_eq]

namespace Expr

theorem asParens_of_marked {label : α} (here : marked label = true) (operand : Expr α)
    (type : Option String) : (cast label operand type).asParens marked =
      .paren label (operand.asParens marked) type :=
  if_pos here

theorem asParens_of_kept {label : α} (kept : marked label = false) (operand : Expr α)
    (type : Option String) : (cast label operand type).asParens marked =
      .cast label (operand.asParens marked) type :=
  if_neg (by simp [kept])

theorem asParens_call (label : α) (callee : Expr α) (args : List (Expr α))
    (symbol type : Option String) : (call label callee args symbol type).asParens marked =
      .call label (callee.asParens marked) (args.map (asParens marked)) symbol type := by
  rw [asParens, asParensAll_eq_map]

/-- A cast stays where it is, be it as parentheses. -/
theorem asParens_cast (label : α) (operand : Expr α) (type : Option String) :
    (cast label operand type).asParens marked = .paren label (operand.asParens marked) type ∨
      (cast label operand type).asParens marked = .cast label (operand.asParens marked) type := by
  cases here : marked label with
  | true => exact .inl (asParens_of_marked here operand type)
  | false => exact .inr (asParens_of_kept here operand type)

@[simp] theorem label_asParens (e : Expr α) : (e.asParens marked).label = e.label := by
  cases e with
  | cast label operand type =>
      rcases asParens_cast label operand type with same | same <;> rw [same] <;> rfl
  | _ => rfl

@[simp] theorem type_asParens (e : Expr α) : (e.asParens marked).type = e.type := by
  cases e with
  | cast label operand type =>
      rcases asParens_cast label operand type with same | same <;> rw [same] <;> rfl
  | _ => rfl

@[simp] theorem symbol_asParens (e : Expr α) : (e.asParens marked).symbol = e.symbol := by
  cases e with
  | cast label operand type =>
      rcases asParens_cast label operand type with same | same <;> rw [same] <;> rfl
  | _ => rfl

/-- A method is called under the same name. -/
@[simp] theorem name?_asParens (e : Expr α) : (e.asParens marked).name? = e.name? := by
  induction e using name?.induct with
  | case3 label callee args symbol type ih => exact ih
  | case4 e noIdent noSelect noCall =>
      cases e with
      | ident => exact absurd rfl (noIdent _ _ _ _)
      | select => exact absurd rfl (noSelect _ _ _ _ _)
      | call => exact absurd rfl (noCall _ _ _ _ _)
      | cast label operand type =>
          rcases asParens_cast label operand type with same | same <;> rw [same] <;> rfl
      | _ => rfl
  | _ => rfl

end Expr

theorem ClassDecl.fields_asParens (decl : ClassDecl α) :
    (decl.asParens marked).fields = decl.fields.map (VarDecl.asParens marked) := by
  simp only [asParens_eq, fields, List.filterMap_map, List.map_filterMap]
  congr 1
  funext m
  cases m <;> rfl

theorem ClassDecl.methods_asParens (decl : ClassDecl α) :
    (decl.asParens marked).methods = decl.methods.map (MethodDecl.asParens marked) := by
  simp only [asParens_eq, methods, List.filterMap_map, List.map_filterMap]
  congr 1
  funext m
  cases m <;> rfl

namespace Node

@[simp] theorem asParens_expr (e : Expr α) :
    (expr e).asParens marked = .expr (e.asParens marked) := rfl

theorem asParens_ofStmt (s : Stmt α) : (ofStmt s).asParens marked = ofStmt (s.asParens marked) := by
  cases s <;> simp [ofStmt, asParens, Stmt.asParens]

theorem asParens_ofMember (m : Member α) :
    (ofMember m).asParens marked = ofMember (m.asParens marked) := by
  cases m <;> rfl

theorem stmtChildren_asParens (s : Stmt α) :
    stmtChildren (s.asParens marked) = (stmtChildren s).map (asParens marked) := by
  cases s with
  | ret label value => cases value <;> rfl
  | ifElse label cond whenTrue whenFalse =>
      cases whenFalse <;> simp [Stmt.asParens, stmtChildren, asParens_ofStmt]
  | whileLoop label cond body => simp [Stmt.asParens, stmtChildren, asParens_ofStmt]
  | _ => rfl

theorem exprChildren_asParens (e : Expr α) :
    exprChildren (e.asParens marked) = (exprChildren e).map (asParens marked) := by
  cases e with
  | call label callee args symbol type =>
      simp [Expr.asParens, exprChildren, asParens, Function.comp_def]
  | creation label args body symbol type =>
      cases body <;> simp [Expr.asParens, exprChildren, asParens, Function.comp_def]
  | cast label operand type =>
      rcases Expr.asParens_cast label operand type with same | same <;> rw [same] <;> rfl
  | _ => rfl

theorem children_asParens (n : Node α) :
    (n.asParens marked).children = n.children.map (asParens marked) := by
  cases n with
  | unit u => simp [asParens, CompilationUnit.asParens, children, Function.comp_def]
  | classDecl decl =>
      obtain ⟨label, kind, name, symbol, members⟩ := decl
      show (Member.asParensAll marked members).map ofMember = (members.map ofMember).map _
      simp [asParens_ofMember, Function.comp_def]
  | method decl =>
      obtain ⟨label, name, symbol, params, body⟩ := decl
      simp [asParens, MethodDecl.asParens, children, Option.toList_map, Function.comp_def]
  | varDecl decl =>
      obtain ⟨label, name, symbol, type, init⟩ := decl
      simp [asParens, VarDecl.asParens, children, Option.toList_map, Function.comp_def]
  | block b =>
      obtain ⟨label, stmts⟩ := b
      show (Stmt.asParensAll marked stmts).map ofStmt = (stmts.map ofStmt).map _
      simp [asParens_ofStmt, Function.comp_def]
  | stmt s => exact stmtChildren_asParens s
  | expr e => exact exprChildren_asParens e

theorem label?_asParens (n : Node α) : (n.asParens marked).label? = n.label? := by
  cases n with
  | classDecl decl => obtain ⟨label, kind, name, symbol, members⟩ := decl; rfl
  | method decl => obtain ⟨label, name, symbol, params, body⟩ := decl; rfl
  | varDecl decl => obtain ⟨label, name, symbol, type, init⟩ := decl; rfl
  | block b => obtain ⟨label, stmts⟩ := b; rfl
  | stmt s =>
      cases s with
      | varDecl decl => obtain ⟨label, name, symbol, type, init⟩ := decl; rfl
      | block b => obtain ⟨label, stmts⟩ := b; rfl
      | classDecl decl => obtain ⟨label, kind, name, symbol, members⟩ := decl; rfl
      | _ => rfl
  | expr e => exact congrArg some e.label_asParens
  | unit u => rfl

theorem isClassDecl_asParens (n : Node α) : (n.asParens marked).isClassDecl = n.isClassDecl := by
  cases n <;> rfl

/-- A walk meets the same nodes. -/
theorem preorder_asParens (n : Node α) :
    (n.asParens marked).tree.preorder = n.tree.preorder.map (asParens marked) := by
  induction n using Node.induct with
  | node n ih =>
      rw [preorder_tree, preorder_tree n, children_asParens, List.flatMap_map, List.map_cons,
        List.map_flatMap, List.flatMap_congr ih]

end Node

/-- The nodes of the unit with the marked casts as parentheses. -/
theorem CompilationUnit.preorder_asParens (unit : CompilationUnit α) :
    (unit.asParens marked).tree.preorder = unit.tree.preorder.map (Node.asParens marked) :=
  Node.preorder_asParens (.unit unit)

end BugPatterns
