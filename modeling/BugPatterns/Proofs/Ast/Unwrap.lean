import BugPatterns.Proofs.NodeTree

/-!
# Trees without added parentheses

Some parentheses of a tree can be marked as added, and then be taken out, while the other nodes get
new labels. What is read off an expression through parentheses does not change, and the walk of the
tree without them meets the same nodes in the same order, except for those that were added
(`Node.preorder_unwrap`).
-/

namespace BugPatterns

mutual

/-- The expression without the parentheses that were added, and with other labels. -/
def Expr.unwrap {α β : Type} (added : α → Bool) (f : α → β) : Expr α → Expr β
  | .literal label kind text type => .literal (f label) kind text type
  | .ident label name symbol type => .ident (f label) name symbol type
  | .select label target name symbol type =>
      .select (f label) (target.unwrap added f) name symbol type
  | .call label callee args symbol type =>
      .call (f label) (callee.unwrap added f) (Expr.unwrapAll added f args) symbol type
  | .creation label args body symbol type =>
      .creation (f label) (Expr.unwrapAll added f args) (ClassDecl.unwrapOption added f body) symbol
        type
  | .assign label op target value type =>
      .assign (f label) op (target.unwrap added f) (value.unwrap added f) type
  | .binary label op lhs rhs type =>
      .binary (f label) op (lhs.unwrap added f) (rhs.unwrap added f) type
  | .unary label op operand type => .unary (f label) op (operand.unwrap added f) type
  | .paren label inner type =>
      if added label then inner.unwrap added f else .paren (f label) (inner.unwrap added f) type
  | .cast label operand type => .cast (f label) (operand.unwrap added f) type
  | .conditional label cond whenTrue whenFalse type =>
      .conditional (f label) (cond.unwrap added f) (whenTrue.unwrap added f)
        (whenFalse.unwrap added f) type
  | .index label target position type =>
      .index (f label) (target.unwrap added f) (position.unwrap added f) type

/-- Some expressions without added parentheses. -/
def Expr.unwrapAll {α β : Type} (added : α → Bool) (f : α → β) : List (Expr α) → List (Expr β)
  | [] => []
  | e :: es => e.unwrap added f :: Expr.unwrapAll added f es

/-- An expression that may be absent, without added parentheses. -/
def Expr.unwrapOption {α β : Type} (added : α → Bool) (f : α → β) :
    Option (Expr α) → Option (Expr β)
  | none => none
  | some e => some (e.unwrap added f)

/-- The statement without added parentheses. -/
def Stmt.unwrap {α β : Type} (added : α → Bool) (f : α → β) : Stmt α → Stmt β
  | .expression label expr => .expression (f label) (expr.unwrap added f)
  | .varDecl decl => .varDecl (decl.unwrap added f)
  | .ret label value => .ret (f label) (Expr.unwrapOption added f value)
  | .ifElse label cond whenTrue whenFalse =>
      .ifElse (f label) (cond.unwrap added f) (whenTrue.unwrap added f)
        (Stmt.unwrapOption added f whenFalse)
  | .whileLoop label cond body => .whileLoop (f label) (cond.unwrap added f) (body.unwrap added f)
  | .block block => .block (block.unwrap added f)
  | .classDecl decl => .classDecl (decl.unwrap added f)
  | .raise label value => .raise (f label) (value.unwrap added f)

/-- Some statements without added parentheses. -/
def Stmt.unwrapAll {α β : Type} (added : α → Bool) (f : α → β) : List (Stmt α) → List (Stmt β)
  | [] => []
  | s :: ss => s.unwrap added f :: Stmt.unwrapAll added f ss

/-- A statement that may be absent, without added parentheses. -/
def Stmt.unwrapOption {α β : Type} (added : α → Bool) (f : α → β) :
    Option (Stmt α) → Option (Stmt β)
  | none => none
  | some s => some (s.unwrap added f)

/-- The block without added parentheses. -/
def Block.unwrap {α β : Type} (added : α → Bool) (f : α → β) : Block α → Block β
  | ⟨label, stmts⟩ => ⟨f label, Stmt.unwrapAll added f stmts⟩

/-- A block that may be absent, without added parentheses. -/
def Block.unwrapOption {α β : Type} (added : α → Bool) (f : α → β) :
    Option (Block α) → Option (Block β)
  | none => none
  | some b => some (b.unwrap added f)

/-- The variable declaration without added parentheses. -/
def VarDecl.unwrap {α β : Type} (added : α → Bool) (f : α → β) : VarDecl α → VarDecl β
  | ⟨label, name, symbol, type, init⟩ =>
      ⟨f label, name, symbol, type, Expr.unwrapOption added f init⟩

/-- Some variable declarations without added parentheses. -/
def VarDecl.unwrapAll {α β : Type} (added : α → Bool) (f : α → β) :
    List (VarDecl α) → List (VarDecl β)
  | [] => []
  | v :: vs => v.unwrap added f :: VarDecl.unwrapAll added f vs

/-- The method without added parentheses. -/
def MethodDecl.unwrap {α β : Type} (added : α → Bool) (f : α → β) : MethodDecl α → MethodDecl β
  | ⟨label, name, symbol, params, body⟩ =>
      ⟨f label, name, symbol, VarDecl.unwrapAll added f params, Block.unwrapOption added f body⟩

/-- The type declaration without added parentheses. -/
def ClassDecl.unwrap {α β : Type} (added : α → Bool) (f : α → β) : ClassDecl α → ClassDecl β
  | ⟨label, kind, name, symbol, members⟩ =>
      ⟨f label, kind, name, symbol, Member.unwrapAll added f members⟩

/-- A type declaration that may be absent, without added parentheses. -/
def ClassDecl.unwrapOption {α β : Type} (added : α → Bool) (f : α → β) :
    Option (ClassDecl α) → Option (ClassDecl β)
  | none => none
  | some d => some (d.unwrap added f)

/-- The member without added parentheses. -/
def Member.unwrap {α β : Type} (added : α → Bool) (f : α → β) : Member α → Member β
  | .field decl => .field (decl.unwrap added f)
  | .method decl => .method (decl.unwrap added f)
  | .classDecl decl => .classDecl (decl.unwrap added f)
  | .initBlock block => .initBlock (block.unwrap added f)

/-- Some members without added parentheses. -/
def Member.unwrapAll {α β : Type} (added : α → Bool) (f : α → β) : List (Member α) → List (Member β)
  | [] => []
  | d :: ds => d.unwrap added f :: Member.unwrapAll added f ds

end

variable {α β : Type} (added : α → Bool) (f : α → β)

/-- The unit without added parentheses. -/
def CompilationUnit.unwrap (unit : CompilationUnit α) : CompilationUnit β :=
  { unit with types := unit.types.map (ClassDecl.unwrap added f) }

/-- The node without added parentheses. -/
def Node.unwrap : Node α → Node β
  | .unit u => .unit (u.unwrap added f)
  | .classDecl decl => .classDecl (decl.unwrap added f)
  | .method decl => .method (decl.unwrap added f)
  | .varDecl decl => .varDecl (decl.unwrap added f)
  | .block b => .block (b.unwrap added f)
  | .stmt s => .stmt (s.unwrap added f)
  | .expr e => .expr (e.unwrap added f)

/-- The expression is a pair of parentheses that was added. -/
def Expr.isAdded : Expr α → Bool
  | .paren label _ _ => added label
  | _ => false

/-- The node is a pair of parentheses that was added. -/
def Node.isAdded : Node α → Bool
  | .expr e => e.isAdded added
  | _ => false

/-- Parentheses that were added carry the type of what they enclose, and do not enclose what is
    called. -/
def Node.wrapsWell : Node α → Bool
  | .expr (.paren label inner type) => !added label || inner.type = type
  | .expr (.call _ callee _ _ _) => !callee.isAdded added
  | _ => true

/-- The marked parentheses can have been added to a unit. -/
def CompilationUnit.Wraps (unit : CompilationUnit α) (added : α → Bool) : Prop :=
  ∀ n ∈ unit.tree.preorder, n.wrapsWell added = true

instance (unit : CompilationUnit α) (added : α → Bool) : Decidable (unit.Wraps added) :=
  inferInstanceAs (Decidable (∀ n ∈ unit.tree.preorder, n.wrapsWell added = true))

variable {added f}

namespace Expr

@[simp] theorem unwrapAll_eq_map (es : List (Expr α)) :
    unwrapAll added f es = es.map (unwrap added f) := by
  induction es with
  | nil => rfl
  | cons e es ih => rw [unwrapAll, ih, List.map_cons]

@[simp] theorem unwrapOption_eq_map (e : Option (Expr α)) :
    unwrapOption added f e = e.map (unwrap added f) := by
  cases e <;> rfl

end Expr

namespace CompilationUnit.Wraps

variable {unit : CompilationUnit α}

theorem type (wraps : unit.Wraps added) (label : α) (inner : Expr α) (type : Option String)
    (inUnit : .expr (.paren label inner type) ∈ unit.tree.preorder) (marked : added label = true) :
    inner.type = type := by
  simpa [Node.wrapsWell, marked] using wraps _ inUnit

theorem callee (wraps : unit.Wraps added) (label : α) (callee : Expr α) (args : List (Expr α))
    (symbol type : Option String)
    (inUnit : .expr (.call label callee args symbol type) ∈ unit.tree.preorder) :
    callee.isAdded added = false := by
  simpa [Node.wrapsWell] using wraps _ inUnit

end CompilationUnit.Wraps

@[simp] theorem Stmt.unwrapAll_eq_map (ss : List (Stmt α)) :
    unwrapAll added f ss = ss.map (unwrap added f) := by
  induction ss with
  | nil => rfl
  | cons s ss ih => rw [unwrapAll, ih, List.map_cons]

@[simp] theorem Stmt.unwrapOption_eq_map (s : Option (Stmt α)) :
    unwrapOption added f s = s.map (unwrap added f) := by
  cases s <;> rfl

@[simp] theorem Block.unwrapOption_eq_map (b : Option (Block α)) :
    unwrapOption added f b = b.map (unwrap added f) := by
  cases b <;> rfl

@[simp] theorem VarDecl.unwrapAll_eq_map (vs : List (VarDecl α)) :
    unwrapAll added f vs = vs.map (unwrap added f) := by
  induction vs with
  | nil => rfl
  | cons v vs ih => rw [unwrapAll, ih, List.map_cons]

@[simp] theorem ClassDecl.unwrapOption_eq_map (decl : Option (ClassDecl α)) :
    unwrapOption added f decl = decl.map (unwrap added f) := by
  cases decl <;> rfl

@[simp] theorem Member.unwrapAll_eq_map (ms : List (Member α)) :
    unwrapAll added f ms = ms.map (unwrap added f) := by
  induction ms with
  | nil => rfl
  | cons m ms ih => rw [unwrapAll, ih, List.map_cons]

theorem Block.unwrap_eq (b : Block α) :
    b.unwrap added f = ⟨f b.label, b.stmts.map (Stmt.unwrap added f)⟩ := by
  obtain ⟨label, stmts⟩ := b
  rw [unwrap, Stmt.unwrapAll_eq_map]

theorem VarDecl.unwrap_eq (decl : VarDecl α) : decl.unwrap added f =
    ⟨f decl.label, decl.name, decl.symbol, decl.type, decl.init.map (Expr.unwrap added f)⟩ := by
  obtain ⟨label, name, symbol, type, init⟩ := decl
  rw [unwrap, Expr.unwrapOption_eq_map]

theorem MethodDecl.unwrap_eq (decl : MethodDecl α) : decl.unwrap added f =
    ⟨f decl.label, decl.name, decl.symbol, decl.params.map (VarDecl.unwrap added f),
      decl.body.map (Block.unwrap added f)⟩ := by
  obtain ⟨label, name, symbol, params, body⟩ := decl
  rw [unwrap, VarDecl.unwrapAll_eq_map, Block.unwrapOption_eq_map]

theorem ClassDecl.unwrap_eq (decl : ClassDecl α) : decl.unwrap added f =
    ⟨f decl.label, decl.kind, decl.name, decl.symbol,
      decl.members.map (Member.unwrap added f)⟩ := by
  obtain ⟨label, kind, name, symbol, members⟩ := decl
  rw [unwrap, Member.unwrapAll_eq_map]

theorem VarDecl.symbol_unwrap (decl : VarDecl α) : (decl.unwrap added f).symbol = decl.symbol := by
  rw [unwrap_eq]

theorem MethodDecl.symbol_unwrap (decl : MethodDecl α) :
    (decl.unwrap added f).symbol = decl.symbol := by
  rw [unwrap_eq]

theorem ClassDecl.symbol_unwrap (decl : ClassDecl α) :
    (decl.unwrap added f).symbol = decl.symbol := by
  rw [unwrap_eq]

namespace Expr

theorem unwrap_of_added {label : α} (marked : added label = true) (inner : Expr α)
    (type : Option String) :
    (paren label inner type).unwrap added f = inner.unwrap added f :=
  if_pos marked

theorem unwrap_of_kept {label : α} (kept : added label = false) (inner : Expr α)
    (type : Option String) : (paren label inner type).unwrap added f =
      .paren (f label) (inner.unwrap added f) type :=
  if_neg (by simp [kept])

theorem exists_of_isAdded {e : Expr α} (marked : e.isAdded added = true) :
    ∃ label inner type, e = paren label inner type ∧ added label = true := by
  cases e with
  | paren label inner type => exact ⟨label, inner, type, rfl, marked⟩
  | _ => cases marked

theorem label_unwrap {e : Expr α} (kept : e.isAdded added = false) :
    (e.unwrap added f).label = f e.label := by
  cases e with
  | paren label inner type =>
      have here : added label = false := kept
      rw [unwrap_of_kept here]
      rfl
  | _ => rfl

theorem symbol_unwrap {e : Expr α} (kept : e.isAdded added = false) :
    (e.unwrap added f).symbol = e.symbol := by
  cases e with
  | paren label inner type =>
      have here : added label = false := kept
      rw [unwrap_of_kept here]
      rfl
  | _ => rfl

theorem kind_unwrap {e : Expr α} (kept : e.isAdded added = false) :
    (e.unwrap added f).kind = e.kind := by
  cases e with
  | literal label kind text type => cases kind <;> rfl
  | paren label inner type =>
      have here : added label = false := kept
      rw [unwrap_of_kept here]
      rfl
  | _ => rfl

/-- Parentheses are looked through. -/
theorem stripParens_unwrap (e : Expr α) :
    (e.unwrap added f).stripParens = e.stripParens.unwrap added f := by
  induction e using stripParens.induct with
  | case1 label inner type ih =>
      rw [stripParens, ← ih]
      cases marked : added label with
      | true => rw [unwrap_of_added marked]
      | false => rw [unwrap_of_kept marked, stripParens]
  | case2 e notParen =>
      cases e with
      | paren => exact absurd rfl (notParen _ _ _)
      | _ => rfl

theorem isAdded_stripParens (added : α → Bool) (e : Expr α) :
    e.stripParens.isAdded added = false := by
  induction e using stripParens.induct with
  | case1 label inner type ih => exact ih
  | case2 e notParen =>
      cases e with
      | paren => exact absurd rfl (notParen _ _ _)
      | _ => rfl

end Expr

theorem ClassDecl.fields_unwrap (decl : ClassDecl α) :
    (decl.unwrap added f).fields = decl.fields.map (VarDecl.unwrap added f) := by
  simp only [unwrap_eq, fields, List.filterMap_map, List.map_filterMap]
  congr 1
  funext m
  cases m <;> rfl

theorem ClassDecl.methods_unwrap (decl : ClassDecl α) :
    (decl.unwrap added f).methods = decl.methods.map (MethodDecl.unwrap added f) := by
  simp only [unwrap_eq, methods, List.filterMap_map, List.map_filterMap]
  congr 1
  funext m
  cases m <;> rfl

namespace Node

@[simp] theorem unwrap_expr (e : Expr α) :
    (expr e).unwrap added f = .expr (e.unwrap added f) := rfl

theorem exists_of_isAdded {n : Node α} (marked : n.isAdded added = true) :
    ∃ label inner type, n = .expr (.paren label inner type) ∧ added label = true := by
  cases n with
  | expr e =>
      obtain ⟨label, inner, type, rfl, marked⟩ := e.exists_of_isAdded marked
      exact ⟨label, inner, type, rfl, marked⟩
  | _ => cases marked

theorem unwrap_ofStmt (s : Stmt α) : (ofStmt s).unwrap added f = ofStmt (s.unwrap added f) := by
  cases s <;> simp [ofStmt, unwrap, Stmt.unwrap]

theorem unwrap_ofMember (m : Member α) :
    (ofMember m).unwrap added f = ofMember (m.unwrap added f) := by
  cases m <;> rfl

theorem stmtChildren_unwrap (s : Stmt α) :
    stmtChildren (s.unwrap added f) = (stmtChildren s).map (unwrap added f) := by
  cases s with
  | ret label value => cases value <;> rfl
  | ifElse label cond whenTrue whenFalse =>
      cases whenFalse <;> simp [Stmt.unwrap, stmtChildren, unwrap_ofStmt]
  | whileLoop label cond body => simp [Stmt.unwrap, stmtChildren, unwrap_ofStmt]
  | _ => rfl

theorem exprChildren_unwrap {e : Expr α} (kept : e.isAdded added = false) :
    exprChildren (e.unwrap added f) = (exprChildren e).map (unwrap added f) := by
  cases e with
  | call label callee args symbol type =>
      simp [Expr.unwrap, exprChildren, unwrap, Function.comp_def]
  | creation label args body symbol type =>
      cases body <;> simp [Expr.unwrap, exprChildren, unwrap, Function.comp_def]
  | paren label inner type =>
      have here : added label = false := kept
      rw [Expr.unwrap_of_kept here]
      rfl
  | _ => rfl

/-- What lies right below a node that was not added. -/
theorem children_unwrap {n : Node α} (kept : n.isAdded added = false) :
    (n.unwrap added f).children = n.children.map (unwrap added f) := by
  cases n with
  | unit u => simp [unwrap, CompilationUnit.unwrap, children, Function.comp_def]
  | classDecl decl =>
      obtain ⟨label, kind, name, symbol, members⟩ := decl
      show (Member.unwrapAll added f members).map ofMember = (members.map ofMember).map _
      simp [unwrap_ofMember, Function.comp_def]
  | method decl =>
      obtain ⟨label, name, symbol, params, body⟩ := decl
      simp [unwrap, MethodDecl.unwrap, children, Option.toList_map, Function.comp_def]
  | varDecl decl =>
      obtain ⟨label, name, symbol, type, init⟩ := decl
      simp [unwrap, VarDecl.unwrap, children, Option.toList_map, Function.comp_def]
  | block b =>
      obtain ⟨label, stmts⟩ := b
      show (Stmt.unwrapAll added f stmts).map ofStmt = (stmts.map ofStmt).map _
      simp [unwrap_ofStmt, Function.comp_def]
  | stmt s => exact stmtChildren_unwrap s
  | expr e => exact exprChildren_unwrap kept

theorem label?_unwrap {n : Node α} (kept : n.isAdded added = false) :
    (n.unwrap added f).label? = n.label?.map f := by
  cases n with
  | classDecl decl => obtain ⟨label, kind, name, symbol, members⟩ := decl; rfl
  | method decl => obtain ⟨label, name, symbol, params, body⟩ := decl; rfl
  | varDecl decl => obtain ⟨label, name, symbol, type, init⟩ := decl; rfl
  | block b => obtain ⟨label, stmts⟩ := b; rfl
  | stmt s =>
      cases s with
      | varDecl decl => obtain ⟨label, name, symbol, type, init⟩ := decl; rfl
      | block b => obtain ⟨label, stmts⟩ := b; rfl
      | classDecl decl => obtain ⟨label, kind, name, symbol, members⟩ := decl; rfl
      | _ => rfl
  | expr e => exact congrArg some (Expr.label_unwrap kept)
  | unit u => rfl

theorem isClassDecl_unwrap (n : Node α) : (n.unwrap added f).isClassDecl = n.isClassDecl := by
  cases n <;> rfl

theorem kind_unwrap {n : Node α} (kept : n.isAdded added = false) :
    (n.unwrap added f).kind = n.kind := by
  cases n with
  | classDecl decl => obtain ⟨label, kind, name, symbol, members⟩ := decl; rfl
  | stmt s =>
      cases s with
      | classDecl decl => obtain ⟨label, kind, name, symbol, members⟩ := decl; rfl
      | _ => rfl
  | expr e => exact Expr.kind_unwrap kept
  | _ => rfl

/-- The nodes without added parentheses are those that were not added. -/
theorem preorder_unwrap (n : Node α) : (n.unwrap added f).tree.preorder =
    (n.tree.preorder.filter fun m => !m.isAdded added).map (unwrap added f) := by
  induction n using Node.induct with
  | node n ih =>
      cases marked : n.isAdded added with
      | true =>
          obtain ⟨label, inner, type, rfl, here⟩ := exists_of_isAdded marked
          have below := ih (.expr inner) List.mem_cons_self
          rw [preorder_tree (.expr (.paren label inner type)),
            List.filter_cons_of_neg (by simp [marked])]
          simpa [unwrap, Expr.unwrap_of_added here, children, exprChildren] using below
      | false =>
          rw [preorder_tree, preorder_tree n, children_unwrap marked, List.flatMap_map,
            List.filter_cons_of_pos (by simp [marked]), List.map_cons, List.filter_flatMap,
            List.map_flatMap, List.flatMap_congr ih]

end Node

/-- The nodes of a unit without added parentheses. -/
theorem CompilationUnit.preorder_unwrap (unit : CompilationUnit α) :
    (unit.unwrap added f).tree.preorder =
      (unit.tree.preorder.filter fun m => !m.isAdded added).map (Node.unwrap added f) :=
  Node.preorder_unwrap (.unit unit)

end BugPatterns
