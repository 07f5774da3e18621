import BugPatterns.Ast.Labels
import BugPatterns.Proofs.NodeTree

/-!
# Trees with other labels

A node keeps its shape when all labels at and below it are changed. What is read off a node without
a look at its label stays the same, and what lies below it is relabelled with it.
-/

namespace BugPatterns

variable {α β : Type}

/-- The expression with other labels. -/
def Expr.relabel (f : α → β) (e : Expr α) : Expr β :=
  (e.mapLabels fun label => (pure (f label) : Id β)).run

/-- The statement with other labels. -/
def Stmt.relabel (f : α → β) (s : Stmt α) : Stmt β :=
  (s.mapLabels fun label => (pure (f label) : Id β)).run

/-- The block with other labels. -/
def Block.relabel (f : α → β) (b : Block α) : Block β :=
  (b.mapLabels fun label => (pure (f label) : Id β)).run

/-- The variable declaration with other labels. -/
def VarDecl.relabel (f : α → β) (decl : VarDecl α) : VarDecl β :=
  (decl.mapLabels fun label => (pure (f label) : Id β)).run

/-- The method with other labels. -/
def MethodDecl.relabel (f : α → β) (decl : MethodDecl α) : MethodDecl β :=
  (decl.mapLabels fun label => (pure (f label) : Id β)).run

/-- The type declaration with other labels. -/
def ClassDecl.relabel (f : α → β) (decl : ClassDecl α) : ClassDecl β :=
  (decl.mapLabels fun label => (pure (f label) : Id β)).run

/-- The member with other labels. -/
def Member.relabel (f : α → β) (m : Member α) : Member β :=
  (m.mapLabels fun label => (pure (f label) : Id β)).run

/-- The unit with other labels. -/
def CompilationUnit.relabel (f : α → β) (unit : CompilationUnit α) : CompilationUnit β :=
  (unit.mapLabels fun label => (pure (f label) : Id β)).run

/-- The node with other labels. -/
def Node.relabel (f : α → β) : Node α → Node β
  | .unit u => .unit (u.relabel f)
  | .classDecl decl => .classDecl (decl.relabel f)
  | .method decl => .method (decl.relabel f)
  | .varDecl decl => .varDecl (decl.relabel f)
  | .block b => .block (b.relabel f)
  | .stmt s => .stmt (s.relabel f)
  | .expr e => .expr (e.relabel f)

variable (f : α → β)

namespace Expr

theorem mapAllLabels_eq_map (es : List (Expr α)) :
    mapAllLabels (fun label => (pure (f label) : Id β)) es = pure (es.map (relabel f)) := by
  induction es with
  | nil => rfl
  | cons e es ih => rw [mapAllLabels, ih]; rfl

theorem mapOptionLabels_eq_map (e : Option (Expr α)) :
    mapOptionLabels (fun label => (pure (f label) : Id β)) e = pure (e.map (relabel f)) := by
  cases e <;> rfl

end Expr

theorem Stmt.mapAllLabels_eq_map (ss : List (Stmt α)) :
    mapAllLabels (fun label => (pure (f label) : Id β)) ss = pure (ss.map (relabel f)) := by
  induction ss with
  | nil => rfl
  | cons s ss ih => rw [mapAllLabels, ih]; rfl

theorem Stmt.mapOptionLabels_eq_map (s : Option (Stmt α)) :
    mapOptionLabels (fun label => (pure (f label) : Id β)) s = pure (s.map (relabel f)) := by
  cases s <;> rfl

theorem Block.mapOptionLabels_eq_map (b : Option (Block α)) :
    mapOptionLabels (fun label => (pure (f label) : Id β)) b = pure (b.map (relabel f)) := by
  cases b <;> rfl

theorem VarDecl.mapAllLabels_eq_map (vs : List (VarDecl α)) :
    mapAllLabels (fun label => (pure (f label) : Id β)) vs = pure (vs.map (relabel f)) := by
  induction vs with
  | nil => rfl
  | cons v vs ih => rw [mapAllLabels, ih]; rfl

theorem ClassDecl.mapOptionLabels_eq_map (decl : Option (ClassDecl α)) :
    mapOptionLabels (fun label => (pure (f label) : Id β)) decl = pure (decl.map (relabel f)) := by
  cases decl <;> rfl

theorem Member.mapAllLabels_eq_map (ms : List (Member α)) :
    mapAllLabels (fun label => (pure (f label) : Id β)) ms = pure (ms.map (relabel f)) := by
  induction ms with
  | nil => rfl
  | cons m ms ih => rw [mapAllLabels, ih]; rfl

section Expr

variable (label : α) (symbol type : Option String)

@[simp] theorem Expr.relabel_literal (kind : LiteralKind) (text : String) :
    (literal label kind text type).relabel f = .literal (f label) kind text type := rfl

@[simp] theorem Expr.relabel_ident (name : String) :
    (ident label name symbol type).relabel f = .ident (f label) name symbol type := rfl

@[simp] theorem Expr.relabel_select (target : Expr α) (name : String) :
    (select label target name symbol type).relabel f =
      .select (f label) (target.relabel f) name symbol type := rfl

@[simp] theorem Expr.relabel_call (callee : Expr α) (args : List (Expr α)) :
    (call label callee args symbol type).relabel f =
      .call (f label) (callee.relabel f) (args.map (relabel f)) symbol type := by
  simp only [relabel, mapLabels, mapAllLabels_eq_map]
  rfl

@[simp] theorem Expr.relabel_creation (args : List (Expr α)) (body : Option (ClassDecl α)) :
    (creation label args body symbol type).relabel f =
      .creation (f label) (args.map (relabel f)) (body.map (ClassDecl.relabel f)) symbol type := by
  simp only [relabel, mapLabels, mapAllLabels_eq_map, ClassDecl.mapOptionLabels_eq_map]
  rfl

@[simp] theorem Expr.relabel_assign (op : AssignOp) (target value : Expr α) :
    (assign label op target value type).relabel f =
      .assign (f label) op (target.relabel f) (value.relabel f) type := rfl

@[simp] theorem Expr.relabel_binary (op : BinaryOp) (lhs rhs : Expr α) :
    (binary label op lhs rhs type).relabel f =
      .binary (f label) op (lhs.relabel f) (rhs.relabel f) type := rfl

@[simp] theorem Expr.relabel_unary (op : UnaryOp) (operand : Expr α) :
    (unary label op operand type).relabel f = .unary (f label) op (operand.relabel f) type := rfl

@[simp] theorem Expr.relabel_paren (inner : Expr α) :
    (paren label inner type).relabel f = .paren (f label) (inner.relabel f) type := rfl

@[simp] theorem Expr.relabel_cast (operand : Expr α) :
    (cast label operand type).relabel f = .cast (f label) (operand.relabel f) type := rfl

@[simp] theorem Expr.relabel_conditional (cond whenTrue whenFalse : Expr α) :
    (conditional label cond whenTrue whenFalse type).relabel f =
      .conditional (f label) (cond.relabel f) (whenTrue.relabel f) (whenFalse.relabel f) type := rfl

@[simp] theorem Expr.relabel_index (target position : Expr α) :
    (index label target position type).relabel f =
      .index (f label) (target.relabel f) (position.relabel f) type := rfl

end Expr

section Stmt

variable (label : α)

@[simp] theorem Stmt.relabel_expression (e : Expr α) :
    (expression label e).relabel f = .expression (f label) (e.relabel f) := rfl

@[simp] theorem Stmt.relabel_varDecl (decl : VarDecl α) :
    (varDecl decl).relabel f = .varDecl (decl.relabel f) := rfl

@[simp] theorem Stmt.relabel_ret (value : Option (Expr α)) :
    (ret label value).relabel f = .ret (f label) (value.map (Expr.relabel f)) := by
  simp only [relabel, mapLabels, Expr.mapOptionLabels_eq_map]
  rfl

@[simp] theorem Stmt.relabel_ifElse (cond : Expr α) (whenTrue : Stmt α)
    (whenFalse : Option (Stmt α)) : (ifElse label cond whenTrue whenFalse).relabel f =
      .ifElse (f label) (cond.relabel f) (whenTrue.relabel f) (whenFalse.map (relabel f)) := by
  simp only [relabel, mapLabels, mapOptionLabels_eq_map]
  rfl

@[simp] theorem Stmt.relabel_whileLoop (cond : Expr α) (body : Stmt α) :
    (whileLoop label cond body).relabel f =
      .whileLoop (f label) (cond.relabel f) (body.relabel f) := rfl

@[simp] theorem Stmt.relabel_block (b : Block α) :
    (block b).relabel f = .block (b.relabel f) := rfl

@[simp] theorem Stmt.relabel_classDecl (decl : ClassDecl α) :
    (classDecl decl).relabel f = .classDecl (decl.relabel f) := rfl

@[simp] theorem Stmt.relabel_raise (value : Expr α) :
    (raise label value).relabel f = .raise (f label) (value.relabel f) := rfl

end Stmt

@[simp] theorem Member.relabel_field (decl : VarDecl α) :
    (field decl).relabel f = .field (decl.relabel f) := rfl

@[simp] theorem Member.relabel_method (decl : MethodDecl α) :
    (method decl).relabel f = .method (decl.relabel f) := rfl

@[simp] theorem Member.relabel_classDecl (decl : ClassDecl α) :
    (classDecl decl).relabel f = .classDecl (decl.relabel f) := rfl

@[simp] theorem Member.relabel_initBlock (b : Block α) :
    (initBlock b).relabel f = .initBlock (b.relabel f) := rfl

namespace Expr

variable {f}

@[simp] theorem label_relabel (e : Expr α) : (e.relabel f).label = f e.label := by
  cases e <;> rfl

@[simp] theorem type_relabel (e : Expr α) : (e.relabel f).type = e.type := by
  cases e <;> rfl

@[simp] theorem symbol_relabel (e : Expr α) : (e.relabel f).symbol = e.symbol := by
  cases e <;> rfl

@[simp] theorem kind_relabel (e : Expr α) : (e.relabel f).kind = e.kind := by
  cases e with
  | literal label kind text type => cases kind <;> rfl
  | _ => rfl

@[simp] theorem isNullLiteral_relabel (e : Expr α) :
    (e.relabel f).isNullLiteral = e.isNullLiteral := by
  cases e with
  | literal label kind text type => cases kind <;> rfl
  | _ => rfl

@[simp] theorem isThis_relabel (e : Expr α) : (e.relabel f).isThis = e.isThis := by
  cases e <;> rfl

@[simp] theorem name?_relabel (e : Expr α) : (e.relabel f).name? = e.name? := by
  induction e using name?.induct with
  | case3 label callee args symbol type ih => exact (relabel_call f ..).symm ▸ ih
  | case4 e noIdent noSelect noCall =>
      cases e with
      | ident => exact absurd rfl (noIdent _ _ _ _)
      | select => exact absurd rfl (noSelect _ _ _ _ _)
      | call => exact absurd rfl (noCall _ _ _ _ _)
      | _ => rfl
  | _ => rfl

theorem stripParens_relabel (e : Expr α) :
    (e.relabel f).stripParens = e.stripParens.relabel f := by
  induction e using stripParens.induct with
  | case1 label inner type ih => exact ih
  | case2 e notParen =>
      cases e with
      | paren => exact absurd rfl (notParen _ _ _)
      | _ => rfl

end Expr

theorem Block.relabel_eq (b : Block α) :
    b.relabel f = ⟨f b.label, b.stmts.map (Stmt.relabel f)⟩ := by
  obtain ⟨label, stmts⟩ := b
  simp only [relabel, mapLabels, Stmt.mapAllLabels_eq_map]
  rfl

theorem VarDecl.relabel_eq (decl : VarDecl α) :
    decl.relabel f =
      ⟨f decl.label, decl.name, decl.symbol, decl.type, decl.init.map (Expr.relabel f)⟩ := by
  obtain ⟨label, name, symbol, type, init⟩ := decl
  simp only [relabel, mapLabels, Expr.mapOptionLabels_eq_map]
  rfl

theorem MethodDecl.relabel_eq (decl : MethodDecl α) :
    decl.relabel f = ⟨f decl.label, decl.name, decl.symbol, decl.params.map (VarDecl.relabel f),
      decl.body.map (Block.relabel f)⟩ := by
  obtain ⟨label, name, symbol, params, body⟩ := decl
  simp only [relabel, mapLabels, VarDecl.mapAllLabels_eq_map, Block.mapOptionLabels_eq_map]
  rfl

theorem ClassDecl.relabel_eq (decl : ClassDecl α) :
    decl.relabel f = ⟨f decl.label, decl.kind, decl.name, decl.symbol,
      decl.members.map (Member.relabel f)⟩ := by
  obtain ⟨label, kind, name, symbol, members⟩ := decl
  simp only [relabel, mapLabels, Member.mapAllLabels_eq_map]
  rfl

/-- The fields of a type declaration are relabelled with it. -/
theorem ClassDecl.fields_relabel (decl : ClassDecl α) :
    (decl.relabel f).fields = decl.fields.map (VarDecl.relabel f) := by
  rw [ClassDecl.relabel_eq, fields, fields, List.filterMap_map, List.map_filterMap]
  congr 1
  funext m
  cases m <;> rfl

/-- The methods of a type declaration are relabelled with it. -/
theorem ClassDecl.methods_relabel (decl : ClassDecl α) :
    (decl.relabel f).methods = decl.methods.map (MethodDecl.relabel f) := by
  rw [ClassDecl.relabel_eq, methods, methods, List.filterMap_map, List.map_filterMap]
  congr 1
  funext m
  cases m <;> rfl

theorem CompilationUnit.relabel_eq (unit : CompilationUnit α) :
    unit.relabel f = ⟨unit.file, unit.package, unit.types.map (ClassDecl.relabel f)⟩ := by
  have mapped : unit.types.mapM (fun decl =>
      decl.mapLabels fun label => (pure (f label) : Id β)) =
        pure (unit.types.map (ClassDecl.relabel f)) := by
    induction unit.types with
    | nil => rfl
    | cons decl types ih => rw [List.mapM_cons, ih]; rfl
  simp only [relabel, mapLabels, mapped]
  rfl

namespace Node

variable {f}

theorem relabel_ofStmt (s : Stmt α) : (ofStmt s).relabel f = ofStmt (s.relabel f) := by
  cases s <;> simp [ofStmt, relabel]

theorem relabel_ofMember (m : Member α) : (ofMember m).relabel f = ofMember (m.relabel f) := by
  cases m <;> rfl

@[simp] theorem relabel_classDecl (decl : ClassDecl α) :
    (classDecl decl).relabel f = classDecl (decl.relabel f) := rfl

@[simp] theorem relabel_method (decl : MethodDecl α) :
    (method decl).relabel f = method (decl.relabel f) := rfl

@[simp] theorem relabel_varDecl (decl : VarDecl α) :
    (varDecl decl).relabel f = varDecl (decl.relabel f) := rfl

@[simp] theorem relabel_block (b : Block α) : (block b).relabel f = block (b.relabel f) := rfl

@[simp] theorem relabel_expr (e : Expr α) : (expr e).relabel f = expr (e.relabel f) := rfl

theorem stmtChildren_relabel (s : Stmt α) :
    stmtChildren (s.relabel f) = (stmtChildren s).map (relabel f) := by
  cases s with
  | ret label value => cases value <;> simp [stmtChildren]
  | ifElse label cond whenTrue whenFalse =>
      cases whenFalse <;> simp [stmtChildren, relabel_ofStmt]
  | whileLoop label cond body =>
      exact congrArg (fun below => [.expr (cond.relabel f), below]) (relabel_ofStmt body).symm
  | _ => rfl

theorem exprChildren_relabel (e : Expr α) :
    exprChildren (e.relabel f) = (exprChildren e).map (relabel f) := by
  cases e with
  | call label callee args symbol type =>
      simp [exprChildren, Function.comp_def]
  | creation label args body symbol type =>
      cases body <;> simp [exprChildren, Function.comp_def]
  | _ => rfl

/-- What lies right below a node is relabelled with it. -/
theorem children_relabel (n : Node α) : (n.relabel f).children = n.children.map (relabel f) := by
  cases n with
  | unit u =>
      simp only [relabel, children, CompilationUnit.relabel_eq, List.map_map, Function.comp_def]
  | classDecl decl =>
      simp only [relabel_classDecl, children, ClassDecl.relabel_eq, List.map_map,
        Function.comp_def, relabel_ofMember]
  | method decl =>
      simp only [relabel, children, MethodDecl.relabel_eq, List.map_append, List.map_map,
        Option.toList_map, Function.comp_def]
  | varDecl decl =>
      simp only [relabel_varDecl, children, VarDecl.relabel_eq, List.map_map, Option.toList_map,
        Function.comp_def, relabel_expr]
  | block b =>
      simp only [relabel_block, children, Block.relabel_eq, List.map_map, Function.comp_def,
        relabel_ofStmt]
  | stmt s => exact stmtChildren_relabel s
  | expr e => exact exprChildren_relabel e

@[simp] theorem isClassDecl_relabel (n : Node α) : (n.relabel f).isClassDecl = n.isClassDecl := by
  cases n <;> rfl

@[simp] theorem kind_relabel (n : Node α) : (n.relabel f).kind = n.kind := by
  cases n with
  | classDecl decl => simp only [relabel_classDecl, kind, ClassDecl.relabel_eq]
  | stmt s =>
      cases s with
      | classDecl decl =>
          show NodeKind.ofClassKind (decl.relabel f).kind = _
          rw [ClassDecl.relabel_eq]
          rfl
      | _ => rfl
  | expr e => exact e.kind_relabel
  | _ => rfl

/-- The nodes at and below a node are relabelled with it. -/
theorem preorder_relabel (n : Node α) :
    (n.relabel f).tree.preorder = n.tree.preorder.map (relabel f) := by
  induction n using Node.induct with
  | node n ih =>
      rw [preorder_tree, preorder_tree, children_relabel, List.flatMap_map, List.map_cons,
        List.map_flatMap, List.flatMap_congr ih]

theorem ownNodes_relabel (n : Node α) : (n.relabel f).ownNodes = n.ownNodes.map (relabel f) := by
  induction n using Node.induct with
  | node n ih =>
      rw [ownNodes_eq, ownNodes_eq, children_relabel, List.filter_map, List.flatMap_map,
        List.map_cons, List.map_flatMap]
      simp only [Function.comp_def, isClassDecl_relabel]
      rw [List.flatMap_congr fun c member => ih c (List.mem_of_mem_filter member)]

end Node

/-- The nodes of a unit are relabelled with it. -/
theorem CompilationUnit.preorder_relabel (unit : CompilationUnit α) :
    (unit.relabel f).tree.preorder = unit.tree.preorder.map (Node.relabel f) :=
  Node.preorder_relabel (.unit unit)

section Natural

variable {α α' β β' : Type} {m : Type → Type} [Monad m] [LawfulMonad m] {f : α → m β}
  {f' : α' → m β'} {g : α → α'} {h : β → β'}

mutual

theorem Expr.mapLabels_relabel (natural : ∀ a, f' (g a) = h <$> f a) (e : Expr α) :
    (e.relabel g).mapLabels f' = Expr.relabel h <$> e.mapLabels f := by
  cases e with
  | literal => simp [Expr.mapLabels, natural]
  | ident => simp [Expr.mapLabels, natural]
  | select _ target => simp [Expr.mapLabels, natural, target.mapLabels_relabel natural]
  | call _ callee args =>
      simp [Expr.mapLabels, natural, callee.mapLabels_relabel natural,
        Expr.mapAllLabels_relabel natural args]
  | creation _ args body =>
      simp [Expr.mapLabels, natural, Expr.mapAllLabels_relabel natural args,
        ClassDecl.mapOptionLabels_relabel natural body]
  | assign _ _ target value =>
      simp [Expr.mapLabels, natural, target.mapLabels_relabel natural,
        value.mapLabels_relabel natural]
  | binary _ _ lhs rhs =>
      simp [Expr.mapLabels, natural, lhs.mapLabels_relabel natural, rhs.mapLabels_relabel natural]
  | unary _ _ operand => simp [Expr.mapLabels, natural, operand.mapLabels_relabel natural]
  | paren _ inner => simp [Expr.mapLabels, natural, inner.mapLabels_relabel natural]
  | cast _ operand => simp [Expr.mapLabels, natural, operand.mapLabels_relabel natural]
  | conditional _ cond whenTrue whenFalse =>
      simp [Expr.mapLabels, natural, cond.mapLabels_relabel natural,
        whenTrue.mapLabels_relabel natural, whenFalse.mapLabels_relabel natural]
  | index _ target position =>
      simp [Expr.mapLabels, natural, target.mapLabels_relabel natural,
        position.mapLabels_relabel natural]

theorem Expr.mapAllLabels_relabel (natural : ∀ a, f' (g a) = h <$> f a) (es : List (Expr α)) :
    Expr.mapAllLabels f' (es.map (Expr.relabel g)) =
      List.map (Expr.relabel h) <$> Expr.mapAllLabels f es := by
  cases es with
  | nil => simp [Expr.mapAllLabels]
  | cons e es =>
      simp [Expr.mapAllLabels, e.mapLabels_relabel natural, Expr.mapAllLabels_relabel natural es]

theorem Expr.mapOptionLabels_relabel (natural : ∀ a, f' (g a) = h <$> f a) (e : Option (Expr α)) :
    Expr.mapOptionLabels f' (e.map (Expr.relabel g)) =
      Option.map (Expr.relabel h) <$> Expr.mapOptionLabels f e := by
  cases e with
  | none => simp [Expr.mapOptionLabels]
  | some e => simp [Expr.mapOptionLabels, e.mapLabels_relabel natural]

theorem Stmt.mapLabels_relabel (natural : ∀ a, f' (g a) = h <$> f a) (s : Stmt α) :
    (s.relabel g).mapLabels f' = Stmt.relabel h <$> s.mapLabels f := by
  cases s with
  | expression _ e => simp [Stmt.mapLabels, natural, e.mapLabels_relabel natural]
  | varDecl decl => simp [Stmt.mapLabels, decl.mapLabels_relabel natural]
  | ret _ value => simp [Stmt.mapLabels, natural, Expr.mapOptionLabels_relabel natural value]
  | ifElse _ cond whenTrue whenFalse =>
      simp [Stmt.mapLabels, natural, cond.mapLabels_relabel natural,
        whenTrue.mapLabels_relabel natural, Stmt.mapOptionLabels_relabel natural whenFalse]
  | whileLoop _ cond body =>
      simp [Stmt.mapLabels, natural, cond.mapLabels_relabel natural, body.mapLabels_relabel natural]
  | block b => simp [Stmt.mapLabels, b.mapLabels_relabel natural]
  | classDecl decl => simp [Stmt.mapLabels, decl.mapLabels_relabel natural]
  | raise _ value => simp [Stmt.mapLabels, natural, value.mapLabels_relabel natural]

theorem Stmt.mapAllLabels_relabel (natural : ∀ a, f' (g a) = h <$> f a) (ss : List (Stmt α)) :
    Stmt.mapAllLabels f' (ss.map (Stmt.relabel g)) =
      List.map (Stmt.relabel h) <$> Stmt.mapAllLabels f ss := by
  cases ss with
  | nil => simp [Stmt.mapAllLabels]
  | cons s ss =>
      simp [Stmt.mapAllLabels, s.mapLabels_relabel natural, Stmt.mapAllLabels_relabel natural ss]

theorem Stmt.mapOptionLabels_relabel (natural : ∀ a, f' (g a) = h <$> f a) (s : Option (Stmt α)) :
    Stmt.mapOptionLabels f' (s.map (Stmt.relabel g)) =
      Option.map (Stmt.relabel h) <$> Stmt.mapOptionLabels f s := by
  cases s with
  | none => simp [Stmt.mapOptionLabels]
  | some s => simp [Stmt.mapOptionLabels, s.mapLabels_relabel natural]

theorem Block.mapLabels_relabel (natural : ∀ a, f' (g a) = h <$> f a) (b : Block α) :
    (b.relabel g).mapLabels f' = Block.relabel h <$> b.mapLabels f := by
  obtain ⟨label, stmts⟩ := b
  simp [Block.relabel_eq, Block.mapLabels, natural, Stmt.mapAllLabels_relabel natural stmts]

theorem Block.mapOptionLabels_relabel (natural : ∀ a, f' (g a) = h <$> f a) (b : Option (Block α)) :
    Block.mapOptionLabels f' (b.map (Block.relabel g)) =
      Option.map (Block.relabel h) <$> Block.mapOptionLabels f b := by
  cases b with
  | none => simp [Block.mapOptionLabels]
  | some b => simp [Block.mapOptionLabels, b.mapLabels_relabel natural]

theorem VarDecl.mapLabels_relabel (natural : ∀ a, f' (g a) = h <$> f a) (decl : VarDecl α) :
    (decl.relabel g).mapLabels f' = VarDecl.relabel h <$> decl.mapLabels f := by
  obtain ⟨label, name, symbol, type, init⟩ := decl
  simp [VarDecl.relabel_eq, VarDecl.mapLabels, natural, Expr.mapOptionLabels_relabel natural init]

theorem VarDecl.mapAllLabels_relabel (natural : ∀ a, f' (g a) = h <$> f a) (vs : List (VarDecl α)) :
    VarDecl.mapAllLabels f' (vs.map (VarDecl.relabel g)) =
      List.map (VarDecl.relabel h) <$> VarDecl.mapAllLabels f vs := by
  cases vs with
  | nil => simp [VarDecl.mapAllLabels]
  | cons v vs =>
      simp [VarDecl.mapAllLabels, v.mapLabels_relabel natural,
        VarDecl.mapAllLabels_relabel natural vs]

theorem MethodDecl.mapLabels_relabel (natural : ∀ a, f' (g a) = h <$> f a) (decl : MethodDecl α) :
    (decl.relabel g).mapLabels f' = MethodDecl.relabel h <$> decl.mapLabels f := by
  obtain ⟨label, name, symbol, params, body⟩ := decl
  simp [MethodDecl.relabel_eq, MethodDecl.mapLabels, natural,
    VarDecl.mapAllLabels_relabel natural params, Block.mapOptionLabels_relabel natural body]

theorem ClassDecl.mapLabels_relabel (natural : ∀ a, f' (g a) = h <$> f a) (decl : ClassDecl α) :
    (decl.relabel g).mapLabels f' = ClassDecl.relabel h <$> decl.mapLabels f := by
  obtain ⟨label, kind, name, symbol, members⟩ := decl
  simp [ClassDecl.relabel_eq, ClassDecl.mapLabels, natural,
    Member.mapAllLabels_relabel natural members]

theorem ClassDecl.mapOptionLabels_relabel (natural : ∀ a, f' (g a) =
      h <$> f a) (decl : Option (ClassDecl α)) :
    ClassDecl.mapOptionLabels f' (decl.map (ClassDecl.relabel g)) =
      Option.map (ClassDecl.relabel h) <$> ClassDecl.mapOptionLabels f decl := by
  cases decl with
  | none => simp [ClassDecl.mapOptionLabels]
  | some decl => simp [ClassDecl.mapOptionLabels, decl.mapLabels_relabel natural]

theorem Member.mapLabels_relabel (natural : ∀ a, f' (g a) = h <$> f a) (m : Member α) :
    (m.relabel g).mapLabels f' = Member.relabel h <$> m.mapLabels f := by
  cases m with
  | field decl => simp [Member.mapLabels, decl.mapLabels_relabel natural]
  | method decl => simp [Member.mapLabels, decl.mapLabels_relabel natural]
  | classDecl decl => simp [Member.mapLabels, decl.mapLabels_relabel natural]
  | initBlock b => simp [Member.mapLabels, b.mapLabels_relabel natural]

theorem Member.mapAllLabels_relabel (natural : ∀ a, f' (g a) = h <$> f a) (ms : List (Member α)) :
    Member.mapAllLabels f' (ms.map (Member.relabel g)) =
      List.map (Member.relabel h) <$> Member.mapAllLabels f ms := by
  cases ms with
  | nil => simp [Member.mapAllLabels]
  | cons m ms =>
      simp [Member.mapAllLabels, m.mapLabels_relabel natural,
        Member.mapAllLabels_relabel natural ms]

end

/-- What gives labels to a tree gives related labels to the relabelled one. -/
theorem CompilationUnit.mapLabels_relabel (natural : ∀ a, f' (g a) = h <$> f a)
    (unit : CompilationUnit α) :
    (unit.relabel g).mapLabels f' = CompilationUnit.relabel h <$> unit.mapLabels f := by
  have types : (unit.types.map (ClassDecl.relabel g)).mapM (·.mapLabels f') =
      List.map (ClassDecl.relabel h) <$> unit.types.mapM (·.mapLabels f) := by
    induction unit.types with
    | nil => simp
    | cons decl types ih => simp [List.mapM_cons, decl.mapLabels_relabel natural, ih]
  simp [relabel_eq, mapLabels, types]

end Natural

end BugPatterns
