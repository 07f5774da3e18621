import BugPatterns.Proofs.Ast.Relabel
import BugPatterns.Proofs.Numbering

/-!
# Numbers can be taken off again

Numbering a tree changes its labels and nothing else: where every new label tells the old one, the
old tree comes back when the old labels do (`Expr.relabel_mapLabels`, one law for each sort of
syntax). So the tree of a unit is its numbered tree with the spans as labels
(`CompilationUnit.relabel_numbered`).
-/

namespace BugPatterns

section Restored

variable {α β : Type} {f : α → StateM Nat β} {g : β → α}

mutual

theorem Expr.relabel_mapLabels (back : ∀ a n, g ((f a).run n).1 = a) (e : Expr α) (n : Nat) :
    ((e.mapLabels f).run n).1.relabel g = e := by
  cases e with
  | literal =>
      simp only [Expr.mapLabels, run_counter_bind, run_counter_pure, Expr.relabel_literal, back]
  | ident =>
      simp only [Expr.mapLabels, run_counter_bind, run_counter_pure, Expr.relabel_ident, back]
  | select _ target =>
      simp only [Expr.mapLabels, run_counter_bind, run_counter_pure, Expr.relabel_select, back,
        target.relabel_mapLabels back]
  | call _ callee args =>
      simp only [Expr.mapLabels, run_counter_bind, run_counter_pure, Expr.relabel_call, back,
        callee.relabel_mapLabels back, Expr.relabel_mapAllLabels back args]
  | creation _ args body =>
      simp only [Expr.mapLabels, run_counter_bind, run_counter_pure, Expr.relabel_creation, back,
        Expr.relabel_mapAllLabels back args, ClassDecl.relabel_mapOptionLabels back body]
  | assign _ _ target value =>
      simp only [Expr.mapLabels, run_counter_bind, run_counter_pure, Expr.relabel_assign, back,
        target.relabel_mapLabels back, value.relabel_mapLabels back]
  | binary _ _ lhs rhs =>
      simp only [Expr.mapLabels, run_counter_bind, run_counter_pure, Expr.relabel_binary, back,
        lhs.relabel_mapLabels back, rhs.relabel_mapLabels back]
  | unary _ _ operand =>
      simp only [Expr.mapLabels, run_counter_bind, run_counter_pure, Expr.relabel_unary, back,
        operand.relabel_mapLabels back]
  | paren _ inner =>
      simp only [Expr.mapLabels, run_counter_bind, run_counter_pure, Expr.relabel_paren, back,
        inner.relabel_mapLabels back]
  | cast _ operand =>
      simp only [Expr.mapLabels, run_counter_bind, run_counter_pure, Expr.relabel_cast, back,
        operand.relabel_mapLabels back]
  | conditional _ cond whenTrue whenFalse =>
      simp only [Expr.mapLabels, run_counter_bind, run_counter_pure, Expr.relabel_conditional, back,
        cond.relabel_mapLabels back, whenTrue.relabel_mapLabels back,
        whenFalse.relabel_mapLabels back]
  | index _ target position =>
      simp only [Expr.mapLabels, run_counter_bind, run_counter_pure, Expr.relabel_index, back,
        target.relabel_mapLabels back, position.relabel_mapLabels back]

theorem Expr.relabel_mapAllLabels (back : ∀ a n, g ((f a).run n).1 = a) (es : List (Expr α))
    (n : Nat) : ((Expr.mapAllLabels f es).run n).1.map (Expr.relabel g) = es := by
  cases es with
  | nil => rfl
  | cons e es =>
      simp only [Expr.mapAllLabels, run_counter_bind, run_counter_pure, List.map_cons,
        e.relabel_mapLabels back, Expr.relabel_mapAllLabels back es]

theorem Expr.relabel_mapOptionLabels (back : ∀ a n, g ((f a).run n).1 = a) (e : Option (Expr α))
    (n : Nat) : ((Expr.mapOptionLabels f e).run n).1.map (Expr.relabel g) = e := by
  cases e with
  | none => rfl
  | some e =>
      simp only [Expr.mapOptionLabels, run_counter_bind, run_counter_pure, Option.map_some,
        e.relabel_mapLabels back]

theorem Stmt.relabel_mapLabels (back : ∀ a n, g ((f a).run n).1 = a) (s : Stmt α) (n : Nat) :
    ((s.mapLabels f).run n).1.relabel g = s := by
  cases s with
  | expression _ e =>
      simp only [Stmt.mapLabels, run_counter_bind, run_counter_pure, Stmt.relabel_expression, back,
        e.relabel_mapLabels back]
  | varDecl decl =>
      simp only [Stmt.mapLabels, run_counter_bind, run_counter_pure, Stmt.relabel_varDecl,
        decl.relabel_mapLabels back]
  | ret _ value =>
      simp only [Stmt.mapLabels, run_counter_bind, run_counter_pure, Stmt.relabel_ret, back,
        Expr.relabel_mapOptionLabels back value]
  | ifElse _ cond whenTrue whenFalse =>
      simp only [Stmt.mapLabels, run_counter_bind, run_counter_pure, Stmt.relabel_ifElse, back,
        cond.relabel_mapLabels back, whenTrue.relabel_mapLabels back,
        Stmt.relabel_mapOptionLabels back whenFalse]
  | whileLoop _ cond body =>
      simp only [Stmt.mapLabels, run_counter_bind, run_counter_pure, Stmt.relabel_whileLoop, back,
        cond.relabel_mapLabels back, body.relabel_mapLabels back]
  | block b =>
      simp only [Stmt.mapLabels, run_counter_bind, run_counter_pure, Stmt.relabel_block,
        b.relabel_mapLabels back]
  | classDecl decl =>
      simp only [Stmt.mapLabels, run_counter_bind, run_counter_pure, Stmt.relabel_classDecl,
        decl.relabel_mapLabels back]
  | raise _ value =>
      simp only [Stmt.mapLabels, run_counter_bind, run_counter_pure, Stmt.relabel_raise, back,
        value.relabel_mapLabels back]

theorem Stmt.relabel_mapAllLabels (back : ∀ a n, g ((f a).run n).1 = a) (ss : List (Stmt α))
    (n : Nat) : ((Stmt.mapAllLabels f ss).run n).1.map (Stmt.relabel g) = ss := by
  cases ss with
  | nil => rfl
  | cons s ss =>
      simp only [Stmt.mapAllLabels, run_counter_bind, run_counter_pure, List.map_cons,
        s.relabel_mapLabels back, Stmt.relabel_mapAllLabels back ss]

theorem Stmt.relabel_mapOptionLabels (back : ∀ a n, g ((f a).run n).1 = a) (s : Option (Stmt α))
    (n : Nat) : ((Stmt.mapOptionLabels f s).run n).1.map (Stmt.relabel g) = s := by
  cases s with
  | none => rfl
  | some s =>
      simp only [Stmt.mapOptionLabels, run_counter_bind, run_counter_pure, Option.map_some,
        s.relabel_mapLabels back]

theorem Block.relabel_mapLabels (back : ∀ a n, g ((f a).run n).1 = a) (b : Block α) (n : Nat) :
    ((b.mapLabels f).run n).1.relabel g = b := by
  obtain ⟨label, stmts⟩ := b
  simp only [Block.mapLabels, run_counter_bind, run_counter_pure, Block.relabel_eq, back,
    Stmt.relabel_mapAllLabels back stmts]

theorem Block.relabel_mapOptionLabels (back : ∀ a n, g ((f a).run n).1 = a) (b : Option (Block α))
    (n : Nat) : ((Block.mapOptionLabels f b).run n).1.map (Block.relabel g) = b := by
  cases b with
  | none => rfl
  | some b =>
      simp only [Block.mapOptionLabels, run_counter_bind, run_counter_pure, Option.map_some,
        b.relabel_mapLabels back]

theorem VarDecl.relabel_mapLabels (back : ∀ a n, g ((f a).run n).1 = a) (v : VarDecl α) (n : Nat) :
    ((v.mapLabels f).run n).1.relabel g = v := by
  obtain ⟨label, name, symbol, type, init⟩ := v
  simp only [VarDecl.mapLabels, run_counter_bind, run_counter_pure, VarDecl.relabel_eq, back,
    Expr.relabel_mapOptionLabels back init]

theorem VarDecl.relabel_mapAllLabels (back : ∀ a n, g ((f a).run n).1 = a) (vs : List (VarDecl α))
    (n : Nat) : ((VarDecl.mapAllLabels f vs).run n).1.map (VarDecl.relabel g) = vs := by
  cases vs with
  | nil => rfl
  | cons v vs =>
      simp only [VarDecl.mapAllLabels, run_counter_bind, run_counter_pure, List.map_cons,
        v.relabel_mapLabels back, VarDecl.relabel_mapAllLabels back vs]

theorem MethodDecl.relabel_mapLabels (back : ∀ a n, g ((f a).run n).1 = a) (m : MethodDecl α)
    (n : Nat) : ((m.mapLabels f).run n).1.relabel g = m := by
  obtain ⟨label, name, symbol, params, body⟩ := m
  simp only [MethodDecl.mapLabels, run_counter_bind, run_counter_pure, MethodDecl.relabel_eq, back,
    VarDecl.relabel_mapAllLabels back params, Block.relabel_mapOptionLabels back body]

theorem ClassDecl.relabel_mapLabels (back : ∀ a n, g ((f a).run n).1 = a) (decl : ClassDecl α)
    (n : Nat) : ((decl.mapLabels f).run n).1.relabel g = decl := by
  obtain ⟨label, kind, name, symbol, members⟩ := decl
  simp only [ClassDecl.mapLabels, run_counter_bind, run_counter_pure, ClassDecl.relabel_eq, back,
    Member.relabel_mapAllLabels back members]

theorem ClassDecl.relabel_mapOptionLabels (back : ∀ a n, g ((f a).run n).1 = a)
    (decl : Option (ClassDecl α)) (n : Nat) :
    ((ClassDecl.mapOptionLabels f decl).run n).1.map (ClassDecl.relabel g) = decl := by
  cases decl with
  | none => rfl
  | some decl =>
      simp only [ClassDecl.mapOptionLabels, run_counter_bind, run_counter_pure, Option.map_some,
        decl.relabel_mapLabels back]

theorem Member.relabel_mapLabels (back : ∀ a n, g ((f a).run n).1 = a) (m : Member α) (n : Nat) :
    ((m.mapLabels f).run n).1.relabel g = m := by
  cases m with
  | field decl =>
      simp only [Member.mapLabels, run_counter_bind, run_counter_pure, Member.relabel_field,
        decl.relabel_mapLabels back]
  | method decl =>
      simp only [Member.mapLabels, run_counter_bind, run_counter_pure, Member.relabel_method,
        decl.relabel_mapLabels back]
  | classDecl decl =>
      simp only [Member.mapLabels, run_counter_bind, run_counter_pure, Member.relabel_classDecl,
        decl.relabel_mapLabels back]
  | initBlock b =>
      simp only [Member.mapLabels, run_counter_bind, run_counter_pure, Member.relabel_initBlock,
        b.relabel_mapLabels back]

theorem Member.relabel_mapAllLabels (back : ∀ a n, g ((f a).run n).1 = a) (ms : List (Member α))
    (n : Nat) : ((Member.mapAllLabels f ms).run n).1.map (Member.relabel g) = ms := by
  cases ms with
  | nil => rfl
  | cons m ms =>
      simp only [Member.mapAllLabels, run_counter_bind, run_counter_pure, List.map_cons,
        m.relabel_mapLabels back, Member.relabel_mapAllLabels back ms]

end

end Restored

namespace CompilationUnit

theorem relabel_mapM_types (types : List (ClassDecl Span)) : ∀ n,
    ((types.mapM (ClassDecl.mapLabels nextSite)).run n).1.map (ClassDecl.relabel Site.span) =
      types := by
  have back (span : Span) (n : Nat) : ((nextSite span).run n).1.span = span := rfl
  induction types with
  | nil => exact fun n => rfl
  | cons decl types ih =>
      intro n
      rw [List.mapM_cons]
      simp only [run_counter_bind, run_counter_pure, List.map_cons, decl.relabel_mapLabels back, ih]

/-- The tree of a unit is its numbered tree with the spans as labels. -/
theorem relabel_numbered (unit : CompilationUnit Span) :
    unit.numbered.relabel Site.span = unit := by
  rw [relabel_eq]
  exact congrArg (CompilationUnit.mk unit.file unit.package) (relabel_mapM_types unit.types 1)

end CompilationUnit

end BugPatterns
