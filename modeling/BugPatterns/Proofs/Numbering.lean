import BugPatterns.Ast.Labels
import BugPatterns.Proofs.NodeTree

/-!
# Numbers of nodes

`CompilationUnit.numbered` gives the nodes of a unit consecutive numbers in the order of the walk
(`map_number_numbered`). The proof follows the relabelling through the syntax: started at a number,
it uses up exactly the numbers from there to the one that it leaves behind.
-/

namespace BugPatterns

/-- The nodes carry the numbers from `first` up to `after`, in their order. -/
def Numbers (first : Nat) (nodes : List (Node Site)) (after : Nat) : Prop :=
  ∃ count, after = first + count ∧ nodes.map Node.number = List.range' first count

namespace Numbers

variable {first middle after : Nat} {node : Node Site} {nodes others : List (Node Site)}

theorem nil : Numbers first [] first := ⟨0, rfl, rfl⟩

theorem append (front : Numbers first nodes middle) (back : Numbers middle others after) :
    Numbers first (nodes ++ others) after := by
  obtain ⟨count, rfl, numbers⟩ := front
  obtain ⟨more, rfl, rest⟩ := back
  refine ⟨count + more, by omega, ?_⟩
  rw [List.map_append, numbers, rest, List.range'_append_1]

theorem cons (here : node.number = first) (below : Numbers (first + 1) nodes after) :
    Numbers first (node :: nodes) after := by
  obtain ⟨count, rfl, numbers⟩ := below
  refine ⟨count + 1, by omega, ?_⟩
  rw [List.map_cons, here, numbers, List.range'_succ]

end Numbers

open CompilationUnit (nextSite)

section Run

variable {α β : Type}

theorem run_counter_bind (action : StateM Nat α) (next : α → StateM Nat β) (n : Nat) :
    (action >>= next).run n = (next (action.run n).1).run (action.run n).2 := rfl

theorem run_counter_pure (a : α) (n : Nat) : (pure a : StateM Nat α).run n = (a, n) := rfl

theorem run_nextSite (span : Span) (n : Nat) : (nextSite span).run n = (⟨n, span⟩, n + 1) := rfl

end Run

mutual

theorem Expr.numbers_mapLabels (e : Expr Span) (n : Nat) :
    Numbers n ((e.mapLabels nextSite).run n).1.tree.preorder ((e.mapLabels nextSite).run n).2 := by
  cases e <;>
    simp only [Expr.mapLabels, run_counter_bind, run_counter_pure, run_nextSite, Expr.tree,
      Tree.preorder, Tree.preorderAll, List.append_nil] <;>
    refine .cons rfl ?_
  case literal => exact .nil
  case ident => exact .nil
  case select target _ _ _ => exact target.numbers_mapLabels _
  case call callee args _ _ =>
    exact (callee.numbers_mapLabels _).append (Expr.numbers_mapAllLabels args _)
  case creation args body _ _ =>
    rw [Tree.preorderAll_append]
    exact (Expr.numbers_mapAllLabels args _).append (ClassDecl.numbers_mapOptionLabels body _)
  case assign target value _ =>
    exact (target.numbers_mapLabels _).append (value.numbers_mapLabels _)
  case binary lhs rhs _ => exact (lhs.numbers_mapLabels _).append (rhs.numbers_mapLabels _)
  case unary operand _ => exact operand.numbers_mapLabels _
  case paren inner _ => exact inner.numbers_mapLabels _
  case cast operand _ => exact operand.numbers_mapLabels _
  case conditional cond whenTrue whenFalse _ =>
    exact (cond.numbers_mapLabels _).append
      ((whenTrue.numbers_mapLabels _).append (whenFalse.numbers_mapLabels _))
  case index target position _ =>
    exact (target.numbers_mapLabels _).append (position.numbers_mapLabels _)

theorem Expr.numbers_mapAllLabels (es : List (Expr Span)) (n : Nat) :
    Numbers n (Tree.preorderAll (Expr.trees ((Expr.mapAllLabels nextSite es).run n).1))
      ((Expr.mapAllLabels nextSite es).run n).2 := by
  cases es with
  | nil => exact .nil
  | cons e es => exact (e.numbers_mapLabels n).append (Expr.numbers_mapAllLabels es _)

theorem Expr.numbers_mapOptionLabels (e : Option (Expr Span)) (n : Nat) :
    Numbers n (Tree.preorderAll (Expr.optionTrees ((Expr.mapOptionLabels nextSite e).run n).1))
      ((Expr.mapOptionLabels nextSite e).run n).2 := by
  cases e with
  | none => exact .nil
  | some e => exact (e.numbers_mapLabels n).append .nil

theorem Stmt.numbers_mapLabels (s : Stmt Span) (n : Nat) :
    Numbers n ((s.mapLabels nextSite).run n).1.tree.preorder ((s.mapLabels nextSite).run n).2 := by
  cases s with
  | expression label e => exact .cons rfl ((e.numbers_mapLabels _).append .nil)
  | varDecl decl => exact decl.numbers_mapLabels n
  | ret label value => exact .cons rfl (Expr.numbers_mapOptionLabels value _)
  | ifElse label cond whenTrue whenFalse =>
      exact .cons rfl ((cond.numbers_mapLabels _).append
        ((whenTrue.numbers_mapLabels _).append (Stmt.numbers_mapOptionLabels whenFalse _)))
  | whileLoop label cond body =>
      exact .cons rfl ((cond.numbers_mapLabels _).append
        ((body.numbers_mapLabels _).append .nil))
  | block b => exact b.numbers_mapLabels n
  | classDecl decl => exact decl.numbers_mapLabels n
  | raise label value => exact .cons rfl ((value.numbers_mapLabels _).append .nil)

theorem Stmt.numbers_mapAllLabels (ss : List (Stmt Span)) (n : Nat) :
    Numbers n (Tree.preorderAll (Stmt.trees ((Stmt.mapAllLabels nextSite ss).run n).1))
      ((Stmt.mapAllLabels nextSite ss).run n).2 := by
  cases ss with
  | nil => exact .nil
  | cons s ss => exact (s.numbers_mapLabels n).append (Stmt.numbers_mapAllLabels ss _)

theorem Stmt.numbers_mapOptionLabels (s : Option (Stmt Span)) (n : Nat) :
    Numbers n (Tree.preorderAll (Stmt.optionTrees ((Stmt.mapOptionLabels nextSite s).run n).1))
      ((Stmt.mapOptionLabels nextSite s).run n).2 := by
  cases s with
  | none => exact .nil
  | some s => exact (s.numbers_mapLabels n).append .nil

theorem Block.numbers_mapLabels (b : Block Span) (n : Nat) :
    Numbers n ((b.mapLabels nextSite).run n).1.tree.preorder ((b.mapLabels nextSite).run n).2 := by
  obtain ⟨label, stmts⟩ := b
  exact .cons rfl (Stmt.numbers_mapAllLabels stmts _)

theorem Block.numbers_mapOptionLabels (b : Option (Block Span)) (n : Nat) :
    Numbers n (Tree.preorderAll (Block.bodyTrees ((Block.mapOptionLabels nextSite b).run n).1))
      ((Block.mapOptionLabels nextSite b).run n).2 := by
  cases b with
  | none => exact .nil
  | some b => exact (b.numbers_mapLabels n).append .nil

theorem VarDecl.numbers_mapLabels (v : VarDecl Span) (n : Nat) :
    Numbers n ((v.mapLabels nextSite).run n).1.tree.preorder ((v.mapLabels nextSite).run n).2 := by
  obtain ⟨label, name, symbol, type, init⟩ := v
  exact .cons rfl (Expr.numbers_mapOptionLabels init _)

theorem VarDecl.numbers_mapAllLabels (vs : List (VarDecl Span)) (n : Nat) :
    Numbers n (Tree.preorderAll (VarDecl.trees ((VarDecl.mapAllLabels nextSite vs).run n).1))
      ((VarDecl.mapAllLabels nextSite vs).run n).2 := by
  cases vs with
  | nil => exact .nil
  | cons v vs => exact (v.numbers_mapLabels n).append (VarDecl.numbers_mapAllLabels vs _)

theorem MethodDecl.numbers_mapLabels (m : MethodDecl Span) (n : Nat) :
    Numbers n ((m.mapLabels nextSite).run n).1.tree.preorder ((m.mapLabels nextSite).run n).2 := by
  obtain ⟨label, name, symbol, params, body⟩ := m
  simp only [MethodDecl.mapLabels, run_counter_bind, run_counter_pure, run_nextSite,
    MethodDecl.tree, Tree.preorder, Tree.preorderAll_append]
  exact .cons rfl
    ((VarDecl.numbers_mapAllLabels params _).append (Block.numbers_mapOptionLabels body _))

theorem ClassDecl.numbers_mapLabels (decl : ClassDecl Span) (n : Nat) :
    Numbers n ((decl.mapLabels nextSite).run n).1.tree.preorder
      ((decl.mapLabels nextSite).run n).2 := by
  obtain ⟨label, kind, name, symbol, members⟩ := decl
  exact .cons rfl (Member.numbers_mapAllLabels members _)

theorem ClassDecl.numbers_mapOptionLabels (decl : Option (ClassDecl Span)) (n : Nat) :
    Numbers n (Tree.preorderAll
        (ClassDecl.bodyTrees ((ClassDecl.mapOptionLabels nextSite decl).run n).1))
      ((ClassDecl.mapOptionLabels nextSite decl).run n).2 := by
  cases decl with
  | none => exact .nil
  | some decl => exact (decl.numbers_mapLabels n).append .nil

theorem Member.numbers_mapLabels (m : Member Span) (n : Nat) :
    Numbers n ((m.mapLabels nextSite).run n).1.tree.preorder ((m.mapLabels nextSite).run n).2 := by
  cases m with
  | field decl => exact decl.numbers_mapLabels n
  | method decl => exact decl.numbers_mapLabels n
  | classDecl decl => exact decl.numbers_mapLabels n
  | initBlock b => exact b.numbers_mapLabels n

theorem Member.numbers_mapAllLabels (ms : List (Member Span)) (n : Nat) :
    Numbers n (Tree.preorderAll (Member.trees ((Member.mapAllLabels nextSite ms).run n).1))
      ((Member.mapAllLabels nextSite ms).run n).2 := by
  cases ms with
  | nil => exact .nil
  | cons m ms => exact (m.numbers_mapLabels n).append (Member.numbers_mapAllLabels ms _)

end

namespace CompilationUnit

theorem numbers_mapM_types (types : List (ClassDecl Span)) :
    ∀ n, Numbers n
      (Tree.preorderAll (((types.mapM (ClassDecl.mapLabels nextSite)).run n).1.map ClassDecl.tree))
      ((types.mapM (ClassDecl.mapLabels nextSite)).run n).2 := by
  induction types with
  | nil => exact fun n => .nil
  | cons decl types ih =>
      intro n
      rw [List.mapM_cons]
      exact (decl.numbers_mapLabels n).append (ih _)

/-- The nodes of a unit are numbered by their positions in the walk. -/
theorem map_number_numbered (unit : CompilationUnit Span) :
    unit.numbered.tree.preorder.map Node.number =
      List.range unit.numbered.tree.preorder.length := by
  obtain ⟨count, -, numbers⟩ :
      Numbers 0 unit.numbered.tree.preorder ((unit.mapLabels nextSite).run 1).2 :=
    .cons rfl (numbers_mapM_types unit.types 1)
  have length := congrArg List.length numbers
  rw [List.length_map, List.length_range'] at length
  rw [numbers, length, List.range_eq_range']

end CompilationUnit

end BugPatterns
