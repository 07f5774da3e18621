import BugPatterns.Proofs.Ast.Unwrap
import BugPatterns.Proofs.Numbering

/-!
# Numbers without added parentheses

When added parentheses are taken out of a numbered unit and the rest is numbered again, the nodes
that are left are given new numbers, and nothing else about them changes
(`CompilationUnit.numbered_unwrap`). Numbers that differed still differ
(`CompilationUnit.exists_renumbering`), so nodes are told apart by the new ones as by the old ones.
-/

namespace BugPatterns

/-- The site with another number. -/
def Site.renumber (r : Nat → Nat) (site : Site) : Site := ⟨r site.number, site.span⟩

variable {added : Site → Bool} {r : Nat → Nat}

theorem Node.span_unwrap {n : Node Site} (kept : n.isAdded added = false) :
    (n.unwrap added (Site.renumber r)).span = n.span := by
  rw [span, span, label?_unwrap kept]
  cases n.label? <;> rfl

/-- The nodes that were not added get the numbers from `first` up to `after`, in their order. -/
inductive Renumbers (added : Site → Bool) (r : Nat → Nat) : Nat → List (Node Site) → Nat → Prop
  | nil {first : Nat} : Renumbers added r first [] first
  | skip {first after : Nat} {node : Node Site} {nodes : List (Node Site)}
      (marked : node.isAdded added = true) (rest : Renumbers added r first nodes after) :
      Renumbers added r first (node :: nodes) after
  | number {after : Nat} {node : Node Site} {nodes : List (Node Site)} {site : Site}
      (kept : node.isAdded added = false) (labelled : node.label? = some site)
      (rest : Renumbers added r (r site.number + 1) nodes after) :
      Renumbers added r (r site.number) (node :: nodes) after

namespace Renumbers

variable {first after : Nat} {node : Node Site} {nodes others : List (Node Site)}

theorem split (fits : Renumbers added r first (nodes ++ others) after) :
    ∃ middle, Renumbers added r first nodes middle ∧ Renumbers added r middle others after := by
  induction nodes generalizing first with
  | nil => exact ⟨first, .nil, fits⟩
  | cons node nodes ih =>
      cases fits with
      | skip marked rest =>
          obtain ⟨middle, front, back⟩ := ih rest
          exact ⟨middle, .skip marked front, back⟩
      | number kept labelled rest =>
          obtain ⟨middle, front, back⟩ := ih rest
          exact ⟨middle, .number kept labelled front, back⟩

theorem below_added (fits : Renumbers added r first (node :: nodes) after)
    (marked : node.isAdded added = true) : Renumbers added r first nodes after := by
  cases fits with
  | skip _ rest => exact rest
  | number kept _ _ =>
      rw [marked] at kept
      cases kept

theorem below_kept (fits : Renumbers added r first (node :: nodes) after)
    (kept : node.isAdded added = false) {site : Site} (labelled : node.label? = some site) :
    first = r site.number ∧ Renumbers added r (r site.number + 1) nodes after := by
  cases fits with
  | skip marked _ =>
      rw [kept] at marked
      cases marked
  | number _ same rest =>
      obtain rfl := Option.some.inj (labelled.symm.trans same)
      exact ⟨rfl, rest⟩

theorem eq_of_nil (fits : Renumbers added r first [] after) : after = first := by
  cases fits
  rfl

theorem of_append_nil (fits : Renumbers added r first (nodes ++ []) after) :
    Renumbers added r first nodes after := by
  rwa [List.append_nil] at fits

end Renumbers

open CompilationUnit (nextSite)

/-- A counter that starts at `first` gives `result` and ends at `after`. -/
def CountsTo {α : Type} (counter : StateM Nat α) (first : Nat) (result : α) (after : Nat) : Prop :=
  counter.run first = (result, after)

namespace CountsTo

variable {α β : Type} {counter : StateM Nat α} {f : α → StateM Nat β} {first middle after : Nat}
  {a : α} {b : β}

theorem bind (front : CountsTo counter first a middle) (back : CountsTo (f a) middle b after) :
    CountsTo (counter >>= f) first b after := by
  unfold CountsTo at front back ⊢
  rw [run_counter_bind, front]
  exact back

theorem pure : CountsTo (pure a) first a first := rfl

theorem next (site : Site) :
    CountsTo (nextSite site.span) (r site.number) (site.renumber r) (r site.number + 1) := rfl

end CountsTo

mutual

theorem Expr.counts_unwrap (e : Expr Site) {n after : Nat}
    (fits : Renumbers added r n e.tree.preorder after) :
    CountsTo ((e.unwrap added Site.span).mapLabels nextSite) n
      (e.unwrap added (Site.renumber r)) after := by
  cases e with
  | literal label kind text type =>
      obtain ⟨rfl, rest⟩ := fits.below_kept rfl rfl
      obtain rfl := rest.eq_of_nil
      exact .bind (.next label) .pure
  | ident label name symbol type =>
      obtain ⟨rfl, rest⟩ := fits.below_kept rfl rfl
      obtain rfl := rest.eq_of_nil
      exact .bind (.next label) .pure
  | select label target name symbol type =>
      obtain ⟨rfl, rest⟩ := fits.below_kept rfl rfl
      exact .bind (.next label) (.bind (target.counts_unwrap rest.of_append_nil) .pure)
  | call label callee args symbol type =>
      obtain ⟨rfl, rest⟩ := fits.below_kept rfl rfl
      obtain ⟨_, front, back⟩ := rest.split
      exact .bind (.next label) (.bind (callee.counts_unwrap front)
        (.bind (Expr.counts_unwrapAll args back) .pure))
  | creation label args body symbol type =>
      obtain ⟨rfl, rest⟩ := fits.below_kept rfl rfl
      rw [Tree.preorderAll_append] at rest
      obtain ⟨_, front, back⟩ := rest.split
      exact .bind (.next label) (.bind (Expr.counts_unwrapAll args front)
        (.bind (ClassDecl.counts_unwrapOption body back) .pure))
  | assign label op target value type =>
      obtain ⟨rfl, rest⟩ := fits.below_kept rfl rfl
      obtain ⟨_, front, back⟩ := rest.split
      exact .bind (.next label) (.bind (target.counts_unwrap front)
        (.bind (value.counts_unwrap back.of_append_nil) .pure))
  | binary label op lhs rhs type =>
      obtain ⟨rfl, rest⟩ := fits.below_kept rfl rfl
      obtain ⟨_, front, back⟩ := rest.split
      exact .bind (.next label) (.bind (lhs.counts_unwrap front)
        (.bind (rhs.counts_unwrap back.of_append_nil) .pure))
  | unary label op operand type =>
      obtain ⟨rfl, rest⟩ := fits.below_kept rfl rfl
      exact .bind (.next label) (.bind (operand.counts_unwrap rest.of_append_nil) .pure)
  | paren label inner type =>
      cases marked : added label with
      | true =>
          rw [Expr.unwrap_of_added marked, Expr.unwrap_of_added marked]
          exact inner.counts_unwrap (fits.below_added marked).of_append_nil
      | false =>
          obtain ⟨rfl, rest⟩ := fits.below_kept marked rfl
          rw [Expr.unwrap_of_kept marked, Expr.unwrap_of_kept marked]
          exact .bind (.next label) (.bind (inner.counts_unwrap rest.of_append_nil) .pure)
  | cast label operand type =>
      obtain ⟨rfl, rest⟩ := fits.below_kept rfl rfl
      exact .bind (.next label) (.bind (operand.counts_unwrap rest.of_append_nil) .pure)
  | conditional label cond whenTrue whenFalse type =>
      obtain ⟨rfl, rest⟩ := fits.below_kept rfl rfl
      obtain ⟨_, first, rest⟩ := rest.split
      obtain ⟨_, second, third⟩ := rest.split
      exact .bind (.next label) (.bind (cond.counts_unwrap first)
        (.bind (whenTrue.counts_unwrap second)
          (.bind (whenFalse.counts_unwrap third.of_append_nil) .pure)))
  | index label target position type =>
      obtain ⟨rfl, rest⟩ := fits.below_kept rfl rfl
      obtain ⟨_, front, back⟩ := rest.split
      exact .bind (.next label) (.bind (target.counts_unwrap front)
        (.bind (position.counts_unwrap back.of_append_nil) .pure))

theorem Expr.counts_unwrapAll (es : List (Expr Site)) {n after : Nat}
    (fits : Renumbers added r n (Tree.preorderAll (Expr.trees es)) after) :
    CountsTo (Expr.mapAllLabels nextSite (Expr.unwrapAll added Site.span es)) n
      (Expr.unwrapAll added (Site.renumber r) es) after := by
  cases es with
  | nil =>
      obtain rfl := fits.eq_of_nil
      exact .pure
  | cons e es =>
      obtain ⟨_, front, back⟩ := fits.split
      exact .bind (e.counts_unwrap front) (.bind (Expr.counts_unwrapAll es back) .pure)

theorem Expr.counts_unwrapOption (e : Option (Expr Site)) {n after : Nat}
    (fits : Renumbers added r n (Tree.preorderAll (Expr.optionTrees e)) after) :
    CountsTo (Expr.mapOptionLabels nextSite (Expr.unwrapOption added Site.span e)) n
      (Expr.unwrapOption added (Site.renumber r) e) after := by
  cases e with
  | none =>
      obtain rfl := fits.eq_of_nil
      exact .pure
  | some e => exact .bind (e.counts_unwrap fits.of_append_nil) .pure

theorem Stmt.counts_unwrap (s : Stmt Site) {n after : Nat}
    (fits : Renumbers added r n s.tree.preorder after) :
    CountsTo ((s.unwrap added Site.span).mapLabels nextSite) n
      (s.unwrap added (Site.renumber r)) after := by
  cases s with
  | expression label e =>
      obtain ⟨rfl, rest⟩ := fits.below_kept rfl rfl
      exact .bind (.next label) (.bind (e.counts_unwrap rest.of_append_nil) .pure)
  | varDecl decl => exact .bind (decl.counts_unwrap fits) .pure
  | ret label value =>
      obtain ⟨rfl, rest⟩ := fits.below_kept rfl rfl
      exact .bind (.next label) (.bind (Expr.counts_unwrapOption value rest) .pure)
  | ifElse label cond whenTrue whenFalse =>
      obtain ⟨rfl, rest⟩ := fits.below_kept rfl rfl
      obtain ⟨_, first, rest⟩ := rest.split
      obtain ⟨_, second, third⟩ := rest.split
      exact .bind (.next label) (.bind (cond.counts_unwrap first)
        (.bind (whenTrue.counts_unwrap second)
          (.bind (Stmt.counts_unwrapOption whenFalse third) .pure)))
  | whileLoop label cond body =>
      obtain ⟨rfl, rest⟩ := fits.below_kept rfl rfl
      obtain ⟨_, front, back⟩ := rest.split
      exact .bind (.next label) (.bind (cond.counts_unwrap front)
        (.bind (body.counts_unwrap back.of_append_nil) .pure))
  | block b => exact .bind (b.counts_unwrap fits) .pure
  | classDecl decl => exact .bind (decl.counts_unwrap fits) .pure
  | raise label value =>
      obtain ⟨rfl, rest⟩ := fits.below_kept rfl rfl
      exact .bind (.next label) (.bind (value.counts_unwrap rest.of_append_nil) .pure)

theorem Stmt.counts_unwrapAll (ss : List (Stmt Site)) {n after : Nat}
    (fits : Renumbers added r n (Tree.preorderAll (Stmt.trees ss)) after) :
    CountsTo (Stmt.mapAllLabels nextSite (Stmt.unwrapAll added Site.span ss)) n
      (Stmt.unwrapAll added (Site.renumber r) ss) after := by
  cases ss with
  | nil =>
      obtain rfl := fits.eq_of_nil
      exact .pure
  | cons s ss =>
      obtain ⟨_, front, back⟩ := fits.split
      exact .bind (s.counts_unwrap front) (.bind (Stmt.counts_unwrapAll ss back) .pure)

theorem Stmt.counts_unwrapOption (s : Option (Stmt Site)) {n after : Nat}
    (fits : Renumbers added r n (Tree.preorderAll (Stmt.optionTrees s)) after) :
    CountsTo (Stmt.mapOptionLabels nextSite (Stmt.unwrapOption added Site.span s)) n
      (Stmt.unwrapOption added (Site.renumber r) s) after := by
  cases s with
  | none =>
      obtain rfl := fits.eq_of_nil
      exact .pure
  | some s => exact .bind (s.counts_unwrap fits.of_append_nil) .pure

theorem Block.counts_unwrap (b : Block Site) {n after : Nat}
    (fits : Renumbers added r n b.tree.preorder after) :
    CountsTo ((b.unwrap added Site.span).mapLabels nextSite) n
      (b.unwrap added (Site.renumber r)) after := by
  obtain ⟨label, stmts⟩ := b
  obtain ⟨rfl, rest⟩ := fits.below_kept rfl rfl
  exact .bind (.next label) (.bind (Stmt.counts_unwrapAll stmts rest) .pure)

theorem Block.counts_unwrapOption (b : Option (Block Site)) {n after : Nat}
    (fits : Renumbers added r n (Tree.preorderAll (Block.bodyTrees b)) after) :
    CountsTo (Block.mapOptionLabels nextSite (Block.unwrapOption added Site.span b)) n
      (Block.unwrapOption added (Site.renumber r) b) after := by
  cases b with
  | none =>
      obtain rfl := fits.eq_of_nil
      exact .pure
  | some b => exact .bind (b.counts_unwrap fits.of_append_nil) .pure

theorem VarDecl.counts_unwrap (decl : VarDecl Site) {n after : Nat}
    (fits : Renumbers added r n decl.tree.preorder after) :
    CountsTo ((decl.unwrap added Site.span).mapLabels nextSite) n
      (decl.unwrap added (Site.renumber r)) after := by
  obtain ⟨label, name, symbol, type, init⟩ := decl
  obtain ⟨rfl, rest⟩ := fits.below_kept rfl rfl
  exact .bind (.next label) (.bind (Expr.counts_unwrapOption init rest) .pure)

theorem VarDecl.counts_unwrapAll (decls : List (VarDecl Site)) {n after : Nat}
    (fits : Renumbers added r n (Tree.preorderAll (VarDecl.trees decls)) after) :
    CountsTo (VarDecl.mapAllLabels nextSite (VarDecl.unwrapAll added Site.span decls)) n
      (VarDecl.unwrapAll added (Site.renumber r) decls) after := by
  cases decls with
  | nil =>
      obtain rfl := fits.eq_of_nil
      exact .pure
  | cons decl decls =>
      obtain ⟨_, front, back⟩ := fits.split
      exact .bind (decl.counts_unwrap front) (.bind (VarDecl.counts_unwrapAll decls back) .pure)

theorem MethodDecl.counts_unwrap (decl : MethodDecl Site) {n after : Nat}
    (fits : Renumbers added r n decl.tree.preorder after) :
    CountsTo ((decl.unwrap added Site.span).mapLabels nextSite) n
      (decl.unwrap added (Site.renumber r)) after := by
  obtain ⟨label, name, symbol, params, body⟩ := decl
  obtain ⟨rfl, rest⟩ := fits.below_kept rfl rfl
  rw [Tree.preorderAll_append] at rest
  obtain ⟨_, front, back⟩ := rest.split
  exact .bind (.next label) (.bind (VarDecl.counts_unwrapAll params front)
    (.bind (Block.counts_unwrapOption body back) .pure))

theorem ClassDecl.counts_unwrap (decl : ClassDecl Site) {n after : Nat}
    (fits : Renumbers added r n decl.tree.preorder after) :
    CountsTo ((decl.unwrap added Site.span).mapLabels nextSite) n
      (decl.unwrap added (Site.renumber r)) after := by
  obtain ⟨label, kind, name, symbol, members⟩ := decl
  obtain ⟨rfl, rest⟩ := fits.below_kept rfl rfl
  exact .bind (.next label) (.bind (Member.counts_unwrapAll members rest) .pure)

theorem ClassDecl.counts_unwrapOption (decl : Option (ClassDecl Site)) {n after : Nat}
    (fits : Renumbers added r n (Tree.preorderAll (ClassDecl.bodyTrees decl)) after) :
    CountsTo (ClassDecl.mapOptionLabels nextSite (ClassDecl.unwrapOption added Site.span decl)) n
      (ClassDecl.unwrapOption added (Site.renumber r) decl) after := by
  cases decl with
  | none =>
      obtain rfl := fits.eq_of_nil
      exact .pure
  | some decl => exact .bind (decl.counts_unwrap fits.of_append_nil) .pure

theorem Member.counts_unwrap (m : Member Site) {n after : Nat}
    (fits : Renumbers added r n m.tree.preorder after) :
    CountsTo ((m.unwrap added Site.span).mapLabels nextSite) n
      (m.unwrap added (Site.renumber r)) after := by
  cases m with
  | field decl => exact .bind (decl.counts_unwrap fits) .pure
  | method decl => exact .bind (decl.counts_unwrap fits) .pure
  | classDecl decl => exact .bind (decl.counts_unwrap fits) .pure
  | initBlock b => exact .bind (b.counts_unwrap fits) .pure

theorem Member.counts_unwrapAll (ms : List (Member Site)) {n after : Nat}
    (fits : Renumbers added r n (Tree.preorderAll (Member.trees ms)) after) :
    CountsTo (Member.mapAllLabels nextSite (Member.unwrapAll added Site.span ms)) n
      (Member.unwrapAll added (Site.renumber r) ms) after := by
  cases ms with
  | nil =>
      obtain rfl := fits.eq_of_nil
      exact .pure
  | cons m ms =>
      obtain ⟨_, front, back⟩ := fits.split
      exact .bind (m.counts_unwrap front) (.bind (Member.counts_unwrapAll ms back) .pure)

end

namespace CompilationUnit

theorem counts_unwrap_types (types : List (ClassDecl Site)) : ∀ {n after : Nat},
    Renumbers added r n (Tree.preorderAll (types.map ClassDecl.tree)) after →
    CountsTo ((types.map (ClassDecl.unwrap added Site.span)).mapM (ClassDecl.mapLabels nextSite)) n
      (types.map (ClassDecl.unwrap added (Site.renumber r))) after := by
  induction types with
  | nil =>
      intro n after fits
      obtain rfl := fits.eq_of_nil
      exact .pure
  | cons decl types ih =>
      intro n after fits
      obtain ⟨_, front, back⟩ := fits.split
      rw [List.map_cons, List.mapM_cons]
      exact .bind (decl.counts_unwrap front) (.bind (ih back) .pure)

/-- Numbering what is left of a unit gives its nodes the new numbers. -/
theorem numbered_unwrap (unit : CompilationUnit Site) {after : Nat}
    (fits : Renumbers added r 1 (Tree.preorderAll (unit.types.map ClassDecl.tree)) after) :
    (unit.unwrap added Site.span).numbered = unit.unwrap added (Site.renumber r) := by
  have counts : CountsTo ((unit.unwrap added Site.span).mapLabels nextSite) 1
      (unit.unwrap added (Site.renumber r)) after :=
    .bind (counts_unwrap_types unit.types fits) .pure
  exact congrArg Prod.fst counts

end CompilationUnit

/-- The numbers are given if they are the positions of those that were not added. -/
theorem Renumbers.of_positions {nodes : List (Node Site)}
    (positive : ∀ n ∈ nodes, n.number ≠ 0) : ∀ {first : Nat},
    ((nodes.filter fun n => !n.isAdded added).map fun n => r n.number) =
      List.range' first (nodes.filter fun n => !n.isAdded added).length →
    Renumbers added r first nodes (first + (nodes.filter fun n => !n.isAdded added).length) := by
  induction nodes with
  | nil => exact fun _ => .nil
  | cons n nodes ih =>
      intro first placed
      have below := @ih fun m member => positive m (List.mem_cons_of_mem _ member)
      cases marked : n.isAdded added with
      | true =>
          rw [List.filter_cons_of_neg (by simp [marked])] at placed ⊢
          exact .skip marked (below placed)
      | false =>
          rw [List.filter_cons_of_pos (by simp [marked]), List.map_cons, List.length_cons,
            List.range'_succ] at placed
          obtain ⟨rfl, placed⟩ := List.cons.inj placed
          obtain ⟨site, labelled⟩ : ∃ site, n.label? = some site := by
            cases labelled : n.label? with
            | some site => exact ⟨site, rfl⟩
            | none => exact absurd (by simp [Node.number, labelled]) (positive n List.mem_cons_self)
          have number : n.number = site.number := by simp [Node.number, labelled]
          rw [number] at placed ⊢
          rw [List.filter_cons_of_pos (by simp [marked]), List.length_cons, Nat.add_comm _ 1,
            ← Nat.add_assoc]
          exact .number marked labelled (below placed)

/-- The place of a number among those that are kept, counted from one; any other number goes
    behind all of them. -/
def newNumber (kept : List Nat) (n : Nat) : Nat :=
  if n ∈ kept then 1 + kept.idxOf n else 1 + kept.length + n

theorem newNumber_injective (kept : List Nat) : Function.Injective (newNumber kept) := by
  intro m n same
  unfold newNumber at same
  split at same <;> split at same
  · next first second =>
      refine (List.idxOf_inj first).mp ?_
      omega
  · next first second =>
      have := List.idxOf_lt_length_of_mem first
      omega
  · next first second =>
      have := List.idxOf_lt_length_of_mem second
      omega
  · omega

theorem map_newNumber {kept : List Nat} (distinct : kept.Nodup) :
    kept.map (newNumber kept) = List.range' 1 kept.length := by
  refine List.ext_getElem (by simp) fun i inKept _ => ?_
  rw [List.length_map] at inKept
  rw [List.getElem_map, List.getElem_range', newNumber, if_pos (List.getElem_mem inKept),
    distinct.idxOf_getElem i inKept]
  omega

/-- When a unit whose nodes are numbered by their places is numbered anew without its added
    parentheses, numbers that differed still differ. -/
theorem CompilationUnit.exists_renumbering_of_places (unit : CompilationUnit Site)
    (places : unit.tree.preorder.map Node.number = List.range unit.tree.preorder.length)
    (added : Site → Bool) :
    ∃ r : Nat → Nat, Function.Injective r ∧
      (unit.unwrap added Site.span).numbered = unit.unwrap added (Site.renumber r) := by
  let nodes := Tree.preorderAll (unit.types.map ClassDecl.tree)
  let kept := (nodes.filter fun n => !n.isAdded added).map Node.number
  have numbers : nodes.map Node.number = List.range' 1 nodes.length := by
    have whole : unit.tree.preorder = .unit unit :: nodes := rfl
    rw [whole, List.map_cons, List.length_cons, List.range_eq_range', List.range'_succ] at places
    exact (List.cons.inj places).2
  have positive : ∀ n ∈ nodes, n.number ≠ 0 := by
    intro n member
    have listed : n.number ∈ List.range' 1 nodes.length := numbers ▸ List.mem_map_of_mem member
    rw [List.mem_range'_1] at listed
    omega
  have distinct : kept.Nodup := by
    have sublist : kept.Sublist (nodes.map Node.number) := List.filter_sublist.map _
    rw [numbers] at sublist
    exact sublist.nodup List.nodup_range'
  have placed := map_newNumber distinct
  rw [List.map_map, List.length_map] at placed
  exact ⟨newNumber kept, newNumber_injective kept,
    unit.numbered_unwrap (.of_positions positive placed)⟩

/-- When a unit without its added parentheses is numbered anew, numbers that differed still
    differ. -/
theorem CompilationUnit.exists_renumbering (unit : CompilationUnit Span) (added : Site → Bool) :
    ∃ r : Nat → Nat, Function.Injective r ∧
      (unit.numbered.unwrap added Site.span).numbered =
        unit.numbered.unwrap added (Site.renumber r) :=
  unit.numbered.exists_renumbering_of_places (map_number_numbered unit) added

end BugPatterns
