import BugPatterns.Proofs.Ancestors
import BugPatterns.Proofs.Ast.Parts
import BugPatterns.Proofs.Ast.Restored
import BugPatterns.Proofs.Unit.Respan

/-!
# The nesting limit

The level of a value in a tree is one more than the number of values above it. `Tree.levels` lists
the values in preorder with their levels, and the search that counts levels down finds the first
value below the deepest level allowed (`Tree.find?_levels`). Numbering a tree moves no node to
another level, so a unit is refused exactly when its tree has a node below the limit
(`LoadedUnit.ofTree_accepts_iff_shallow`).
-/

namespace BugPatterns

namespace Tree

variable {α : Type}

/-- The values in preorder, each with its level; the root is at level one. -/
def levels (t : Tree α) : List (Nat × α) :=
  (t.underScopes some []).map fun placed => (placed.1.length + 1, placed.2)

/-- Below the root every value is one level deeper than in the tree right below the root. -/
theorem levels_node (a : α) (below : List (Tree α)) :
    (node a below).levels =
      (1, a) :: below.flatMap fun t => t.levels.map fun placed => (placed.1 + 1, placed.2) := by
  rw [levels, underScopes_nil, List.map_cons, List.map_flatMap]
  simp only [levels, List.map_map, Function.comp_def, List.length_append, List.length_singleton,
    List.length_nil, Nat.zero_add]

theorem map_snd_levels (t : Tree α) : t.levels.map Prod.snd = t.preorder := by
  rw [levels, List.map_map, ← map_snd_underScopes some t []]
  rfl

theorem mem_preorder_of_mem_levels {t : Tree α} {placed : Nat × α} (listed : placed ∈ t.levels) :
    placed.2 ∈ t.preorder := by
  rw [← map_snd_levels]
  exact List.mem_map_of_mem listed

/-- Notes a value and goes on below it. -/
def collect (a : α) : StateM (List α) Bool := do
  modify (· ++ [a])
  return true

theorem run_traverse_collect (t : Tree α) (seen : List α) :
    ((t.traverse collect).run seen).2 = seen ++ t.preorder := by
  have walk : t.traverse collect =
      (forM t.preorder fun a => modify (· ++ [a]) : StateM (List α) Unit) :=
    t.traverse_eq_forM _
  rw [walk]
  induction t.preorder generalizing seen with
  | nil => exact (List.append_nil seen).symm
  | cons a rest ih =>
      rw [List.forM_cons]
      exact (ih (seen ++ [a])).trans (List.append_cons seen a rest).symm

/-- The full traversal visits the values that are listed with their levels. -/
theorem map_snd_levels_eq_collected (t : Tree α) :
    t.levels.map Prod.snd = ((t.traverse collect).run []).2 := by
  rw [map_snd_levels, run_traverse_collect, List.nil_append]

mutual

/-- The search that counts levels down finds the first value that is too deep; it lies right below
    the deepest level. -/
theorem find?_levels : ∀ (t : Tree α) (k : Nat),
    (t.levels.find? fun placed => decide (k < placed.1)) =
      (t.firstBelow? k).map fun a => (k + 1, a)
  | .node a below, 0 => by
      rw [levels_node, List.find?_cons_of_pos (by simp), firstBelow?, Option.map_some]
  | .node a below, k + 1 => by
      rw [levels_node, List.find?_cons_of_neg (by simp), List.find?_flatMap, firstBelow?]
      exact findSome?_levels below k

theorem findSome?_levels : ∀ (ts : List (Tree α)) (k : Nat),
    (ts.findSome? fun t =>
      (t.levels.map fun placed => (placed.1 + 1, placed.2)).find? fun placed =>
        decide (k + 1 < placed.1)) =
      (firstBelowAll? k ts).map fun a => (k + 1 + 1, a)
  | [], _ => rfl
  | t :: ts, k => by
      -- One level further down is beyond the next bound exactly if the level is beyond this one.
      have here : ((t.levels.map fun placed => (placed.1 + 1, placed.2)).find? fun placed =>
          decide (k + 1 < placed.1)) = (t.firstBelow? k).map fun a => (k + 1 + 1, a) := by
        rw [List.find?_map]
        simp only [Function.comp_def, Nat.add_lt_add_iff_right]
        rw [find?_levels t k, Option.map_map]
        rfl
      rw [List.findSome?_cons, here, findSome?_levels ts k, firstBelowAll?]
      cases t.firstBelow? k <;> rfl

end

theorem firstBelow?_eq_some_iff {t : Tree α} {k : Nat} {a : α} :
    t.firstBelow? k = some a ↔
      ∃ before after, t.levels = before ++ (k + 1, a) :: after ∧
        ∀ placed ∈ before, placed.1 ≤ k := by
  have found : t.firstBelow? k = some a ↔
      (t.levels.find? fun placed => decide (k < placed.1)) = some (k + 1, a) := by
    rw [find?_levels, Option.map_eq_some_iff]
    simp
  rw [found, List.find?_eq_some_iff_append]
  simp

theorem firstBelow?_eq_none_iff {t : Tree α} {k : Nat} :
    t.firstBelow? k = none ↔ ∀ placed ∈ t.levels, placed.1 ≤ k := by
  rw [← Option.map_eq_none_iff (f := fun a => (k + 1, a)), ← find?_levels, List.find?_eq_none]
  simp

end Tree

namespace Node

variable {α β : Type}

/-- The span at which a node is reported; that of the unit is unknown. -/
def place (n : Node Span) : Span := n.label?.getD .unknown

theorem label?_relabel (f : α → β) (n : Node α) :
    (n.relabel f).label? = n.label?.map f := by
  cases n with
  | unit u => rfl
  | stmt s =>
      cases s <;>
        simp [relabel, label?, stmtLabel, VarDecl.relabel_eq, Block.relabel_eq,
          ClassDecl.relabel_eq]
  | _ =>
      simp [relabel, label?, VarDecl.relabel_eq, MethodDecl.relabel_eq, ClassDecl.relabel_eq,
        Block.relabel_eq]

theorem place_relabel (n : Node Site) : (n.relabel Site.span).place = n.span := by
  rw [place, label?_relabel, span]
  cases n.label? <;> rfl

/-- A child is met as itself: no declaration and no block is a child as a statement. -/
theorem met_of_mem_children (n : Node α) : ∀ c ∈ n.children, c.met = c := by
  cases n with
  | stmt s => cases s <;> simp [children, stmtChildren]
  | expr e => cases e <;> simp [children, exprChildren, or_imp, forall_and]
  | _ => simp [children, or_imp, forall_and]

theorem met_of_mem_preorder {n : Node α} (root : n.met = n) :
    ∀ m ∈ n.tree.preorder, m.met = m := by
  induction n using Node.induct with
  | node n ih =>
      rw [preorder_tree]
      refine List.forall_mem_cons.mpr ⟨root, fun m listed => ?_⟩
      obtain ⟨c, child, inside⟩ := List.mem_flatMap.mp listed
      exact ih c child (n.met_of_mem_children c child) m inside

end Node

/-- Numbering moves no node to another level. -/
theorem CompilationUnit.firstBelow?_numbered (unit : CompilationUnit Span) (k : Nat) :
    (unit.numbered.tree.firstBelow? k).map Node.span =
      (unit.tree.firstBelow? k).map Node.place := by
  have same : unit.tree.firstBelow? k =
      (unit.numbered.tree.firstBelow? k).map (Node.relabel Site.span) := by
    have found := Node.firstBelow?_relabel (f := Site.span) (.unit unit.numbered) k
    rwa [Node.relabel, unit.relabel_numbered] at found
  rw [same, Option.map_map]
  exact congrArg (Option.map · _) (funext fun n => n.place_relabel.symm)

namespace LoadedUnit

/-- Whether a unit is refused can be told from its tree before the nodes are numbered. -/
theorem ofTree_eq (tree : CompilationUnit Span) (model : Model) :
    ofTree tree model =
      match tree.tree.firstBelow? maxNesting with
      | some node => .error (.nesting tree.file node.place)
      | none =>
          .ok ⟨tree.numbered, internMentioned model tree.numbered, .ofUnit tree.numbered⟩ := by
  have same := tree.firstBelow?_numbered maxNesting
  have file : tree.numbered.file = tree.file := rfl
  unfold ofTree
  cases found : tree.numbered.tree.firstBelow? maxNesting with
  | none =>
      rw [found, Option.map_none, eq_comm, Option.map_eq_none_iff] at same
      simp only [found, same]
  | some numbered =>
      rw [found, Option.map_some, eq_comm, Option.map_eq_some_iff] at same
      obtain ⟨node, first, place⟩ := same
      simp only [found, first, place, file]

theorem ofTree_eq_error_iff {tree : CompilationUnit Span} {model : Model} {cause : LoadError} :
    ofTree tree model = .error cause ↔
      ∃ node, tree.tree.firstBelow? maxNesting = some node ∧
        cause = .nesting tree.file node.place := by
  rw [ofTree_eq]
  cases tree.tree.firstBelow? maxNesting <;> simp [eq_comm]

theorem exists_ofTree_eq_ok_iff {tree : CompilationUnit Span} {model : Model} :
    (∃ loaded, ofTree tree model = .ok loaded) ↔ tree.tree.firstBelow? maxNesting = none := by
  rw [ofTree_eq]
  cases tree.tree.firstBelow? maxNesting <;> simp

/-- A unit is refused exactly when its tree has a node below the deepest level allowed, however many
    nodes it has. The nodes are those of the full traversal, where a declaration or a block that
    stands as a statement has one level and not two. The error names the first node that is too
    deep, in the order of the traversal; it lies one level below the deepest one. -/
theorem ofTree_accepts_iff_shallow (tree : CompilationUnit Span) (model : Model) :
    tree.tree.levels.map Prod.snd = ((tree.tree.traverse Tree.collect).run []).2 ∧
    (∀ placed ∈ tree.tree.levels, placed.2.met = placed.2) ∧
    ((∃ cause, ofTree tree model = .error cause) ↔
      ∃ placed ∈ tree.tree.levels, maxNesting < placed.1) ∧
    (∀ cause, ofTree tree model = .error cause ↔
      ∃ before node after,
        tree.tree.levels = before ++ (maxNesting + 1, node) :: after ∧
        (∀ placed ∈ before, placed.1 ≤ maxNesting) ∧
        cause = .nesting tree.file node.place) ∧
    ((∃ loaded, ofTree tree model = .ok loaded) ↔
      ∀ placed ∈ tree.tree.levels, placed.1 ≤ maxNesting) := by
  refine ⟨Tree.map_snd_levels_eq_collected _, fun placed listed => ?_, ?_, fun cause => ?_, ?_⟩
  · exact Node.met_of_mem_preorder (n := .unit tree) rfl placed.2
      (Tree.mem_preorder_of_mem_levels listed)
  · have accepted := Tree.firstBelow?_eq_none_iff (t := tree.tree) (k := maxNesting)
    have deep : (∃ placed ∈ tree.tree.levels, maxNesting < placed.1) ↔
        tree.tree.firstBelow? maxNesting ≠ none := by
      rw [ne_eq, accepted]
      simp
    rw [deep, Option.ne_none_iff_exists']
    constructor
    · rintro ⟨cause, refused⟩
      obtain ⟨node, found, -⟩ := ofTree_eq_error_iff.mp refused
      exact ⟨node, found⟩
    · rintro ⟨node, found⟩
      exact ⟨_, ofTree_eq_error_iff.mpr ⟨node, found, rfl⟩⟩
  · rw [ofTree_eq_error_iff]
    constructor
    · rintro ⟨node, found, named⟩
      obtain ⟨before, after, split, shallow⟩ := Tree.firstBelow?_eq_some_iff.mp found
      exact ⟨before, node, after, split, shallow, named⟩
    · rintro ⟨before, node, after, split, shallow, named⟩
      exact ⟨node, Tree.firstBelow?_eq_some_iff.mpr ⟨before, after, split, shallow⟩, named⟩
  · rw [exists_ofTree_eq_ok_iff, Tree.firstBelow?_eq_none_iff]

end LoadedUnit

end BugPatterns
