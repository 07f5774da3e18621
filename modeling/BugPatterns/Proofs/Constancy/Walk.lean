import BugPatterns.Proofs.Constancy.Tour
import BugPatterns.Proofs.Unit.Scopes

/-!
# Walks of method bodies

A scan for definitions walks a body in source order (`Node.walk`): it enters every node, and leaves
it once everything below has been left. What a scan finds is a matter of the steps before it enters
the use (`DefinitionSearch.run_eq_replay`, `DefinitionSearch.replay_of_run`). By then it has left
nothing but nodes with smaller numbers, with all that lies below them.
-/

namespace BugPatterns

mutual

/-- The steps of a walk of a tree. What lies in type declarations is entered if `captured` says so,
    and never left. -/
def walkTree (captured : Bool) : Tree (Node Site) → List WalkStep
  | .node (.classDecl _) below => if captured then (Tree.preorderAll below).map .enter else []
  | .node node below => .enter node :: walkTrees captured below ++ [.leave node]

/-- The steps of a walk of some trees, one after the other. -/
def walkTrees (captured : Bool) : List (Tree (Node Site)) → List WalkStep
  | [] => []
  | t :: ts => walkTree captured t ++ walkTrees captured ts

end

theorem walkTrees_eq_flatMap (captured : Bool) (ts : List (Tree (Node Site))) :
    walkTrees captured ts = ts.flatMap (walkTree captured) := by
  induction ts with
  | nil => rfl
  | cons t ts ih => rw [walkTrees, ih, List.flatMap_cons]

namespace Node

/-- The steps of a walk of what lies at and below a node. -/
def walk (captured : Bool) (n : Node Site) : List WalkStep := walkTree captured n.tree

variable {captured : Bool} {k m n root : Node Site}

theorem walk_classDecl (captured : Bool) (decl : ClassDecl Site) :
    (Node.classDecl decl).walk captured = if captured then
      ((Node.classDecl decl).children.flatMap fun c => c.tree.preorder).map .enter else [] := by
  rw [walk, tree_eq, walkTree, Tree.preorderAll_eq_flatMap, List.flatMap_map]

/-- A node is entered, then what is below it is walked, then it is left. -/
theorem walk_eq (captured : Bool) (entered : n.isClassDecl = false) :
    n.walk captured = .enter n :: n.children.flatMap (walk captured) ++ [.leave n] := by
  have below : walkTrees captured (n.children.map Node.tree) =
      n.children.flatMap (walk captured) := by
    rw [walkTrees_eq_flatMap, List.flatMap_map]
    rfl
  rw [walk, tree_eq, ← below]
  cases n with
  | classDecl => cases entered
  | _ => rfl

/-- Every node is entered in its turn, at most once. -/
theorem entered_sublist (captured : Bool) (n : Node Site) :
    ((n.walk captured).filterMap WalkStep.entered?).Sublist n.tree.preorder := by
  induction n using Node.induct with
  | node n ih =>
      rw [preorder_tree]
      by_cases isClass : n.isClassDecl
      · cases n with
        | classDecl decl =>
            rw [walk_classDecl]
            split
            · rw [List.filterMap_map]
              have all : (WalkStep.entered? ∘ WalkStep.enter) = some := rfl
              rw [all, List.filterMap_some]
              exact List.sublist_cons_self _ _
            · exact List.nil_sublist _
        | _ => cases isClass
      · rw [walk_eq captured (Bool.eq_false_iff.mpr isClass)]
        simp only [List.cons_append, List.filterMap_cons, WalkStep.entered?,
          List.filterMap_append, List.filterMap_nil, List.append_nil]
        refine List.Sublist.cons_cons n ?_
        generalize n.children = children at ih
        induction children with
        | nil => simp
        | cons c cs ihs =>
            rw [List.flatMap_cons, List.flatMap_cons, List.filterMap_append]
            exact (ih c List.mem_cons_self).append
              (ihs fun d member => ih d (List.mem_cons_of_mem _ member))

/-- A walk enters and leaves the own nodes of what it walks. -/
theorem mem_walk_of_own (entered : n.isClassDecl = false) (own : m ∈ n.ownNodes) :
    .enter m ∈ n.walk captured ∧ .leave m ∈ n.walk captured := by
  induction n using Node.induct with
  | node n ih =>
      rw [walk_eq captured entered]
      rcases mem_ownNodes.mp own with rfl | ⟨c, child, inner, below⟩
      · simp
      · obtain ⟨enters, leaves⟩ := ih c child inner below
        simp only [List.cons_append, List.mem_cons, List.mem_append, List.mem_flatMap]
        exact ⟨Or.inr (Or.inl ⟨c, child, enters⟩), Or.inr (Or.inl ⟨c, child, leaves⟩)⟩

/-- Nothing is left in a walk of a type declaration. -/
theorem isClassDecl_of_leave (left : .leave m ∈ n.walk captured) : n.isClassDecl = false := by
  cases n with
  | classDecl decl =>
      rw [walk_classDecl] at left
      split at left <;> simp at left
  | _ => rfl

/-- Nothing but own nodes is left. -/
theorem mem_ownNodes_of_leave (left : .leave m ∈ n.walk captured) : m ∈ n.ownNodes := by
  induction n using Node.induct with
  | node n ih =>
      have entered := isClassDecl_of_leave left
      rw [walk_eq captured entered] at left
      simp only [List.cons_append, List.mem_cons, List.mem_append, List.mem_flatMap,
        reduceCtorEq, List.not_mem_nil, or_false, false_or, WalkStep.leave.injEq] at left
      rcases left with ⟨c, child, left⟩ | rfl
      · exact mem_ownNodes.mpr (Or.inr ⟨c, child, isClassDecl_of_leave left, ih c child left⟩)
      · exact mem_ownNodes_self _

theorem isClassDecl_of_enter (enters : .enter m ∈ n.walk false) : n.isClassDecl = false := by
  cases n with
  | classDecl decl => simp [walk_classDecl] at enters
  | _ => rfl

/-- A walk that stays out of type declarations enters nothing but own nodes. -/
theorem mem_ownNodes_of_enter (enters : .enter m ∈ n.walk false) : m ∈ n.ownNodes := by
  induction n using Node.induct with
  | node n ih =>
      have entered := isClassDecl_of_enter enters
      rw [walk_eq false entered] at enters
      simp only [List.cons_append, List.mem_cons, List.mem_append, List.mem_flatMap,
        reduceCtorEq, List.not_mem_nil, or_false, WalkStep.enter.injEq] at enters
      rcases enters with rfl | ⟨c, child, enters⟩
      · exact mem_ownNodes_self _
      · exact mem_ownNodes.mpr (Or.inr ⟨c, child, isClassDecl_of_enter enters, ih c child enters⟩)

/-- The step of a tour that a walk takes as well. -/
def walked? (captured : Bool) : Bool × WalkStep → Option WalkStep
  | (inType, .enter n) =>
      if (if inType then captured else !n.isClassDecl) then some (.enter n) else none
  | (inType, .leave n) => if inType || n.isClassDecl then none else some (.leave n)

/-- In a type declaration a walk leaves nothing. -/
theorem filterMap_walked?_inType (captured : Bool) (n : Node Site) :
    (n.tour true).filterMap (walked? captured) =
      if captured then n.tree.preorder.map .enter else [] := by
  induction n using Node.induct with
  | node n ih =>
      rw [tour_eq, preorder_tree]
      simp only [List.cons_append, List.filterMap_cons, List.filterMap_append, List.filterMap_nil,
        walked?, List.filterMap_flatMap, Bool.true_or, if_true, List.append_nil]
      rw [List.flatMap_congr ih]
      cases captured
      · simp
      · simp [List.map_flatMap]

/-- A walk takes some of the steps of the tour. -/
theorem walk_eq_tour (captured : Bool) (n : Node Site) :
    n.walk captured = (n.tour false).filterMap (walked? captured) := by
  induction n using Node.induct with
  | node n ih =>
      rw [tour_eq]
      simp only [List.cons_append, List.filterMap_cons, List.filterMap_append, List.filterMap_nil,
        List.filterMap_flatMap, Bool.false_or]
      cases isClass : n.isClassDecl with
      | false =>
          rw [walk_eq captured isClass, List.flatMap_congr ih]
          simp [walked?, isClass]
      | true =>
          cases n with
          | classDecl decl =>
              rw [walk_classDecl, List.flatMap_congr fun c _ => filterMap_walked?_inType captured c]
              cases captured <;> simp [walked?, isClass, List.map_flatMap]
          | _ => cases isClass

theorem eq_of_walked? {placed : Bool × WalkStep} {s : WalkStep}
    (walked : walked? captured placed = some s) : placed.2 = s := by
  obtain ⟨inType, step⟩ := placed
  cases step <;> simp only [walked?] at walked <;> split at walked <;> simp_all

/-- A step of a walk is a step of the tour, and before it the walk takes steps that the tour takes
    before it. -/
theorem tour_split {pre post : List WalkStep} {s : WalkStep}
    (split : n.walk captured = pre ++ s :: post) : ∃ before inType after,
      n.tour false = before ++ (inType, s) :: after ∧ walked? captured (inType, s) = some s ∧
        before.filterMap (walked? captured) = pre := by
  rw [walk_eq_tour] at split
  obtain ⟨first, rest, toured, rfl, walked⟩ := List.filterMap_eq_append_iff.mp split
  obtain ⟨skipped, ⟨inType, step⟩, after, rfl, none, here, -⟩ :=
    List.filterMap_eq_cons_iff.mp walked
  obtain rfl := eq_of_walked? here
  refine ⟨first ++ skipped, inType, after, by rw [toured, List.append_assoc], here, ?_⟩
  rw [List.filterMap_append, List.filterMap_eq_nil_iff.mpr none, List.append_nil]

/-- Right before a node is left, it has been entered and all below it has been walked. -/
theorem walk_before_leave {pre post : List WalkStep}
    (split : root.walk captured = pre ++ .leave n :: post) :
    ∃ before, pre = before ++ .enter n :: n.children.flatMap (walk captured) := by
  obtain ⟨before, inType, after, toured, walked, rfl⟩ := tour_split split
  have own : inType = false ∧ n.isClassDecl = false := by
    simpa [walked?] using walked
  obtain ⟨rfl, entered⟩ := own
  obtain ⟨earlier, rfl⟩ := tour_before_leave toured
  refine ⟨earlier.filterMap (walked? captured), ?_⟩
  simp only [List.filterMap_append, List.filterMap_cons, List.filterMap_flatMap, entered,
    Bool.or_false, ← walk_eq_tour]
  simp [walked?, entered]

/-- Before a node is left, all its own nodes have been left, itself apart. -/
theorem mem_before_leave {pre post : List WalkStep}
    (split : root.walk captured = pre ++ .leave n :: post) {c : Node Site}
    (child : c ∈ n.children) (entered : c.isClassDecl = false) (own : m ∈ c.ownNodes) :
    .enter m ∈ pre ∧ .leave m ∈ pre := by
  obtain ⟨before, rfl⟩ := walk_before_leave split
  obtain ⟨enters, leaves⟩ := mem_walk_of_own entered own
  simp only [List.mem_append, List.mem_cons, List.mem_flatMap]
  exact ⟨Or.inr (Or.inr ⟨c, child, enters⟩), Or.inr (Or.inr ⟨c, child, leaves⟩)⟩

end Node

/-- A walk enters nodes of a loaded unit in the order of their numbers. -/
theorem LoadedUnit.Coherent.number_lt_of_walk {loaded : LoadedUnit} (coherent : loaded.Coherent)
    {captured : Bool} {k n root : Node Site} (listed : root ∈ loaded.nodes)
    {pre post : List WalkStep} (split : root.walk captured = pre ++ .enter n :: post)
    (earlier : .enter k ∈ pre) : k.number < n.number := by
  have entered : ((root.walk captured).filterMap WalkStep.entered?).Sublist loaded.nodes :=
    (Node.entered_sublist captured root).trans
      (Node.preorder_sublist_of_mem (n := .unit loaded.unit) listed)
  have ordered := List.Pairwise.sublist (entered.map Node.number) coherent.pairwise_numbers
  rw [split, List.filterMap_append, List.map_append, List.pairwise_append] at ordered
  refine ordered.2.2 _ (List.mem_map_of_mem (List.mem_filterMap.mpr ⟨_, earlier, rfl⟩)) _ ?_
  simp [WalkStep.entered?]

end BugPatterns
