import BugPatterns.Ast.Labels
import BugPatterns.Proofs.NodeTree
import Mathlib.Data.List.Perm.Basic

/-!
# Tours

A tour is a whole walk in source order: it enters every node, tours what is below it, and leaves it.
Each step says whether it lies in a type declaration below the root. So a node is completed, that is
left, once everything below it has been (`Node.tour_before_leave`), and no node is completed twice
(`Node.left_perm`).
-/

namespace BugPatterns

/-- What a walk does at a node. -/
inductive WalkStep where
  | enter (node : Node Site)
  | leave (node : Node Site)

namespace WalkStep

/-- The node that is entered. -/
def entered? : WalkStep → Option (Node Site)
  | .enter n => some n
  | .leave _ => none

/-- The node that is left. -/
def left? : WalkStep → Option (Node Site)
  | .enter _ => none
  | .leave n => some n

end WalkStep

mutual

/-- The steps of a walk of a whole tree, each with whether it lies in a type declaration. -/
def tourTree (inType : Bool) : Tree (Node Site) → List (Bool × WalkStep)
  | .node node below =>
      (inType, .enter node) :: tourTrees (inType || node.isClassDecl) below ++
        [(inType, .leave node)]

/-- The steps of a walk of some whole trees, one after the other. -/
def tourTrees (inType : Bool) : List (Tree (Node Site)) → List (Bool × WalkStep)
  | [] => []
  | t :: ts => tourTree inType t ++ tourTrees inType ts

end

theorem tourTrees_eq_flatMap (inType : Bool) (ts : List (Tree (Node Site))) :
    tourTrees inType ts = ts.flatMap (tourTree inType) := by
  induction ts with
  | nil => rfl
  | cons t ts ih => rw [tourTrees, ih, List.flatMap_cons]

/-- The nodes that some steps complete, in that order. -/
def completed (steps : List (Bool × WalkStep)) : List (Bool × Node Site) :=
  steps.filterMap fun (inType, step) => step.left?.map (inType, ·)

/-- An element of a concatenation splits one of its parts. -/
theorem flatMap_split {α β : Type} {f : α → List β} {b : β} (xs : List α) :
    ∀ {pre post : List β}, xs.flatMap f = pre ++ b :: post →
      ∃ x ∈ xs, ∃ before inner rest, pre = before ++ inner ∧ f x = inner ++ b :: rest := by
  induction xs with
  | nil => simp
  | cons x xs ih =>
      intro pre post split
      rw [List.flatMap_cons] at split
      rcases List.append_eq_append_iff.mp split with ⟨mid, same, rest⟩ | ⟨mid, same, rest⟩
      · obtain ⟨y, member, before, inner, others, equal, part⟩ := ih rest
        exact ⟨y, List.mem_cons_of_mem _ member, f x ++ before, inner, others,
          by rw [same, equal, List.append_assoc], part⟩
      · cases mid with
        | nil =>
            obtain ⟨y, member, before, inner, others, equal, part⟩ :=
              ih (show _ = [] ++ b :: post from rest.symm)
            refine ⟨y, List.mem_cons_of_mem _ member, pre, inner, others, ?_, part⟩
            rw [(List.append_eq_nil_iff.mp equal.symm).2, List.append_nil]
        | cons c mid =>
            obtain ⟨rfl, -⟩ := List.cons.inj rest
            exact ⟨x, List.mem_cons_self, [], pre, mid, rfl, same⟩

namespace Node

/-- The steps of a walk of all that lies at and below a node. -/
def tour (inType : Bool) (n : Node Site) : List (Bool × WalkStep) := tourTree inType n.tree

variable {inType inner : Bool} {m n root : Node Site}

/-- A node is entered, then what is below it is toured, then it is left. -/
theorem tour_eq (inType : Bool) (n : Node Site) :
    n.tour inType = (inType, .enter n) :: n.children.flatMap (tour (inType || n.isClassDecl)) ++
      [(inType, .leave n)] := by
  rw [tour, tree_eq, tourTree, tourTrees_eq_flatMap, List.flatMap_map]
  rfl

/-- Every node is entered once, each before those below it. -/
theorem entered_tour (n : Node Site) :
    ∀ inType, (n.tour inType).filterMap (·.2.entered?) = n.tree.preorder := by
  induction n using Node.induct with
  | node n ih =>
      intro inType
      rw [tour_eq, preorder_tree]
      simp only [List.cons_append, List.filterMap_cons, WalkStep.entered?, List.filterMap_append,
        List.filterMap_nil, List.append_nil, List.filterMap_flatMap]
      congr 1
      exact List.flatMap_congr fun c child => ih c child _

/-- Every node is left once. -/
theorem left_perm (n : Node Site) :
    ∀ inType, ((n.tour inType).filterMap (·.2.left?)).Perm n.tree.preorder := by
  induction n using Node.induct with
  | node n ih =>
      intro inType
      rw [tour_eq, preorder_tree]
      simp only [List.cons_append, List.filterMap_cons, WalkStep.left?, List.filterMap_append,
        List.filterMap_nil, List.filterMap_flatMap]
      refine (List.perm_append_singleton _ _).trans (List.Perm.cons _ ?_)
      exact List.Perm.flatMap_left _ fun c child => ih c child _

/-- Right before a node is left, it has been entered and all below it has been toured. -/
theorem tour_before_leave {pre post : List (Bool × WalkStep)}
    (split : root.tour inType = pre ++ (inner, .leave n) :: post) :
    ∃ before, pre = before ++
      (inner, .enter n) :: n.children.flatMap (tour (inner || n.isClassDecl)) := by
  induction root using Node.induct generalizing inType pre post with
  | node root ih =>
      rw [tour_eq, List.cons_append] at split
      cases pre with
      | nil => cases split
      | cons first pre =>
          obtain ⟨rfl, rest⟩ := List.cons.inj split
          -- The step is the last one, or it is a step below the root.
          rcases List.append_eq_append_iff.mp rest with ⟨mid, same, last⟩ | ⟨mid, same, last⟩
          · cases mid with
            | nil =>
                obtain ⟨same', -⟩ := List.cons.inj last
                cases same'
                exact ⟨[], by rw [same]; simp⟩
            | cons s mid => simp at last
          · cases mid with
            | nil =>
                obtain ⟨same', -⟩ := List.cons.inj last
                cases same'
                exact ⟨[], by rw [same]; simp⟩
            | cons s mid =>
                obtain ⟨rfl, -⟩ := List.cons.inj last
                obtain ⟨c, child, before, within, others, equal, part⟩ := flatMap_split _ same
                obtain ⟨earlier, found⟩ := ih c child part
                exact ⟨(inType, .enter root) :: before ++ earlier, by rw [equal, found]; simp⟩

/-- Before a node is left, all that lies at and below it has been entered. -/
theorem mem_entered_before_leave {pre post : List (Bool × WalkStep)}
    (split : root.tour inType = pre ++ (inner, .leave n) :: post) (below : m ∈ n.tree.preorder) :
    m ∈ pre.filterMap (·.2.entered?) := by
  obtain ⟨before, rfl⟩ := tour_before_leave split
  rw [← entered_tour n inner, tour_eq] at below
  simp only [List.cons_append, List.filterMap_append, List.filterMap_cons, WalkStep.entered?,
    List.filterMap_nil, List.append_nil] at below ⊢
  exact List.mem_append_right _ below

end Node

end BugPatterns
