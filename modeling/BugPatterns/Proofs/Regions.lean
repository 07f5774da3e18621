import BugPatterns.Proofs.NodeTree
import Mathlib.Data.List.Perm.Basic

/-!
# Regions of a tree

Some nodes of a tree are marked. The region of a marked node is what a walk from it meets that does
not go on below the next marks. Every other node lies in one region at most, that of the closest
mark above it. So what is read off the regions, one after the other, is what is read off all nodes
under the closest marks above them (`Node.perm_regions`).
-/

namespace BugPatterns.Node

variable {α β γ : Type} (mark : Node α → Option β) (read : β → Node α → List γ)

/-- What is read off the nodes of a region that begins at a node, under a given mark. -/
def readRegion (root : Node α) (b : β) : List γ :=
  (root.tree.within fun n => (mark n).isNone).flatMap (read b)

/-- What is read off the region of a node, if the node is marked. -/
def readMarked (root : Node α) : List γ := (mark root).toList.flatMap (root.readRegion mark read)

/-- What is read off a node under the closest of the marks above it. -/
def readPlaced (placed : List β × Node α) : List γ :=
  placed.1.head?.toList.flatMap (read · placed.2)

variable {mark read} (silent : ∀ b n, (mark n).isSome → read b n = [])

theorem readRegion_eq (root : Node α) (b : β) :
    root.readRegion mark read b = read b root ++
      root.children.flatMap fun c => if (mark c).isNone then c.readRegion mark read b else [] := by
  unfold readRegion
  rw [within_tree, List.flatMap_cons, List.flatMap_assoc]
  congr 1
  induction root.children with
  | nil => rfl
  | cons c cs ih =>
      rw [List.flatMap_cons, ← ih, List.filter_cons]
      split <;> simp

include silent

/-- Read under the marks around it, a tree has what is read off the region that goes on into it and
    off the regions that begin in it. -/
theorem perm_regions_under (root : Node α) : ∀ scopes : List β,
    ((root.tree.underScopes mark scopes).flatMap (readPlaced read)).Perm
      ((if (mark root).isNone then scopes.head?.toList.flatMap (root.readRegion mark read)
        else []) ++ root.tree.preorder.flatMap (readMarked mark read)) := by
  induction root using Node.induct with
  | node root ih =>
      intro scopes
      have children (around : List β) :
          (root.children.flatMap fun c =>
              (c.tree.underScopes mark around).flatMap (readPlaced read)).Perm
            ((root.children.flatMap fun c => if (mark c).isNone then
                around.head?.toList.flatMap (c.readRegion mark read) else []) ++
              root.children.flatMap fun c => c.tree.preorder.flatMap (readMarked mark read)) :=
        (List.Perm.flatMap_left _ fun c child => ih c child around).trans
          (List.flatMap_append_perm _ _ _).symm
      rw [underScopes_tree, preorder_tree, List.flatMap_cons, List.flatMap_assoc,
        List.flatMap_cons, List.flatMap_assoc]
      cases marked : mark root with
      | some b =>
          -- A region begins at the root and goes on into the children, the outer one ends.
          have isMarked : (mark root).isSome := by rw [marked]; rfl
          have unread : readPlaced read (scopes, root) = [] := by
            unfold readPlaced
            rw [List.flatMap_eq_nil_iff]
            exact fun a _ => silent a root isMarked
          have region : readMarked mark read root =
              root.children.flatMap fun c => if (mark c).isNone then
                (b :: scopes).head?.toList.flatMap (c.readRegion mark read) else [] := by
            rw [readMarked, marked, Option.toList_some, List.flatMap_singleton, readRegion_eq,
              silent b root isMarked]
            simp
          rw [unread, region]
          exact children (b :: scopes)
      | none =>
          -- The outer region goes on from the root to the children.
          have unmarked : readMarked mark read root = [] := by rw [readMarked, marked]; rfl
          have region : (scopes.head?.toList.flatMap (root.readRegion mark read)) =
              readPlaced read (scopes, root) ++ root.children.flatMap fun c =>
                if (mark c).isNone then scopes.head?.toList.flatMap (c.readRegion mark read)
                else [] := by
            unfold readPlaced
            cases scopes.head? with
            | none => simp
            | some a =>
                simp only [Option.toList_some, List.flatMap_singleton]
                exact root.readRegion_eq a
          rw [unmarked, region, Option.isNone_none, if_pos rfl, List.nil_append, List.append_assoc]
          exact (children scopes).append_left _

/-- What is read off all nodes under the closest marks above them is what is read off the regions
    of the marked nodes. -/
theorem perm_regions (root : Node α) :
    ((root.tree.underScopes mark []).flatMap (readPlaced read)).Perm
      (root.tree.preorder.flatMap (readMarked mark read)) := by
  have whole := perm_regions_under silent root []
  rwa [List.head?_nil, Option.toList_none, List.flatMap_nil, ite_self, List.nil_append] at whole

end BugPatterns.Node
