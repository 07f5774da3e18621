/-!
# Searching a graph

A graph is given by the successors of a node. It is searched depth first, for the first node with
some property. All branches of a search share the nodes that have been visited; a node that is met
again is not entered again, so cycles do no harm.
-/

namespace BugPatterns.Reach

variable {α : Type} [DecidableEq α]

/-- Searches from a node on for one with a property. Nothing is returned as soon as one is found,
    else all nodes that have been visited. At most `levels` nodes are entered within each other. -/
def search (next : α → List α) (goal : α → Bool) : Nat → List α → α → Option (List α)
  | levels, visited, node =>
      if goal node then none
      else if node ∈ visited then some visited
      else
        match levels with
        | 0 => some (node :: visited)
        | levels + 1 => (next node).foldlM (search next goal levels) (node :: visited)

/-- A node with the property can be reached from a node, which may be the one. -/
def leadsTo (next : α → List α) (goal : α → Bool) (levels : Nat) (node : α) : Bool :=
  (search next goal levels [] node).isNone

/-- A node with the property can be reached from a node by one step or more. -/
def leadsOnTo (next : α → List α) (goal : α → Bool) (levels : Nat) (node : α) : Bool :=
  ((next node).foldlM (search next goal levels) [node]).isNone

end BugPatterns.Reach
