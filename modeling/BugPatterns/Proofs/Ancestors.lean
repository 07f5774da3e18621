import BugPatterns.Proofs.Tree

/-!
# What lies above a value

`Tree.underScopes some` lists the values of a tree with all values above each of them, innermost
first. What lies above the whole tree lies above each of its values, and changes nothing else
(`Tree.underScopes_append`). So the listing of a tree is its root, with nothing above it, and then
the listings of the trees below the root, with the root above them (`Tree.underScopes_nil`).
-/

namespace BugPatterns.Tree

variable {α : Type}

/-- What lies above a tree lies above its values. -/
theorem underScopes_append (outer : List α) (t : Tree α) :
    ∀ above, t.underScopes some (above ++ outer) =
      (t.underScopes some above).map fun placed => (placed.1 ++ outer, placed.2) := by
  induction t using Tree.induct with
  | node a below ih =>
      intro above
      simp only [underScopes, underScopesAll_eq_flatMap, List.map_cons, List.map_flatMap]
      congr 1
      exact List.flatMap_congr fun t member => ih t member (a :: above)

theorem underScopes_nil (a : α) (below : List (Tree α)) :
    (node a below).underScopes some [] = ([], a) ::
      below.flatMap fun t =>
        (t.underScopes some []).map fun placed => (placed.1 ++ [a], placed.2) := by
  simp only [underScopes, underScopesAll_eq_flatMap]
  congr 1
  exact List.flatMap_congr fun t _ => underScopes_append [a] t []

/-- What lies above a value of a tree is a value of the tree. -/
theorem mem_preorder_of_above (t : Tree α) :
    ∀ placed ∈ t.underScopes some [], ∀ a ∈ placed.2 :: placed.1, a ∈ t.preorder := by
  induction t using Tree.induct with
  | node root below ih =>
      intro placed listed a member
      rw [underScopes_nil] at listed
      rw [preorder, preorderAll_eq_flatMap]
      rcases List.mem_cons.mp listed with rfl | listed
      · obtain rfl := List.mem_singleton.mp member
        exact List.mem_cons_self
      · obtain ⟨t, child, listed⟩ := List.mem_flatMap.mp listed
        obtain ⟨inner, met, rfl⟩ := List.mem_map.mp listed
        rw [← List.cons_append, List.mem_append, List.mem_singleton] at member
        rcases member with member | rfl
        · exact List.mem_cons_of_mem _
            (List.mem_flatMap.mpr ⟨t, child, ih t child inner met a member⟩)
        · exact List.mem_cons_self

end BugPatterns.Tree
