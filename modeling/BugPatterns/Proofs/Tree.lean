import BugPatterns.Tree
import Mathlib.Data.List.Basic

/-!
# Walks of trees as lists

Every pure walk of a tree is the root followed by the walks of the children, in their order. From
that follow the inclusions between the walks: what a bounded walk lists is listed by the full one,
and a walk that keeps the marks above a value meets the values of the full walk.
-/

namespace BugPatterns.Tree

variable {α β : Type}

mutual

/-- Induction over a tree: a tree is settled once the trees right below its root are. -/
theorem induct {motive : Tree α → Prop}
    (node : ∀ a below, (∀ t ∈ below, motive t) → motive (.node a below)) : ∀ t, motive t
  | .node a below => node a below (inductAll node below)

theorem inductAll {motive : Tree α → Prop}
    (node : ∀ a below, (∀ t ∈ below, motive t) → motive (.node a below)) :
    ∀ ts : List (Tree α), ∀ t ∈ ts, motive t
  | [] => by simp
  | t :: ts => List.forall_mem_cons.mpr ⟨induct node t, inductAll node ts⟩

end

@[simp] theorem value_node (a : α) (below : List (Tree α)) : (node a below).value = a := rfl

theorem preorderAll_eq_flatMap (ts : List (Tree α)) : preorderAll ts = ts.flatMap preorder := by
  induction ts with
  | nil => rfl
  | cons t ts ih => rw [preorderAll, ih, List.flatMap_cons]

theorem preorderAll_append (ts us : List (Tree α)) :
    preorderAll (ts ++ us) = preorderAll ts ++ preorderAll us := by
  rw [preorderAll_eq_flatMap, List.flatMap_append, ← preorderAll_eq_flatMap,
    ← preorderAll_eq_flatMap]

theorem withinAll_eq_flatMap (enter : α → Bool) (ts : List (Tree α)) :
    withinAll enter ts = (ts.filter fun t => enter t.value).flatMap (within enter) := by
  induction ts with
  | nil => rfl
  | cons t ts ih =>
      rw [withinAll, ih, List.filter_cons]
      by_cases entered : enter t.value <;> simp [entered]

theorem underScopesAll_eq_flatMap (mark : α → Option β) (scopes : List β) (ts : List (Tree α)) :
    underScopesAll mark scopes ts = ts.flatMap (underScopes mark scopes) := by
  induction ts with
  | nil => rfl
  | cons t ts ih => rw [underScopesAll, ih, List.flatMap_cons]

/-- A walk that keeps the marks above each value meets the values of the plain walk. -/
theorem map_snd_underScopes (mark : α → Option β) (t : Tree α) :
    ∀ scopes, (t.underScopes mark scopes).map Prod.snd = t.preorder := by
  induction t using Tree.induct with
  | node a below ih =>
      intro scopes
      simp only [underScopes, preorder, underScopesAll_eq_flatMap, preorderAll_eq_flatMap,
        List.map_cons, List.map_flatMap]
      congr 1
      exact List.flatMap_congr fun t member => ih t member _

/-- The marks above a value are those of the values above it that have one. -/
theorem underScopes_filterMap (mark : α → Option β) (t : Tree α) :
    ∀ above : List α, t.underScopes mark (above.filterMap mark) =
      (t.underScopes some above).map fun (above, a) => (above.filterMap mark, a) := by
  induction t using Tree.induct with
  | node a below ih =>
      intro above
      have marks : (mark a).toList ++ above.filterMap mark = (a :: above).filterMap mark := by
        cases marked : mark a with
        | none => rw [List.filterMap_cons_none marked]; rfl
        | some b => rw [List.filterMap_cons_some marked]; rfl
      simp only [underScopes, underScopesAll_eq_flatMap, List.map_cons, List.map_flatMap, marks]
      congr 1
      exact List.flatMap_congr fun t member => ih t member (a :: above)

/-- A traversal that goes on below every value hands out the values in preorder. -/
theorem traverse_eq_forM {m : Type → Type} [Monad m] [LawfulMonad m] (act : α → m Unit)
    (t : Tree α) : (t.traverse fun a => do act a; return true) = forM t.preorder act := by
  induction t using Tree.induct with
  | node a below ih =>
      have all (ts : List (Tree α)) (each : ∀ t ∈ ts, t ∈ below) :
          traverseAll (fun a => do act a; return true) ts = forM (preorderAll ts) act := by
        induction ts with
        | nil => simp [traverseAll, preorderAll]
        | cons t ts rest =>
            rw [traverseAll, preorderAll, ih t (each t List.mem_cons_self),
              rest fun u member => each u (List.mem_cons_of_mem _ member), List.forM_append]
      simp only [traverse, preorder, bind_assoc, pure_bind, if_true, List.forM_cons,
        all below fun _ member => member]

/-- A walk that enters only some values lists no value that the full walk does not list. -/
theorem within_sublist_preorder (enter : α → Bool) (t : Tree α) :
    (t.within enter).Sublist t.preorder := by
  induction t using Tree.induct with
  | node a below ih =>
      simp only [within, preorder, withinAll_eq_flatMap, preorderAll_eq_flatMap]
      refine List.Sublist.cons_cons a ?_
      induction below with
      | nil => simp
      | cons t ts ihs =>
          have rest := ihs fun s member => ih s (List.mem_cons_of_mem _ member)
          rw [List.filter_cons, List.flatMap_cons]
          split
          · rw [List.flatMap_cons]
            exact (ih t List.mem_cons_self).append rest
          · exact rest.trans (List.sublist_append_right _ _)

end BugPatterns.Tree
