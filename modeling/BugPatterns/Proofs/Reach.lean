import BugPatterns.Reach
import Mathlib.Data.Finset.Card
import Mathlib.Logic.Relation

/-!
# What a search finds

A search that stops has come along a path to a node with the property
(`Reach.exists_path_of_search`). One that goes on to the end has visited, with every node it
entered, all successors of it, and none of them has the property (`Reach.covers_search`). As long as
there are as many levels as nodes with successors, searching therefore decides whether a node with
the property can be reached (`Reach.leadsTo_iff`, `Reach.leadsOnTo_iff`).
-/

namespace BugPatterns.Reach

variable {α : Type} {next : α → List α} {goal : α → Bool}

/-- One node is a successor of another. -/
def Edge (next : α → List α) (a b : α) : Prop := b ∈ next a

/-- A fold that stops does so at one of its items. -/
theorem exists_of_foldlM_eq_none {σ : Type} {f : σ → α → Option σ} {items : List α} :
    ∀ {start : σ}, items.foldlM f start = none → ∃ a ∈ items, ∃ state, f state a = none := by
  induction items with
  | nil =>
      intro start stopped
      cases stopped
  | cons a items ih =>
      intro start stopped
      rw [List.foldlM_cons] at stopped
      cases first : f start a with
      | none => exact ⟨a, List.mem_cons_self, start, first⟩
      | some state =>
          rw [first] at stopped
          obtain ⟨b, member, other, inner⟩ := ih stopped
          exact ⟨b, List.mem_cons_of_mem _ member, other, inner⟩

/-- What has been visited holds what had been visited before, the nodes that were looked at, and
    all successors of the nodes that are new. None of these has the property. -/
structure Covers (next : α → List α) (goal : α → Bool) (before : List α) (looked : List α)
    (after : List α) : Prop where
  kept : ∀ a ∈ before, a ∈ after
  looked : ∀ a ∈ looked, a ∈ after ∧ goal a = false
  below : ∀ a ∈ after, a ∉ before → ∀ b ∈ next a, b ∈ after ∧ goal b = false

theorem Covers.nil (before : List α) : Covers next goal before [] before where
  kept _ member := member
  looked _ absurd := by cases absurd
  below _ member fresh := absurd member fresh

theorem Covers.seen {before : List α} {a : α} (visited : a ∈ before) (other : goal a = false) :
    Covers next goal before [a] before where
  kept _ member := member
  looked b member := by
    obtain rfl := List.mem_singleton.mp member
    exact ⟨visited, other⟩
  below _ member fresh := absurd member fresh

/-- What is covered by one search after the other. -/
theorem Covers.cons {before middle after : List α} {a : α} {rest : List α}
    (first : Covers next goal before [a] middle) (last : Covers next goal middle rest after) :
    Covers next goal before (a :: rest) after where
  kept b member := last.kept b (first.kept b member)
  looked b member := by
    rcases List.mem_cons.mp member with rfl | member
    · obtain ⟨visited, other⟩ := first.looked b List.mem_cons_self
      exact ⟨last.kept b visited, other⟩
    · exact last.looked b member
  below b member fresh c edge := by
    by_cases early : b ∈ middle
    · obtain ⟨visited, other⟩ := first.below b early fresh c edge
      exact ⟨last.kept c visited, other⟩
    · exact last.below b member early c edge

/-- What is covered by entering a node. -/
theorem Covers.enter {before after : List α} {a : α} (other : goal a = false)
    (inner : Covers next goal (a :: before) (next a) after) :
    Covers next goal before [a] after where
  kept b member := inner.kept b (List.mem_cons_of_mem _ member)
  looked b member := by
    obtain rfl := List.mem_singleton.mp member
    exact ⟨inner.kept b List.mem_cons_self, other⟩
  below b member fresh c edge := by
    by_cases here : b = a
    · subst here
      exact inner.looked c edge
    · have new : b ∉ a :: before := by
        intro old
        rcases List.mem_cons.mp old with same | old
        · exact here same
        · exact fresh old
      exact inner.below b member new c edge

variable [DecidableEq α]

/-- A search that stops has found a path to a node with the property. -/
theorem exists_path_of_search (levels : Nat) :
    ∀ {visited : List α} {node : α}, search next goal levels visited node = none →
      ∃ b, Relation.ReflTransGen (Edge next) node b ∧ goal b = true := by
  induction levels with
  | zero =>
      intro visited node stopped
      unfold search at stopped
      split at stopped
      · next met => exact ⟨node, .refl, met⟩
      · split at stopped <;> cases stopped
  | succ levels ih =>
      intro visited node stopped
      unfold search at stopped
      split at stopped
      · next met => exact ⟨node, .refl, met⟩
      · split at stopped
        · cases stopped
        · obtain ⟨child, edge, seen, inner⟩ := exists_of_foldlM_eq_none stopped
          obtain ⟨b, path, met⟩ := ih inner
          exact ⟨b, .head edge path, met⟩

section Levels

variable {domain : Finset α} (bounded : ∀ a, next a ≠ [] → a ∈ domain)

/-- How many nodes with successors have not been visited. -/
def unvisited (domain : Finset α) (visited : List α) : Nat :=
  (domain \ visited.toFinset).card

theorem unvisited_le {before after : List α} (kept : ∀ a ∈ before, a ∈ after) :
    unvisited domain after ≤ unvisited domain before := by
  apply Finset.card_le_card
  intro a member
  simp only [Finset.mem_sdiff, List.mem_toFinset] at member ⊢
  exact ⟨member.1, fun visited => member.2 (kept a visited)⟩

theorem unvisited_cons_lt {visited : List α} {a : α} (listed : a ∈ domain)
    (fresh : a ∉ visited) : unvisited domain (a :: visited) < unvisited domain visited := by
  apply Finset.card_lt_card
  rw [Finset.ssubset_iff_of_subset]
  · exact ⟨a, by simp [listed, fresh], by simp⟩
  · intro b member
    simp only [Finset.mem_sdiff, List.mem_toFinset, List.mem_cons, not_or] at member ⊢
    exact ⟨member.1, member.2.2⟩

/-- Searches that each cover what they look at cover it all, one after the other. -/
theorem covers_foldlM {levels : Nat}
    (each : ∀ {visited after : List α} {a : α}, unvisited domain visited ≤ levels →
      search next goal levels visited a = some after → Covers next goal visited [a] after)
    (items : List α) :
    ∀ {visited after : List α}, unvisited domain visited ≤ levels →
      items.foldlM (search next goal levels) visited = some after →
        Covers next goal visited items after := by
  induction items with
  | nil =>
      intro visited after _ done
      cases done
      exact .nil visited
  | cons a items ih =>
      intro visited after enough done
      rw [List.foldlM_cons] at done
      obtain ⟨middle, first, rest⟩ := Option.bind_eq_some_iff.mp done
      have covered := each enough first
      exact covered.cons (ih ((unvisited_le covered.kept).trans enough) rest)

theorem unvisited_le_levels {levels : Nat} (enough : domain.card ≤ levels) (visited : List α) :
    unvisited domain visited ≤ levels :=
  (Finset.card_le_card Finset.sdiff_subset).trans enough

include bounded

/-- A search that comes to its end covers the node it starts from. The levels suffice because each
    node that is entered is one less that can be entered below it. -/
theorem covers_search (levels : Nat) :
    ∀ {visited after : List α} {node : α}, unvisited domain visited ≤ levels →
      search next goal levels visited node = some after →
        Covers next goal visited [node] after := by
  induction levels with
  | zero =>
      intro visited after node enough done
      unfold search at done
      split at done
      · cases done
      · next other =>
          have other := Bool.eq_false_iff.mpr other
          split at done
          · next seen =>
              cases done
              exact .seen seen other
          · next fresh =>
              cases done
              have leaf : next node = [] := by
                by_contra successors
                have := unvisited_cons_lt (bounded node successors) fresh
                omega
              refine .enter other ?_
              rw [leaf]
              exact .nil _
  | succ levels ih =>
      intro visited after node enough done
      unfold search at done
      split at done
      · cases done
      · next other =>
          have other := Bool.eq_false_iff.mpr other
          split at done
          · next seen =>
              cases done
              exact .seen seen other
          · next fresh =>
              refine .enter other ?_
              by_cases leaf : next node = []
              · rw [leaf] at done ⊢
                cases done
                exact .nil _
              · have fewer := unvisited_cons_lt (bounded node leaf) fresh
                exact covers_foldlM ih _ (by omega) done

variable {levels : Nat} (enough : domain.card ≤ levels) (node : α)

include enough

/-- A search decides whether a node with the property can be reached. -/
theorem leadsTo_iff :
    leadsTo next goal levels node = true ↔
      ∃ b, Relation.ReflTransGen (Edge next) node b ∧ goal b = true := by
  unfold leadsTo
  cases searched : search next goal levels [] node with
  | none => simpa using exists_path_of_search levels searched
  | some after =>
      have covered := covers_search bounded levels (unvisited_le_levels enough []) searched
      have reached : ∀ b, Relation.ReflTransGen (Edge next) node b →
          b ∈ after ∧ goal b = false := by
        intro b path
        induction path with
        | refl => exact covered.looked node List.mem_cons_self
        | tail _ edge ih => exact covered.below _ ih.1 (by simp) _ edge
      simp only [Option.isNone_some, Bool.false_eq_true, false_iff]
      rintro ⟨b, path, met⟩
      rw [(reached b path).2] at met
      cases met

/-- A search below a node decides whether a node with the property can be reached from it by one
    step or more. -/
theorem leadsOnTo_iff :
    leadsOnTo next goal levels node = true ↔
      ∃ b, Relation.TransGen (Edge next) node b ∧ goal b = true := by
  unfold leadsOnTo
  cases searched : (next node).foldlM (search next goal levels) [node] with
  | none =>
      obtain ⟨child, edge, seen, inner⟩ := exists_of_foldlM_eq_none searched
      obtain ⟨b, path, met⟩ := exists_path_of_search levels inner
      simpa using ⟨b, Relation.TransGen.head' edge path, met⟩
  | some after =>
      have covered := covers_foldlM (covers_search bounded levels) (next node)
        (unvisited_le_levels enough [node]) searched
      have reached : ∀ b, Relation.TransGen (Edge next) node b → b ∈ after ∧ goal b = false := by
        intro b path
        induction path with
        | single edge => exact covered.looked _ edge
        | @tail b c _ edge ih =>
            by_cases start : b = node
            · subst start
              exact covered.looked _ edge
            · exact covered.below _ ih.1 (by simpa using start) _ edge
      simp only [Option.isNone_some, Bool.false_eq_true, false_iff]
      rintro ⟨b, path, met⟩
      rw [(reached b path).2] at met
      cases met

end Levels

end BugPatterns.Reach
