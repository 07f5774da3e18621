import BugPatterns.Check.Pass
import BugPatterns.Proofs.Tree

/-!
# What a pass does

A walk shows nodes to checks in one fixed sequence and leaves the stack of scopes as it found it,
whatever showing a node to a check does (`Registry.run_walk`). So a pass with shared state has the
output that the answers of the checks have when they are put one after the other
(`Registry.pass_eq_run`).
-/

namespace BugPatterns

/-- Actions that are carried out beside a state leave it as it is. -/
theorem run_forM_lift {α σ : Type} {m : Type → Type} [Monad m] [LawfulMonad m] (action : α → m Unit)
    (items : List α) (state : σ) :
    (forM items fun a => (StateT.lift (action a) : StateT σ m Unit)).run state = do
      forM items action
      return ((), state) := by
  induction items with
  | nil => simp
  | cons a items ih =>
      rw [List.forM_cons, List.forM_cons, StateT.run_bind, StateT.run_lift]
      simp only [bind_assoc, pure_bind, ih]

namespace Registry

section Walk

variable {m : Type → Type} [Monad m] [LawfulMonad m] (registry : Registry) (loaded : LoadedUnit)
  (catalog : Catalog) (maxDepth : Nat) (invoke : Showing → m Unit)

/-- A node under some scopes, as it is shown to the checks that subscribe to its kind. -/
def showingsAt (placed : List Scope × Node Site) : List Showing :=
  (registry.subscribers placed.2.kind).map fun check =>
    ⟨check, ⟨loaded, catalog, maxDepth, placed.1⟩, placed.2⟩

theorem run_dispatch (node : Node Site) (scopes : List Scope) :
    (registry.dispatch loaded catalog maxDepth invoke node).run scopes = do
      forM (registry.showingsAt loaded catalog maxDepth (scopes, node)) invoke
      return ((), scopes) := by
  rw [showingsAt, List.forM_map, ← run_forM_lift]
  simp [dispatch]

/-- A walk shows the nodes of a tree in preorder, each under the scopes above it, and leaves the
    stack of scopes as it found it. -/
theorem run_walk (t : Tree (Node Site)) :
    ∀ scopes, (registry.walk loaded catalog maxDepth invoke t).run scopes = do
      forM ((t.underScopes Scope.ofNode? scopes).flatMap
        (registry.showingsAt loaded catalog maxDepth)) invoke
      return ((), scopes) := by
  induction t using Tree.induct with
  | node n below ih =>
      have all (ts : List (Tree (Node Site))) (each : ∀ t ∈ ts, t ∈ below) (scopes : List Scope) :
          (registry.walkAll loaded catalog maxDepth invoke ts).run scopes = do
            forM ((Tree.underScopesAll Scope.ofNode? scopes ts).flatMap
              (registry.showingsAt loaded catalog maxDepth)) invoke
            return ((), scopes) := by
        induction ts with
        | nil => simp [walkAll, Tree.underScopesAll]
        | cons t ts rest =>
            rw [walkAll, Tree.underScopesAll, StateT.run_bind, ih t (each t List.mem_cons_self)]
            simp [rest fun u member => each u (List.mem_cons_of_mem _ member)]
      intro scopes
      rw [walk, Tree.underScopes, StateT.run_bind, run_dispatch]
      cases opened : Scope.ofNode? n with
      | none => simp [all below fun _ member => member]
      | some scope => simp [all below fun _ member => member]

end Walk

end Registry

namespace PassState

open Registry (Showing)

/-- All reports of a check that is reporting are taken, in their order. -/
theorem run_reports (reporter : Reporter) (file : String) (failures : List CheckFailure)
    (reports : List Report) :
    ∀ found, (forM reports (report file)).run ⟨some reporter, found, failures⟩ =
      ((), ⟨some reporter, found ++ reports.map fun r =>
        ⟨reporter.rule, reporter.severity, file, r.span, r.kind, r.message⟩, failures⟩) := by
  induction reports with
  | nil => exact fun found => by rw [List.map_nil, List.append_nil]; rfl
  | cons r reports ih =>
      intro found
      rw [List.forM_cons, List.map_cons, List.append_cons, ← ih]
      rfl

/-- A visit adds what the check answers to what there is, and leaves nobody reporting. -/
theorem run_visit (showing : Showing) (reporter : Option Reporter) (found : List Diagnostic)
    (failures : List CheckFailure) :
    (visit showing).run ⟨reporter, found, failures⟩ =
      ((), ⟨none, found ++ showing.diagnostics showing.answer,
        failures ++ (showing.failure? showing.answer).toList⟩) := by
  have reported := run_reports ⟨showing.check.key, showing.check.severity⟩
    showing.here.loaded.file failures showing.answer.reports found
  have visited : (visit showing).run ⟨reporter, found, failures⟩ = (do
      showing.answer.failure.forM (fail showing.check.key showing.node)
      modify fun state => { state with reporter := none } : StateM PassState Unit).run
        ((forM showing.answer.reports (report showing.here.loaded.file)).run
          ⟨some ⟨showing.check.key, showing.check.severity⟩, found, failures⟩).2 := rfl
  rw [visited, reported]
  unfold Showing.failure?
  cases showing.answer.failure with
  | none => rw [Option.map_none, Option.toList_none, List.append_nil]; rfl
  | some error => rfl

/-- The answers of checks that are shown nodes one after the other add up. -/
theorem run_visits (shown : List Showing) :
    ∀ found failures, (forM shown visit).run ⟨none, found, failures⟩ =
      ((), ⟨none, found ++ shown.flatMap fun showing => showing.diagnostics showing.answer,
        failures ++ shown.filterMap fun showing => showing.failure? showing.answer⟩) := by
  induction shown with
  | nil =>
      intro found failures
      rw [List.flatMap_nil, List.filterMap_nil, List.append_nil, List.append_nil]
      rfl
  | cons showing shown ih =>
      intro found failures
      have first := run_visit showing none found failures
      have split : (forM (showing :: shown) visit).run ⟨none, found, failures⟩ =
          (forM shown visit).run ((visit showing).run ⟨none, found, failures⟩).2 := rfl
      rw [split, first, ih, List.filterMap_eq_flatMap_toList, List.filterMap_eq_flatMap_toList,
        List.flatMap_cons, List.flatMap_cons, List.append_assoc, List.append_assoc]

end PassState

/-- A pass with shared state has the output of the checks' answers. -/
theorem Registry.pass_eq_run (registry : Registry) (loaded : LoadedUnit) (catalog : Catalog)
    (maxDepth : Nat) :
    registry.pass loaded catalog maxDepth = registry.run loaded catalog maxDepth := by
  have walked := registry.run_walk loaded catalog maxDepth PassState.visit loaded.unit.tree []
  have visited := PassState.run_visits (registry.showings loaded catalog maxDepth) [] []
  have output : registry.pass loaded catalog maxDepth =
      ⟨((forM (registry.showings loaded catalog maxDepth)
          PassState.visit).run .start).2.diagnostics,
        ((forM (registry.showings loaded catalog maxDepth)
          PassState.visit).run .start).2.failures⟩ := by
    unfold pass
    rw [walked]
    rfl
  rw [output, PassState.start, visited]
  simp only [run, List.flatMap_map, List.filterMap_map, List.nil_append, Function.comp_def]

end BugPatterns
