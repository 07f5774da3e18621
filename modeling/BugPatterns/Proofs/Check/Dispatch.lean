import BugPatterns.Proofs.Check.Pass
import BugPatterns.Proofs.Check.Registry
import BugPatterns.Proofs.NodeTree
import BugPatterns.Proofs.Unit.Scopes

/-!
# Who is shown a node, and where

A pass shows every node once to each check that names its kind, and what a check sees around the
node are the type declarations and methods among the ancestors of the node
(`Registry.showings_eq_lineages`). The stack that keeps track of them is back to what it was after
every subtree.
-/

namespace BugPatterns

namespace Node

variable {α : Type}

/-- Each node of a walk comes with the nodes on the way to it, from its parent up to the root and
    what is above that. -/
theorem isChain_of_mem_underScopes {root : Node α} :
    ∀ {above : List (Node α)}, (root :: above).IsChain (fun c p => c ∈ p.children) →
      ∀ placed ∈ root.tree.underScopes some above,
        (placed.2 :: placed.1).IsChain (fun c p => c ∈ p.children) ∧
          root :: above <:+ placed.2 :: placed.1 := by
  induction root using Node.induct with
  | node root ih =>
      intro above path placed met
      rw [underScopes_tree] at met
      rcases List.mem_cons.mp met with rfl | met
      · exact ⟨path, List.suffix_rfl⟩
      · obtain ⟨c, child, met⟩ := List.mem_flatMap.mp met
        obtain ⟨longer, suffix⟩ := ih c child (path.cons_cons child) placed met
        exact ⟨longer, (List.suffix_cons c (root :: above)).trans suffix⟩

end Node

/-- All nodes of a unit in preorder, each with the nodes that it lies in, innermost first. -/
def LoadedUnit.lineages (loaded : LoadedUnit) : List (List (Node Site) × Node Site) :=
  loaded.unit.tree.underScopes some []

namespace LoadedUnit

theorem map_snd_lineages (loaded : LoadedUnit) : loaded.lineages.map Prod.snd = loaded.nodes :=
  Tree.map_snd_underScopes _ _ _

/-- The nodes that a node lies in lead from its parent to the unit. -/
theorem isChain_of_mem_lineages {loaded : LoadedUnit} {above : List (Node Site)} {n : Node Site}
    (placed : (above, n) ∈ loaded.lineages) :
    (n :: above).IsChain (fun c p => c ∈ p.children) ∧
      (n :: above).getLast? = some (.unit loaded.unit) := by
  have root : [Node.unit loaded.unit].IsChain fun c p => c ∈ p.children := .singleton _
  obtain ⟨path, ⟨below, split⟩⟩ := Node.isChain_of_mem_underScopes root _ placed
  exact ⟨path, by rw [← split, List.getLast?_append]; rfl⟩

theorem scopedNodes_eq_lineages (loaded : LoadedUnit) :
    loaded.scopedNodes = loaded.lineages.map fun (above, n) => (above.filterMap Scope.ofNode?, n) :=
  Tree.underScopes_filterMap Scope.ofNode? loaded.unit.tree []

end LoadedUnit

namespace Scope

theorem bind_class?_ofNode? (n : Node Site) : (ofNode? n).bind class? = n.classDecl? := by
  cases n <;> rfl

theorem bind_method?_ofNode? (n : Node Site) : (ofNode? n).bind method? = n.method? := by
  cases n <;> rfl

theorem isSome_ofNode? (n : Node Site) :
    (ofNode? n).isSome = (n.classDecl?.isSome || n.method?.isSome) := by
  cases n <;> rfl

end Scope

namespace Surroundings

variable (loaded : LoadedUnit) (catalog : Catalog) (maxDepth : Nat) (above : List (Node Site))

/-- What a check sees around a node that lies in some others. -/
def below : Surroundings := ⟨loaded, catalog, maxDepth, above.filterMap Scope.ofNode?⟩

theorem enclosingClass_below : (below loaded catalog maxDepth above).enclosingClass =
    above.findSome? Node.classDecl? := by
  simp only [enclosingClass, below, ← List.head?_filterMap, List.filterMap_filterMap,
    ← Scope.bind_class?_ofNode?]

theorem enclosingMethods_below : (below loaded catalog maxDepth above).enclosingMethods =
    above.filterMap Node.method? := by
  simp only [enclosingMethods, below, List.filterMap_filterMap, ← Scope.bind_method?_ofNode?]

/-- The closest type declaration or method counts, as far as it is a method. -/
theorem enclosingMethod_below : (below loaded catalog maxDepth above).enclosingMethod =
    (above.find? fun n => n.classDecl?.isSome || n.method?.isSome).bind Node.method? := by
  unfold enclosingMethod below
  induction above with
  | nil => rfl
  | cons n above ih =>
      rw [List.find?_cons, ← Scope.isSome_ofNode?]
      cases opened : Scope.ofNode? n with
      | none => rw [List.filterMap_cons_none opened]; exact ih
      | some scope =>
          rw [List.filterMap_cons_some opened, Option.isSome_some, List.head?_cons,
            Option.bind_some, Option.bind_some, ← Scope.bind_method?_ofNode?, opened,
            Option.bind_some]

end Surroundings

namespace Registry

variable (loaded : LoadedUnit) (catalog : Catalog) (maxDepth : Nat)

/-- Each node is shown to the checks that name its kind, in the order of their registration. -/
theorem showings_eq_lineages {registry : Registry} {checks : List Check}
    (made : registry.MadeOf checks) :
    registry.showings loaded catalog maxDepth = loaded.lineages.flatMap fun placed =>
      (checks.filter fun check => placed.2.kind ∈ check.kinds).map fun check =>
        ⟨check, .below loaded catalog maxDepth placed.1, placed.2⟩ := by
  have shown : registry.showings loaded catalog maxDepth =
      loaded.scopedNodes.flatMap fun placed =>
        (registry.subscribers placed.2.kind).map fun check =>
          ⟨check, ⟨loaded, catalog, maxDepth, placed.1⟩, placed.2⟩ := rfl
  rw [shown, loaded.scopedNodes_eq_lineages, List.flatMap_map]
  simp only [made.indexed.subscribers, made.checks]
  rfl

/-- A pass shows each node of a unit once, in the order of the traversal, to every check that names
    its kind, in the order of registration. The check then sees the closest type declaration and all
    methods among the nodes that the node lies in, and the closest of both if it is a method. After
    every subtree the stack of scopes is what it was before. -/
theorem walk_dispatches {checks : List Check} {registry : Registry}
    (made : ofChecks checks = .ok registry) :
    registry.run loaded catalog maxDepth = registry.pass loaded catalog maxDepth ∧
    (∀ {m : Type → Type} [Monad m] [LawfulMonad m] (invoke : Showing → m Unit),
      (registry.walk loaded catalog maxDepth invoke loaded.unit.tree).run [] = do
        forM (registry.showings loaded catalog maxDepth) invoke
        return ((), [])) ∧
    (∀ {m : Type → Type} [Monad m] [LawfulMonad m] (invoke : Showing → m Unit) t scopes,
      (registry.walk loaded catalog maxDepth invoke t).run scopes = do
        forM ((t.underScopes Scope.ofNode? scopes).flatMap
          (registry.showingsAt loaded catalog maxDepth)) invoke
        return ((), scopes)) ∧
    (registry.showings loaded catalog maxDepth = loaded.lineages.flatMap fun placed =>
      (checks.filter fun check => placed.2.kind ∈ check.kinds).map fun check =>
        ⟨check, .below loaded catalog maxDepth placed.1, placed.2⟩) ∧
    (checks.map (·.key)).Nodup ∧
    loaded.lineages.map Prod.snd = loaded.nodes ∧
    (∀ {m : Type → Type} [Monad m] [LawfulMonad m] (act : Node Site → m Unit),
      (loaded.unit.tree.traverse fun node => do act node; return true) = forM loaded.nodes act) ∧
    ∀ above node, (above, node) ∈ loaded.lineages →
      ((node :: above).IsChain fun child parent => child ∈ parent.children) ∧
      (node :: above).getLast? = some (.unit loaded.unit) ∧
      (Surroundings.below loaded catalog maxDepth above).enclosingClass =
        above.findSome? Node.classDecl? ∧
      (Surroundings.below loaded catalog maxDepth above).enclosingMethods =
        above.filterMap Node.method? ∧
      (Surroundings.below loaded catalog maxDepth above).enclosingMethod =
        (above.find? fun n => n.classDecl?.isSome || n.method?.isSome).bind Node.method? := by
  have madeOf := madeOf_of_ofChecks made
  refine ⟨(registry.pass_eq_run loaded catalog maxDepth).symm,
    fun invoke => registry.run_walk loaded catalog maxDepth invoke loaded.unit.tree [],
    registry.run_walk loaded catalog maxDepth,
    showings_eq_lineages loaded catalog maxDepth madeOf, madeOf.distinct, loaded.map_snd_lineages,
    fun act => loaded.unit.tree.traverse_eq_forM act, fun above node placed => ?_⟩
  obtain ⟨path, top⟩ := LoadedUnit.isChain_of_mem_lineages placed
  exact ⟨path, top, Surroundings.enclosingClass_below loaded catalog maxDepth above,
    Surroundings.enclosingMethods_below loaded catalog maxDepth above,
    Surroundings.enclosingMethod_below loaded catalog maxDepth above⟩

end Registry

/-- A check that reports type declarations under a key, with the name of the one around them, and
    fails after that if it is told to. It names the kind of the nodes it wants to see twice. -/
def Check.probe (key : String) (failure : Option String) : Check where
  key := key
  title := "probe"
  severity := .minor
  tags := []
  kinds := [.ordinaryClass, .ordinaryClass]
  visit here node :=
    ⟨[.about node ("in " ++ ((here.enclosingClass.bind (·.name)).getD "no class"))], failure⟩

/-- A type declaration with a method that declares another one. -/
def LoadedUnit.localType : LoadedUnit :=
  let inner : ClassDecl Site := ⟨⟨4, .point 3 3⟩, .ordinary, some "Inner", none, []⟩
  let method : MethodDecl Site :=
    ⟨⟨2, .point 2 2⟩, "run", none, [], some ⟨⟨3, .point 2 9⟩, [.classDecl inner]⟩⟩
  let outer : ClassDecl Site :=
    ⟨⟨1, .point 1 1⟩, .ordinary, some "Outer", none, [.method method]⟩
  ⟨⟨"Outer.java", none, [outer]⟩, .prelude, .empty⟩

namespace Registry

theorem exists_of_probes :
    ∃ registry, ofChecks [.probe "X1" (some "probe failure"), .probe "X2" none] = .ok registry := by
  have registrable : ∀ check ∈ [Check.probe "X1" (some "probe failure"), .probe "X2" none],
      check.Registrable := by
    rw [List.forall_mem_cons, List.forall_mem_singleton]
    exact ⟨⟨by decide, List.cons_ne_nil _ _⟩, ⟨by decide, List.cons_ne_nil _ _⟩⟩
  obtain ⟨registry, made, -, -⟩ := ofChecks_eq_ok registrable (by decide)
  exact ⟨registry, made⟩

theorem walk_dispatches_probes :
    ∃ registry, ofChecks [.probe "X1" (some "probe failure"), .probe "X2" none] = .ok registry ∧
      (registry.showings .localType .empty 8).map (fun showing =>
          (showing.check.key, showing.node.number, showing.here.enclosingMethod.map (·.name),
            showing.here.enclosingClass.bind (·.name))) =
        [("X1", 1, none, none), ("X2", 1, none, none),
          ("X1", 4, some "run", some "Outer"), ("X2", 4, some "run", some "Outer")] := by
  obtain ⟨registry, made⟩ := exists_of_probes
  obtain ⟨-, -, -, shown, -⟩ := walk_dispatches .localType .empty 8 made
  refine ⟨registry, made, ?_⟩
  rw [shown]
  rfl

end Registry

end BugPatterns
