import BugPatterns.Proofs.Check.Dispatch
import BugPatterns.Proofs.Constancy.Reference

/-!
# The enclosing method

Two recursions say which method an expression is in. A pass over the unit keeps the scopes around a
node on a stack, and the search for definitions skips the type declarations in a method body. They
agree (`LoadedUnit.isSome_reachingDefinitions_iff`): the search in a method comes to an expression
if that method is the innermost scope and the expression lies in its body. An expression in a
parameter of the method has the same innermost scope and is found by no search.
-/

namespace BugPatterns

/-- The node lies in the body of the method, be it in a type declaration there. -/
def MethodDecl.Surrounds (method : MethodDecl Site) (n : Node Site) : Prop :=
  ∃ body, method.body = some body ∧ n ∈ (Node.block body).tree.preorder

namespace LoadedUnit

variable {loaded : LoadedUnit}

theorem exists_lineage {n : Node Site} (member : n ∈ loaded.nodes) :
    ∃ above, (above, n) ∈ loaded.lineages := by
  rw [← map_snd_lineages] at member
  obtain ⟨⟨above, m⟩, placed, rfl⟩ := List.mem_map.mp member
  exact ⟨above, placed⟩

theorem mem_scopedNodes_of_lineage {above : List (Node Site)} {n : Node Site}
    (placed : (above, n) ∈ loaded.lineages) :
    (above.filterMap Scope.ofNode?, n) ∈ loaded.scopedNodes := by
  rw [scopedNodes_eq_lineages]
  exact List.mem_map.mpr ⟨_, placed, rfl⟩

/-- What a check sees around a node is what the node lies in, whichever check is shown it. -/
theorem Coherent.here_eq_below (coherent : loaded.Coherent) {registry : Registry}
    {catalog : Catalog} {depth : Nat} {above : List (Node Site)} {n : Node Site}
    (placed : (above, n) ∈ loaded.lineages) {showing : Registry.Showing}
    (shown : showing ∈ registry.showings loaded catalog depth) (same : showing.node = n) :
    showing.here = .below loaded catalog depth above := by
  obtain ⟨⟨scopes, m⟩, met, listed⟩ := List.mem_flatMap.mp shown
  obtain ⟨check, -, rfl⟩ := List.mem_map.mp listed
  obtain rfl : m = n := same
  rw [coherent.scopes_unique met (mem_scopedNodes_of_lineage placed)]
  rfl

/-- The innermost scope is a method just when the enclosing method is. -/
theorem enclosingMethod_eq_some_iff {here : Surroundings} {method : MethodDecl Site} :
    here.enclosingMethod = some method ↔ ∃ scopes, here.scopes = .method method :: scopes := by
  unfold Surroundings.enclosingMethod
  cases here.scopes with
  | nil => simp
  | cons scope scopes => cases scope <;> simp [Scope.method?]

/-- A method body holds an expression itself if the expression lies in the body and the method is
    the enclosing one. -/
theorem Coherent.mem_bodyNodes_iff (coherent : loaded.Coherent) {above : List (Node Site)}
    {x : Expr Site} (placed : (above, .expr x) ∈ loaded.lineages) {method : MethodDecl Site}
    (listed : .method method ∈ loaded.nodes) (catalog : Catalog) (depth : Nat) :
    .expr x ∈ method.bodyNodes ↔
      (Surroundings.below loaded catalog depth above).enclosingMethod = some method ∧
        method.Surrounds (.expr x) := by
  have met := mem_scopedNodes_of_lineage placed
  rw [enclosingMethod_eq_some_iff]
  constructor
  · intro held
    obtain ⟨scopes, inBody⟩ := mem_scopedNodes_of_bodyNode listed held
    refine ⟨⟨scopes, coherent.scopes_unique met inBody⟩, ?_⟩
    unfold MethodDecl.bodyNodes at held
    split at held
    · cases held
    · next body present => exact ⟨body, present, Node.mem_preorder_of_mem_ownNodes held⟩
  · rintro ⟨⟨scopes, innermost⟩, body, present, within⟩
    have around : above.filterMap Scope.ofNode? = .method method :: scopes := innermost
    rw [around] at met
    exact coherent.mem_bodyNodes_of_scope rfl listed present within met

/-- A search in a method comes to what its body holds itself; a method without a body holds
    nothing. -/
theorem Coherent.isSome_reaching (coherent : loaded.Coherent) {method : MethodDecl Site}
    (listed : .method method ∈ loaded.nodes) {x : Expr Site} (inUnit : .expr x ∈ loaded.nodes)
    (catalog : Catalog) (key : String) :
    (loaded.reachingDefinitions catalog method key x).isSome ↔ .expr x ∈ method.bodyNodes := by
  cases present : method.body with
  | none =>
      simp [reachingDefinitions, DefinitionSearch.run, MethodDecl.bodyNodes, present]
  | some body =>
      exact coherent.isSome_reachingDefinitions
        (mem_nodes_of_child listed (method.mem_children_of_body present)) present inUnit

/-- The scopes of a pass and the search for definitions agree on the enclosing method. Every check
    that is shown an expression sees the same around it. The method it sees as the enclosing one
    has the expression in its body just when the search in that method, for whatever variable and
    with whatever catalog, comes to the expression. So one method at most is found in this way, and
    it is the one that verdicts are given in. -/
theorem isSome_reachingDefinitions_iff {document : UnitDocument}
    (made : ofDocument document = .ok loaded) {x : Expr Site} (inUnit : .expr x ∈ loaded.nodes) :
    ∃ above, (above, .expr x) ∈ loaded.lineages ∧
      (∀ checks registry, Registry.ofChecks checks = .ok registry → ∀ catalog depth,
        (∀ check ∈ checks, x.kind ∈ check.kinds →
          ⟨check, .below loaded catalog depth above, .expr x⟩ ∈
            registry.showings loaded catalog depth) ∧
        ∀ showing ∈ registry.showings loaded catalog depth, showing.node = .expr x →
          showing.here = .below loaded catalog depth above) ∧
      (∀ method, .method method ∈ loaded.nodes → ∀ catalog depth other key,
        (Surroundings.below loaded catalog depth above).enclosingMethod = some method ∧
            method.Surrounds (.expr x) ↔
          (loaded.reachingDefinitions other method key x).isSome) ∧
      ∀ method, .method method ∈ loaded.nodes → ∀ other key,
        (loaded.reachingDefinitions other method key x).isSome →
          (∀ second, .method second ∈ loaded.nodes → ∀ catalog name,
            (loaded.reachingDefinitions catalog second name x).isSome → second = method) ∧
          ∀ catalog depth e, (Surroundings.below loaded catalog depth above).classify e =
            Tracer.classify ⟨loaded, catalog, depth⟩ (some method) e := by
  have coherent := coherent_ofDocument made
  obtain ⟨above, placed⟩ := exists_lineage inUnit
  have agree (method : MethodDecl Site) (listed : .method method ∈ loaded.nodes)
      (catalog : Catalog) (depth : Nat) (other : Catalog) (key : String) :
      (Surroundings.below loaded catalog depth above).enclosingMethod = some method ∧
          method.Surrounds (.expr x) ↔
        (loaded.reachingDefinitions other method key x).isSome := by
    rw [coherent.isSome_reaching listed inUnit, coherent.mem_bodyNodes_iff placed listed]
  refine ⟨above, placed, ?_, agree, ?_⟩
  · intro checks registry registered catalog depth
    refine ⟨fun check member wanted => ?_, fun showing => coherent.here_eq_below placed⟩
    rw [Registry.showings_eq_lineages loaded catalog depth (Registry.madeOf_of_ofChecks registered)]
    refine List.mem_flatMap.mpr ⟨_, placed, List.mem_map.mpr ⟨check, ?_, rfl⟩⟩
    exact List.mem_filter.mpr ⟨member, decide_eq_true wanted⟩
  · intro method listed other key found
    have enclosing (catalog : Catalog) (depth : Nat) :=
      ((agree method listed catalog depth other key).mpr found).1
    refine ⟨fun second secondListed catalog name foundToo => ?_, fun catalog depth e => ?_⟩
    · have innermost := ((agree second secondListed catalog 0 catalog name).mpr foundToo).1
      exact Option.some.inj (innermost.symm.trans (enclosing catalog 0))
    · unfold Surroundings.classify
      rw [enclosing catalog depth]
      rfl

/-- The variable that is extended in the body itself, though the body declares a type after it. -/
theorem isSome_reachingDefinitions_iff_capturing : ∃ loaded method x above,
    ofDocument .capturing = .ok loaded ∧ .method method ∈ loaded.nodes ∧ x.label.number = 9 ∧
      (above, .expr x) ∈ loaded.lineages ∧
      (loaded.reachingDefinitions .builtin method "p.Q#m.s" x).isSome ∧
      (Surroundings.below loaded .empty 5 above).enclosingMethod = some method ∧
      method.Surrounds (.expr x) := by
  have evaluated : ((ofDocument .capturing).toOption.bind fun loaded =>
      (loaded.declarations.method? "p.Q#m").bind fun method =>
        (heldExpr? method 9).map fun x => decide (x.label.number = 9) &&
          (loaded.reachingDefinitions .builtin method "p.Q#m.s" x).isSome) = some true := by
    decide +kernel
  obtain ⟨loaded, method, x, made, listed, held, checked⟩ := exists_of_evaluated evaluated
  rw [Bool.and_eq_true, decide_eq_true_iff] at checked
  obtain ⟨number, found⟩ := checked
  obtain ⟨above, placed, -, agree, -⟩ :=
    isSome_reachingDefinitions_iff made (mem_nodes_of_bodyNode listed held)
  obtain ⟨enclosing, within⟩ := (agree method listed .empty 5 .builtin "p.Q#m.s").mpr found
  exact ⟨loaded, method, x, above, made, listed, number, placed, found, enclosing, within⟩

end LoadedUnit

end BugPatterns
