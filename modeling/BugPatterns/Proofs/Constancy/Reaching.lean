import BugPatterns.Proofs.Constancy.Alike
import BugPatterns.Proofs.Constancy.Budget

/-!
# Definitions of owned variables

A method that owns a local variable is the only one searched for definitions of it. The verdict on
a use of the variable is then settled by what the walk of the body has left before it comes to the
use (`Tracer.classify_owned`).
-/

namespace BugPatterns

/-- The symbol is owned by the symbol of the method. -/
def LoadedUnit.Owns (loaded : LoadedUnit) (method : MethodDecl Site) (symbol : SymbolId) : Prop :=
  ∃ owner, loaded.model.owner symbol = some owner ∧
    method.symbol = some (loaded.model.symbol owner).key

instance (loaded : LoadedUnit) (method : MethodDecl Site) (symbol : SymbolId) :
    Decidable (loaded.Owns method symbol) :=
  decidable_of_iff
    ((loaded.model.owner symbol).any fun owner =>
      method.symbol = some (loaded.model.symbol owner).key) (by
      unfold LoadedUnit.Owns
      cases loaded.model.owner symbol <;> simp)

namespace DefinitionSearch

variable {loaded : LoadedUnit} {catalog : Catalog} {key : String} {use other : Nat}
  {captured inside : Bool}

/-- Where a search is headed does not bear on what nodes do to the variable. -/
theorem replay_eq (steps : List WalkStep) :
    replay ⟨loaded, catalog, key, use, captured⟩ steps =
      replay ⟨loaded, catalog, key, other, inside⟩ steps := by
  have same : event? ⟨loaded, catalog, key, use, captured⟩ =
      event? ⟨loaded, catalog, key, other, inside⟩ := event?_congr rfl
  rw [replay, replay, events, events, same]

end DefinitionSearch

namespace Tracer

variable {tracer : Tracer} {method : MethodDecl Site} {symbol : SymbolId}

/-- What nodes do to a variable. -/
def effects (tracer : Tracer) (key : String) : DefinitionSearch :=
  ⟨tracer.loaded, tracer.catalog, key, 0, false⟩

/-- The key of a symbol. -/
def keyOf (tracer : Tracer) (symbol : SymbolId) : String := (tracer.loaded.model.symbol symbol).key

theorem capturedFrom?_owned (owned : tracer.loaded.Owns method symbol) :
    tracer.capturedFrom? symbol (some method) = none := by
  obtain ⟨owner, owns, named⟩ := owned
  unfold capturedFrom?
  simp only [Option.bind_eq_bind, Option.bind_some, owns, Option.filter_some]
  split
  · simp [named]
  · rfl

theorem definitionsOf_uncaptured {context : TraceContext} {use : Expr Site}
    (uncaptured : tracer.capturedFrom? symbol context = none) :
    tracer.definitionsOf context use symbol =
      (context.bind fun method => tracer.loaded.reachingDefinitions tracer.catalog method
        (tracer.loaded.model.symbol symbol).key use, context) := by
  unfold definitionsOf
  simp only
  split
  · next inner captured =>
      rw [uncaptured] at captured
      cases captured
  · rfl

/-- In the method that owns a variable, a use of it is reached by what is left before it. -/
theorem definitionsOf_owned (coherent : tracer.loaded.Coherent)
    (listed : .method method ∈ tracer.loaded.nodes) (owned : tracer.loaded.Owns method symbol)
    {body : Block Site} (present : method.body = some body) {use : Expr Site}
    {pre post : List WalkStep}
    (split : (Node.block body).walk false = pre ++ .enter (.expr use) :: post) :
    tracer.definitionsOf (some method) use symbol =
      (some ((tracer.effects (tracer.keyOf symbol)).replay pre), some method) := by
  have bodyListed : .block body ∈ tracer.loaded.nodes :=
    LoadedUnit.mem_nodes_of_child listed (method.mem_children_of_body present)
  rw [definitionsOf_uncaptured (capturedFrom?_owned owned), Option.bind_some]
  unfold LoadedUnit.reachingDefinitions effects keyOf
  rw [DefinitionSearch.run_eq_replay present split ⟨use, rfl, rfl⟩, DefinitionSearch.replay_eq]
  rintro s member ⟨e, rfl, same⟩
  have earlier : e.label.number < use.label.number :=
    coherent.number_lt_of_walk bodyListed split member
  exact absurd same (Nat.ne_of_lt earlier)

/-- The verdict on a use of a variable in the method that owns it. -/
theorem classify_owned (coherent : tracer.loaded.Coherent)
    (deep : tracer.loaded.nodes.length < tracer.maxDepth)
    (listed : .method method ∈ tracer.loaded.nodes) (owned : tracer.loaded.Owns method symbol)
    {body : Block Site} (present : method.body = some body) {use : Expr Site}
    (isUse : tracer.loaded.localUse? use = some symbol) {pre post : List WalkStep}
    (split : (Node.block body).walk false = pre ++ .enter (.expr use) :: post) :
    tracer.classify (some method) use =
      (settle (tracer.classify (some method))
        ((tracer.effects (tracer.keyOf symbol)).replay pre)).getD
          (tracer.undefinedUse use symbol) := by
  have held : .expr use ∈ method.bodyNodes := by
    unfold MethodDecl.bodyNodes
    rw [present]
    refine Node.mem_ownNodes_of_enter ?_
    rw [split]
    exact List.mem_append_right _ List.mem_cons_self
  have named := LoadedUnit.namedSymbol?_of_localUse? isUse
  rw [classify_named named, value_traceSymbol_local coherent deep listed held
    (LoadedUnit.isLocalVariable_of_localUse? isUse),
    definitionsOf_owned coherent listed owned present split]
  rfl

end Tracer

end BugPatterns
