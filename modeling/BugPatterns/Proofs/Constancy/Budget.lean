import BugPatterns.Proofs.Constancy.Parts
import BugPatterns.Proofs.Constancy.Scan
import BugPatterns.Proofs.Constancy.Steps
import Mathlib.Data.List.Perm.Subperm
import Mathlib.Data.Nat.Init

/-!
# Enough depth

A trace through local variables goes from uses to earlier uses, and one through fields meets no
field twice, so a trace takes fewer steps than a unit has nodes. With that much depth neither the
depth nor the traces that are active around it matter (`Tracer.value_stable`), and the verdict on a
use of a local variable is the one that the verdicts on its definitions settle
(`Tracer.value_traceSymbol_local`).
-/

namespace BugPatterns

namespace Node

/-- The node as a variable declaration. -/
def varDecl? : Node Site → Option (VarDecl Site)
  | .varDecl decl => some decl
  | _ => none

/-- The node is an expression with a number below a bound. -/
def isExprBelow (bound : Nat) : Node Site → Bool
  | .expr e => e.label.number < bound
  | _ => false

end Node

namespace LoadedUnit

variable {loaded : LoadedUnit}

/-- How many fields there can be. -/
def fieldBound (loaded : LoadedUnit) : Nat := (loaded.nodes.filterMap Node.varDecl?).length

/-- How many uses there can be before the node with a number. -/
def usesBelow (loaded : LoadedUnit) (number : Nat) : Nat :=
  (loaded.nodes.filter (Node.isExprBelow number)).length

theorem usesBelow_lt {u : Expr Site} (listed : .expr u ∈ loaded.nodes) {bound : Nat}
    (below : u.label.number < bound) :
    loaded.usesBelow u.label.number < loaded.usesBelow bound := by
  have earlier : loaded.nodes.filter (Node.isExprBelow u.label.number) =
      (loaded.nodes.filter (Node.isExprBelow bound)).filter
        (Node.isExprBelow u.label.number) := by
    rw [List.filter_filter]
    refine List.filter_congr ?_
    intro n _
    cases n with
    | expr e =>
        rw [Bool.eq_iff_iff]
        simp only [Node.isExprBelow, Bool.and_eq_true, decide_eq_true_eq]
        omega
    | _ => rfl
  rw [usesBelow, usesBelow, earlier, List.length_filter_lt_length_iff_exists]
  refine ⟨.expr u, List.mem_filter.mpr ⟨listed, ?_⟩, ?_⟩
  · simpa [Node.isExprBelow] using below
  · simp [Node.isExprBelow]

/-- The uses before a node and the fields are different nodes of the unit. -/
theorem usesBelow_add_fieldBound_le (loaded : LoadedUnit) (number : Nat) :
    loaded.usesBelow number + loaded.fieldBound ≤ loaded.nodes.length := by
  unfold usesBelow fieldBound
  induction loaded.nodes with
  | nil => simp
  | cons n ns ih =>
      cases n with
      | expr e =>
          rw [List.filterMap_cons_none rfl, List.filter_cons]
          split <;> simp only [List.length_cons] <;> omega
      | varDecl decl =>
          rw [List.filterMap_cons_some (f := Node.varDecl?) rfl,
            List.filter_cons_of_neg (by simp [Node.isExprBelow])]
          simp only [List.length_cons]
          omega
      | _ =>
          rw [List.filterMap_cons_none rfl, List.filter_cons_of_neg (by simp [Node.isExprBelow])]
          simp only [List.length_cons]
          omega

end LoadedUnit

namespace Tracer

variable {tracer : Tracer}

/-- The fields are different and each of them is declared in the unit. -/
structure TracedFields (tracer : Tracer) (fields : List SymbolId) : Prop where
  nodup : fields.Nodup
  bound : ∀ s ∈ fields,
    tracer.loaded.model.symbol? (tracer.loaded.model.symbol s).key = some s
  declared : ∀ s ∈ fields,
    (tracer.loaded.declarations.field? (tracer.loaded.model.symbol s).key).isSome

theorem tracedFields_nil : tracer.TracedFields [] where
  nodup := List.nodup_nil
  bound := by simp
  declared := by simp

/-- No more fields can be active than there are declarations of variables. -/
theorem TracedFields.length_le (coherent : tracer.loaded.Coherent) {fields : List SymbolId}
    (traced : tracer.TracedFields fields) : fields.length ≤ tracer.loaded.fieldBound := by
  have distinct : (fields.map fun s =>
      tracer.loaded.declarations.field? (tracer.loaded.model.symbol s).key).Nodup := by
    refine List.Nodup.map_on (fun s first t second same => ?_) traced.nodup
    obtain ⟨decl, found⟩ := Option.isSome_iff_exists.mp (traced.declared s first)
    obtain ⟨-, -, -, named⟩ := coherent.field_of_field? found
    obtain ⟨-, -, -, other⟩ := coherent.field_of_field? (same ▸ found)
    have keys := Option.some.inj (named.symm.trans other)
    have equal := (traced.bound s first).symm.trans (keys ▸ traced.bound t second)
    exact Option.some.inj equal
  have listed : (fields.map fun s =>
      tracer.loaded.declarations.field? (tracer.loaded.model.symbol s).key) ⊆
        (tracer.loaded.nodes.filterMap Node.varDecl?).map some := by
    intro found member
    obtain ⟨s, first, rfl⟩ := List.mem_map.mp member
    obtain ⟨decl, found⟩ := Option.isSome_iff_exists.mp (traced.declared s first)
    obtain ⟨c, classListed, held, -⟩ := coherent.field_of_field? found
    rw [found]
    refine List.mem_map_of_mem (List.mem_filterMap.mpr ⟨.varDecl decl, ?_, rfl⟩)
    exact LoadedUnit.mem_nodes_of_child classListed (c.mem_children_of_mem_fields held)
  have bounded := (List.subperm_of_subset distinct listed).length_le
  rwa [List.length_map, List.length_map] at bounded

theorem TracedFields.cons {fields : List SymbolId} (traced : tracer.TracedFields fields)
    (coherent : tracer.loaded.Coherent) {use init : Expr Site} {s : SymbolId}
    (bound : tracer.loaded.symbolOf use = some s) (found : tracer.initializer? s = some init)
    (fresh : s ∉ fields) : tracer.TracedFields (s :: fields) where
  nodup := List.nodup_cons.mpr ⟨fresh, traced.nodup⟩
  bound := by
    refine List.forall_mem_cons.mpr ⟨?_, traced.bound⟩
    obtain ⟨key, -, looked⟩ := Option.bind_eq_some_iff.mp bound
    rw [Model.key_of_symbol? coherent.keys looked, looked]
  declared := by
    refine List.forall_mem_cons.mpr ⟨?_, traced.declared⟩
    obtain ⟨decl, looked, -⟩ := Option.bind_eq_some_iff.mp found
    rw [looked]
    rfl

/-- The initializer of a field holds the expression. -/
def HeldByInitializer (tracer : Tracer) (e : Expr Site) : Prop :=
  ∃ key decl, tracer.loaded.declarations.field? key = some decl ∧
    .expr e ∈ (Node.varDecl decl).ownNodes

theorem heldByInitializer_of_initializer? {s : SymbolId} {init : Expr Site}
    (found : tracer.initializer? s = some init) : tracer.HeldByInitializer init := by
  obtain ⟨decl, looked, present⟩ := Option.bind_eq_some_iff.mp found
  refine ⟨_, decl, looked, Node.mem_ownNodes_of_child ?_ rfl⟩
  simp [Node.children, present]

/-- In an initializer, enough depth is one step for each field that is not active. -/
theorem initializer_stable (coherent : tracer.loaded.Coherent) (depth : Nat) :
    ∀ {more : Nat} {uses others : List Nat} {fields : List SymbolId} {e : Expr Site},
      tracer.TracedFields fields → tracer.loaded.fieldBound < depth + fields.length →
      tracer.loaded.fieldBound < more + fields.length →
      (∀ n ∈ uses, ¬ tracer.loaded.InitializerNumber n) →
      (∀ n ∈ others, ¬ tracer.loaded.InitializerNumber n) → tracer.HeldByInitializer e →
      (tracer.traceExpr depth none e).value ⟨uses, fields⟩ =
        (tracer.traceExpr more none e).value ⟨others, fields⟩ := by
  induction depth with
  | zero =>
      intro more uses others fields e traced enough _ _ _ _
      have := traced.length_le coherent
      omega
  | succ depth ih =>
      intro more uses others fields e traced enough moreEnough usesFree othersFree held
      have := traced.length_le coherent
      obtain ⟨more, rfl⟩ : ∃ less, more = less + 1 := ⟨more - 1, by omega⟩
      rw [traceExpr_eq, traceExpr_eq]
      refine judge_rel Verdict.joinRelation_eq (restores_both _ _ _ _) e ?_
      intro u leaf s bound
      obtain ⟨key, decl, declared, inside⟩ := held
      have uInside := Node.ownNodes_trans (mem_ownNodes_of_leaf e u leaf) inside
      have uNumber : tracer.loaded.InitializerNumber u.label.number :=
        ⟨key, decl, _, declared, uInside, rfl⟩
      refine traceSymbol_rel (fun _ => rfl) (fun _ => ?_) ?_
      · rw [value_traceLocal_succ fun again => usesFree _ again uNumber,
          value_traceLocal_succ fun again => othersFree _ again uNumber]
        rfl
      · rcases traceField_cases tracer u s with
          ⟨verdict, fixed⟩ | ⟨noConstant, isFinal, init, found⟩
        · rw [fixed, fixed]
        · by_cases again : s ∈ fields
          · rw [value_traceField_again noConstant isFinal found again,
              value_traceField_again noConstant isFinal found again]
          · rw [value_traceField_succ noConstant isFinal found again,
              value_traceField_succ noConstant isFinal found again]
            congr 1
            have added : (s :: fields).length = fields.length + 1 := rfl
            have inner := traced.cons coherent bound found again
            have enough : tracer.loaded.fieldBound < depth + (s :: fields).length := by omega
            have moreEnough : tracer.loaded.fieldBound < more + (s :: fields).length := by omega
            exact ih inner enough moreEnough usesFree othersFree
              (heldByInitializer_of_initializer? found)

/-- A variable is captured from a method that is declared. -/
theorem declared_of_capturedFrom? {symbol : SymbolId} {context : TraceContext}
    {outer : MethodDecl Site} (captured : tracer.capturedFrom? symbol context = some outer) :
    ∃ key, tracer.loaded.declarations.method? key = some outer := by
  cases context with
  | none => cases captured
  | some method =>
      simp only [capturedFrom?, Option.bind_eq_bind, Option.bind_some] at captured
      obtain ⟨owner, -, looked⟩ := Option.bind_eq_some_iff.mp captured
      split at looked
      · cases looked
      · exact ⟨_, looked⟩

/-- The definitions of a use are found in the method of the context or in one that declares the
    variable. -/
theorem definitionsOf_some {method : MethodDecl Site} {use : Expr Site} {symbol : SymbolId}
    {found : Definitions}
    (reaching : (tracer.definitionsOf (some method) use symbol).1 = some found) :
    ∃ holder, (tracer.definitionsOf (some method) use symbol).2 = some holder ∧
      (holder = method ∨ ∃ key, tracer.loaded.declarations.method? key = some holder) ∧
      ∃ search : DefinitionSearch, search.loaded = tracer.loaded ∧
        search.use = use.label.number ∧ search.run holder = some found := by
  unfold definitionsOf at reaching ⊢
  simp only [Option.bind_some] at reaching ⊢
  generalize direct : tracer.loaded.reachingDefinitions tracer.catalog method _ use = here
    at reaching ⊢
  generalize captured : tracer.capturedFrom? symbol (some method) = outer at reaching ⊢
  split at reaching
  · next holder _ =>
      exact ⟨holder, rfl, Or.inr (declared_of_capturedFrom? captured), _, rfl, rfl, reaching⟩
  · exact ⟨method, rfl, Or.inl rfl, _, rfl, rfl, direct.trans reaching⟩

/-- The values that reach a use in a method are held by a method and end before the use. -/
theorem values_of_definitionsOf (coherent : tracer.loaded.Coherent) {method : MethodDecl Site}
    (listed : .method method ∈ tracer.loaded.nodes) {use : Expr Site} {symbol : SymbolId}
    {found : Definitions}
    (reaching : (tracer.definitionsOf (some method) use symbol).1 = some found) :
    ∃ holder, (tracer.definitionsOf (some method) use symbol).2 = some holder ∧
      .method holder ∈ tracer.loaded.nodes ∧ ∀ e ∈ found.values, .expr e ∈ holder.bodyNodes ∧
        ∀ n ∈ (Node.expr e).ownNodes, n.number < use.label.number := by
  obtain ⟨holder, context, origin, search, same, number, ran⟩ := definitionsOf_some reaching
  have holderListed : .method holder ∈ tracer.loaded.nodes := by
    rcases origin with rfl | ⟨key, looked⟩
    · exact listed
    · exact coherent.mem_nodes_of_method? looked
  refine ⟨holder, context, holderListed, fun e held => ?_⟩
  rw [← number]
  rw [← same] at coherent holderListed
  exact DefinitionSearch.values_before_use coherent holderListed ran held

/-- The method of the context, if there is one, is part of the unit. -/
def InUnit (tracer : Tracer) (context : TraceContext) : Prop :=
  ∀ method ∈ context, .method method ∈ tracer.loaded.nodes

/-- What reaches a use is part of the unit, and so is the method that it is judged in. -/
theorem InUnit.of_definitionsOf (coherent : tracer.loaded.Coherent) {context : TraceContext}
    (listed : tracer.InUnit context) {use : Expr Site} {symbol : SymbolId} {found : Definitions}
    (reaching : (tracer.definitionsOf context use symbol).1 = some found) :
    tracer.InUnit (tracer.definitionsOf context use symbol).2 ∧
      ∀ e ∈ found.values, .expr e ∈ tracer.loaded.nodes := by
  cases context with
  | none => cases reaching
  | some method =>
      obtain ⟨holder, inner, holderListed, held⟩ :=
        values_of_definitionsOf coherent (listed method rfl) reaching
      constructor
      · rw [inner]
        rintro _ ⟨rfl⟩
        exact holderListed
      · exact fun e member => LoadedUnit.mem_nodes_of_bodyNode holderListed (held e member).1

/-- The traced uses come no earlier than a bound, and none of them is part of an initializer. -/
def UsesFrom (tracer : Tracer) (bound : Nat) (uses : List Nat) : Prop :=
  ∀ n ∈ uses, bound ≤ n ∧ ¬ tracer.loaded.InitializerNumber n

/-- In a method, enough depth is one step for each earlier use and one for each field. -/
theorem value_stable (coherent : tracer.loaded.Coherent) (bound : Nat) :
    ∀ {depth more : Nat} {uses others : List Nat} {method : MethodDecl Site} {e : Expr Site},
      .method method ∈ tracer.loaded.nodes → .expr e ∈ method.bodyNodes →
      (∀ n ∈ (Node.expr e).ownNodes, n.number < bound) →
      tracer.loaded.usesBelow bound + tracer.loaded.fieldBound < depth →
      tracer.loaded.usesBelow bound + tracer.loaded.fieldBound < more →
      tracer.UsesFrom bound uses → tracer.UsesFrom bound others →
      (tracer.traceExpr depth (some method) e).value ⟨uses, []⟩ =
        (tracer.traceExpr more (some method) e).value ⟨others, []⟩ := by
  induction bound using Nat.strong_induction_on with
  | _ bound ih =>
      intro depth more uses others method e listed held below enough moreEnough usesFrom othersFrom
      obtain ⟨depth, rfl⟩ : ∃ less, depth = less + 1 := ⟨depth - 1, by omega⟩
      obtain ⟨more, rfl⟩ : ∃ less, more = less + 1 := ⟨more - 1, by omega⟩
      rw [traceExpr_eq, traceExpr_eq]
      refine judge_rel Verdict.joinRelation_eq (restores_both _ _ _ _) e ?_
      intro u leaf s symbolOf
      have own := mem_ownNodes_of_leaf e u leaf
      have uBelow : u.label.number < bound := below _ own
      have uHeld := MethodDecl.mem_bodyNodes_trans held own
      have uFree := coherent.not_initializerNumber listed uHeld
      have uLess := LoadedUnit.usesBelow_lt (LoadedUnit.mem_nodes_of_bodyNode listed uHeld) uBelow
      have fresh {active : List Nat} (from' : tracer.UsesFrom bound active) :
          u.label.number ∉ active := fun again => by
        have := (from' _ again).1
        omega
      have entered {active : List Nat} (from' : tracer.UsesFrom bound active) :
          tracer.UsesFrom u.label.number (u.label.number :: active) :=
        List.forall_mem_cons.mpr ⟨⟨Nat.le_refl _, uFree⟩, fun n member =>
          ⟨Nat.le_trans (Nat.le_of_lt uBelow) (from' n member).1, (from' n member).2⟩⟩
      refine traceSymbol_rel (fun _ => rfl) (fun _ => ?_) ?_
      · rw [value_traceLocal_succ (fresh usesFrom), value_traceLocal_succ (fresh othersFrom)]
        refine settle_rel Verdict.joinRelation_eq ?_
        intro found reaching d part
        obtain ⟨holder, context, holderListed, placed⟩ :=
          values_of_definitionsOf coherent listed reaching
        obtain ⟨dHeld, dBelow⟩ := placed d (found.mem_values part)
        rw [context]
        exact ih _ uBelow holderListed dHeld dBelow (by omega) (by omega) (entered usesFrom)
          (entered othersFrom)
      · rcases traceField_cases tracer u s with
          ⟨verdict, fixed⟩ | ⟨noConstant, isFinal, init, found⟩
        · rw [fixed, fixed]
        · rw [value_traceField_succ noConstant isFinal found List.not_mem_nil,
            value_traceField_succ noConstant isFinal found List.not_mem_nil]
          congr 1
          have traced := tracedFields_nil.cons coherent symbolOf found List.not_mem_nil
          exact initializer_stable coherent _ traced (by simp; omega) (by simp; omega)
            (fun n member => (usesFrom n member).2) (fun n member => (othersFrom n member).2)
            (heldByInitializer_of_initializer? found)

/-- The verdict on a use of a symbol that is no local variable depends on no method. -/
theorem traceSymbol_of_not_local {step : Option TraceStep} {use : Expr Site} {symbol : SymbolId}
    (noLocal : tracer.loaded.model.isLocalVariable symbol = false) (context : TraceContext) :
    tracer.traceSymbol step context use symbol = tracer.traceSymbol step none use symbol := by
  simp [traceSymbol, noLocal]

theorem traceSymbol_of_local {step : Option TraceStep} {context : TraceContext} {use : Expr Site}
    {symbol : SymbolId} (isLocal : tracer.loaded.model.isLocalVariable symbol = true) :
    tracer.traceSymbol step context use symbol = tracer.traceLocal step context use symbol := by
  have parts := isLocal
  simp only [Model.isLocalVariable, Bool.and_eq_true, decide_eq_true_eq, Bool.not_eq_true'] at parts
  obtain ⟨⟨kind, -⟩, noParameter⟩ := parts
  simp [traceSymbol, isLocal, noParameter, Model.isTypeSymbol, kind]

/-- The verdict on an expression is composed from the verdicts on its parts. -/
theorem classify_eq_compose (tracer : Tracer) (context : TraceContext) (e : Expr Site) :
    tracer.classify context e =
      tracer.compose
        (fun u s => (tracer.traceSymbol (tracer.deeper tracer.maxDepth) context u s).value .idle)
        (tracer.classify context) e := by
  rw [classify_eq_value, traceExpr_eq, value_judge fun u s => restores_deeper _ _ u s]
  congr 1
  funext part
  rw [classify_eq_value, traceExpr_eq]

theorem classify_named {context : TraceContext} {e : Expr Site} {symbol : SymbolId}
    (named : tracer.loaded.namedSymbol? e = some symbol) :
    tracer.classify context e =
      (tracer.traceSymbol (tracer.deeper tracer.maxDepth) context e symbol).value .idle := by
  rw [classify_eq_compose, compose_named named]

/-- The verdict on a use of a local variable is the one that the verdicts on its definitions settle,
    if there is more depth than the unit has nodes. -/
theorem value_traceSymbol_local (coherent : tracer.loaded.Coherent)
    (deep : tracer.loaded.nodes.length < tracer.maxDepth) {method : MethodDecl Site}
    (listed : .method method ∈ tracer.loaded.nodes) {use : Expr Site}
    (held : .expr use ∈ method.bodyNodes) {symbol : SymbolId}
    (isLocal : tracer.loaded.model.isLocalVariable symbol = true) :
    (tracer.traceSymbol (tracer.deeper tracer.maxDepth) (some method) use symbol).value .idle =
      (((tracer.definitionsOf (some method) use symbol).1.bind
        (settle (tracer.classify (tracer.definitionsOf (some method) use symbol).2))).getD
        (tracer.undefinedUse use symbol)) := by
  obtain ⟨depth, enough⟩ : ∃ depth, tracer.maxDepth = depth + 1 := ⟨tracer.maxDepth - 1, by omega⟩
  have useListed := LoadedUnit.mem_nodes_of_bodyNode listed held
  have useBelow := LoadedUnit.usesBelow_lt useListed (coherent.number_lt useListed)
  have budget := tracer.loaded.usesBelow_add_fieldBound_le tracer.loaded.nodes.length
  rw [traceSymbol_of_local isLocal, enough, value_traceLocal_succ List.not_mem_nil]
  refine settle_rel Verdict.joinRelation_eq ?_
  intro found reaching d part
  obtain ⟨holder, context, holderListed, placed⟩ :=
    values_of_definitionsOf coherent listed reaching
  obtain ⟨dHeld, dBelow⟩ := placed d (found.mem_values part)
  rw [context, classify_eq_value]
  refine value_stable coherent _ holderListed dHeld dBelow (by omega) (by omega) ?_ ?_
  · exact List.forall_mem_cons.mpr
      ⟨⟨Nat.le_refl _, coherent.not_initializerNumber listed held⟩, List.forall_mem_nil _⟩
  · exact List.forall_mem_nil _

end Tracer

end BugPatterns
