import BugPatterns.Catalog.Builtin
import BugPatterns.Proofs.Constancy.Leaves
import Mathlib.Logic.Relation

/-!
# Fields with circular initializers

A final field is traced to the fields that its initializer reads, and so on; a field that is met
again on the way adds nothing. The verdict is nevertheless about all fields that can be reached, on
whichever paths: a use of a field without a constant is constant just if every field that is reached
from it is clean by itself (`Tracer.classify_field_iff`). So all fields of a circle have one
verdict.

The trace that is inside some fields follows the paths that avoid them. What is reached from a field
is the field itself and what is reached from its successors on paths that do not come back to it
(`Relation.avoiding_cases`), which is one step of the trace.
-/

namespace BugPatterns

/-! ## Paths that avoid nodes -/

namespace Reach

variable {α : Type} {r : α → α → Prop}

/-- An edge that does not lead to any of some nodes. -/
def Avoiding (r : α → α → Prop) (avoided : List α) (a b : α) : Prop := r a b ∧ b ∉ avoided

theorem avoiding_nil : Avoiding r [] = r := by
  funext a b
  simp [Avoiding]

theorem Avoiding.tail {avoided : List α} {a b c : α} (edge : Avoiding r (c :: avoided) a b) :
    Avoiding r avoided a b :=
  ⟨edge.1, fun member => edge.2 (List.mem_cons_of_mem _ member)⟩

/-- A path that leaves a node can leave it for good. -/
theorem avoiding_cases {avoided : List α} {a c : α}
    (path : Relation.ReflTransGen (Avoiding r avoided) a c) :
    c = a ∨ ∃ b, Avoiding r (a :: avoided) a b ∧
      Relation.ReflTransGen (Avoiding r (a :: avoided)) b c := by
  induction path with
  | refl => exact Or.inl rfl
  | @tail b c _ edge ih =>
      by_cases back : c = a
      · exact Or.inl back
      · have onward : Avoiding r (a :: avoided) b c :=
          ⟨edge.1, fun member => (List.mem_cons.mp member).elim back edge.2⟩
        rcases ih with rfl | ⟨first, start, rest⟩
        · exact Or.inr ⟨c, onward, .refl⟩
        · exact Or.inr ⟨first, start, rest.tail onward⟩

/-- Something holds of all that is reached from a node if it holds of the node, and of all that is
    reached from its successors without coming back. -/
theorem forall_avoiding_iff {avoided : List α} {a : α} {holds : α → Prop} :
    (∀ c, Relation.ReflTransGen (Avoiding r avoided) a c → holds c) ↔
      holds a ∧ ∀ b, Avoiding r (a :: avoided) a b →
        ∀ c, Relation.ReflTransGen (Avoiding r (a :: avoided)) b c → holds c := by
  constructor
  · intro all
    refine ⟨all a .refl, fun b edge c path => all c ?_⟩
    have wider := Relation.ReflTransGen.mono (fun _ _ => Avoiding.tail) _ _ path
    exact wider.head edge.tail
  · rintro ⟨self, others⟩ c path
    rcases avoiding_cases path with rfl | ⟨b, edge, rest⟩
    · exact self
    · exact others b edge c rest

end Reach

/-! ## Uses of fields -/

namespace LoadedUnit

/-- The field that an expression is a use of. -/
def fieldUse? (loaded : LoadedUnit) (e : Expr Site) : Option SymbolId :=
  (loaded.namedSymbol? e).filter loaded.model.isField

theorem namedSymbol?_of_fieldUse? {loaded : LoadedUnit} {e : Expr Site} {symbol : SymbolId}
    (isUse : loaded.fieldUse? e = some symbol) : loaded.namedSymbol? e = some symbol :=
  (Option.filter_eq_some_iff.mp isUse).1

theorem isField_of_fieldUse? {loaded : LoadedUnit} {e : Expr Site} {symbol : SymbolId}
    (isUse : loaded.fieldUse? e = some symbol) : loaded.model.isField symbol = true :=
  (Option.filter_eq_some_iff.mp isUse).2

/-- What a name is bound to is a symbol of the model. -/
theorem Coherent.symbol_lt_of_namedSymbol? {loaded : LoadedUnit} (coherent : loaded.Coherent)
    {e : Expr Site} {symbol : SymbolId} (named : loaded.namedSymbol? e = some symbol) :
    symbol.index < loaded.model.symbolCount := by
  have bound : loaded.symbolOf e = some symbol := by
    cases e with
    | ident | select => exact named
    | _ => cases named
  obtain ⟨key, -, looked⟩ := Option.bind_eq_some_iff.mp bound
  obtain ⟨info, present, -⟩ := coherent.keys key symbol (Model.mem_of_lookup_eq_some looked)
  exact (Array.getElem?_eq_some_iff.mp present).1

end LoadedUnit

namespace Tracer

variable {tracer : Tracer}

/-- The field is final, has no constant, and is traced to that initializer. -/
structure TracedTo (tracer : Tracer) (symbol : SymbolId) (init : Expr Site) : Prop where
  noConstant : (tracer.loaded.model.symbol symbol).constant.isSome = false
  isFinal : (tracer.loaded.model.symbol symbol).isFinal = true
  found : tracer.initializer? symbol = some init

/-- The initializer that a field is traced to has a use of the other field among its leaves. -/
def ReadsField (tracer : Tracer) (a b : SymbolId) : Prop :=
  ∃ init, tracer.TracedTo a init ∧ ∃ u ∈ tracer.leaves init, tracer.loaded.fieldUse? u = some b

instance (tracer : Tracer) (a b : SymbolId) : Decidable (tracer.ReadsField a b) :=
  decidable_of_iff
    (((tracer.loaded.model.symbol a).constant.isSome = false ∧
      (tracer.loaded.model.symbol a).isFinal = true) ∧
      (tracer.initializer? a).any fun init =>
        (tracer.leaves init).any fun u => tracer.loaded.fieldUse? u = some b) (by
      simp only [Option.any_eq_true, List.any_eq_true, decide_eq_true_eq]
      constructor
      · rintro ⟨⟨noConstant, isFinal⟩, init, found, reads⟩
        exact ⟨init, ⟨noConstant, isFinal, found⟩, reads⟩
      · rintro ⟨init, traced, reads⟩
        exact ⟨⟨traced.noConstant, traced.isFinal⟩, init, traced.found, reads⟩)

/-- The field has a constant; or it is final and all leaves of its initializer that are no uses of
    fields are constant, judged in no method. -/
def CleanField (tracer : Tracer) (symbol : SymbolId) : Prop :=
  (tracer.loaded.model.symbol symbol).constant.isSome ∨
    (tracer.loaded.model.symbol symbol).isFinal ∧
      ∃ init, tracer.initializer? symbol = some init ∧
        ∀ u ∈ tracer.leaves init, tracer.loaded.fieldUse? u = none →
          (tracer.classify none u).constancy = .staticConstant

/-- A use of a field is traced as one. -/
theorem traceSymbol_of_field {step : Option TraceStep} {context : TraceContext} {use : Expr Site}
    {symbol : SymbolId} (isField : tracer.loaded.model.isField symbol = true) :
    tracer.traceSymbol step context use symbol = tracer.traceField step use symbol := by
  have parts := isField
  simp only [Model.isField, Bool.and_eq_true, decide_eq_true_eq, Option.any_eq_true] at parts
  obtain ⟨kind, owner, owned, ofType⟩ := parts
  have ofType : (tracer.loaded.model.symbol owner).kind = .type := by
    simpa [Model.isTypeSymbol] using ofType
  simp [traceSymbol, isField, Model.isTypeSymbol, Model.isParameter, Model.isLocalVariable,
    Model.isMethodSymbol, kind, owned, ofType]

theorem value_traceExpr_of_field {use : Expr Site} {symbol : SymbolId}
    (isUse : tracer.loaded.fieldUse? use = some symbol) (depth : Nat) (context : TraceContext)
    (active : ActiveTraces) :
    (tracer.traceExpr depth context use).value active =
      (tracer.traceField (tracer.deeper depth) use symbol).value active := by
  rw [traceExpr_eq, value_judge fun u s => restores_deeper depth context u s,
    compose_named (LoadedUnit.namedSymbol?_of_fieldUse? isUse),
    traceSymbol_of_field (LoadedUnit.isField_of_fieldUse? isUse)]

/-! ## Leaves -/

/-- An expression is bound to a symbol that decides on it, or its verdict is fixed. -/
def Ends (tracer : Tracer) (u : Expr Site) : Prop :=
  ∃ verdict, ∀ onSymbol, tracer.judge onSymbol u =
    match tracer.loaded.namedSymbol? u with
    | some symbol => onSymbol u symbol
    | none => pure verdict

mutual

/-- A trace ends at a leaf, unless it goes on at a symbol. -/
theorem ends_of_leaf (e : Expr Site) : ∀ u ∈ tracer.leaves e, tracer.Ends u := by
  intro u leaf
  cases e with
  | literal =>
      obtain rfl := List.mem_singleton.mp leaf
      exact ⟨.constant, fun _ => rfl⟩
  | index =>
      obtain rfl := List.mem_singleton.mp leaf
      exact ⟨_, fun _ => rfl⟩
  | ident label name symbol type =>
      obtain rfl := List.mem_singleton.mp leaf
      refine ⟨Expr.blame (.ident label name symbol type) name .unresolved, fun onSymbol => ?_⟩
      rw [judge]
      rfl
  | select label target name symbol type =>
      obtain rfl := List.mem_singleton.mp leaf
      refine ⟨Expr.blame (.select label target name symbol type) name .unresolved, fun _ => ?_⟩
      rw [judge]
      rfl
  | paren _ inner _ => exact ends_of_leaf inner u leaf
  | cast _ operand _ => exact ends_of_leaf operand u leaf
  | unary _ _ operand _ => exact ends_of_leaf operand u leaf
  | assign _ _ _ value _ => exact ends_of_leaf value u leaf
  | binary _ _ lhs rhs _ =>
      rcases List.mem_append.mp leaf with leaf | leaf
      · exact ends_of_leaf lhs u leaf
      · exact ends_of_leaf rhs u leaf
  | conditional _ _ whenTrue whenFalse _ =>
      rcases List.mem_append.mp leaf with leaf | leaf
      · exact ends_of_leaf whenTrue u leaf
      · exact ends_of_leaf whenFalse u leaf
  | call label callee args symbol type =>
      simp only [leaves] at leaf
      split at leaf
      · next known =>
          obtain rfl := List.mem_singleton.mp leaf
          refine ⟨.safe, fun _ => ?_⟩
          simp only [judge, known]
          rfl
      · rcases List.mem_append.mp leaf with leaf | leaf
        · exact ends_of_receiverLeaf callee u leaf
        · exact ends_of_allLeaves args u leaf
      · next unknown =>
          obtain rfl := List.mem_singleton.mp leaf
          refine ⟨Expr.blame (.call label callee args symbol type)
            (Expr.describe (.call label callee args symbol type)) .call, fun _ => ?_⟩
          simp only [judge, unknown]
          rfl
  | creation label args body symbol type =>
      simp only [leaves] at leaf
      split at leaf
      · exact ends_of_allLeaves args u leaf
      · next other =>
          obtain rfl := List.mem_singleton.mp leaf
          refine ⟨Expr.blame (.creation label args body symbol type)
            (Expr.describe (.creation label args body symbol type)) .call, fun _ => ?_⟩
          rw [judge, if_neg other]
          rfl

theorem ends_of_receiverLeaf (callee : Expr Site) :
    ∀ u ∈ tracer.receiverLeaves callee, tracer.Ends u := by
  intro u leaf
  cases callee with
  | select _ target _ _ _ => exact ends_of_leaf target u leaf
  | _ => cases leaf

theorem ends_of_allLeaves (es : List (Expr Site)) : ∀ u ∈ tracer.allLeaves es, tracer.Ends u := by
  intro u leaf
  cases es with
  | nil => cases leaf
  | cons e es =>
      rcases List.mem_append.mp leaf with leaf | leaf
      · exact ends_of_leaf e u leaf
      · exact ends_of_allLeaves es u leaf

end

/-- In no method, a symbol that is no field has one verdict however it is traced. -/
theorem traceSymbol_fixed {symbol : SymbolId}
    (noField : tracer.loaded.model.isField symbol = false) (use : Expr Site) :
    ∃ verdict, ∀ depth fields,
      (tracer.traceSymbol (tracer.deeper depth) none use symbol).value ⟨[], fields⟩ = verdict := by
  by_cases isType : tracer.loaded.model.isTypeSymbol symbol = true
  · exact ⟨.constant, fun depth fields => by simp only [traceSymbol, if_pos isType]; rfl⟩
  by_cases isParameter : tracer.loaded.model.isParameter symbol = true
  · refine ⟨use.blame (tracer.loaded.model.symbol symbol).name .parameter, fun depth fields => ?_⟩
    simp only [traceSymbol, if_neg isType, if_pos isParameter]
    rfl
  by_cases isLocal : tracer.loaded.model.isLocalVariable symbol = true
  · -- outside of all methods no definition reaches a local variable
    refine ⟨tracer.undefinedUse use symbol, fun depth fields => ?_⟩
    rw [traceSymbol_of_local isLocal]
    cases depth with
    | zero => rfl
    | succ depth =>
        rw [value_traceLocal_succ List.not_mem_nil]
        rfl
  · refine ⟨use.blame (tracer.loaded.model.symbol symbol).name .unresolved, fun depth fields => ?_⟩
    simp only [traceSymbol, if_neg isType, if_neg isParameter, if_neg isLocal, noField]
    rfl

/-- In no method, a leaf that is no use of a field has one verdict however it is traced. -/
theorem value_leaf_fixed {u : Expr Site} (ends : tracer.Ends u)
    (noField : tracer.loaded.fieldUse? u = none) (depth : Nat) (fields : List SymbolId) :
    (tracer.traceExpr depth none u).value ⟨[], fields⟩ = tracer.classify none u := by
  have fixed : ∃ verdict, ∀ depth fields,
      (tracer.traceExpr depth none u).value ⟨[], fields⟩ = verdict := by
    obtain ⟨verdict, ends⟩ := ends
    cases named : tracer.loaded.namedSymbol? u with
    | none =>
        refine ⟨verdict, fun depth fields => ?_⟩
        rw [traceExpr_eq, ends, named]
        rfl
    | some symbol =>
        have other : tracer.loaded.model.isField symbol = false := by
          simpa [LoadedUnit.fieldUse?, named, Option.filter] using noField
        obtain ⟨verdict, traced⟩ := traceSymbol_fixed other u
        refine ⟨verdict, fun depth fields => ?_⟩
        rw [traceExpr_eq, ends, named]
        exact traced depth fields
  obtain ⟨verdict, fixed⟩ := fixed
  rw [fixed, classify_eq_value, ActiveTraces.idle, fixed]

/-! ## Traces inside fields -/

/-- The fields that a trace is inside of: they differ, belong to the model, and are traced to
    initializers. -/
structure Inside (tracer : Tracer) (fields : List SymbolId) : Prop where
  nodup : fields.Nodup
  known : ∀ s ∈ fields, s.index < tracer.loaded.model.symbolCount
  traced : ∀ s ∈ fields, ∃ init, tracer.TracedTo s init

theorem inside_nil : tracer.Inside [] where
  nodup := List.nodup_nil
  known := by simp
  traced := by simp

theorem Inside.cons {fields : List SymbolId} (inside : tracer.Inside fields) {s : SymbolId}
    {init : Expr Site} (known : s.index < tracer.loaded.model.symbolCount)
    (traced : tracer.TracedTo s init) (fresh : s ∉ fields) : tracer.Inside (s :: fields) where
  nodup := List.nodup_cons.mpr ⟨fresh, inside.nodup⟩
  known := List.forall_mem_cons.mpr ⟨known, inside.known⟩
  traced := List.forall_mem_cons.mpr ⟨⟨init, traced⟩, inside.traced⟩

/-- A trace is inside no more fields than there are symbols. -/
theorem Inside.length_le {fields : List SymbolId} (inside : tracer.Inside fields) :
    fields.length ≤ tracer.loaded.model.symbolCount := by
  have distinct : (fields.map SymbolId.index).Nodup := by
    refine List.Nodup.map ?_ inside.nodup
    rintro ⟨i⟩ ⟨j⟩ same
    exact congrArg SymbolId.mk same
  have below : fields.map SymbolId.index ⊆ List.range tracer.loaded.model.symbolCount := by
    intro i member
    obtain ⟨s, listed, rfl⟩ := List.mem_map.mp member
    exact List.mem_range.mpr (inside.known s listed)
  have bounded := (List.subperm_of_subset distinct below).length_le
  rwa [List.length_map, List.length_range] at bounded

theorem constancy_clearField {blamed verdict : Verdict} (self : blamed.constancy = .dynamicUnsafe) :
    (clearField blamed verdict).constancy = .staticConstant ↔
      verdict.constancy = .staticConstant := by
  unfold clearField
  split
  · exact Iff.rfl
  · next other => simp [self, other]

theorem TracedTo.clean_iff {s : SymbolId} {init : Expr Site} (traced : tracer.TracedTo s init) :
    tracer.CleanField s ↔ ∀ u ∈ tracer.leaves init, tracer.loaded.fieldUse? u = none →
      (tracer.classify none u).constancy = .staticConstant := by
  simp [CleanField, traced.noConstant, traced.isFinal, traced.found]

/-- A clean field without a constant is traced to its initializer. -/
theorem tracedTo_of_clean {s : SymbolId} (clean : tracer.CleanField s)
    (noConstant : (tracer.loaded.model.symbol s).constant.isSome = false) :
    ∃ init, tracer.TracedTo s init := by
  rcases clean with constant | ⟨isFinal, init, found, -⟩
  · rw [noConstant] at constant
    cases constant
  · exact ⟨init, noConstant, isFinal, found⟩

theorem blocked_of_not_traced {s : SymbolId}
    (noConstant : (tracer.loaded.model.symbol s).constant.isSome = false)
    (absent : ¬ ∃ init, tracer.TracedTo s init) :
    (tracer.loaded.model.symbol s).isFinal = false ∨ tracer.initializer? s = none := by
  by_cases isFinal : (tracer.loaded.model.symbol s).isFinal = true
  · cases found : tracer.initializer? s with
    | none => exact Or.inr rfl
    | some init => exact absurd ⟨init, noConstant, isFinal, found⟩ absent
  · exact Or.inl (Bool.eq_false_iff.mpr isFinal)

/-- A trace inside some fields clears a field just if all is clean that is reached from it on paths
    that avoid these fields. -/
theorem traceField_constant_iff (coherent : tracer.loaded.Coherent) (depth : Nat) :
    ∀ {fields : List SymbolId} {use : Expr Site} {s : SymbolId}, tracer.Inside fields →
      tracer.loaded.model.symbolCount < depth + fields.length →
      s.index < tracer.loaded.model.symbolCount → s ∉ fields →
      (((tracer.traceField (tracer.deeper depth) use s).value ⟨[], fields⟩).constancy =
          .staticConstant ↔
        ∀ g, Relation.ReflTransGen (Reach.Avoiding tracer.ReadsField fields) s g →
          tracer.CleanField g) := by
  induction depth with
  | zero =>
      intro fields use s inside enough _ _
      have := inside.length_le
      omega
  | succ depth ih =>
      intro fields use s inside enough known fresh
      rw [Reach.forall_avoiding_iff]
      by_cases constant : (tracer.loaded.model.symbol s).constant.isSome
      · -- a field with a constant is clean and leads nowhere
        rw [value_traceField_constant constant]
        refine iff_of_true rfl ⟨Or.inl constant, ?_⟩
        rintro b ⟨⟨init, traced, -⟩, -⟩
        rw [traced.noConstant] at constant
        cases constant
      have noConstant := Bool.eq_false_iff.mpr constant
      by_cases goesOn : ∃ init, tracer.TracedTo s init
      · obtain ⟨init, traced⟩ := goesOn
        have inner := inside.cons known traced fresh
        have added : (s :: fields).length = fields.length + 1 := rfl
        have bounded := inner.length_le
        rw [value_traceField_succ noConstant traced.isFinal traced.found fresh,
          constancy_clearField rfl, (traceExpr_firstWorst depth none init _).staticConstant_iff,
          List.forall_mem_map, traced.clean_iff]
        -- a leaf counts for the field itself, or for what one of its successors leads to
        have onField {u : Expr Site} {b : SymbolId}
            (isUse : tracer.loaded.fieldUse? u = some b) :
            ((tracer.traceExpr depth none u).value ⟨[], s :: fields⟩).constancy =
                .staticConstant ↔
              (b ∉ s :: fields → ∀ g,
                Relation.ReflTransGen (Reach.Avoiding tracer.ReadsField (s :: fields)) b g →
                  tracer.CleanField g) := by
          rw [value_traceExpr_of_field isUse]
          by_cases again : b ∈ s :: fields
          · obtain ⟨less, rfl⟩ : ∃ less, depth = less + 1 := ⟨depth - 1, by omega⟩
            obtain ⟨other, met⟩ := inner.traced b again
            rw [value_traceField_again met.noConstant met.isFinal met.found again]
            exact iff_of_true rfl fun absent => absurd again absent
          · have listed := coherent.symbol_lt_of_namedSymbol?
              (LoadedUnit.namedSymbol?_of_fieldUse? isUse)
            rw [ih inner (by omega) listed again]
            exact ⟨fun clean _ => clean, fun clean => clean again⟩
        constructor
        · intro each
          refine ⟨fun u leaf noField => ?_, ?_⟩
          · rw [← value_leaf_fixed (ends_of_leaf init u leaf) noField]
            exact each u leaf
          · rintro b ⟨⟨other, reads, u, leaf, isUse⟩, absent⟩
            obtain rfl : other = init := Option.some.inj (reads.found.symm.trans traced.found)
            exact (onField isUse).mp (each u leaf) absent
        · rintro ⟨self, others⟩ u leaf
          cases isUse : tracer.loaded.fieldUse? u with
          | none =>
              rw [value_leaf_fixed (ends_of_leaf init u leaf) isUse]
              exact self u leaf isUse
          | some b =>
              refine (onField isUse).mpr fun absent => ?_
              exact others b ⟨⟨init, traced, u, leaf, isUse⟩, absent⟩
      · have stays := blocked_of_not_traced noConstant goesOn
        rw [value_traceField_blamed noConstant (stays.imp_right Or.inr)]
        refine iff_of_false (by simp [unsafeField, Expr.blame, Verdict.blame]) ?_
        rintro ⟨clean, -⟩
        exact goesOn (tracedTo_of_clean clean noConstant)

/-- A field that is not cleared is to blame itself, whatever its initializer is built from. -/
theorem traceField_of_dynamic {depth : Nat} {active : ActiveTraces} {use : Expr Site}
    {s : SymbolId} (fresh : s ∉ active.fields)
    (dynamic : ((tracer.traceField (tracer.deeper depth) use s).value active).constancy ≠
      .staticConstant) :
    (tracer.traceField (tracer.deeper depth) use s).value active = tracer.unsafeField use s := by
  by_cases constant : (tracer.loaded.model.symbol s).constant.isSome
  · rw [value_traceField_constant constant] at dynamic
    exact absurd rfl dynamic
  have noConstant := Bool.eq_false_iff.mpr constant
  by_cases goesOn : ∃ init, tracer.TracedTo s init
  · obtain ⟨init, traced⟩ := goesOn
    cases depth with
    | zero => exact value_traceField_blamed noConstant (Or.inr (Or.inl deeper_zero))
    | succ depth =>
        rw [value_traceField_succ noConstant traced.isFinal traced.found fresh] at dynamic ⊢
        rw [ne_eq, constancy_clearField rfl] at dynamic
        exact if_neg dynamic
  · have stays := blocked_of_not_traced noConstant goesOn
    exact value_traceField_blamed noConstant (stays.imp_right Or.inr)

theorem classify_field_of_dynamic {use : Expr Site} {s : SymbolId}
    (isUse : tracer.loaded.fieldUse? use = some s) {context : TraceContext}
    (dynamic : (tracer.classify context use).constancy ≠ .staticConstant) :
    tracer.classify context use = tracer.unsafeField use s := by
  rw [classify_eq_value, value_traceExpr_of_field isUse] at dynamic ⊢
  exact traceField_of_dynamic List.not_mem_nil dynamic

/-- A use of a field without a constant is constant just if the field is final and all fields that
    are reached from it are clean by themselves; otherwise the field itself is to blame. Fields of
    one circle have one verdict, whichever of them a trace comes to first. -/
theorem classify_field_iff {document : UnitDocument}
    (made : LoadedUnit.ofDocument document = .ok tracer.loaded)
    (deep : tracer.loaded.model.symbolCount < tracer.maxDepth) {use : Expr Site} {s : SymbolId}
    (isUse : tracer.loaded.fieldUse? use = some s)
    (noConstant : (tracer.loaded.model.symbol s).constant = none) (context : TraceContext) :
    ((tracer.classify context use).constancy = .staticConstant ↔
      (tracer.loaded.model.symbol s).isFinal ∧
        ∀ g, Relation.ReflTransGen tracer.ReadsField s g → tracer.CleanField g) ∧
    ((tracer.classify context use).constancy ≠ .staticConstant →
      tracer.classify context use =
        use.blame (tracer.loaded.model.symbol s).name .field) ∧
    ∀ {other : Expr Site} {t : SymbolId}, tracer.loaded.fieldUse? other = some t →
      Relation.ReflTransGen tracer.ReadsField s t → Relation.ReflTransGen tracer.ReadsField t s →
        ∀ otherContext, (tracer.classify otherContext other).constancy =
          (tracer.classify context use).constancy := by
  have coherent := LoadedUnit.coherent_ofDocument made
  have decides {u : Expr Site} {f : SymbolId} (isUse : tracer.loaded.fieldUse? u = some f)
      (around : TraceContext) : (tracer.classify around u).constancy = .staticConstant ↔
        ∀ g, Relation.ReflTransGen tracer.ReadsField f g → tracer.CleanField g := by
    have listed := coherent.symbol_lt_of_namedSymbol? (LoadedUnit.namedSymbol?_of_fieldUse? isUse)
    rw [classify_eq_value, value_traceExpr_of_field isUse,
      ← Reach.avoiding_nil (r := tracer.ReadsField)]
    exact traceField_constant_iff coherent tracer.maxDepth inside_nil deep listed List.not_mem_nil
  have noConstant : (tracer.loaded.model.symbol s).constant.isSome = false := by
    rw [noConstant]
    rfl
  refine ⟨?_, classify_field_of_dynamic isUse, ?_⟩
  · rw [decides isUse context]
    constructor
    · intro clean
      obtain ⟨init, traced⟩ := tracedTo_of_clean (clean s .refl) noConstant
      exact ⟨traced.isFinal, clean⟩
    · exact And.right
  · intro other t otherUse onward back otherContext
    have same : (tracer.classify otherContext other).constancy = .staticConstant ↔
        (tracer.classify context use).constancy = .staticConstant := by
      rw [decides otherUse, decides isUse]
      constructor
      · intro clean g path
        exact clean g (back.trans path)
      · intro clean g path
        exact clean g (onward.trans path)
    by_cases clean : (tracer.classify context use).constancy = .staticConstant
    · rw [clean, same.mpr clean]
    · have dynamic := mt same.mp clean
      rw [classify_field_of_dynamic isUse clean, classify_field_of_dynamic otherUse dynamic]
      rfl

end Tracer

/-- A class with two final fields, each of which is initialized from the other one. -/
def UnitDocument.circular : UnitDocument where
  model := ⟨[⟨"p.Q", .ordinary, none, [], none,
    [⟨"a", none, .field, false, true, none, none, [], []⟩,
      ⟨"b", none, .field, false, true, none, none, [], []⟩]⟩]⟩
  tree :=
    let use (name : String) : Expr Span := .ident .unknown name (some ("p.Q#" ++ name)) none
    ⟨"Q.java", none, [⟨.unknown, .ordinary, some "Q", some "p.Q",
      [.field ⟨.unknown, "a", some "p.Q#a", none,
          some (.binary .unknown .plus (.literal .unknown .string "x" none) (use "b") none)⟩,
        .field ⟨.unknown, "b", some "p.Q#b", none, some (.paren .unknown (use "a") none)⟩]⟩]⟩

/-- Both fields are cleared, for nothing but constants is met on the circle. -/
theorem Tracer.classify_field_iff_circular : ∃ loaded use s,
    LoadedUnit.ofDocument .circular = .ok loaded ∧ loaded.model.symbolCount < 32 ∧
      loaded.fieldUse? use = some s ∧ (loaded.model.symbol s).constant = none ∧
      (∃ t, t ≠ s ∧ (Tracer.mk loaded .builtin 32).ReadsField s t ∧
        (Tracer.mk loaded .builtin 32).ReadsField t s) ∧
      (Tracer.mk loaded .builtin 32).classify none use = .constant ∧
      (loaded.model.symbol s).isFinal ∧
        ∀ g, Relation.ReflTransGen (Tracer.mk loaded .builtin 32).ReadsField s g →
          (Tracer.mk loaded .builtin 32).CleanField g := by
  have evaluated : ((LoadedUnit.ofDocument .circular).toOption.bind fun loaded =>
      (loaded.declarations.field? "p.Q#a").bind fun a => a.init.bind fun init =>
        ((Tracer.mk loaded .builtin 32).leaves init)[1]?.bind fun use =>
          (loaded.fieldUse? use).bind fun s => (loaded.model.symbol? "p.Q#a").map fun t =>
            decide (loaded.model.symbolCount < 32 ∧ (loaded.model.symbol s).constant = none ∧
              t ≠ s ∧ (Tracer.mk loaded .builtin 32).ReadsField s t ∧
              (Tracer.mk loaded .builtin 32).ReadsField t s ∧
              (Tracer.mk loaded .builtin 32).classify none use = .constant)) = some true := by
    decide +kernel
  obtain ⟨loaded, made, evaluated⟩ := exists_ok_of_toOption_bind evaluated
  obtain ⟨a, -, evaluated⟩ := Option.bind_eq_some_iff.mp evaluated
  obtain ⟨init, -, evaluated⟩ := Option.bind_eq_some_iff.mp evaluated
  obtain ⟨use, -, evaluated⟩ := Option.bind_eq_some_iff.mp evaluated
  obtain ⟨s, isUse, evaluated⟩ := Option.bind_eq_some_iff.mp evaluated
  obtain ⟨t, -, checked⟩ := Option.map_eq_some_iff.mp evaluated
  obtain ⟨few, noConstant, other, onward, back, verdict⟩ := of_decide_eq_true checked
  have decides := @classify_field_iff ⟨loaded, .builtin, 32⟩ .circular made few use s isUse
    noConstant none
  have trusted : ((Tracer.mk loaded .builtin 32).classify none use).constancy =
      .staticConstant := by
    rw [verdict]
    rfl
  exact ⟨loaded, use, s, made, few, isUse, noConstant, ⟨t, other, onward, back⟩, verdict,
    decides.1.mp trusted⟩

end BugPatterns
