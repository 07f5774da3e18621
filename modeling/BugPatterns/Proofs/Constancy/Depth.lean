import BugPatterns.Proofs.Constancy.Alike

/-!
# More depth, more constructors

A verdict that does not blame anything was reached within the depth that was given, and without
blaming a new object for not being built from its arguments. So it stays the same when more depth is
given and when more constructors are known (`Tracer.traceExpr_settledBy`). The two places where a
trace gives up for want of depth both blame the use at hand.
-/

namespace BugPatterns.Tracer

variable {tracer other : Tracer}

open Verdict (SettledBy joinRelation_settledBy)

theorem settledBy_of_isUnsafe {a b : Verdict} (blamed : a.isUnsafe = true) : SettledBy a b := by
  intro harmless
  rw [blamed] at harmless
  cases harmless

theorem settledBy_clearField {unsafeField a b : Verdict} (blamed : unsafeField.isUnsafe = true)
    (settled : SettledBy a b) :
    SettledBy (clearField unsafeField a) (clearField unsafeField b) := by
  unfold clearField
  by_cases constant : a.constancy = .staticConstant
  · have same : b = a := settled (by simp [Verdict.isUnsafe, constant])
    rw [same, if_pos constant]
    intro _
    rfl
  · rw [if_neg constant]
    exact settledBy_of_isUnsafe blamed

/-- The second tracer is of the same unit and knows the same calls, and it knows all constructors
    that the first one knows. -/
structure KnowsFewer (tracer other : Tracer) : Prop where
  loaded : other.loaded = tracer.loaded
  calls : other.catalog.calls = tracer.catalog.calls
  constructors : tracer.catalog.constructors ⊆ other.catalog.constructors

namespace KnowsFewer

theorem refl : tracer.KnowsFewer tracer := ⟨rfl, rfl, List.Subset.refl _⟩

/-- What is built from its arguments still is. -/
theorem constructs (knows : tracer.KnowsFewer other) {creation : Expr Site}
    {body : Option (ClassDecl Site)} (propagates : tracer.constructs creation body = true) :
    other.constructs creation body = true := by
  unfold Tracer.constructs at propagates ⊢
  obtain ⟨noBody, known⟩ := Bool.and_eq_true_iff.mp propagates
  obtain ⟨type, typed, listed⟩ := (Option.any_eq_true _ _).mp known
  rw [noBody, Bool.true_and, knows.loaded]
  refine (Option.any_eq_true _ _).mpr ⟨type, typed, ?_⟩
  exact List.contains_iff_mem.mpr (knows.constructors (List.contains_iff_mem.mp listed))

/-- Only a new object that was blamed may be composed in another way. -/
theorem composesLike (knows : tracer.KnowsFewer other) : ComposesLike SettledBy tracer other where
  loaded := knows.loaded
  effects := callEffect?_congr knows.loaded knows.calls
  constructs creation body := by
    cases propagates : tracer.constructs creation body with
    | true => exact .inl (knows.constructs propagates)
    | false => exact .inr ⟨rfl, fun _ => settledBy_of_isUnsafe rfl⟩

end KnowsFewer

theorem settledBy_traceSymbol (knows : tracer.KnowsFewer other) {depth more : Nat}
    (settled : ∀ {less greater}, depth = less + 1 → more = greater + 1 → ∀ context e active,
      SettledBy ((tracer.traceExpr less context e).value active)
        ((other.traceExpr greater context e).value active))
    (le : depth ≤ more) (context : TraceContext) (use : Expr Site) (symbol : SymbolId)
    (active : ActiveTraces) :
    SettledBy ((tracer.traceSymbol (tracer.deeper depth) context use symbol).value active)
      ((other.traceSymbol (other.deeper more) context use symbol).value active) := by
  have refl (v : Verdict) : SettledBy v v := joinRelation_settledBy.refl v
  have fields : other.traceField = tracer.traceField := traceField_congr knows.loaded
  cases depth with
  | zero =>
      refine traceSymbol_rel_between refl (congrArg _ knows.loaded) (fun _ _ => rfl)
        (fun _ => settledBy_of_isUnsafe rfl) ?_
      rw [fields]
      rcases traceField_cases tracer use symbol with ⟨verdict, fixed⟩ | ⟨noConstant, -, -⟩
      · rw [fixed, fixed]
        exact refl _
      · rw [deeper_zero, value_traceField_blamed noConstant (Or.inr (Or.inl rfl))]
        exact settledBy_of_isUnsafe rfl
  | succ depth =>
      obtain ⟨more, rfl⟩ : ∃ greater, more = greater + 1 := ⟨more - 1, by omega⟩
      refine traceSymbol_rel_between refl (congrArg _ knows.loaded) (fun _ _ => rfl)
        (fun _ => ?_) ?_
      · by_cases fresh : use.label.number ∈ active.uses
        · rw [value_traceLocal_again fresh, value_traceLocal_again fresh]
          exact refl _
        · have undefined : other.undefinedUse use symbol = tracer.undefinedUse use symbol := by
            unfold undefinedUse
            rw [knows.loaded]
          rw [value_traceLocal_succ fresh, value_traceLocal_succ fresh, undefined,
            definitionsOf_congr knows.loaded knows.calls]
          exact settle_rel joinRelation_settledBy fun _ _ e _ => settled rfl rfl _ e _
      · rcases traceField_cases tracer use symbol with
          ⟨verdict, fixed⟩ | ⟨noConstant, isFinal, init, found⟩
        · rw [fields, fixed, fixed]
          exact refl _
        · have model : other.loaded.model = tracer.loaded.model := by rw [knows.loaded]
          have again : other.initializer? symbol = some init := by
            rw [← found, initializer?, initializer?, knows.loaded]
          have unsafeSame : other.unsafeField use symbol = tracer.unsafeField use symbol := by
            rw [unsafeField, unsafeField, model]
          by_cases fresh : symbol ∈ active.fields
          · rw [value_traceField_again noConstant isFinal found fresh,
              value_traceField_again (model ▸ noConstant) (model ▸ isFinal) again fresh]
            exact refl _
          · rw [value_traceField_succ noConstant isFinal found fresh,
              value_traceField_succ (model ▸ noConstant) (model ▸ isFinal) again fresh, unsafeSame]
            exact settledBy_clearField rfl (settled rfl rfl _ _ _)

/-- With more depth and more constructors a trace settles on the verdict it had, unless that one was
    unsafe. -/
theorem traceExpr_settledBy (knows : tracer.KnowsFewer other) (depth : Nat) :
    ∀ {more : Nat}, depth ≤ more → ∀ context e active,
      SettledBy ((tracer.traceExpr depth context e).value active)
        ((other.traceExpr more context e).value active) := by
  have judged {depth more : Nat} (le : depth ≤ more)
      (settled : ∀ {less greater}, depth = less + 1 → more = greater + 1 → ∀ context e active,
        SettledBy ((tracer.traceExpr less context e).value active)
          ((other.traceExpr greater context e).value active)) (context : TraceContext)
      (e : Expr Site) (active : ActiveTraces) :
      SettledBy ((tracer.traceExpr depth context e).value active)
        ((other.traceExpr more context e).value active) := by
    rw [traceExpr_eq, traceExpr_eq]
    exact judge_rel_between joinRelation_settledBy knows.composesLike
      (fun u s => ⟨restores_deeper _ _ u s, restores_deeper _ _ u s⟩) e
      fun u _ s _ => settledBy_traceSymbol knows settled le context u s active
  induction depth with
  | zero => exact fun le => judged le fun absurd => by cases absurd
  | succ depth ih =>
      intro more le
      refine judged le fun same other => ?_
      obtain rfl := Nat.succ.inj same
      exact ih (by omega)

/-- With more constructors a verdict stays the same, unless it was unsafe. -/
theorem KnowsFewer.classify_settledBy (knows : tracer.KnowsFewer other)
    (sameDepth : other.maxDepth = tracer.maxDepth) (context : TraceContext) (e : Expr Site) :
    SettledBy (tracer.classify context e) (other.classify context e) := by
  rw [classify_eq_value, classify_eq_value, sameDepth]
  exact traceExpr_settledBy knows tracer.maxDepth (Nat.le_refl _) context e .idle

/-- The tracer with another bound on its depth. -/
def withDepth (tracer : Tracer) (depth : Nat) : Tracer := { tracer with maxDepth := depth }

/-- The bound on the depth only says where `classify` starts. -/
theorem traceExpr_withDepth (limit depth : Nat) :
    (tracer.withDepth limit).traceExpr depth = tracer.traceExpr depth := by
  have alike : tracer.AsksAlike (tracer.withDepth limit) := ⟨rfl, rfl, rfl⟩
  exact traceExpr_alike alike depth

/-- With more depth a verdict stays the same, unless it was unsafe. -/
theorem classify_settledBy (tracer : Tracer) {depth more : Nat} (le : depth ≤ more)
    (context : TraceContext) (e : Expr Site) :
    SettledBy ((tracer.withDepth depth).classify context e)
      ((tracer.withDepth more).classify context e) := by
  rw [classify_eq_value, classify_eq_value, traceExpr_withDepth, traceExpr_withDepth]
  exact traceExpr_settledBy .refl depth le context e .idle

end BugPatterns.Tracer
