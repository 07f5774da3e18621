import BugPatterns.Proofs.Constancy.Judge

/-!
# Single steps of a trace

A use of a local variable leads to the definitions that reach it, a use of a field to its
initializer, and each step costs one from the depth that is left. The equations of this module say
what one step contributes; all of them leave the active traces as they were. Two tracers that find
corresponding definitions and initializers make corresponding steps (`Tracer.definitionsOf_rel`,
`Tracer.traceSymbol_rel_between`).
-/

namespace BugPatterns.Tracer

variable {tracer : Tracer}

/-- How a trace goes on when `depth` steps are left. -/
def deeper (tracer : Tracer) : Nat → Option TraceStep
  | 0 => none
  | depth + 1 => some (tracer.traceExpr depth)

theorem deeper_zero : tracer.deeper 0 = none := rfl

theorem traceExpr_eq (depth : Nat) (context : TraceContext) (e : Expr Site) :
    tracer.traceExpr depth context e =
      tracer.judge (tracer.traceSymbol (tracer.deeper depth) context) e := by
  cases depth <;> rfl

theorem restores_judgeUpdates {judgeIn : Expr Site → TraceM Verdict}
    (restoresIn : ∀ e, (judgeIn e).Restores) (es : List (Expr Site)) :
    ∀ verdict, (judgeUpdates judgeIn verdict es).Restores := by
  induction es with
  | nil => exact fun _ => TraceM.restores_pure _
  | cons e es ih => exact fun _ => (restoresIn e).bind fun _ => ih _

section Restores

variable {step : Option TraceStep}
  (restores : ∀ inner, step = some inner → ∀ context e, (inner context e).Restores)

include restores

theorem restores_traceLocal (context : TraceContext) (use : Expr Site) (symbol : SymbolId) :
    (tracer.traceLocal step context use symbol).Restores := by
  cases step with
  | none => exact TraceM.restores_pure _
  | some inner =>
      refine TraceM.Restores.get_bind ?_
      intro active
      split
      · exact TraceM.restores_pure _
      · refine TraceM.Restores.withUse ?_ _
        split
        split
        · exact (restores inner rfl _ _).bind fun verdict =>
            restores_judgeUpdates (restores inner rfl _) _ verdict
        · exact TraceM.restores_pure _

theorem restores_traceField (use : Expr Site) (symbol : SymbolId) :
    (tracer.traceField step use symbol).Restores := by
  unfold traceField
  simp only
  split
  · exact TraceM.restores_pure _
  · split
    · exact TraceM.restores_pure _
    · split
      · refine TraceM.Restores.get_bind ?_
        intro active
        split
        · exact TraceM.restores_pure _
        · exact (TraceM.Restores.withField (restores _ rfl _ _) _).bind fun _ =>
            TraceM.restores_pure _
      · exact TraceM.restores_pure _

theorem restores_traceSymbol (context : TraceContext) (use : Expr Site) (symbol : SymbolId) :
    (tracer.traceSymbol step context use symbol).Restores := by
  unfold traceSymbol
  simp only
  split
  · exact TraceM.restores_pure _
  · split
    · exact TraceM.restores_pure _
    · split
      · exact restores_traceLocal restores context use symbol
      · split
        · exact restores_traceField restores use symbol
        · exact TraceM.restores_pure _

end Restores

/-- A trace of any depth leaves the active traces as it found them. -/
theorem restores_traceExpr (depth : Nat) :
    ∀ context e, (tracer.traceExpr depth context e).Restores := by
  induction depth with
  | zero =>
      intro context e
      exact restores_judge (restores_traceSymbol (fun _ absurd => by cases absurd) context) e
  | succ depth ih =>
      intro context e
      refine restores_judge (restores_traceSymbol (fun inner same => ?_) context) e
      obtain rfl := Option.some.inj same
      exact ih

theorem restores_deeper (depth : Nat) (context : TraceContext) (use : Expr Site)
    (symbol : SymbolId) :
    (tracer.traceSymbol (tracer.deeper depth) context use symbol).Restores := by
  refine restores_traceSymbol (fun inner same => ?_) context use symbol
  cases depth with
  | zero => cases same
  | succ depth =>
      obtain rfl := Option.some.inj same
      exact restores_traceExpr depth

theorem restores_both (depth more : Nat) (context other : TraceContext) (use : Expr Site)
    (symbol : SymbolId) :
    (tracer.traceSymbol (tracer.deeper depth) context use symbol).Restores ∧
      (tracer.traceSymbol (tracer.deeper more) other use symbol).Restores :=
  ⟨restores_deeper depth context use symbol, restores_deeper more other use symbol⟩

/-- The verdict on a use of a local variable that no definition reaches. -/
def undefinedUse (tracer : Tracer) (use : Expr Site) (symbol : SymbolId) : Verdict :=
  use.blame (tracer.loaded.model.symbol symbol).name .localVariable

/-- The verdict on the value that definitions give to a variable, if any does. -/
def settle (value : Expr Site → Verdict) (found : Definitions) : Option Verdict :=
  found.latest.map fun latest => Verdict.joinAll value (value latest) found.updates

/-- A use that is not traced yet has the verdict that its definitions settle. -/
theorem value_traceLocal_succ {active : ActiveTraces} {use : Expr Site}
    (fresh : use.label.number ∉ active.uses) (depth : Nat) (context : TraceContext)
    (symbol : SymbolId) :
    (tracer.traceLocal (tracer.deeper (depth + 1)) context use symbol).value active =
      (((tracer.definitionsOf context use symbol).1.bind
        (settle fun e =>
          (tracer.traceExpr depth (tracer.definitionsOf context use symbol).2 e).value
            { active with uses := use.label.number :: active.uses })).getD
        (tracer.undefinedUse use symbol)) := by
  unfold traceLocal deeper
  simp only
  rw [TraceM.value_get_bind, if_neg fresh, TraceM.value_withUse]
  obtain ⟨definitions, inner⟩ := tracer.definitionsOf context use symbol
  cases definitions with
  | none => rfl
  | some found =>
      obtain ⟨latest, updates⟩ := found
      cases latest with
      | none => rfl
      | some latest =>
          simp only
          rw [TraceM.value_bind (restores_traceExpr depth inner latest),
            value_judgeUpdates _ (restores_traceExpr depth inner)]
          rfl

theorem value_traceLocal_again {active : ActiveTraces} {use : Expr Site}
    (again : use.label.number ∈ active.uses) (depth : Nat) (context : TraceContext)
    (symbol : SymbolId) :
    (tracer.traceLocal (tracer.deeper (depth + 1)) context use symbol).value active =
      .constant := by
  unfold traceLocal deeper
  simp only
  rw [TraceM.value_get_bind, if_pos again]
  rfl

/-- The verdict on a use of a field that is not cleared. -/
def unsafeField (tracer : Tracer) (use : Expr Site) (symbol : SymbolId) : Verdict :=
  use.blame (tracer.loaded.model.symbol symbol).name .field

/-- The initializer that a use of a field is traced to. -/
def initializer? (tracer : Tracer) (symbol : SymbolId) : Option (Expr Site) :=
  (tracer.loaded.declarations.field? (tracer.loaded.model.symbol symbol).key).bind (·.init)

/-- Only a constant verdict on the initializer clears a field. -/
def clearField (unsafeField verdict : Verdict) : Verdict :=
  if verdict.constancy = .staticConstant then verdict else unsafeField

section Field

variable {active : ActiveTraces} {step : Option TraceStep} {use : Expr Site} {symbol : SymbolId}

theorem value_traceField_constant
    (constant : (tracer.loaded.model.symbol symbol).constant.isSome) :
    (tracer.traceField step use symbol).value active = .constant := by
  unfold traceField
  rw [if_pos constant]
  rfl

/-- Without a constant, a final modifier, an initializer and a step left, a field stays unsafe. -/
theorem value_traceField_blamed
    (noConstant : (tracer.loaded.model.symbol symbol).constant.isSome = false)
    (blocked : (tracer.loaded.model.symbol symbol).isFinal = false ∨ step = none ∨
      tracer.initializer? symbol = none) :
    (tracer.traceField step use symbol).value active = tracer.unsafeField use symbol := by
  unfold traceField
  rw [if_neg (by simp [noConstant])]
  split
  · rfl
  · next isFinal =>
      split
      · next inner init found =>
          rcases blocked with notFinal | absent | absent
          · simp [notFinal] at isFinal
          · cases absent
          · rw [initializer?] at absent
            rw [absent] at found
            cases found
      · rfl

theorem value_traceField_again {depth : Nat} {init : Expr Site}
    (noConstant : (tracer.loaded.model.symbol symbol).constant.isSome = false)
    (isFinal : (tracer.loaded.model.symbol symbol).isFinal)
    (found : tracer.initializer? symbol = some init) (again : symbol ∈ active.fields) :
    (tracer.traceField (tracer.deeper (depth + 1)) use symbol).value active = .constant := by
  rw [initializer?] at found
  unfold traceField deeper
  rw [if_neg (by simp [noConstant]), if_neg (by simp [isFinal])]
  simp only [found]
  rw [TraceM.value_get_bind, if_pos again]
  rfl

/-- A final field that is not traced yet is as constant as its initializer, judged in no method. -/
theorem value_traceField_succ {depth : Nat} {init : Expr Site}
    (noConstant : (tracer.loaded.model.symbol symbol).constant.isSome = false)
    (isFinal : (tracer.loaded.model.symbol symbol).isFinal)
    (found : tracer.initializer? symbol = some init) (fresh : symbol ∉ active.fields) :
    (tracer.traceField (tracer.deeper (depth + 1)) use symbol).value active =
      clearField (tracer.unsafeField use symbol)
        ((tracer.traceExpr depth none init).value
          { active with fields := symbol :: active.fields }) := by
  rw [initializer?] at found
  unfold traceField deeper
  rw [if_neg (by simp [noConstant]), if_neg (by simp [isFinal])]
  simp only [found]
  rw [TraceM.value_get_bind, if_neg fresh,
    TraceM.value_bind (TraceM.Restores.withField (restores_traceExpr depth none init) symbol)]
  rfl

end Field

/-- A field either has one verdict however it is traced, or is final with an initializer and no
    constant. -/
theorem traceField_cases (tracer : Tracer) (use : Expr Site) (symbol : SymbolId) :
    (∃ verdict, ∀ step active, (tracer.traceField step use symbol).value active = verdict) ∨
      (tracer.loaded.model.symbol symbol).constant.isSome = false ∧
        (tracer.loaded.model.symbol symbol).isFinal ∧
          ∃ init, tracer.initializer? symbol = some init := by
  by_cases constant : (tracer.loaded.model.symbol symbol).constant.isSome
  · exact Or.inl ⟨_, fun _ _ => value_traceField_constant constant⟩
  · have noConstant := Bool.eq_false_iff.mpr constant
    by_cases isFinal : (tracer.loaded.model.symbol symbol).isFinal
    · cases found : tracer.initializer? symbol with
      | none => exact Or.inl ⟨_, fun _ _ =>
          value_traceField_blamed noConstant (Or.inr (Or.inr found))⟩
      | some init => exact Or.inr ⟨noConstant, isFinal, init, rfl⟩
    · exact Or.inl ⟨_, fun _ _ =>
        value_traceField_blamed noConstant (Or.inl (Bool.eq_false_iff.mpr isFinal))⟩

section Definitions

variable {other : Tracer} {method : MethodDecl Site → MethodDecl Site}
  {value : Expr Site → Expr Site} {R : Definitions → Definitions → Prop} {symbol : SymbolId}
  {context : TraceContext} {use image : Expr Site}

/-- A variable is captured from the image of a method if it is captured from the method. -/
theorem capturedFrom?_map (model : other.loaded.model = tracer.loaded.model)
    (symbols : ∀ m, (method m).symbol = m.symbol)
    (declared : ∀ key, other.loaded.declarations.method? key =
      (tracer.loaded.declarations.method? key).map method) (symbol : SymbolId)
    (context : TraceContext) :
    other.capturedFrom? symbol (context.map method) =
      (tracer.capturedFrom? symbol context).map method := by
  cases context with
  | none => rfl
  | some m =>
      simp only [capturedFrom?, model, symbols, declared, Option.map_some, Option.bind_eq_bind,
        Option.bind_some]
      cases (tracer.loaded.model.owner symbol).filter tracer.loaded.model.isMethodSymbol with
      | none => rfl
      | some owner =>
          simp only [Option.bind_some]
          split <;> rfl

/-- Related definitions reach a use and its image if both searches find related ones, with the same
    value up to its image. -/
theorem definitionsOf_rel (latest : ∀ {a b}, R a b → b.latest = a.latest.map value)
    (captured : other.capturedFrom? symbol (context.map method) =
      (tracer.capturedFrom? symbol context).map method)
    (direct : ∀ m ∈ context, Option.Rel R
      (tracer.loaded.reachingDefinitions tracer.catalog m (tracer.loaded.model.symbol symbol).key
        use)
      (other.loaded.reachingDefinitions other.catalog (method m)
        (other.loaded.model.symbol symbol).key image))
    (searched : ∀ m, tracer.capturedFrom? symbol context = some m → Option.Rel R
      (tracer.loaded.capturedDefinitions tracer.catalog m (tracer.loaded.model.symbol symbol).key
        use)
      (other.loaded.capturedDefinitions other.catalog (method m)
        (other.loaded.model.symbol symbol).key image)) :
    Option.Rel R (tracer.definitionsOf context use symbol).1
        (other.definitionsOf (context.map method) image symbol).1 ∧
      (other.definitionsOf (context.map method) image symbol).2 =
        (tracer.definitionsOf context use symbol).2.map method := by
  have reaching : Option.Rel R
      (context.bind fun m => tracer.loaded.reachingDefinitions tracer.catalog m
        (tracer.loaded.model.symbol symbol).key use)
      ((context.map method).bind fun m => other.loaded.reachingDefinitions other.catalog m
        (other.loaded.model.symbol symbol).key image) := by
    cases context with
    | none => exact .none
    | some m => exact direct m rfl
  simp only [definitionsOf, captured]
  generalize (context.bind fun m => tracer.loaded.reachingDefinitions tracer.catalog m
    (tracer.loaded.model.symbol symbol).key use) = found at reaching ⊢
  generalize ((context.map method).bind fun m => other.loaded.reachingDefinitions other.catalog m
    (other.loaded.model.symbol symbol).key image) = second at reaching ⊢
  have same : second.bind (·.latest) = (found.bind (·.latest)).map value := by
    cases reaching with
    | none => rfl
    | some related => exact latest related
  rw [same]
  cases found.bind (·.latest) with
  | some value => exact ⟨reaching, rfl⟩
  | none =>
      cases outer : tracer.capturedFrom? symbol context with
      | none => exact ⟨reaching, rfl⟩
      | some m => exact ⟨searched m outer, rfl⟩

private theorem rel_iff_eq_map {α β : Type} {f : α → β} {x : Option α} {y : Option β} :
    Option.Rel (fun a b => b = f a) x y ↔ y = x.map f := by
  constructor
  · intro related
    cases related with
    | none => rfl
    | some same => exact congrArg some same
  · rintro rfl
    cases x with
    | none => exact .none
    | some a => exact .some rfl

/-- The images of definitions reach the image of a use if both searches find images. -/
theorem definitionsOf_map {f : Definitions → Definitions}
    (latest : ∀ found, (f found).latest = found.latest.map value)
    (captured : other.capturedFrom? symbol (context.map method) =
      (tracer.capturedFrom? symbol context).map method)
    (direct : ∀ m ∈ context, other.loaded.reachingDefinitions other.catalog (method m)
        (other.loaded.model.symbol symbol).key image =
      (tracer.loaded.reachingDefinitions tracer.catalog m (tracer.loaded.model.symbol symbol).key
        use).map f)
    (searched : ∀ m, tracer.capturedFrom? symbol context = some m →
      other.loaded.capturedDefinitions other.catalog (method m)
          (other.loaded.model.symbol symbol).key image =
        (tracer.loaded.capturedDefinitions tracer.catalog m (tracer.loaded.model.symbol symbol).key
          use).map f) :
    other.definitionsOf (context.map method) image symbol =
      ((tracer.definitionsOf context use symbol).1.map f,
        (tracer.definitionsOf context use symbol).2.map method) := by
  have related := @definitionsOf_rel tracer other method value (fun a b => b = f a) symbol context
    use image (fun same => same ▸ latest _) captured
    (fun m around => rel_iff_eq_map.mpr (direct m around))
    (fun m outer => rel_iff_eq_map.mpr (searched m outer))
  exact Prod.ext (rel_iff_eq_map.mp related.1) related.2

end Definitions

section Relation

variable {other : Tracer} {R : Verdict → Verdict → Prop}

theorem traceField_congr (same : other.loaded = tracer.loaded) :
    other.traceField = tracer.traceField := by
  funext step use symbol
  simp only [traceField, same]

section Between

variable {depth : Nat} {step next : Option TraceStep} {context second : TraceContext}
  {use image : Expr Site} {symbol : SymbolId} {here there : ActiveTraces}

/-- The traces that two tracers with one model make of a symbol are related if they are where it is
    a local variable or a field. -/
theorem traceSymbol_rel_between (refl : ∀ v, R v v)
    (model : other.loaded.model = tracer.loaded.model)
    (blamed : ∀ name origin, image.blame name origin = use.blame name origin)
    (onLocal : tracer.loaded.model.isLocalVariable symbol →
      R ((tracer.traceLocal step context use symbol).value here)
        ((other.traceLocal next second image symbol).value there))
    (onField : R ((tracer.traceField step use symbol).value here)
      ((other.traceField next image symbol).value there)) :
    R ((tracer.traceSymbol step context use symbol).value here)
      ((other.traceSymbol next second image symbol).value there) := by
  simp only [traceSymbol, model, blamed]
  split
  · exact refl _
  · split
    · exact refl _
    · split
      · next isLocal => exact onLocal isLocal
      · split
        · exact onField
        · exact refl _

/-- The traces of a local variable are related if what its definitions settle is, unless both uses
    are traced already. -/
theorem traceLocal_rel_between (refl : ∀ v, R v v)
    (undefined : other.undefinedUse image symbol = tracer.undefinedUse use symbol)
    (met : image.label.number ∈ there.uses ↔ use.label.number ∈ here.uses)
    (settled : ∀ less, depth = less + 1 → R
      (((tracer.definitionsOf context use symbol).1.bind (settle fun e =>
        (tracer.traceExpr less (tracer.definitionsOf context use symbol).2 e).value
          ⟨use.label.number :: here.uses, here.fields⟩)).getD (tracer.undefinedUse use symbol))
      (((other.definitionsOf second image symbol).1.bind (settle fun e =>
        (other.traceExpr less (other.definitionsOf second image symbol).2 e).value
          ⟨image.label.number :: there.uses, there.fields⟩)).getD
            (other.undefinedUse image symbol))) :
    R ((tracer.traceLocal (tracer.deeper depth) context use symbol).value here)
      ((other.traceLocal (other.deeper depth) second image symbol).value there) := by
  cases depth with
  | zero =>
      show R (tracer.undefinedUse use symbol) (other.undefinedUse image symbol)
      rw [undefined]
      exact refl _
  | succ depth =>
      by_cases again : use.label.number ∈ here.uses
      · rw [value_traceLocal_again again, value_traceLocal_again (met.mpr again)]
        exact refl _
      · rw [value_traceLocal_succ again, value_traceLocal_succ (mt met.mp again)]
        exact settled depth rfl

/-- The traces of a field are related if those of its initializer are, and clearing a field keeps
    them so. -/
theorem traceField_rel_between (refl : ∀ v, R v v)
    (clears : ∀ {a b blamed}, R a b → R (clearField blamed a) (clearField blamed b))
    (model : other.loaded.model = tracer.loaded.model)
    (unsafeSame : other.unsafeField image symbol = tracer.unsafeField use symbol)
    {f : Expr Site → Expr Site}
    (initializer : other.initializer? symbol = (tracer.initializer? symbol).map f)
    (fields : there.fields = here.fields)
    (deeper : ∀ less init, depth = less + 1 → tracer.initializer? symbol = some init →
      R ((tracer.traceExpr less none init).value ⟨here.uses, symbol :: here.fields⟩)
        ((other.traceExpr less none (f init)).value ⟨there.uses, symbol :: here.fields⟩)) :
    R ((tracer.traceField (tracer.deeper depth) use symbol).value here)
      ((other.traceField (other.deeper depth) image symbol).value there) := by
  by_cases constant : (tracer.loaded.model.symbol symbol).constant.isSome
  · rw [value_traceField_constant constant, value_traceField_constant (model ▸ constant)]
    exact refl _
  have noConstant := Bool.eq_false_iff.mpr constant
  have noConstantThere : (other.loaded.model.symbol symbol).constant.isSome = false :=
    model ▸ noConstant
  have blocked
      (here : (tracer.loaded.model.symbol symbol).isFinal = false ∨ tracer.deeper depth = none ∨
        tracer.initializer? symbol = none)
      (there : (other.loaded.model.symbol symbol).isFinal = false ∨ other.deeper depth = none ∨
        other.initializer? symbol = none) {first last : ActiveTraces} :
      R ((tracer.traceField (tracer.deeper depth) use symbol).value first)
        ((other.traceField (other.deeper depth) image symbol).value last) := by
    rw [value_traceField_blamed noConstant here, value_traceField_blamed noConstantThere there,
      unsafeSame]
    exact refl _
  by_cases isFinal : (tracer.loaded.model.symbol symbol).isFinal
  · have isFinalThere : (other.loaded.model.symbol symbol).isFinal = true := model ▸ isFinal
    cases found : tracer.initializer? symbol with
    | none =>
        rw [found, Option.map_none] at initializer
        exact blocked (Or.inr (Or.inr found)) (Or.inr (Or.inr initializer))
    | some init =>
        rw [found, Option.map_some] at initializer
        cases depth with
        | zero => exact blocked (Or.inr (Or.inl rfl)) (Or.inr (Or.inl rfl))
        | succ depth =>
            by_cases again : symbol ∈ here.fields
            · rw [value_traceField_again noConstant isFinal found again,
                value_traceField_again noConstantThere isFinalThere initializer (fields ▸ again)]
              exact refl _
            · rw [value_traceField_succ noConstant isFinal found again,
                value_traceField_succ noConstantThere isFinalThere initializer (fields ▸ again),
                unsafeSame, fields]
              exact clears (deeper depth init rfl found)
  · have notFinal := Bool.eq_false_iff.mpr isFinal
    exact blocked (Or.inl notFinal) (Or.inl (model ▸ notFinal))

end Between

/-- Two traces of a symbol are related if they are where it is a local variable or a field. -/
theorem traceSymbol_rel (refl : ∀ v, R v v) {step next : Option TraceStep}
    {context : TraceContext} {use : Expr Site} {symbol : SymbolId} {here there : ActiveTraces}
    (onLocal : tracer.loaded.model.isLocalVariable symbol →
      R ((tracer.traceLocal step context use symbol).value here)
        ((tracer.traceLocal next context use symbol).value there))
    (onField : R ((tracer.traceField step use symbol).value here)
      ((tracer.traceField next use symbol).value there)) :
    R ((tracer.traceSymbol step context use symbol).value here)
      ((tracer.traceSymbol next context use symbol).value there) :=
  traceSymbol_rel_between refl rfl (fun _ _ => rfl) onLocal onField

theorem joinAll_rel (relation : Verdict.JoinRelation R) {value other : Expr Site → Verdict}
    {items : List (Expr Site)} (related : ∀ e ∈ items, R (value e) (other e)) :
    ∀ {a b}, R a b → R (Verdict.joinAll value a items) (Verdict.joinAll other b items) := by
  induction items with
  | nil => exact fun start => start
  | cons e items ih =>
      intro a b start
      exact ih (fun x member => related x (List.mem_cons_of_mem _ member))
        (relation.join start (related e List.mem_cons_self))

/-- Related verdicts on the values of a variable settle related verdicts on the variable. -/
theorem settle_rel (relation : Verdict.JoinRelation R) {value other : Expr Site → Verdict}
    {found : Option Definitions} {undefined : Verdict}
    (related : ∀ definitions, found = some definitions → ∀ e,
      definitions.latest = some e ∨ e ∈ definitions.updates → R (value e) (other e)) :
    R ((found.bind (settle value)).getD undefined)
      ((found.bind (settle other)).getD undefined) := by
  cases found with
  | none => exact relation.refl _
  | some definitions =>
      obtain ⟨latest, updates⟩ := definitions
      cases latest with
      | none => exact relation.refl _
      | some latest =>
          exact joinAll_rel relation (fun e member => related _ rfl e (Or.inr member))
            (related _ rfl latest (Or.inl rfl))

end Relation

theorem classify_eq_value (context : TraceContext) (e : Expr Site) :
    tracer.classify context e = (tracer.traceExpr tracer.maxDepth context e).value .idle := rfl

end BugPatterns.Tracer
