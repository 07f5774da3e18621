import BugPatterns.Proofs.Constancy.Budget
import BugPatterns.Proofs.Constancy.CastDefinitions

/-!
# Traces under added casts

A trace looks through casts wherever it meets them, as it does through parentheses, and composes the
same verdict from what it is led to (`Tracer.judge_asParens`). Only the search for definitions tells
the two apart, so under added casts a variable may have been added less to. Verdicts are then no
worse than with the casts as parentheses, and the same where no cast hides a call
(`Tracer.softens`).
-/

namespace BugPatterns

variable {added : Site → Bool}

namespace Expr

/-- An expression is blamed under the same name. -/
theorem describe_asParens {α : Type} {marked : α → Bool} (e : Expr α) :
    (e.asParens marked).describe = e.describe := by
  induction e using describe.induct with
  | case3 label callee args symbol type ih => exact ih
  | case5 label target position type ih => exact ih
  | case6 label inner type ih => exact ih
  | case7 label operand type ih =>
      rcases @asParens_cast _ marked label operand type with same | same <;>
        rw [same] <;> exact ih
  | case8 e noIdent noSelect noCall noCreation noIndex noParen noCast =>
      cases e with
      | creation label args body symbol type =>
          cases type with
          | none => rfl
          | some type => exact absurd rfl (noCreation _ _ _ _ _)
      | ident => exact absurd rfl (noIdent _ _ _ _)
      | select => exact absurd rfl (noSelect _ _ _ _ _)
      | call => exact absurd rfl (noCall _ _ _ _ _)
      | index => exact absurd rfl (noIndex _ _ _ _)
      | paren => exact absurd rfl (noParen _ _ _)
      | cast => exact absurd rfl (noCast _ _ _)
      | _ => rfl
  | _ => rfl

theorem blame_asParens (e : Expr Site) (name : String) (origin : WitnessOrigin) :
    (e.asParens added).blame name origin = e.blame name origin := by
  rw [blame, label_asParens, blame]

end Expr

namespace Verdict

/-- The first verdict is no worse than the second, and is the same if the casts are `clear`. -/
structure Softens (clear : Prop) (a b : Verdict) : Prop where
  rank : a.constancy.rank ≤ b.constancy.rank
  same : clear → a = b

variable {clear : Prop}

theorem Softens.refl (v : Verdict) : v.Softens clear v := ⟨Nat.le_refl _, fun _ => rfl⟩

theorem joinRelation_softens : JoinRelation (Softens clear) where
  refl := Softens.refl
  join {a b c d} left right := by
    constructor
    · have := left.rank
      have := right.rank
      rw [rank_join, rank_join]
      omega
    · intro isClear
      rw [left.same isClear, right.same isClear]

/-- A field is cleared by any initializer that is no worse. -/
theorem Softens.clearField {a b : Verdict} (softens : a.Softens clear b) (blamed : Verdict) :
    (Tracer.clearField blamed a).Softens clear (Tracer.clearField blamed b) := by
  refine ⟨?_, fun isClear => congrArg _ (softens.same isClear)⟩
  have le := softens.rank
  have worst : Constancy.rank .staticConstant = 0 := rfl
  unfold Tracer.clearField
  split
  · next constant =>
      rw [constant, worst]
      exact Nat.zero_le _
  · next notConstant =>
      rw [if_neg]
      intro constant
      rw [constant, worst, Nat.le_zero] at le
      exact notConstant (constancy_eq_of_rank le)

end Verdict

namespace Tracer

variable {tracer : Tracer}

/-- The tracer with the added casts as parentheses. -/
def asParens (added : Site → Bool) (tracer : Tracer) : Tracer :=
  { tracer with loaded := tracer.loaded.asParens added }

/-- The context with the added casts as parentheses. -/
def contextAsParens (added : Site → Bool) (context : TraceContext) : TraceContext :=
  context.map (MethodDecl.asParens added)

section Judge

/-- A call has the same effect. -/
theorem callEffect?_asParens (call callee : Expr Site) :
    (tracer.asParens added).callEffect? (call.asParens added) (callee.asParens added) =
      tracer.callEffect? call callee := by
  have candidates := @LoadedUnit.callCandidates_asParens added tracer.loaded call
  simp only [callEffect?, asParens, Expr.name?_asParens, candidates]
  rfl

/-- The same objects are built from the arguments of their constructors. -/
theorem constructs_asParens (creation : Expr Site) (body : Option (ClassDecl Site)) :
    (tracer.asParens added).constructs (creation.asParens added)
        (ClassDecl.asParensOption added body) = tracer.constructs creation body := by
  have typed := @LoadedUnit.typeOf_asParens added tracer.loaded creation
  simp only [constructs, asParens, typed, ClassDecl.asParensOption_eq_map, Option.isNone_map]
  rfl

variable {onSymbol : OnSymbol}

mutual

/-- An expression is judged through casts as it is through parentheses. -/
theorem judge_asParens (e : Expr Site) :
    (tracer.asParens added).judge onSymbol (e.asParens added) =
      tracer.judge (fun use symbol => onSymbol (use.asParens added) symbol) e := by
  cases e with
  | literal => rfl
  | ident => rfl
  | select => rfl
  | paren _ inner _ => exact judge_asParens inner
  | cast label operand type =>
      have below := judge_asParens operand
      rcases @Expr.asParens_cast _ added label operand type with same | same <;>
        rw [same] <;> exact below
  | unary _ _ operand _ => exact judge_asParens operand
  | assign _ _ _ value _ => exact judge_asParens value
  | binary _ _ lhs rhs _ => simp only [Expr.asParens, judge, judge_asParens lhs, judge_asParens rhs]
  | conditional _ _ whenTrue whenFalse _ =>
      simp only [Expr.asParens, judge, judge_asParens whenTrue, judge_asParens whenFalse]
  | call label callee args symbol type =>
      have effect := @callEffect?_asParens added tracer (.call label callee args symbol type) callee
      have named := @Expr.describe_asParens _ added (.call label callee args symbol type)
      have receiver := judgeReceiver_asParens callee
      have all verdict := judgeAll_asParens verdict args
      simp only [Expr.asParens] at effect named ⊢
      simp only [judge, effect, receiver, all, named]
      rfl
  | creation label args body symbol type =>
      have constructs := @constructs_asParens added tracer (.creation label args body symbol type)
        body
      have named := @Expr.describe_asParens _ added (.creation label args body symbol type)
      have all verdict := judgeAll_asParens verdict args
      simp only [Expr.asParens] at constructs named ⊢
      simp only [judge, constructs, all, named]
      rfl
  | index label target position type =>
      have named := @Expr.describe_asParens _ added (.index label target position type)
      simp only [Expr.asParens] at named ⊢
      simp only [judge, named]
      rfl

theorem judgeReceiver_asParens (callee : Expr Site) :
    (tracer.asParens added).judgeReceiver onSymbol (callee.asParens added) =
      tracer.judgeReceiver (fun use symbol => onSymbol (use.asParens added) symbol) callee := by
  cases callee with
  | select _ target _ _ _ => exact judge_asParens target
  | cast label operand type =>
      rcases @Expr.asParens_cast _ added label operand type with same | same <;>
        rw [same] <;> rfl
  | _ => rfl

theorem judgeAll_asParens (verdict : Verdict) (es : List (Expr Site)) :
    (tracer.asParens added).judgeAll onSymbol verdict (Expr.asParensAll added es) =
      tracer.judgeAll (fun use symbol => onSymbol (use.asParens added) symbol) verdict es := by
  cases es with
  | nil => rfl
  | cons e es =>
      have rest verdict := judgeAll_asParens verdict es
      simp only [Expr.asParensAll, judgeAll, judge_asParens e, rest]

end

end Judge

theorem capturedFrom?_asParens (symbol : SymbolId) (context : TraceContext) :
    (tracer.asParens added).capturedFrom? symbol (contextAsParens added context) =
      (tracer.capturedFrom? symbol context).map (MethodDecl.asParens added) :=
  @capturedFrom?_map tracer (tracer.asParens added) _ rfl MethodDecl.symbol_asParens
    (Declarations.method?_asParens _) symbol context

theorem initializer?_asParens (symbol : SymbolId) :
    (tracer.asParens added).initializer? symbol =
      (tracer.initializer? symbol).map (Expr.asParens added) :=
  Declarations.init_field?_asParens _ _

theorem undefinedUse_asParens (use : Expr Site) (symbol : SymbolId) :
    (tracer.asParens added).undefinedUse (use.asParens added) symbol =
      tracer.undefinedUse use symbol :=
  use.blame_asParens _ _

theorem unsafeField_asParens (use : Expr Site) (symbol : SymbolId) :
    (tracer.asParens added).unsafeField (use.asParens added) symbol =
      tracer.unsafeField use symbol :=
  use.blame_asParens _ _

section Softens

variable {clear : Prop}

/-- Definitions under casts settle a verdict that is no worse, if the verdicts on what they hold are
    no worse. -/
theorem settle_softens {value other : Expr Site → Verdict} {found second : Option Definitions}
    (misses : Option.Rel (Definitions.Misses added clear) found second)
    (softens : ∀ definitions ∈ found, ∀ e ∈ definitions.values,
      (value e).Softens clear (other (e.asParens added))) (undefined : Verdict) :
    ((found.bind (settle value)).getD undefined).Softens clear
      ((second.bind (settle other)).getD undefined) := by
  cases misses with
  | none => exact Verdict.Softens.refl _
  | @some found second misses =>
      have softens := softens found rfl
      obtain ⟨latest, updates⟩ := found
      obtain ⟨otherLatest, otherUpdates⟩ := second
      obtain rfl : otherLatest = latest.map (Expr.asParens added) := misses.latest
      cases latest with
      | none => exact Verdict.Softens.refl _
      | some latest =>
          obtain ⟨first, rest⟩ := List.forall_mem_cons.mp softens
          have within : (updates.map (Expr.asParens added)).Sublist otherUpdates := misses.updates
          refine ⟨?_, fun isClear => ?_⟩
          · refine (Verdict.rank_joinAll_le_iff value).mpr
              ⟨first.rank.trans (Verdict.rank_le_joinAll other _ _), fun e member => ?_⟩
            have kept := within.subset (List.mem_map_of_mem member)
            exact (rest e member).rank.trans (Verdict.rank_item_le_joinAll other kept _)
          · obtain rfl : otherUpdates = updates.map (Expr.asParens added) :=
              congrArg Definitions.updates (misses.all isClear)
            have joined (verdict : Verdict) : Verdict.joinAll value verdict updates =
                Verdict.joinAll other verdict (updates.map (Expr.asParens added)) := by
              rw [Verdict.joinAll_map]
              exact Verdict.joinAll_congr (fun e member => (rest e member).same isClear) verdict
            simp only [settle, Option.map_some, Option.bind_some, Option.getD_some,
              first.same isClear, joined]

variable (recognizes : tracer.loaded.Recognizes tracer.catalog added clear)
  {context : TraceContext} {use : Expr Site} {symbol : SymbolId} {active : ActiveTraces}
  {depth : Nat}

section Definitions

include recognizes

/-- The same definitions reach a use, up to what is hidden by casts. -/
theorem definitionsOf_asParens (coherent : tracer.loaded.Coherent)
    (listed : tracer.InUnit context) (use : Expr Site) (symbol : SymbolId) :
    Option.Rel (Definitions.Misses added clear) (tracer.definitionsOf context use symbol).1
        ((tracer.asParens added).definitionsOf (contextAsParens added context)
          (use.asParens added) symbol).1 ∧
      ((tracer.asParens added).definitionsOf (contextAsParens added context)
          (use.asParens added) symbol).2 =
        contextAsParens added (tracer.definitionsOf context use symbol).2 := by
  refine definitionsOf_rel (fun misses => misses.latest) (capturedFrom?_asParens symbol context)
    (fun method around => ?_) (fun outer captured => ?_)
  · exact LoadedUnit.reachingDefinitions_asParens recognizes (listed method around) _ _
  · obtain ⟨key, looked⟩ := declared_of_capturedFrom? captured
    exact LoadedUnit.capturedDefinitions_asParens recognizes
      (coherent.mem_nodes_of_method? looked) _ _

end Definitions

/-- With so many steps left, expressions have verdicts that are no worse under the added casts than
    with these as parentheses. -/
def SoftensAt (tracer : Tracer) (added : Site → Bool) (clear : Prop) (depth : Nat) : Prop :=
  ∀ context e active, tracer.InUnit context →
    ((tracer.traceExpr depth context e).value active).Softens clear
      (((tracer.asParens added).traceExpr depth (contextAsParens added context)
        (e.asParens added)).value active)

include recognizes in
theorem traceLocal_asParens (coherent : tracer.loaded.Coherent)
    (deeper : ∀ less, depth = less + 1 → tracer.SoftensAt added clear less)
    (listed : tracer.InUnit context) (use : Expr Site) (symbol : SymbolId) :
    ((tracer.traceLocal (tracer.deeper depth) context use symbol).value active).Softens clear
      (((tracer.asParens added).traceLocal ((tracer.asParens added).deeper depth)
        (contextAsParens added context) (use.asParens added) symbol).value active) := by
  have number : (use.asParens added).label.number = use.label.number := by
    rw [Expr.label_asParens]
  refine traceLocal_rel_between .refl (undefinedUse_asParens use symbol) (by rw [number])
    fun less same => ?_
  obtain ⟨misses, inner⟩ := definitionsOf_asParens recognizes coherent listed use symbol
  rw [undefinedUse_asParens, number, inner]
  refine settle_softens misses (fun found reaching e _ => ?_) _
  exact deeper less same _ e _ (listed.of_definitionsOf coherent reaching).1

theorem traceField_asParens
    (deeper : ∀ less, depth = less + 1 → tracer.SoftensAt added clear less)
    (use : Expr Site) (symbol : SymbolId) :
    ((tracer.traceField (tracer.deeper depth) use symbol).value active).Softens clear
      (((tracer.asParens added).traceField ((tracer.asParens added).deeper depth)
        (use.asParens added) symbol).value active) :=
  traceField_rel_between .refl (fun softens => softens.clearField _) rfl
    (unsafeField_asParens use symbol) (initializer?_asParens symbol) rfl
    fun less init same _ => deeper less same none init _ fun _ absurd => by cases absurd

include recognizes in
theorem traceSymbol_asParens (coherent : tracer.loaded.Coherent)
    (deeper : ∀ less, depth = less + 1 → tracer.SoftensAt added clear less)
    (listed : tracer.InUnit context) (use : Expr Site) (symbol : SymbolId) :
    ((tracer.traceSymbol (tracer.deeper depth) context use symbol).value active).Softens clear
      (((tracer.asParens added).traceSymbol ((tracer.asParens added).deeper depth)
        (contextAsParens added context) (use.asParens added) symbol).value active) :=
  traceSymbol_rel_between .refl rfl use.blame_asParens
    (fun _ => traceLocal_asParens recognizes coherent deeper listed use symbol)
    (traceField_asParens deeper use symbol)

include recognizes in
/-- With any number of steps left, verdicts are no worse under the added casts. -/
theorem softens (coherent : tracer.loaded.Coherent) (depth : Nat) :
    tracer.SoftensAt added clear depth := by
  induction depth using Nat.strong_induction_on with
  | _ depth ih =>
      intro context e active listed
      rw [traceExpr_eq, traceExpr_eq, judge_asParens]
      refine judge_rel Verdict.joinRelation_softens
        (fun e s => ⟨restores_deeper _ _ _ _, restores_deeper _ _ _ _⟩) e fun u _ s _ => ?_
      exact traceSymbol_asParens recognizes coherent (fun less same => ih less (by omega)) listed
        u s

include recognizes in
/-- The verdict on an expression is no worse under the added casts, and is the same, its witness
    included, if these are `clear`. -/
theorem classify_asParens (coherent : tracer.loaded.Coherent) (listed : tracer.InUnit context)
    (e : Expr Site) :
    (tracer.classify context e).Softens clear
      ((tracer.asParens added).classify (contextAsParens added context) (e.asParens added)) :=
  softens recognizes coherent tracer.maxDepth context e .idle listed

end Softens

end Tracer

end BugPatterns
