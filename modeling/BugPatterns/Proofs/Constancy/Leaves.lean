import BugPatterns.Proofs.Constancy.Budget
import BugPatterns.Rule.Injection

/-!
# Leaves and witnesses

An expression is flattened into leaves, and its verdict is that on the first of its worst leaves
(`Tracer.classify_eq_firstWorst`): joins keep the left verdict on a tie, in whatever order they are
nested. A verdict has a witness just if it is unsafe (`Verdict.Backed`), which every step of a trace
keeps. So what tells about an unsafe query can always name who is to blame for it.
-/

namespace BugPatterns

namespace Verdict

/-- There is a witness just for an unsafe verdict. -/
def Backed (v : Verdict) : Prop := v.witness.isSome = v.isUnsafe

theorem backed_constant : constant.Backed := rfl

theorem backed_safe : safe.Backed := rfl

theorem backed_blame (name : String) (span : Span) (origin : WitnessOrigin) :
    (blame name span origin).Backed := rfl

theorem Backed.join {a b : Verdict} (left : a.Backed) (right : b.Backed) : (a.join b).Backed := by
  unfold Verdict.join
  split
  · exact right
  · exact left

theorem Backed.joinAll {α : Type} {value : α → Verdict} {items : List α}
    (each : ∀ item ∈ items, (value item).Backed) :
    ∀ {v : Verdict}, v.Backed → (Verdict.joinAll value v items).Backed := by
  induction items with
  | nil => exact fun start => start
  | cons item items ih =>
      intro v start
      exact ih (fun i member => each i (List.mem_cons_of_mem _ member))
        (start.join (each item List.mem_cons_self))

/-- Nothing but a constant is trusted as far as a constant. -/
theorem Backed.eq_constant {v : Verdict} (backed : v.Backed) (trusted : v.constancy.rank = 0) :
    v = constant := by
  obtain ⟨constancy, witness⟩ := v
  cases constancy with
  | staticConstant =>
      have absent : witness = none := by simpa [Backed, isUnsafe] using backed
      rw [absent]
      rfl
  | dynamicSafe => cases trusted
  | dynamicUnsafe => cases trusted

theorem staticConstant_iff_rank {a : Constancy} : a = .staticConstant ↔ a.rank = 0 := by
  cases a <;> simp [Constancy.rank]

theorem join_of_le {a b : Verdict} (le : b.constancy.rank ≤ a.constancy.rank) : a.join b = a :=
  if_neg (Nat.not_lt.mpr le)

theorem join_of_lt {a b : Verdict} (lt : a.constancy.rank < b.constancy.rank) : a.join b = b :=
  if_pos lt

theorem Backed.constant_join {v : Verdict} (backed : v.Backed) : constant.join v = v := by
  rcases Nat.eq_zero_or_pos v.constancy.rank with trusted | worse
  · rw [backed.eq_constant trusted]
    rfl
  · exact join_of_lt worse

theorem join_assoc (a b c : Verdict) : (a.join b).join c = a.join (b.join c) := by
  by_cases left : a.constancy.rank < b.constancy.rank
  · rw [join_of_lt left]
    have above : a.constancy.rank < (b.join c).constancy.rank := by
      rw [rank_join]
      omega
    exact (join_of_lt above).symm
  · rw [join_of_le (Nat.not_lt.mp left)]
    by_cases right : b.constancy.rank < c.constancy.rank
    · rw [join_of_lt right]
    · have inner : b.join c = b := join_of_le (Nat.not_lt.mp right)
      have outer : c.constancy.rank ≤ a.constancy.rank := by omega
      rw [inner, join_of_le outer, join_of_le (Nat.not_lt.mp left)]

/-- No verdict of the list is worse. -/
def isWorstOf (verdicts : List Verdict) (v : Verdict) : Bool :=
  verdicts.all fun w => w.constancy.rank ≤ v.constancy.rank

/-- The first of the verdicts that are worst among some; there is nothing to distrust where there
    are none. -/
def firstWorst (verdicts : List Verdict) : Verdict :=
  (verdicts.find? (isWorstOf verdicts)).getD constant

theorem isWorstOf_iff {verdicts : List Verdict} {v : Verdict} :
    isWorstOf verdicts v = true ↔ ∀ w ∈ verdicts, w.constancy.rank ≤ v.constancy.rank := by
  simp [isWorstOf]

@[simp] theorem firstWorst_nil : firstWorst [] = constant := rfl

@[simp] theorem firstWorst_singleton (v : Verdict) : firstWorst [v] = v := by
  simp [firstWorst, isWorstOf]

/-- One more verdict in front is joined in front, as soon as the others have a worst one. -/
private theorem firstWorst_cons_of_bound (v : Verdict) {verdicts : List Verdict}
    (bound : ∀ w ∈ verdicts, w.constancy.rank ≤ (firstWorst verdicts).constancy.rank) :
    firstWorst (v :: verdicts) = v.join (firstWorst verdicts) := by
  unfold firstWorst at bound ⊢
  by_cases worst : isWorstOf (v :: verdicts) v = true
  · -- `v` is found at once, and nothing behind it can take its place
    have above := isWorstOf_iff.mp worst
    rw [List.find?_cons_of_pos worst, Option.getD_some, join_of_le]
    cases found : verdicts.find? (isWorstOf verdicts) with
    | none => exact Nat.zero_le _
    | some w => exact above w (List.mem_cons_of_mem _ (List.mem_of_find?_eq_some found))
  · -- some other verdict is worse than `v`, so the worst of the others are the worst of all
    obtain ⟨w, member, below⟩ : ∃ w ∈ verdicts, v.constancy.rank < w.constancy.rank := by
      simpa [isWorstOf] using worst
    have same : ∀ u, isWorstOf (v :: verdicts) u = isWorstOf verdicts u := by
      intro u
      rw [Bool.eq_iff_iff, isWorstOf_iff, isWorstOf_iff, List.forall_mem_cons]
      refine ⟨And.right, fun others => ⟨?_, others⟩⟩
      have := others w member
      omega
    have others : isWorstOf (v :: verdicts) = isWorstOf verdicts := funext same
    rw [List.find?_cons_of_neg worst, others, join_of_lt]
    exact Nat.lt_of_lt_of_le below (bound w member)

theorem rank_le_firstWorst (verdicts : List Verdict) :
    ∀ w ∈ verdicts, w.constancy.rank ≤ (firstWorst verdicts).constancy.rank := by
  induction verdicts with
  | nil => exact fun w member => nomatch member
  | cons v verdicts ih =>
      intro w member
      rw [firstWorst_cons_of_bound v ih, rank_join]
      rcases List.mem_cons.mp member with rfl | member
      · omega
      · have := ih w member
        omega

theorem firstWorst_cons (v : Verdict) (verdicts : List Verdict) :
    firstWorst (v :: verdicts) = v.join (firstWorst verdicts) :=
  firstWorst_cons_of_bound v (rank_le_firstWorst verdicts)

theorem Backed.firstWorst {verdicts : List Verdict} (each : ∀ w ∈ verdicts, w.Backed) :
    (firstWorst verdicts).Backed := by
  induction verdicts with
  | nil => exact backed_constant
  | cons v verdicts ih =>
      rw [firstWorst_cons]
      exact (each v List.mem_cons_self).join
        (ih fun w member => each w (List.mem_cons_of_mem _ member))

theorem firstWorst_append {verdicts others : List Verdict} (each : ∀ w ∈ others, w.Backed) :
    Verdict.firstWorst (verdicts ++ others) =
      (Verdict.firstWorst verdicts).join (Verdict.firstWorst others) := by
  induction verdicts with
  | nil => exact (Backed.firstWorst each).constant_join.symm
  | cons v verdicts ih => rw [List.cons_append, firstWorst_cons, firstWorst_cons, ih, join_assoc]

/-- A verdict is the first of the worst among some, each of which has a witness just if it is
    unsafe. -/
structure FirstWorstOf (v : Verdict) (verdicts : List Verdict) : Prop where
  eq : v = Verdict.firstWorst verdicts
  backed : ∀ w ∈ verdicts, w.Backed

namespace FirstWorstOf

theorem leaf {v : Verdict} (backed : v.Backed) : FirstWorstOf v [v] where
  eq := (firstWorst_singleton v).symm
  backed := List.forall_mem_singleton.mpr backed

theorem none : FirstWorstOf constant [] where
  eq := rfl
  backed := List.forall_mem_nil _

theorem join {a b : Verdict} {verdicts others : List Verdict} (left : FirstWorstOf a verdicts)
    (right : FirstWorstOf b others) : FirstWorstOf (a.join b) (verdicts ++ others) where
  eq := by rw [firstWorst_append right.backed, ← left.eq, ← right.eq]
  backed := List.forall_mem_append.mpr ⟨left.backed, right.backed⟩

theorem whole {v : Verdict} {verdicts : List Verdict} (first : FirstWorstOf v verdicts) :
    v.Backed := by
  rw [first.eq]
  exact Backed.firstWorst first.backed

/-- What is built of constants only is constant. -/
theorem staticConstant_iff {v : Verdict} {verdicts : List Verdict}
    (first : FirstWorstOf v verdicts) :
    v.constancy = .staticConstant ↔ ∀ w ∈ verdicts, w.constancy = .staticConstant := by
  rw [staticConstant_iff_rank, first.eq]
  constructor
  · intro trusted w member
    have below := rank_le_firstWorst verdicts w member
    exact staticConstant_iff_rank.mpr (by omega)
  · intro each
    cases found : verdicts.find? (isWorstOf verdicts) with
    | none =>
        rw [Verdict.firstWorst, found]
        rfl
    | some w =>
        rw [Verdict.firstWorst, found]
        exact staticConstant_iff_rank.mp (each w (List.mem_of_find?_eq_some found))

end FirstWorstOf

end Verdict

namespace Tracer

variable {tracer : Tracer}

/-- The verdict on an expression as part of some trace. -/
abbrev judged (tracer : Tracer) (onSymbol : OnSymbol) (active : ActiveTraces) (e : Expr Site) :
    Verdict :=
  (tracer.judge onSymbol e).value active

section Judge

variable {onSymbol : OnSymbol} {active : ActiveTraces}

mutual

/-- The verdict on an expression is that on the first of its worst leaves. -/
theorem judge_firstWorst
    (sound : ∀ e s, (onSymbol e s).Restores ∧ ((onSymbol e s).value active).Backed)
    (e : Expr Site) :
    Verdict.FirstWorstOf (tracer.judged onSymbol active e)
      ((tracer.leaves e).map (tracer.judged onSymbol active)) := by
  have composed : tracer.judged onSymbol active e =
      tracer.compose (fun u s => (onSymbol u s).value active) (tracer.judged onSymbol active) e :=
    value_judge (fun u s => (sound u s).1) active e
  cases e with
  | literal => exact .leaf Verdict.backed_constant
  | paren _ inner _ => exact judge_firstWorst sound inner
  | cast _ operand _ => exact judge_firstWorst sound operand
  | unary _ _ operand _ => exact judge_firstWorst sound operand
  | assign _ _ _ value _ => exact judge_firstWorst sound value
  | binary _ _ lhs rhs _ =>
      rw [leaves, List.map_append, composed]
      exact (judge_firstWorst sound lhs).join (judge_firstWorst sound rhs)
  | conditional _ _ whenTrue whenFalse _ =>
      rw [leaves, List.map_append, composed]
      exact (judge_firstWorst sound whenTrue).join (judge_firstWorst sound whenFalse)
  | ident | select =>
      refine .leaf ?_
      rw [composed]
      simp only [compose]
      split
      · exact (sound _ _).2
      · exact Verdict.backed_blame _ _ _
  | index => exact .leaf (Verdict.backed_blame _ _ _)
  | call label callee args symbol type =>
      -- a call that builds on its parts is flattened, every other call is a leaf
      simp only [compose] at composed
      simp only [leaves]
      split at composed
      · refine .leaf ?_
        rw [composed]
        exact Verdict.backed_safe
      · rw [List.map_append, composed]
        exact judgeAll_firstWorst sound args (judgeReceiver_firstWorst sound callee)
      · refine .leaf ?_
        rw [composed]
        exact Verdict.backed_blame _ _ _
  | creation label args body symbol type =>
      simp only [compose] at composed
      simp only [leaves]
      split at composed
      · next constructs =>
          rw [if_pos constructs, composed]
          exact judgeAll_firstWorst sound args .none
      · next other =>
          rw [if_neg other]
          refine .leaf ?_
          rw [composed]
          exact Verdict.backed_blame _ _ _

theorem judgeReceiver_firstWorst
    (sound : ∀ e s, (onSymbol e s).Restores ∧ ((onSymbol e s).value active).Backed)
    (callee : Expr Site) :
    Verdict.FirstWorstOf (receiverValue (tracer.judged onSymbol active) callee)
      ((tracer.receiverLeaves callee).map (tracer.judged onSymbol active)) := by
  cases callee with
  | select _ target _ _ _ => exact judge_firstWorst sound target
  | _ => exact .none

theorem judgeAll_firstWorst
    (sound : ∀ e s, (onSymbol e s).Restores ∧ ((onSymbol e s).value active).Backed)
    (es : List (Expr Site)) {v : Verdict} {verdicts : List Verdict}
    (start : Verdict.FirstWorstOf v verdicts) :
    Verdict.FirstWorstOf (Verdict.joinAll (tracer.judged onSymbol active) v es)
      (verdicts ++ (tracer.allLeaves es).map (tracer.judged onSymbol active)) := by
  cases es with
  | nil => simpa [allLeaves] using start
  | cons e es =>
      rw [allLeaves, List.map_append, ← List.append_assoc]
      exact judgeAll_firstWorst sound es (start.join (judge_firstWorst sound e))

end

end Judge

/-- What a variable is settled to has a witness just if it is unsafe. -/
theorem backed_settle {value : Expr Site → Verdict} (each : ∀ e, (value e).Backed)
    {undefined : Verdict} (start : undefined.Backed) (found : Option Definitions) :
    ((found.bind (settle value)).getD undefined).Backed := by
  rcases found with _ | ⟨_ | latest, updates⟩
  · exact start
  · exact start
  · exact Verdict.Backed.joinAll (fun e _ => each e) (each latest)

/-- A field is cleared by a constant, or is to blame itself. -/
theorem backed_clearField {blamed verdict : Verdict} (self : blamed.Backed)
    (traced : verdict.Backed) : (clearField blamed verdict).Backed := by
  unfold clearField
  split
  · exact traced
  · exact self

section Step

variable {depth : Nat} (inner : ∀ less, less < depth → ∀ context e active,
  ((tracer.traceExpr less context e).value active).Backed)

include inner

theorem backed_traceLocal (context : TraceContext) (use : Expr Site) (symbol : SymbolId)
    (active : ActiveTraces) :
    ((tracer.traceLocal (tracer.deeper depth) context use symbol).value active).Backed := by
  cases depth with
  | zero => exact Verdict.backed_blame _ _ _
  | succ depth =>
      by_cases again : use.label.number ∈ active.uses
      · rw [value_traceLocal_again again]
        exact Verdict.backed_constant
      · rw [value_traceLocal_succ again]
        refine backed_settle (fun e => ?_) (Verdict.backed_blame _ _ _) _
        exact inner depth (Nat.lt_succ_self depth) _ e _

theorem backed_traceField (use : Expr Site) (symbol : SymbolId) (active : ActiveTraces) :
    ((tracer.traceField (tracer.deeper depth) use symbol).value active).Backed := by
  have self : (tracer.unsafeField use symbol).Backed := Verdict.backed_blame _ _ _
  by_cases constant : (tracer.loaded.model.symbol symbol).constant.isSome
  · rw [value_traceField_constant constant]
    exact Verdict.backed_constant
  have noConstant := Bool.eq_false_iff.mpr constant
  have blamed (blocked : (tracer.loaded.model.symbol symbol).isFinal = false ∨
      tracer.deeper depth = none ∨ tracer.initializer? symbol = none) :
      ((tracer.traceField (tracer.deeper depth) use symbol).value active).Backed := by
    rw [value_traceField_blamed noConstant blocked]
    exact self
  by_cases isFinal : (tracer.loaded.model.symbol symbol).isFinal
  · cases found : tracer.initializer? symbol with
    | none => exact blamed (Or.inr (Or.inr found))
    | some init =>
        cases depth with
        | zero => exact blamed (Or.inr (Or.inl deeper_zero))
        | succ depth =>
            by_cases again : symbol ∈ active.fields
            · rw [value_traceField_again noConstant isFinal found again]
              exact Verdict.backed_constant
            · rw [value_traceField_succ noConstant isFinal found again]
              exact backed_clearField self (inner depth (Nat.lt_succ_self depth) none init _)
  · exact blamed (Or.inl (Bool.eq_false_iff.mpr isFinal))

theorem backed_traceSymbol (context : TraceContext) (use : Expr Site) (symbol : SymbolId)
    (active : ActiveTraces) :
    ((tracer.traceSymbol (tracer.deeper depth) context use symbol).value active).Backed := by
  unfold traceSymbol
  simp only
  split
  · exact Verdict.backed_constant
  · split
    · exact Verdict.backed_blame _ _ _
    · split
      · exact backed_traceLocal inner context use symbol active
      · split
        · exact backed_traceField inner use symbol active
        · exact Verdict.backed_blame _ _ _

end Step

/-- What one step of a trace does with the uses of symbols, given that the steps below it are
    backed. -/
theorem sound_traceSymbol {depth : Nat} (inner : ∀ less, less < depth → ∀ context e active,
    ((tracer.traceExpr less context e).value active).Backed) (context : TraceContext)
    (active : ActiveTraces) (use : Expr Site) (symbol : SymbolId) :
    (tracer.traceSymbol (tracer.deeper depth) context use symbol).Restores ∧
      ((tracer.traceSymbol (tracer.deeper depth) context use symbol).value active).Backed :=
  ⟨restores_deeper depth context use symbol, backed_traceSymbol inner context use symbol active⟩

/-- Every trace ends in a verdict that has a witness just if it is unsafe. -/
theorem backed_traceExpr (depth : Nat) : ∀ context e active,
    ((tracer.traceExpr depth context e).value active).Backed := by
  induction depth using Nat.strong_induction_on with
  | _ depth inner =>
      intro context e active
      rw [traceExpr_eq]
      exact (judge_firstWorst (sound_traceSymbol inner context active) e).whole

theorem traceExpr_firstWorst (depth : Nat) (context : TraceContext) (e : Expr Site)
    (active : ActiveTraces) :
    Verdict.FirstWorstOf ((tracer.traceExpr depth context e).value active)
      ((tracer.leaves e).map fun u => (tracer.traceExpr depth context u).value active) := by
  have stepwise : tracer.traceExpr depth context =
      tracer.judge (tracer.traceSymbol (tracer.deeper depth) context) := by
    funext part
    exact traceExpr_eq depth context part
  rw [stepwise]
  exact judge_firstWorst (sound_traceSymbol (fun less _ => backed_traceExpr less) context active) e

theorem backed_classify (context : TraceContext) (e : Expr Site) :
    (tracer.classify context e).Backed :=
  backed_traceExpr tracer.maxDepth context e .idle

theorem witness_classify_iff (context : TraceContext) (e : Expr Site) :
    (tracer.classify context e).witness.isSome ↔
      (tracer.classify context e).constancy = .dynamicUnsafe := by
  have backed : (tracer.classify context e).witness.isSome =
      decide ((tracer.classify context e).constancy = .dynamicUnsafe) :=
    backed_classify context e
  rw [backed, decide_eq_true_iff]

theorem classify_firstWorst (context : TraceContext) (e : Expr Site) :
    Verdict.FirstWorstOf (tracer.classify context e)
      ((tracer.leaves e).map (tracer.classify context)) :=
  traceExpr_firstWorst tracer.maxDepth context e .idle

/-- How concatenations are nested does not matter, nor how the operators are typed. -/
theorem classify_regroup (context : TraceContext) (a b c : Expr Site) (l₁ l₂ l₃ l₄ : Site)
    (op₁ op₂ op₃ op₄ : BinaryOp) (t₁ t₂ t₃ t₄ : Option String) :
    tracer.classify context (.binary l₁ op₁ (.binary l₂ op₂ a b t₂) c t₁) =
      tracer.classify context (.binary l₃ op₃ a (.binary l₄ op₄ b c t₄) t₃) := by
  have flat : tracer.leaves (.binary l₁ op₁ (.binary l₂ op₂ a b t₂) c t₁) =
      tracer.leaves (.binary l₃ op₃ a (.binary l₄ op₄ b c t₄) t₃) :=
    List.append_assoc _ _ _
  rw [(classify_firstWorst context _).eq, flat, ← (classify_firstWorst context _).eq]

end Tracer

namespace Rule

/-- What is told about a query that a witness is to blame for, unless the sink has advice. -/
def blameMessage (witness : Witness) : String :=
  "\"" ++ witness.name ++ "\" is provided externally to the method and not sanitized before use."

/-- A query is reported just if its verdict names a witness, which the message then can name too. -/
theorem visit_sqlInjection (here : Surroundings) (call : Expr Site) :
    sqlInjection.visit here (.expr call) =
      ((sinkOfCall? here call).bind fun reached =>
        (here.classify reached.2).witness.map fun witness =>
          Answer.ofReports [.about (.expr call)
            (reached.1.remediation.getD (blameMessage witness))]).getD .nothing := by
  simp only [sqlInjection]
  cases sinkOfCall? here call with
  | none => rfl
  | some reached =>
      obtain ⟨sink, query⟩ := reached
      have backed : (here.classify query).witness.isSome = (here.classify query).isUnsafe :=
        Tracer.backed_classify _ query
      simp only [Option.bind_some]
      cases blamed : (here.classify query).witness with
      | none =>
          rw [blamed, Option.isSome_none] at backed
          rw [if_neg (by simp [← backed])]
          rfl
      | some witness =>
          rw [blamed, Option.isSome_some] at backed
          rw [if_pos backed.symm]
          unfold injectionMessage
          rw [blamed]
          cases sink.remediation <;> rfl

end Rule

/-- The verdict on an expression is that on the first of its worst leaves, so regrouping changes
    nothing. A verdict has a witness just if it is unsafe, and a query is reported just where its
    verdict has one; the message without a witness is never told. -/
theorem Tracer.classify_eq_firstWorst (tracer : Tracer) (context : TraceContext) :
    (∀ e, tracer.classify context e =
      Verdict.firstWorst ((tracer.leaves e).map (tracer.classify context))) ∧
    (∀ (a b c : Expr Site) (l₁ l₂ l₃ l₄ : Site) (op₁ op₂ op₃ op₄ : BinaryOp)
      (t₁ t₂ t₃ t₄ : Option String),
      tracer.classify context (.binary l₁ op₁ (.binary l₂ op₂ a b t₂) c t₁) =
        tracer.classify context (.binary l₃ op₃ a (.binary l₄ op₄ b c t₄) t₃)) ∧
    (∀ e, (tracer.classify context e).witness.isSome ↔
      (tracer.classify context e).constancy = .dynamicUnsafe) ∧
    ∀ (here : Surroundings) (call : Expr Site),
      Rule.sqlInjection.visit here (.expr call) =
        ((Rule.sinkOfCall? here call).bind fun reached =>
          (here.classify reached.2).witness.map fun witness =>
            Answer.ofReports [.about (.expr call)
              (reached.1.remediation.getD (Rule.blameMessage witness))]).getD .nothing := by
  refine ⟨?_, ?_, ?_, ?_⟩
  · intro e
    exact (classify_firstWorst context e).eq
  · intro a b c l₁ l₂ l₃ l₄ op₁ op₂ op₃ op₄ t₁ t₂ t₃ t₄
    exact classify_regroup context a b c l₁ l₂ l₃ l₄ op₁ op₂ op₃ op₄ t₁ t₂ t₃ t₄
  · intro e
    exact witness_classify_iff context e
  · intro here call
    exact Rule.visit_sqlInjection here call

end BugPatterns
