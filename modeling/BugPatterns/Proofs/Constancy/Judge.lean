import BugPatterns.Constancy.Trace
import BugPatterns.Proofs.Constancy.Verdict

/-!
# Verdicts on composed expressions

A trace leaves what is being traced as it found it (`TraceM.Restores`), so the verdict on an
expression depends on its parts through their verdicts alone: `Tracer.compose` tells how, one level
at a time. `Tracer.leaves` lists the parts at which the composition ends, from left to right, and
`Tracer.judge_rel` carries a relation from the verdicts on the leaves to the verdict on the whole,
and `Tracer.judge_rel_between` does so for two tracers.
-/

namespace BugPatterns

namespace TraceM

variable {α β : Type}

/-- The result of a computation that starts while some traces are active. -/
def value (active : ActiveTraces) (x : TraceM α) : α := (x.run active).1

/-- The computation ends with the traces active that were active at its start. -/
def Restores (x : TraceM α) : Prop := ∀ active, (x.run active).2 = active

theorem restores_pure (a : α) : Restores (pure a : TraceM α) := fun _ => rfl

theorem Restores.bind {x : TraceM α} {f : α → TraceM β} (first : x.Restores)
    (rest : ∀ a, (f a).Restores) : (x >>= f).Restores := by
  intro active
  show ((f (x.run active).1).run (x.run active).2).2 = active
  rw [rest, first]

theorem value_bind {x : TraceM α} (first : x.Restores) (active : ActiveTraces) (f : α → TraceM β) :
    value active (x >>= f) = value active (f (value active x)) := by
  show ((f (x.run active).1).run (x.run active).2).1 = _
  rw [first]
  rfl

theorem value_get_bind (active : ActiveTraces) (f : ActiveTraces → TraceM β) :
    value active (get >>= f) = value active (f active) := rfl

theorem Restores.get_bind {f : ActiveTraces → TraceM β} (rest : ∀ a, (f a).Restores) :
    (get >>= f).Restores := fun active => rest active active

theorem value_withUse (active : ActiveTraces) (use : Nat) (inner : TraceM α) :
    value active (withUse use inner) =
      value { active with uses := use :: active.uses } inner := rfl

theorem Restores.withUse {inner : TraceM α} (restores : inner.Restores) (use : Nat) :
    (withUse use inner).Restores := by
  intro active
  have inside := restores { active with uses := use :: active.uses }
  show ActiveTraces.mk ((inner.run ⟨use :: active.uses, active.fields⟩).2.uses.erase use)
    (inner.run ⟨use :: active.uses, active.fields⟩).2.fields = active
  rw [inside, List.erase_cons_head]

theorem Restores.withField {inner : TraceM α} (restores : inner.Restores) (field : SymbolId) :
    (withField field inner).Restores := by
  intro active
  have inside := restores { active with fields := field :: active.fields }
  show ActiveTraces.mk (inner.run ⟨active.uses, field :: active.fields⟩).2.uses
    ((inner.run ⟨active.uses, field :: active.fields⟩).2.fields.erase field) = active
  rw [inside, List.erase_cons_head]

end TraceM

namespace Tracer

variable (tracer : Tracer)

/-- How the verdicts on uses of symbols are found. -/
abbrev OnSymbol := Expr Site → SymbolId → TraceM Verdict

section Restores

variable {tracer} {onSymbol : OnSymbol}

mutual

theorem restores_judge (restores : ∀ e s, (onSymbol e s).Restores) (e : Expr Site) :
    (tracer.judge onSymbol e).Restores := by
  cases e with
  | literal => exact TraceM.restores_pure _
  | paren _ inner _ => exact restores_judge restores inner
  | cast _ operand _ => exact restores_judge restores operand
  | unary _ _ operand _ => exact restores_judge restores operand
  | binary _ _ lhs rhs _ =>
      exact (restores_judge restores lhs).bind fun _ =>
        (restores_judge restores rhs).bind fun _ => TraceM.restores_pure _
  | conditional _ _ whenTrue whenFalse _ =>
      exact (restores_judge restores whenTrue).bind fun _ =>
        (restores_judge restores whenFalse).bind fun _ => TraceM.restores_pure _
  | assign _ _ _ value _ => exact restores_judge restores value
  | ident label name symbol type =>
      rw [judge]
      split
      · exact restores _ _
      · exact TraceM.restores_pure _
  | select label target name symbol type =>
      rw [judge]
      split
      · exact restores _ _
      · exact TraceM.restores_pure _
  | call label callee args symbol type =>
      rw [judge]
      split
      · exact TraceM.restores_pure _
      · exact (restores_judgeReceiver restores callee).bind fun verdict =>
          restores_judgeAll restores verdict args
      · exact TraceM.restores_pure _
  | creation label args body symbol type =>
      rw [judge]
      split
      · exact restores_judgeAll restores _ args
      · exact TraceM.restores_pure _
  | index => exact TraceM.restores_pure _

theorem restores_judgeReceiver (restores : ∀ e s, (onSymbol e s).Restores) (e : Expr Site) :
    (tracer.judgeReceiver onSymbol e).Restores := by
  cases e with
  | select _ target _ _ _ => exact restores_judge restores target
  | _ => exact TraceM.restores_pure _

theorem restores_judgeAll (restores : ∀ e s, (onSymbol e s).Restores) (verdict : Verdict)
    (es : List (Expr Site)) :
    (tracer.judgeAll onSymbol verdict es).Restores := by
  cases es with
  | nil => exact TraceM.restores_pure _
  | cons e es => exact (restores_judge restores e).bind fun _ => restores_judgeAll restores _ es

end

end Restores

/-- The verdict on the value that a method is called on, given the verdicts on expressions. -/
def receiverValue (value : Expr Site → Verdict) : Expr Site → Verdict
  | .select _ target _ _ _ => value target
  | _ => .constant

/-- The verdict on an expression, given those on its parts and, for a use of a symbol, the one on
    the use. -/
def compose (leaf : Expr Site → SymbolId → Verdict) (value : Expr Site → Verdict) :
    Expr Site → Verdict
  | .literal .. => .constant
  | .paren _ inner _ => value inner
  | .cast _ operand _ => value operand
  | .unary _ _ operand _ => value operand
  | .binary _ _ lhs rhs _ => (value lhs).join (value rhs)
  | .conditional _ _ whenTrue whenFalse _ => (value whenTrue).join (value whenFalse)
  | .assign _ _ _ assigned _ => value assigned
  | e@(.ident _ name _ _) =>
      match tracer.loaded.symbolOf e with
      | some symbol => leaf e symbol
      | none => e.blame name .unresolved
  | e@(.select _ _ name _ _) =>
      match tracer.loaded.symbolOf e with
      | some symbol => leaf e symbol
      | none => e.blame name .unresolved
  | e@(.call _ callee args _ _) =>
      match tracer.callEffect? e callee with
      | some .safe => .safe
      | some _ => Verdict.joinAll value (receiverValue value callee) args
      | none => e.blame e.describe .call
  | e@(.creation _ args body _ _) =>
      if tracer.constructs e body then Verdict.joinAll value .constant args
      else e.blame e.describe .call
  | e@(.index ..) => e.blame e.describe .expression

section Value

variable {tracer} {onSymbol : OnSymbol} (restores : ∀ e s, (onSymbol e s).Restores)
  (active : ActiveTraces)

theorem value_judgeUpdates {judgeIn : Expr Site → TraceM Verdict}
    (restoresIn : ∀ e, (judgeIn e).Restores) (es : List (Expr Site)) : ∀ verdict,
    (judgeUpdates judgeIn verdict es).value active =
      Verdict.joinAll (fun e => (judgeIn e).value active) verdict es := by
  induction es with
  | nil => exact fun _ => rfl
  | cons e es ih =>
      intro verdict
      rw [judgeUpdates, TraceM.value_bind (restoresIn e)]
      exact ih _

theorem value_judgeReceiver (e : Expr Site) :
    (tracer.judgeReceiver onSymbol e).value active =
      receiverValue (fun part => (tracer.judge onSymbol part).value active) e := by
  cases e <;> rfl

include restores

theorem value_judgeAll (es : List (Expr Site)) : ∀ verdict,
    (tracer.judgeAll onSymbol verdict es).value active =
      Verdict.joinAll (fun e => (tracer.judge onSymbol e).value active) verdict es := by
  induction es with
  | nil => exact fun _ => rfl
  | cons e es ih =>
      intro verdict
      rw [judgeAll, TraceM.value_bind (restores_judge restores e)]
      exact ih _

/-- The verdict on an expression is composed from the verdicts on its parts. -/
theorem value_judge (e : Expr Site) :
    (tracer.judge onSymbol e).value active =
      tracer.compose (fun u s => (onSymbol u s).value active)
        (fun part => (tracer.judge onSymbol part).value active) e := by
  cases e with
  | binary _ _ lhs rhs _ =>
      rw [judge, TraceM.value_bind (restores_judge restores lhs),
        TraceM.value_bind (restores_judge restores rhs)]
      rfl
  | conditional _ _ whenTrue whenFalse _ =>
      rw [judge, TraceM.value_bind (restores_judge restores whenTrue),
        TraceM.value_bind (restores_judge restores whenFalse)]
      rfl
  | ident label name symbol type =>
      simp only [judge, compose]
      cases tracer.loaded.symbolOf (.ident label name symbol type) <;> rfl
  | select label target name symbol type =>
      simp only [judge, compose]
      cases tracer.loaded.symbolOf (.select label target name symbol type) <;> rfl
  | call label callee args symbol type =>
      have built : (do
          let receiver ← tracer.judgeReceiver onSymbol callee
          tracer.judgeAll onSymbol receiver args : TraceM Verdict).value active =
          Verdict.joinAll (fun part => (tracer.judge onSymbol part).value active)
            (receiverValue (fun part => (tracer.judge onSymbol part).value active) callee)
            args := by
        rw [TraceM.value_bind (restores_judgeReceiver restores callee), value_judgeAll restores,
          value_judgeReceiver]
      simp only [judge, compose]
      cases tracer.callEffect? (.call label callee args symbol type) callee with
      | none => rfl
      | some effect =>
          cases effect with
          | safe => rfl
          | propagate => exact built
          | mutate => exact built
  | creation label args body symbol type =>
      simp only [judge, compose]
      split
      · exact value_judgeAll restores active args _
      · rfl
  | _ => rfl

end Value

mutual

/-- The parts of an expression that its verdict is composed from in the end, from left to right. -/
def leaves : Expr Site → List (Expr Site)
  | .paren _ inner _ => leaves inner
  | .cast _ operand _ => leaves operand
  | .unary _ _ operand _ => leaves operand
  | .binary _ _ lhs rhs _ => leaves lhs ++ leaves rhs
  | .conditional _ _ whenTrue whenFalse _ => leaves whenTrue ++ leaves whenFalse
  | .assign _ _ _ value _ => leaves value
  | e@(.call _ callee args _ _) =>
      match tracer.callEffect? e callee with
      | some .safe => [e]
      | some _ => receiverLeaves callee ++ allLeaves args
      | none => [e]
  | e@(.creation _ args body _ _) => if tracer.constructs e body then allLeaves args else [e]
  | e => [e]

/-- The leaves of the value that a method is called on. -/
def receiverLeaves : Expr Site → List (Expr Site)
  | .select _ target _ _ _ => leaves target
  | _ => []

/-- The leaves of some expressions. -/
def allLeaves : List (Expr Site) → List (Expr Site)
  | [] => []
  | e :: es => leaves e ++ allLeaves es

end

section Relation

variable {tracer} {other : Tracer} {R : Verdict → Verdict → Prop} {first second : OnSymbol}
  {here there : ActiveTraces}

/-- The second tracer composes verdicts like the first one, except that it may build further new
    objects from their arguments. What these are blamed for is then related to any verdict. -/
structure ComposesLike (R : Verdict → Verdict → Prop) (tracer other : Tracer) : Prop where
  loaded : other.loaded = tracer.loaded
  effects : other.callEffect? = tracer.callEffect?
  constructs : ∀ e body, other.constructs e body = tracer.constructs e body ∨
    tracer.constructs e body = false ∧ ∀ v, R (e.blame e.describe .call) v

theorem ComposesLike.refl : ComposesLike R tracer tracer := ⟨rfl, rfl, fun _ _ => .inl rfl⟩

mutual

/-- A relation between the verdicts that two tracers have on the leaves holds between their verdicts
    on the whole. -/
theorem judge_rel_between (relation : Verdict.JoinRelation R) (like : ComposesLike R tracer other)
    (restores : ∀ e s, (first e s).Restores ∧ (second e s).Restores) (e : Expr Site)
    (related : ∀ u ∈ tracer.leaves e, ∀ s, tracer.loaded.symbolOf u = some s →
      R ((first u s).value here) ((second u s).value there)) :
    R ((tracer.judge first e).value here) ((other.judge second e).value there) := by
  rw [value_judge fun e s => (restores e s).1, value_judge fun e s => (restores e s).2]
  cases e with
  | literal => exact relation.refl _
  | paren _ inner _ => exact judge_rel_between relation like restores inner related
  | cast _ operand _ => exact judge_rel_between relation like restores operand related
  | unary _ _ operand _ => exact judge_rel_between relation like restores operand related
  | binary _ _ lhs rhs _ =>
      exact relation.join
        (judge_rel_between relation like restores lhs
          fun u member => related u (List.mem_append_left _ member))
        (judge_rel_between relation like restores rhs
          fun u member => related u (List.mem_append_right _ member))
  | conditional _ _ whenTrue whenFalse _ =>
      exact relation.join
        (judge_rel_between relation like restores whenTrue
          fun u member => related u (List.mem_append_left _ member))
        (judge_rel_between relation like restores whenFalse
          fun u member => related u (List.mem_append_right _ member))
  | assign _ _ _ value _ => exact judge_rel_between relation like restores value related
  | ident label name symbol type =>
      simp only [compose, like.loaded]
      split
      · next s bound => exact related _ List.mem_cons_self s bound
      · exact relation.refl _
  | select label target name symbol type =>
      simp only [compose, like.loaded]
      split
      · next s bound => exact related _ List.mem_cons_self s bound
      · exact relation.refl _
  | call label callee args symbol type =>
      simp only [leaves] at related
      simp only [compose, like.effects]
      generalize tracer.callEffect? (.call label callee args symbol type) callee = known
        at related ⊢
      cases known with
      | none => exact relation.refl _
      | some effect =>
          cases effect with
          | safe => exact relation.refl _
          | propagate | mutate =>
              exact judgeAll_rel_between relation like restores args
                (fun u member => related u (List.mem_append_right _ member))
                (receiver_rel_between relation like restores callee
                  fun u member => related u (List.mem_append_left _ member))
  | creation label args body symbol type =>
      simp only [leaves] at related
      simp only [compose]
      rcases like.constructs (.creation label args body symbol type) body with
        same | ⟨silent, blamed⟩
      · rw [same]
        split
        · next propagates =>
            rw [if_pos propagates] at related
            exact judgeAll_rel_between relation like restores args related (relation.refl _)
        · exact relation.refl _
      · rw [silent]
        exact blamed _
  | index => exact relation.refl _

theorem receiver_rel_between (relation : Verdict.JoinRelation R)
    (like : ComposesLike R tracer other)
    (restores : ∀ e s, (first e s).Restores ∧ (second e s).Restores) (e : Expr Site)
    (related : ∀ u ∈ tracer.receiverLeaves e, ∀ s, tracer.loaded.symbolOf u = some s →
      R ((first u s).value here) ((second u s).value there)) :
    R (receiverValue (fun part => (tracer.judge first part).value here) e)
      (receiverValue (fun part => (other.judge second part).value there) e) := by
  cases e with
  | select _ target _ _ _ => exact judge_rel_between relation like restores target related
  | _ => exact relation.refl _

theorem judgeAll_rel_between (relation : Verdict.JoinRelation R)
    (like : ComposesLike R tracer other)
    (restores : ∀ e s, (first e s).Restores ∧ (second e s).Restores) (es : List (Expr Site))
    (related : ∀ u ∈ tracer.allLeaves es, ∀ s, tracer.loaded.symbolOf u = some s →
      R ((first u s).value here) ((second u s).value there))
    {a b : Verdict} (start : R a b) :
    R (Verdict.joinAll (fun part => (tracer.judge first part).value here) a es)
      (Verdict.joinAll (fun part => (other.judge second part).value there) b es) := by
  cases es with
  | nil => exact start
  | cons e es =>
      exact judgeAll_rel_between relation like restores es
        (fun u member => related u (List.mem_append_right _ member))
        (relation.join start (judge_rel_between relation like restores e
          fun u member => related u (List.mem_append_left _ member)))

end

/-- A relation between the verdicts on the leaves holds between the verdicts on the whole. -/
theorem judge_rel (relation : Verdict.JoinRelation R)
    (restores : ∀ e s, (first e s).Restores ∧ (second e s).Restores) (e : Expr Site)
    (related : ∀ u ∈ tracer.leaves e, ∀ s, tracer.loaded.symbolOf u = some s →
      R ((first u s).value here) ((second u s).value there)) :
    R ((tracer.judge first e).value here) ((tracer.judge second e).value there) :=
  judge_rel_between relation .refl restores e related

end Relation

end Tracer

end BugPatterns
