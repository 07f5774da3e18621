import Mathlib.Data.List.Basic

/-!
# Walks that stop at a failure

A walk hands items to an action, one after the other; which item comes next may depend on the
answers. The action may change a state, and it may fail. A walk stops at failures
(`StopsAtFailure`) if a call that fails is the last one and settles the result, while everything
before goes as it would with an action that never fails.

A course tells what a walk does without saying what its action does: which item is handed out, and
how the walk goes on after each answer. All walks that follow a course stop at failures
(`StopsAtFailure.of_follow`).
-/

namespace BugPatterns

variable {ε σ β ρ : Type}

/-- An action on items that may change a state and may fail. What it did before it failed stays. -/
abbrev Callback (ε σ β ρ : Type) := β → ExceptT ε (StateM σ) ρ

namespace Callback

/-- The action does not fail on an item in a state. -/
def Succeeds (act : Callback ε σ β ρ) (call : β × σ) : Prop :=
  ∃ answer after, act call.1 call.2 = (.ok answer, after)

/-- The action that never fails: where it would, it does something else. -/
def mended (act : Callback ε σ β ρ) (otherwise : β → σ → ρ × σ) : Callback ε σ β ρ :=
  fun item state =>
    match act item state with
    | (.ok answer, after) => (.ok answer, after)
    | (.error _, _) => (.ok (otherwise item state).1, (otherwise item state).2)

/-- The action with a list of its calls: the items, and the states in which they were handed out. -/
def logged (act : Callback ε σ β ρ) : Callback ε (List (β × σ) × σ) β ρ :=
  fun item (calls, state) =>
    let (answer, after) := act item state
    (answer, calls ++ [(item, state)], after)

theorem mended_of_ok {act : Callback ε σ β ρ} {item : β} {state after : σ} {answer : ρ}
    (succeeded : act item state = (.ok answer, after)) (otherwise : β → σ → ρ × σ) :
    act.mended otherwise item state = (.ok answer, after) := by
  unfold mended
  rw [succeeded]

end Callback

/-- A walk, for all effects that its action may have. -/
abbrev Walk (β ρ : Type) : Type 1 := ∀ {m : Type → Type} [Monad m], (β → m ρ) → m Unit

/-- How a walk went: its result, the calls of its action, and the state in the end. -/
structure Outcome (ε σ β : Type) where
  result : Except ε Unit
  calls : List (β × σ)
  final : σ

/-- The outcome of a walk that made one more call at its start. -/
def Outcome.afterCall (call : β × σ) (outcome : Outcome ε σ β) : Outcome ε σ β :=
  { outcome with calls := call :: outcome.calls }

/-- Runs a walk with a list of the calls of its action. -/
def Walk.outcome (walk : Walk β ρ) (act : Callback ε σ β ρ) (start : σ) : Outcome ε σ β :=
  let (result, calls, final) := (walk act.logged).run.run ([], start)
  ⟨result, calls, final⟩

/-- The first failing call ends a walk. Compared with an action that never fails and else does the
    same, the calls are the same up to that one; if none of them fails nothing differs. -/
structure StopsAtFailure (walk : Walk β ρ) : Prop where
  unlogged : ∀ {ε σ : Type} (act : Callback ε σ β ρ) (start : σ),
    (walk act).run.run start = ((walk.outcome act start).result, (walk.outcome act start).final)
  completes : ∀ {ε σ : Type} (act : Callback ε σ β ρ) (otherwise : β → σ → ρ × σ) (start : σ),
    (∀ call ∈ (walk.outcome (act.mended otherwise) start).calls, act.Succeeds call) →
      walk.outcome act start = walk.outcome (act.mended otherwise) start ∧
        (walk.outcome act start).result = .ok ()
  stops : ∀ {ε σ : Type} (act : Callback ε σ β ρ) (otherwise : β → σ → ρ × σ) (start : σ)
    (n : Nat) (item : β) (found left : σ) (cause : ε),
    (walk.outcome (act.mended otherwise) start).calls[n]? = some (item, found) →
    (∀ call ∈ (walk.outcome (act.mended otherwise) start).calls.take n, act.Succeeds call) →
    act item found = (.error cause, left) →
      walk.outcome act start =
        ⟨.error cause, (walk.outcome (act.mended otherwise) start).calls.take (n + 1), left⟩

/-- Which item a walk hands out first, and how it goes on after each answer. -/
inductive Course (β ρ : Type) where
  | finished
  | call (item : β) (onward : ρ → Course β ρ)

namespace Course

/-- One course after another. -/
def append : Course β ρ → Course β ρ → Course β ρ
  | .finished, next => next
  | .call item onward, next => .call item fun answer => (onward answer).append next

/-- The course that hands out the items of a list. -/
def ofItems : List β → Course β ρ
  | [] => .finished
  | item :: items => .call item fun _ => ofItems items

/-- Follows a course with an action. -/
def follow {m : Type → Type} [Monad m] (act : β → m ρ) : Course β ρ → m Unit
  | .finished => pure ()
  | .call item onward => do
      let answer ← act item
      (onward answer).follow act

section Follow

variable {m : Type → Type} [Monad m]

theorem follow_append [LawfulMonad m] (act : β → m ρ) (course next : Course β ρ) :
    (course.append next).follow act = course.follow act >>= fun _ => next.follow act := by
  induction course with
  | finished => rw [append, follow, pure_bind]
  | call item onward ih => simp only [append, follow, ih, bind_assoc]

theorem follow_ofItems (act : β → m Unit) (items : List β) :
    (ofItems items).follow act = forM items act := by
  induction items with
  | nil => rw [ofItems, follow, List.forM_nil]
  | cons item items ih => simp only [ofItems, follow, ih, List.forM_cons]

end Follow

/-- How a course goes that is followed with an action. -/
def outcome (act : Callback ε σ β ρ) : Course β ρ → σ → Outcome ε σ β
  | .finished, state => ⟨.ok (), [], state⟩
  | .call item onward, state =>
      match act item state with
      | (.ok answer, after) => ((onward answer).outcome act after).afterCall (item, state)
      | (.error cause, after) => ⟨.error cause, [(item, state)], after⟩

section Outcome

variable {act : Callback ε σ β ρ} {item : β} {onward : ρ → Course β ρ} {state after : σ}

theorem outcome_call_of_ok {answer : ρ} (succeeded : act item state = (.ok answer, after)) :
    (Course.call item onward).outcome act state =
      ((onward answer).outcome act after).afterCall (item, state) := by
  rw [outcome, succeeded]

theorem outcome_call_of_error {cause : ε} (failed : act item state = (.error cause, after)) :
    (Course.call item onward).outcome act state = ⟨.error cause, [(item, state)], after⟩ := by
  rw [outcome, failed]

/-- The first call of a course is that of its first item, whatever comes of it. -/
theorem exists_calls_call (act : Callback ε σ β ρ) (item : β) (onward : ρ → Course β ρ)
    (state : σ) :
    ∃ rest, ((Course.call item onward).outcome act state).calls = (item, state) :: rest := by
  rcases called : act item state with ⟨cause | answer, after⟩
  · exact ⟨[], by rw [outcome_call_of_error called]⟩
  · exact ⟨_, by rw [outcome_call_of_ok called, Outcome.afterCall]⟩

end Outcome

theorem run_follow_call (act : Callback ε σ β ρ) (item : β) (onward : ρ → Course β ρ)
    (state : σ) :
    ((Course.call item onward).follow act).run.run state =
      match act item state with
      | (.ok answer, after) => ((onward answer).follow act).run.run after
      | (.error cause, after) => (.error cause, after) := by
  show (act item >>= fun answer => (onward answer).follow act) state = _
  simp only [bind, ExceptT.bind, ExceptT.mk, StateT.bind, ExceptT.bindCont]
  rcases act item state with ⟨cause | answer, after⟩ <;> rfl

theorem run_follow (act : Callback ε σ β ρ) (course : Course β ρ) :
    ∀ state, (course.follow act).run.run state =
      ((course.outcome act state).result, (course.outcome act state).final) := by
  induction course with
  | finished => exact fun _ => rfl
  | call item onward ih =>
      intro state
      rw [run_follow_call]
      rcases called : act item state with ⟨cause | answer, after⟩
      · rw [outcome_call_of_error called]
      · rw [outcome_call_of_ok called]
        exact ih answer after

/-- Following a course with a list of the calls adds them to those that are listed. -/
theorem run_follow_logged (act : Callback ε σ β ρ) (course : Course β ρ) :
    ∀ calls state, (course.follow act.logged).run.run (calls, state) =
      ((course.outcome act state).result, calls ++ (course.outcome act state).calls,
        (course.outcome act state).final) := by
  induction course with
  | finished =>
      intro calls state
      rw [outcome, List.append_nil]
      rfl
  | call item onward ih =>
      intro calls state
      rw [run_follow_call, Callback.logged]
      rcases called : act item state with ⟨cause | answer, after⟩
      · rw [outcome_call_of_error called]
      · have rest := ih answer (calls ++ [(item, state)]) after
        rw [List.append_assoc, List.singleton_append] at rest
        rw [outcome_call_of_ok called]
        exact rest

/-- If no call of the mended action would have failed, the action does what the mended one does. -/
theorem outcome_of_succeeds {act : Callback ε σ β ρ} {otherwise : β → σ → ρ × σ}
    (course : Course β ρ) : ∀ state,
      (∀ call ∈ (course.outcome (act.mended otherwise) state).calls, act.Succeeds call) →
        course.outcome act state = course.outcome (act.mended otherwise) state ∧
          (course.outcome act state).result = .ok () := by
  induction course with
  | finished => exact fun _ _ => ⟨rfl, rfl⟩
  | call item onward ih =>
      intro state succeed
      obtain ⟨rest, calls⟩ := exists_calls_call (act.mended otherwise) item onward state
      obtain ⟨answer, after, first⟩ := succeed (item, state) (calls ▸ List.mem_cons_self)
      have mended := Callback.mended_of_ok first otherwise
      rw [outcome_call_of_ok mended] at succeed ⊢
      obtain ⟨same, completed⟩ := ih answer after fun call listed =>
        succeed call (List.mem_cons_of_mem _ listed)
      rw [outcome_call_of_ok first, same]
      exact ⟨rfl, same ▸ completed⟩

/-- The first call that fails is the last one of the action, and settles the result. -/
theorem outcome_of_fails {act : Callback ε σ β ρ} {otherwise : β → σ → ρ × σ} {failing : β}
    {found left : σ} {cause : ε} (failed : act failing found = (.error cause, left))
    (course : Course β ρ) : ∀ state n,
      (course.outcome (act.mended otherwise) state).calls[n]? = some (failing, found) →
      (∀ call ∈ (course.outcome (act.mended otherwise) state).calls.take n, act.Succeeds call) →
        course.outcome act state =
          ⟨.error cause, (course.outcome (act.mended otherwise) state).calls.take (n + 1),
            left⟩ := by
  induction course with
  | finished =>
      intro state n there
      cases there
  | call item onward ih =>
      intro state n there succeed
      obtain ⟨rest, calls⟩ := exists_calls_call (act.mended otherwise) item onward state
      cases n with
      | zero =>
          rw [calls, List.getElem?_cons_zero, Option.some.injEq, Prod.mk.injEq] at there
          obtain ⟨rfl, rfl⟩ := there
          rw [outcome_call_of_error failed, calls, List.take_succ_cons, List.take_zero]
      | succ n =>
          rw [calls, List.take_succ_cons] at succeed
          obtain ⟨answer, after, first⟩ := succeed (item, state) List.mem_cons_self
          have mended : (Course.call item onward).outcome (act.mended otherwise) state = _ :=
            outcome_call_of_ok (Callback.mended_of_ok first otherwise)
          rw [outcome_call_of_ok first, mended]
          rw [mended] at calls there
          obtain ⟨-, rfl⟩ := List.cons.inj calls
          rw [ih answer after n there fun call listed =>
            succeed call (List.mem_cons_of_mem _ listed)]
          rfl

end Course

/-- A walk that follows a course stops at failures. -/
theorem StopsAtFailure.of_follow {walk : Walk β ρ} (course : Course β ρ)
    (follows : ∀ {m : Type → Type} [Monad m] [LawfulMonad m] (act : β → m ρ),
      walk act = course.follow act) : StopsAtFailure walk := by
  have outcomes {ε σ : Type} (act : Callback ε σ β ρ) (start : σ) :
      walk.outcome act start = course.outcome act start := by
    rw [Walk.outcome, follows, Course.run_follow_logged, List.nil_append]
  refine ⟨fun act start => ?_, fun act otherwise start succeed => ?_,
    fun act otherwise start n item found left cause there succeed failed => ?_⟩
  · rw [follows, Course.run_follow, outcomes]
  · rw [outcomes] at succeed
    rw [outcomes, outcomes]
    exact Course.outcome_of_succeeds course start succeed
  · rw [outcomes] at there succeed
    rw [outcomes, outcomes]
    exact Course.outcome_of_fails failed course start n there succeed

end BugPatterns
