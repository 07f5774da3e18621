import Mathlib.Data.List.Basic

/-!
# Computations that may fail

A computation succeeds exactly when each of its steps does.
-/

namespace BugPatterns

variable {ε α β σ : Type}

/-- A computation whose first step succeeds goes on with its result. -/
theorem bind_ok {first : Except ε α} {rest : α → Except ε β} {a : α} {result : Except ε β}
    (one : first = .ok a) (two : rest a = result) : (first >>= rest) = result := by
  rw [one]
  exact two

/-- Two computations, one after the other. -/
theorem bind_eq_ok {first : Except ε α} {rest : α → Except ε β} {result : β} :
    (first >>= rest) = .ok result ↔ ∃ a, first = .ok a ∧ rest a = .ok result := by
  cases first with
  | error cause => simp [bind, Except.bind]
  | ok a => simp [bind, Except.bind]

/-- A computation that is refused in one case succeeds just in the other. -/
theorem ite_error_eq_ok {refused : Prop} [Decidable refused] {cause : ε} {made result : α} :
    (if refused then .error cause else .ok made : Except ε α) = .ok result ↔
      ¬ refused ∧ result = made := by
  split <;> simp_all [eq_comm]

/-- What is read back is written again for itself. -/
theorem rewrite_rewrite {read : β → Except ε α} {write : α → β}
    (back : ∀ a, read (write a) = .ok a) (b : β) :
    ((write <$> read b) >>= fun written => write <$> read written) = write <$> read b := by
  cases first : read b with
  | error cause => rfl
  | ok a => exact congrArg (write <$> ·) (back a)

/-- A fold over one more item starts with a step for it. -/
theorem foldlM_cons_eq_ok {f : σ → α → Except ε σ} {start result : σ} {a : α} {items : List α} :
    (a :: items).foldlM f start = .ok result ↔
      ∃ next, f start a = .ok next ∧ items.foldlM f next = .ok result := by
  rw [List.foldlM_cons]
  exact bind_eq_ok

theorem foldlM_nil_eq_ok {f : σ → α → Except ε σ} {start result : σ} :
    [].foldlM f start = .ok result ↔ result = start := by
  rw [List.foldlM_nil]
  constructor
  · intro same
    exact (Except.ok.inj same).symm
  · rintro rfl
    rfl

/-- A fold fails where the first step fails that comes after steps that succeed. -/
theorem foldlM_eq_error {f : σ → α → Except ε σ} {cause : ε} {items : List α} :
    ∀ {start : σ}, items.foldlM f start = .error cause ↔ ∃ before a after reached,
      items = before ++ a :: after ∧ before.foldlM f start = .ok reached ∧
        f reached a = .error cause := by
  induction items with
  | nil =>
      intro start
      refine iff_of_false (fun failed => by cases failed) ?_
      rintro ⟨before, a, after, reached, split, -, -⟩
      cases before <;> cases split
  | cons first items ih =>
      intro start
      rw [List.foldlM_cons]
      constructor
      · intro failed
        cases step : f start first with
        | error other =>
            rw [step] at failed
            cases failed
            exact ⟨[], first, items, start, rfl, rfl, step⟩
        | ok next =>
            rw [step] at failed
            obtain ⟨before, a, after, reached, rfl, succeeded, failed⟩ := ih.mp failed
            refine ⟨first :: before, a, after, reached, rfl, ?_, failed⟩
            exact foldlM_cons_eq_ok.mpr ⟨next, step, succeeded⟩
      · rintro ⟨before, a, after, reached, split, succeeded, failed⟩
        cases before with
        | nil =>
            obtain ⟨rfl, rfl⟩ := List.cons.inj split
            obtain rfl := foldlM_nil_eq_ok.mp succeeded
            rw [failed]
            rfl
        | cons head before =>
            obtain ⟨rfl, rfl⟩ := List.cons.inj split
            obtain ⟨next, step, succeeded⟩ := foldlM_cons_eq_ok.mp succeeded
            rw [step]
            exact ih.mpr ⟨before, a, after, reached, rfl, succeeded, failed⟩

/-- What was tried on the result of a computation tells that it succeeded. -/
theorem exists_ok_of_toOption_bind {result : Except ε α} {f : α → Option β} {b : β}
    (evaluated : result.toOption.bind f = some b) : ∃ a, result = .ok a ∧ f a = some b := by
  cases result with
  | error cause => cases evaluated
  | ok a => exact ⟨a, rfl, evaluated⟩

/-- What was computed from the result of a computation tells that it succeeded. -/
theorem exists_ok_of_toOption_map {result : Except ε α} {f : α → β} {b : β}
    (evaluated : result.toOption.map f = some b) : ∃ a, result = .ok a ∧ f a = b := by
  cases result with
  | error cause => cases evaluated
  | ok a => exact ⟨a, rfl, Option.some.inj evaluated⟩

end BugPatterns
