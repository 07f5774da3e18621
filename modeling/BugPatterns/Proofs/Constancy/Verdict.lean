import BugPatterns.Constancy.Verdict

/-!
# Joining verdicts

The join of two verdicts is as bad as the worse of them. Relations between verdicts that hold
between equals and pass through joins (`Verdict.JoinRelation`) pass through whole expressions.
-/

namespace BugPatterns.Verdict

theorem rank_join (a b : Verdict) :
    (a.join b).constancy.rank = max a.constancy.rank b.constancy.rank := by
  unfold join
  split <;> omega

theorem constancy_eq_of_rank {a b : Constancy} (same : a.rank = b.rank) : a = b := by
  cases a <;> cases b <;> simp_all [Constancy.rank]

theorem isUnsafe_iff_rank {a : Verdict} : a.isUnsafe = true ↔ a.constancy.rank = 2 := by
  unfold isUnsafe
  cases a.constancy <;> simp [Constancy.rank]

theorem rank_le_two (a : Constancy) : a.rank ≤ 2 := by
  cases a <;> simp [Constancy.rank]

theorem isUnsafe_join (a b : Verdict) : (a.join b).isUnsafe = (a.isUnsafe || b.isUnsafe) := by
  rw [Bool.eq_iff_iff, Bool.or_eq_true, isUnsafe_iff_rank, isUnsafe_iff_rank, isUnsafe_iff_rank,
    rank_join]
  have := rank_le_two a.constancy
  have := rank_le_two b.constancy
  omega

/-- A relation between verdicts that holds between equal ones and passes through joins. -/
structure JoinRelation (R : Verdict → Verdict → Prop) : Prop where
  refl : ∀ v, R v v
  join : ∀ {a b c d}, R a b → R c d → R (a.join c) (b.join d)

theorem joinRelation_eq : JoinRelation (· = ·) where
  refl _ := rfl
  join same other := by rw [same, other]

/-- The first verdict, unless it is unsafe, is the second one too. -/
def SettledBy (a b : Verdict) : Prop := a.isUnsafe = false → b = a

theorem joinRelation_settledBy : JoinRelation SettledBy where
  refl _ _ := rfl
  join {a b c d} left right harmless := by
    rw [isUnsafe_join, Bool.or_eq_false_iff] at harmless
    rw [left harmless.1, right harmless.2]

/-- Joins the verdicts on some expressions, given by `value`, to one that is there already. -/
def joinAll {α : Type} (value : α → Verdict) (verdict : Verdict) (items : List α) : Verdict :=
  items.foldl (fun joined item => joined.join (value item)) verdict

@[simp] theorem joinAll_nil {α : Type} (value : α → Verdict) (v : Verdict) :
    joinAll value v [] = v := rfl

@[simp] theorem joinAll_cons {α : Type} (value : α → Verdict) (v : Verdict) (item : α)
    (items : List α) :
    joinAll value v (item :: items) = joinAll value (v.join (value item)) items :=
  rfl

theorem joinAll_map {α β : Type} (value : β → Verdict) (f : α → β) (v : Verdict)
    (items : List α) :
    joinAll value v (items.map f) = joinAll (fun item => value (f item)) v items :=
  List.foldl_map

theorem joinAll_append {α : Type} (value : α → Verdict) (v : Verdict) (items others : List α) :
    joinAll value v (items ++ others) = joinAll value (joinAll value v items) others :=
  List.foldl_append

/-- What is unsafe stays so whatever is joined to it. -/
theorem constancy_joinAll {α : Type} (value : α → Verdict) (items : List α) :
    ∀ {v : Verdict}, v.constancy = .dynamicUnsafe →
      (joinAll value v items).constancy = .dynamicUnsafe := by
  induction items with
  | nil => exact fun blamed => blamed
  | cons item items ih =>
      intro v blamed
      refine ih (constancy_eq_of_rank ?_)
      rw [rank_join, blamed]
      exact Nat.max_eq_left (rank_le_two _)

/-- A joined verdict is as bad as the worst of the verdicts it is made of. -/
theorem rank_joinAll_le_iff {α : Type} (value : α → Verdict) {items : List α} {bound : Nat} :
    ∀ {v : Verdict}, (joinAll value v items).constancy.rank ≤ bound ↔
      v.constancy.rank ≤ bound ∧ ∀ item ∈ items, (value item).constancy.rank ≤ bound := by
  induction items with
  | nil => simp
  | cons item items ih =>
      intro v
      rw [joinAll_cons, ih, rank_join, Nat.max_le, List.forall_mem_cons, and_assoc]

theorem rank_le_joinAll {α : Type} (value : α → Verdict) (items : List α) (v : Verdict) :
    v.constancy.rank ≤ (joinAll value v items).constancy.rank :=
  ((rank_joinAll_le_iff value).mp (Nat.le_refl _)).1

/-- What is joined to a verdict is no worse than the result. -/
theorem rank_item_le_joinAll {α : Type} (value : α → Verdict) {items : List α} {item : α}
    (member : item ∈ items) (v : Verdict) :
    (value item).constancy.rank ≤ (joinAll value v items).constancy.rank :=
  ((rank_joinAll_le_iff value).mp (Nat.le_refl _)).2 item member

theorem joinAll_congr {α : Type} {value other : α → Verdict} {items : List α}
    (same : ∀ item ∈ items, value item = other item) (v : Verdict) :
    joinAll value v items = joinAll other v items := by
  induction items generalizing v with
  | nil => rfl
  | cons item items ih =>
      rw [joinAll_cons, joinAll_cons, same item List.mem_cons_self]
      exact ih (fun i member => same i (List.mem_cons_of_mem _ member)) _

end BugPatterns.Verdict
