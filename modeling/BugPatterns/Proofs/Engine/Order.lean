import BugPatterns.Ast.Span
import Mathlib.Data.List.Basic

/-!
# Source order

Starts of spans are totally ordered, so a stable sort by them is determined by its input, and it
makes no difference whether a list is filtered before or after it is sorted (`filter_mergeSort`).
What is found along with other things stays in its order (`mergeSort_sublist`).
-/

namespace BugPatterns

namespace Span

theorem startsNoLater_iff {a b : Span} :
    a.startsNoLater b = true ↔
      a.line.toNat < b.line.toNat ∨ a.line.toNat = b.line.toNat ∧ a.col.toNat ≤ b.col.toNat := by
  simp only [startsNoLater, Bool.or_eq_true, Bool.and_eq_true, decide_eq_true_eq, beq_iff_eq,
    UInt32.lt_iff_toNat_lt, UInt32.le_iff_toNat_le, ← UInt32.toNat_inj]

theorem startsNoLater_trans (a b c : Span) (first : a.startsNoLater b)
    (second : b.startsNoLater c) : a.startsNoLater c := by
  rw [startsNoLater_iff] at *
  omega

theorem startsNoLater_total (a b : Span) : a.startsNoLater b || b.startsNoLater a := by
  rw [Bool.or_eq_true, startsNoLater_iff, startsNoLater_iff]
  omega

end Span

variable {α : Type} {le : α → α → Bool}

/-- Sorting one more item puts it behind all that have to come before it and in front of the
    others. -/
theorem mergeSort_cons_eq (trans : ∀ a b c, le a b → le b c → le a c)
    (total : ∀ a b, le a b || le b a) (a : α) (l : List α) :
    (l.mergeSort le).filter (fun b => !le a b) ++ (l.mergeSort le).filter (le a) =
        l.mergeSort le ∧
      (a :: l).mergeSort le =
        (l.mergeSort le).filter (fun b => !le a b) ++ a :: (l.mergeSort le).filter (le a) := by
  obtain ⟨before, after, whole, rest, below⟩ := List.mergeSort_cons trans total a l
  have above : ∀ b ∈ after, le a b = true := by
    have sorted := List.pairwise_mergeSort trans total (a :: l)
    rw [whole] at sorted
    exact (List.pairwise_cons.mp (List.pairwise_append.mp sorted).2.1).1
  have first : (l.mergeSort le).filter (fun b => !le a b) = before := by
    rw [rest, List.filter_append, List.filter_eq_self.mpr below,
      List.filter_eq_nil_iff.mpr fun b member => by simp [above b member], List.append_nil]
  have last : (l.mergeSort le).filter (le a) = after := by
    rw [rest, List.filter_append, List.filter_eq_self.mpr above,
      List.filter_eq_nil_iff.mpr fun b member => by simpa using below b member, List.nil_append]
  rw [first, last]
  exact ⟨rest.symm, whole⟩

/-- A stable sort goes through the items from the last to the first, and puts each one in front of
    those that may come after it. -/
theorem mergeSort_eq_foldr (trans : ∀ a b c, le a b → le b c → le a c)
    (total : ∀ a b, le a b || le b a) (l : List α) :
    l.mergeSort le = l.foldr
      (fun a sorted => sorted.filter (fun b => !le a b) ++ a :: sorted.filter (le a)) [] := by
  induction l with
  | nil => exact List.mergeSort_nil
  | cons a l ih => rw [(mergeSort_cons_eq trans total a l).2, ih, List.foldr_cons]

/-- Filtering and stable sorting commute. -/
theorem filter_mergeSort (trans : ∀ a b c, le a b → le b c → le a c)
    (total : ∀ a b, le a b || le b a) (keep : α → Bool) (l : List α) :
    (l.mergeSort le).filter keep = (l.filter keep).mergeSort le := by
  induction l with
  | nil => simp
  | cons a l ih =>
      obtain ⟨rest, whole⟩ := mergeSort_cons_eq trans total a l
      rw [whole, List.filter_append, List.filter_cons]
      by_cases kept : keep a
      · have inner := (mergeSort_cons_eq trans total a (l.filter keep)).2
        rw [List.filter_cons, if_pos kept, if_pos kept, inner, ← ih]
        simp only [List.filter_filter, Bool.and_comm]
      · rw [List.filter_cons, if_neg kept, if_neg kept, ← ih, ← List.filter_append, rest]

/-- What is sorted along with other items comes in the same order as without them. -/
theorem mergeSort_sublist (trans : ∀ a b c, le a b → le b c → le a c)
    (total : ∀ a b, le a b || le b a) {part whole : List α} (sub : part.Sublist whole) :
    (part.mergeSort le).Sublist (whole.mergeSort le) := by
  induction sub with
  | slnil => exact .refl _
  | @cons part whole a _ ih =>
      obtain ⟨rest, added⟩ := mergeSort_cons_eq trans total a whole
      rw [added]
      rw [← rest] at ih
      exact ih.trans ((List.sublist_cons_self ..).append_left _)
  | @cons_cons part whole a _ ih =>
      rw [(mergeSort_cons_eq trans total a part).2, (mergeSort_cons_eq trans total a whole).2]
      exact (ih.filter _).append ((ih.filter _).cons_cons a)

/-- A stable sort keeps the order of the items that are equal in it to some item. -/
theorem filter_mergeSort_of_equal (trans : ∀ a b c, le a b → le b c → le a c)
    (total : ∀ a b, le a b || le b a) {same : α → Bool}
    (equal : ∀ a b, same a → same b → le a b) (l : List α) :
    (l.mergeSort le).filter same = l.filter same := by
  rw [filter_mergeSort trans total]
  refine List.mergeSort_of_pairwise (List.pairwise_of_forall_mem_list fun a first b second => ?_)
  exact equal a b (List.mem_filter.mp first).2 (List.mem_filter.mp second).2

end BugPatterns
