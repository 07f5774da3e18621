import BugPatterns.InsertionOrder
import Mathlib.Data.Finset.Image

/-!
# Lists without repetitions

What an item that is added once does to the members of a list and to their images.
-/

namespace BugPatterns

variable {α β : Type} [DecidableEq α] [DecidableEq β]

theorem appendNew_appendNew (items : List α) (item : α) :
    appendNew (appendNew items item) item = appendNew items item := by
  unfold appendNew
  by_cases member : item ∈ items <;> simp [member]

theorem mem_appendNew {items : List α} {item other : α} :
    other ∈ appendNew items item ↔ other ∈ items ∨ other = item := by
  unfold appendNew
  by_cases there : item ∈ items
  · rw [if_pos there]
    constructor
    · exact Or.inl
    · rintro (listed | rfl)
      · exact listed
      · exact there
  · rw [if_neg there, List.mem_append, List.mem_singleton]

theorem nodup_appendNew {items : List α} (distinct : items.Nodup) (item : α) :
    (appendNew items item).Nodup := by
  unfold appendNew
  split
  · exact distinct
  · next absent => exact List.nodup_append.mpr ⟨distinct, List.nodup_singleton item, fun a listed b
      single same => absent (List.mem_singleton.mp single ▸ same ▸ listed)⟩

theorem mem_foldl_appendNew {other : α} (more : List α) :
    ∀ {items : List α}, other ∈ more.foldl appendNew items ↔ other ∈ items ∨ other ∈ more := by
  induction more with
  | nil => simp
  | cons item more ih =>
      intro items
      rw [List.foldl_cons, ih, mem_appendNew, List.mem_cons, or_assoc]

/-- A function that tells the new item from the others maps it to a new item. -/
theorem map_appendNew {f : α → β} {items : List α}
    {item : α} (apart : ∀ other ∈ items, f other = f item → other = item) :
    (appendNew items item).map f = appendNew (items.map f) (f item) := by
  have still : f item ∈ items.map f ↔ item ∈ items := by
    constructor
    · intro listed
      obtain ⟨other, listed, same⟩ := List.mem_map.mp listed
      exact apart other listed same ▸ listed
    · exact List.mem_map_of_mem
  unfold appendNew
  by_cases there : item ∈ items
  · rw [if_pos there, if_pos (still.mpr there)]
  · rw [if_neg there, if_neg (still.not.mpr there), List.map_append]
    rfl

theorem toFinset_map_appendNew (f : α → β)
    (items : List α) (item : α) :
    ((appendNew items item).map f).toFinset = insert (f item) (items.map f).toFinset := by
  ext other
  simp only [List.mem_toFinset, List.mem_map, mem_appendNew, Finset.mem_insert]
  constructor
  · rintro ⟨a, listed | rfl, rfl⟩
    · exact .inr ⟨a, listed, rfl⟩
    · exact .inl rfl
  · rintro (rfl | ⟨a, listed, rfl⟩)
    · exact ⟨item, .inr rfl, rfl⟩
    · exact ⟨a, .inl listed, rfl⟩

end BugPatterns
