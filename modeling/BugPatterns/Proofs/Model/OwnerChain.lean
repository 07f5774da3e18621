import BugPatterns.Model.Query
import BugPatterns.Proofs.Model.Closed
import Mathlib.Combinatorics.Pigeonhole

/-!
# Chains of owners

The search for an enclosing type follows the owners from a symbol on, up to a bound. A type symbol
is found if and only if it is the first on the chain within the bound
(`Model.firstTypeSymbol_eq_some_iff`). The symbols before the first type symbol are all different,
since a chain that meets a symbol again goes on as before and meets no type symbol at all. So there
are fewer of them than symbols in the model, and from there on the bound makes no difference
(`Model.firstTypeSymbol_of_le`). So the search finds the first type symbol if there is one, and else
the chain ends or runs in a circle (`Model.enclosingType_exact`). Nothing is asked of the owners
here; they may form circles.
-/

namespace BugPatterns.Model

/-- The owner that lies so many links above a symbol, if there is one. -/
def climb (model : Model) : Nat → Option SymbolId → Option SymbolId
  | 0, start => start
  | links + 1, start => climb model links (start.bind model.owner)

/-- So many links above its start lies the first type symbol of a chain. -/
structure FirstType (model : Model) (start : Option SymbolId) (links : Nat) (id : SymbolId) :
    Prop where
  here : model.climb links start = some id
  isType : model.isTypeSymbol id = true
  first : ∀ fewer < links, ∀ other, model.climb fewer start = some other →
    model.isTypeSymbol other = false

/-- The chain comes to an end. -/
def Ends (model : Model) (start : Option SymbolId) : Prop :=
  ∃ links, model.climb links start = none

/-- The chain meets a symbol again. -/
def Circles (model : Model) (start : Option SymbolId) : Prop :=
  ∃ first again id, first < again ∧ model.climb first start = some id ∧
    model.climb again start = some id

/-- The search for an enclosing type as a loop that counts the links it has followed, and gives up
    when they are more than there are symbols. -/
def searchOwners (model : Model) (steps : Nat) : Option SymbolId → Option SymbolId
  | none => none
  | some owner =>
      if model.isTypeSymbol owner then some owner
      else if steps + 1 > model.symbolCount then none
      else searchOwners model (steps + 1) (model.owner owner)
termination_by model.symbolCount - steps

variable {model : Model} {start : Option SymbolId}

theorem climb_none (links : Nat) : model.climb links none = none := by
  induction links with
  | zero => rfl
  | succ links ih => exact ih

theorem climb_add (first next : Nat) :
    model.climb (first + next) start = model.climb next (model.climb first start) := by
  induction first generalizing start with
  | zero => rw [Nat.zero_add, climb]
  | succ first ih => rw [Nat.succ_add, climb, ih, climb]

/-- What has an owner is a symbol of the model. -/
theorem lt_of_owner {id owner : SymbolId} (owned : model.owner id = some owner) :
    id.index < model.symbolCount := by
  by_contra beyond
  rw [Model.owner, symbol_of_le model (Nat.not_lt.mp beyond)] at owned
  cases owned

/-- A type symbol is a symbol of the model. -/
theorem lt_of_isTypeSymbol {id : SymbolId} (isType : model.isTypeSymbol id = true) :
    id.index < model.symbolCount := by
  by_contra beyond
  rw [isTypeSymbol, symbol_of_le model (Nat.not_lt.mp beyond)] at isType
  cases isType

/-- A chain that stays within the model for at least as many links as it has symbols meets one of
    them again. -/
theorem exists_again {links : Nat} (many : model.symbolCount ≤ links)
    (inside : ∀ place ≤ links,
      ∃ id, model.climb place start = some id ∧ id.index < model.symbolCount) :
    ∃ first again id, first < again ∧ again ≤ links ∧ model.climb first start = some id ∧
      model.climb again start = some id := by
  have fewer : (Finset.range model.symbolCount).card < (Finset.range (links + 1)).card := by
    rw [Finset.card_range, Finset.card_range]
    exact Nat.lt_succ_of_le many
  have maps : ∀ place ∈ Finset.range (links + 1),
      ((model.climb place start).elim 0 SymbolId.index) ∈ Finset.range model.symbolCount := by
    intro place listed
    obtain ⟨id, here, there⟩ := inside place (Nat.le_of_lt_succ (Finset.mem_range.mp listed))
    rw [here]
    exact Finset.mem_range.mpr there
  obtain ⟨place, listed, again, also, apart, same⟩ :=
    Finset.exists_ne_map_eq_of_card_lt_of_maps_to fewer maps
  have bound := Nat.le_of_lt_succ (Finset.mem_range.mp listed)
  have bound' := Nat.le_of_lt_succ (Finset.mem_range.mp also)
  obtain ⟨⟨index⟩, here, -⟩ := inside place bound
  obtain ⟨⟨index'⟩, here', -⟩ := inside again bound'
  rw [here, here'] at same
  obtain rfl : index = index' := same
  rcases Nat.lt_or_gt_of_ne apart with less | less
  · exact ⟨place, again, ⟨index⟩, less, bound', here, here'⟩
  · exact ⟨again, place, ⟨index⟩, less, bound, here', here⟩

/-- Whatever the owners are, a chain of them ends or runs in a circle. -/
theorem ends_or_circles (model : Model) (start : Option SymbolId) :
    model.Ends start ∨ model.Circles start := by
  by_cases ends : model.Ends start
  · exact .inl ends
  · have inside : ∀ place, ∃ id, model.climb place start = some id ∧
        id.index < model.symbolCount := by
      intro place
      obtain ⟨id, here⟩ := Option.ne_none_iff_exists'.mp fun none => ends ⟨place, none⟩
      obtain ⟨owner, next⟩ := Option.ne_none_iff_exists'.mp fun none => ends ⟨place + 1, none⟩
      rw [climb_add, here] at next
      exact ⟨id, here, lt_of_owner next⟩
    obtain ⟨first, again, id, less, -, here, there⟩ :=
      exists_again (Nat.le_refl _) fun place _ => inside place
    exact .inr ⟨first, again, id, less, here, there⟩

theorem FirstType.zero {id : SymbolId} (isType : model.isTypeSymbol id = true) :
    model.FirstType (some id) 0 id where
  here := rfl
  isType := isType
  first _ less := absurd less (Nat.not_lt_zero _)

/-- The first type symbol above a symbol that is none is the first from its owner on. -/
theorem firstType_succ_iff {id other : SymbolId} (noType : model.isTypeSymbol id = false)
    {links : Nat} :
    model.FirstType (some id) (links + 1) other ↔ model.FirstType (model.owner id) links other := by
  constructor
  · intro found
    refine ⟨found.here, found.isType, fun fewer less => ?_⟩
    exact found.first (fewer + 1) (Nat.succ_lt_succ less)
  · intro found
    refine ⟨found.here, found.isType, fun fewer less between here => ?_⟩
    cases fewer with
    | zero =>
        cases here
        exact noType
    | succ fewer => exact found.first fewer (Nat.lt_of_succ_lt_succ less) between here

/-- A bounded search finds the first type symbol of a chain within the bound. -/
theorem firstTypeSymbol_eq_some_iff {steps : Nat} {id : SymbolId} :
    model.firstTypeSymbol steps start = some id ↔
      ∃ links < steps, model.FirstType start links id := by
  induction steps generalizing start with
  | zero =>
      refine iff_of_false ?_ fun ⟨_, less, _⟩ => absurd less (Nat.not_lt_zero _)
      cases start <;> simp [firstTypeSymbol]
  | succ steps ih =>
      cases start with
      | none =>
          refine iff_of_false (by simp [firstTypeSymbol]) ?_
          rintro ⟨links, -, found⟩
          cases (climb_none links).symm.trans found.here
      | some other =>
          rw [firstTypeSymbol]
          by_cases isType : model.isTypeSymbol other = true
          · rw [if_pos isType, Option.some.injEq]
            constructor
            · rintro rfl
              exact ⟨0, Nat.succ_pos _, .zero isType⟩
            · rintro ⟨links, -, found⟩
              cases links with
              | zero => exact Option.some.inj found.here
              | succ links =>
                  have noType := found.first 0 (Nat.succ_pos _) other rfl
                  cases isType.symm.trans noType
          · rw [if_neg isType, ih]
            have noType := Bool.not_eq_true _ ▸ isType
            constructor
            · rintro ⟨links, less, found⟩
              exact ⟨links + 1, Nat.succ_lt_succ less, (firstType_succ_iff noType).mpr found⟩
            · rintro ⟨links, less, found⟩
              cases links with
              | zero =>
                  cases found.here
                  exact absurd found.isType isType
              | succ links =>
                  exact ⟨links, Nat.lt_of_succ_lt_succ less, (firstType_succ_iff noType).mp found⟩

namespace FirstType

variable {links : Nat} {id : SymbolId} (found : model.FirstType start links id)

include found

/-- All symbols up to the first type symbol are symbols of the model. -/
theorem exists_climb {fewer : Nat} (le : fewer ≤ links) :
    ∃ other, model.climb fewer start = some other ∧ other.index < model.symbolCount := by
  obtain ⟨rest, rfl⟩ := Nat.exists_eq_add_of_le le
  have here := found.here
  rw [climb_add] at here
  cases reached : model.climb fewer start with
  | none =>
      rw [reached, climb_none] at here
      cases here
  | some other =>
      refine ⟨other, rfl, ?_⟩
      rw [reached] at here
      cases rest with
      | zero =>
          cases here
          exact lt_of_isTypeSymbol found.isType
      | succ rest =>
          rw [climb, Option.bind_some] at here
          cases owned : model.owner other with
          | none =>
              rw [owned, climb_none] at here
              cases here
          | some owner => exact lt_of_owner owned

/-- No symbol lies twice on the way to the first type symbol. -/
theorem climb_ne {fewer more : Nat} (less : fewer < more) (le : more ≤ links) :
    model.climb fewer start ≠ model.climb more start := by
  intro same
  obtain ⟨rest, rfl⟩ := Nat.exists_eq_add_of_le le
  -- From the place where the symbol is met for the first time, the type symbol is as far away as
  -- from the second.
  have sooner : model.climb (fewer + rest) start = some id := by
    rw [climb_add, same, ← climb_add]
    exact found.here
  have noType := found.first (fewer + rest) (Nat.add_lt_add_right less rest) id sooner
  cases found.isType.symm.trans noType

/-- The first type symbol is fewer links away than there are symbols. -/
theorem lt_symbolCount : links < model.symbolCount := by
  by_contra many
  obtain ⟨first, again, other, less, bound, here, there⟩ :=
    exists_again (Nat.not_lt.mp many) fun _ bound => found.exists_climb bound
  exact found.climb_ne less bound (here.trans there.symm)

end FirstType

/-- Bounds that are no smaller than the number of symbols make no difference. -/
theorem firstTypeSymbol_of_le {steps more : Nat} (enough : model.symbolCount ≤ steps)
    (also : model.symbolCount ≤ more) :
    model.firstTypeSymbol steps start = model.firstTypeSymbol more start := by
  ext id
  rw [firstTypeSymbol_eq_some_iff, firstTypeSymbol_eq_some_iff]
  constructor
  · rintro ⟨links, -, found⟩
    exact ⟨links, found.lt_symbolCount.trans_le also, found⟩
  · rintro ⟨links, -, found⟩
    exact ⟨links, found.lt_symbolCount.trans_le enough, found⟩

/-- A chain that has a type symbol has a first one. -/
theorem exists_firstType {links : Nat} {id : SymbolId} (here : model.climb links start = some id)
    (isType : model.isTypeSymbol id = true) : ∃ fewer other, model.FirstType start fewer other := by
  induction links using Nat.strong_induction_on generalizing id with
  | _ links ih =>
      by_cases first : ∀ fewer < links, ∀ other, model.climb fewer start = some other →
          model.isTypeSymbol other = false
      · exact ⟨links, id, here, isType, first⟩
      · push Not at first
        obtain ⟨fewer, less, other, sooner, also⟩ := first
        exact ih fewer less sooner (Bool.eq_true_of_not_eq_false also)

theorem enclosingType_eq_some_iff {id found : SymbolId} :
    model.enclosingType id = some found ↔
      ∃ links, model.FirstType (model.owner id) links found := by
  rw [enclosingType, firstTypeSymbol_eq_some_iff]
  constructor
  · rintro ⟨links, -, first⟩
    exact ⟨links, first⟩
  · rintro ⟨links, first⟩
    exact ⟨links, Nat.lt_succ_of_lt first.lt_symbolCount, first⟩

theorem enclosingType_eq_none_iff {id : SymbolId} :
    model.enclosingType id = none ↔ ∀ links other,
      model.climb links (model.owner id) = some other → model.isTypeSymbol other = false := by
  rw [Option.eq_none_iff_forall_ne_some]
  constructor
  · intro nothing links other here
    by_contra isType
    obtain ⟨fewer, found, first⟩ := exists_firstType here (Bool.eq_true_of_not_eq_false isType)
    exact nothing found (enclosingType_eq_some_iff.mpr ⟨fewer, first⟩)
  · intro noType found enclosing
    obtain ⟨links, first⟩ := enclosingType_eq_some_iff.mp enclosing
    cases first.isType.symm.trans (noType links found first.here)

/-- The loop goes on as the search with the bound that is left to it. -/
theorem searchOwners_eq {rest : Nat} : ∀ {steps : Nat} {start : Option SymbolId},
    steps + rest = model.symbolCount →
      model.searchOwners steps start = model.firstTypeSymbol (rest + 1) start := by
  induction rest with
  | zero =>
      intro steps start last
      cases start with
      | none => rw [searchOwners, firstTypeSymbol]
      | some owner =>
          have exhausted : steps + 1 > model.symbolCount := by omega
          rw [searchOwners, firstTypeSymbol, if_pos exhausted]
          cases model.owner owner <;> rfl
  | succ rest ih =>
      intro steps start count
      cases start with
      | none => rw [searchOwners, firstTypeSymbol]
      | some owner =>
          have room : ¬ steps + 1 > model.symbolCount := by omega
          rw [searchOwners, firstTypeSymbol, if_neg room, ih (by omega)]

/-- The closest type symbol around a symbol is the first one on the chain of its owners. There is
    none exactly if the chain ends or runs in a circle without meeting one. Following as many links
    as there are symbols is enough, so the loop that counts them never stops before a type symbol
    that it would come to. -/
theorem enclosingType_exact (model : Model) (id : SymbolId) :
    (∀ found, model.enclosingType id = some found ↔
      ∃ links, model.FirstType (model.owner id) links found) ∧
    (model.enclosingType id = none ↔
      (model.Ends (model.owner id) ∨ model.Circles (model.owner id)) ∧
        ∀ links other, model.climb links (model.owner id) = some other →
          model.isTypeSymbol other = false) ∧
    (∀ steps, model.symbolCount ≤ steps →
      model.firstTypeSymbol steps (model.owner id) = model.enclosingType id) ∧
    model.searchOwners 0 (model.owner id) = model.enclosingType id := by
  refine ⟨fun found => enclosingType_eq_some_iff, ?_, fun steps enough => ?_, ?_⟩
  · rw [enclosingType_eq_none_iff]
    exact ⟨fun noType => ⟨model.ends_or_circles _, noType⟩, fun ⟨_, noType⟩ => noType⟩
  · exact firstTypeSymbol_of_le enough (Nat.le_succ _)
  · exact searchOwners_eq (Nat.zero_add _)

/-- Two symbols that own each other, the first of that kind and the second a method. -/
def ring (kind : SymbolKind) : Model :=
  let pair : Model :=
    { Model.empty with symbols := #[.bare "a" "a" kind none none, .bare "b" "b" .method none none] }
  (pair.nest ⟨0⟩ ⟨1⟩).nest ⟨1⟩ ⟨0⟩

/-- No type encloses a method in a circle of methods. A type in a circle encloses itself, and lies
    so far away that no smaller bound would do. -/
theorem enclosingType_exact_ring :
    ((ring .method).Ends ((ring .method).owner ⟨0⟩) ∨
      (ring .method).Circles ((ring .method).owner ⟨0⟩)) ∧
    (∀ links other, (ring .method).climb links ((ring .method).owner ⟨0⟩) = some other →
      (ring .method).isTypeSymbol other = false) ∧
    (ring .type).firstTypeSymbol 2 ((ring .type).owner ⟨0⟩) = some ⟨0⟩ ∧
    (ring .type).firstTypeSymbol 1 ((ring .type).owner ⟨0⟩) = none := by
  have none : (ring .method).enclosingType ⟨0⟩ = none := by decide
  have self : (ring .type).enclosingType ⟨0⟩ = some ⟨0⟩ := by decide
  obtain ⟨stops, noType⟩ := ((ring .method).enclosingType_exact ⟨0⟩).2.1.mp none
  have enough := ((ring .type).enclosingType_exact ⟨0⟩).2.2.1 2 (by decide)
  exact ⟨stops, noType, enough.trans self, by decide⟩

end BugPatterns.Model
