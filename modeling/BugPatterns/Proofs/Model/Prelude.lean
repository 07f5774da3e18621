import BugPatterns.Proofs.Model.Building
import BugPatterns.Proofs.Model.Keys

/-!
# The prelude is sound

The prelude is a fixed model, so its soundness is computed. What soundness says of all names and
numbers comes down to what it says of those that are listed (`Model.sound_of_lists`).
-/

namespace BugPatterns

instance (info : TypeInfo) (place types symbols : Nat) :
    Decidable (info.Fits place types symbols) :=
  decidable_of_iff
    ((∀ id ∈ info.superclass, id.index < types) ∧ (∀ id ∈ info.interfaces, id.index < types) ∧
      (∀ id ∈ info.symbol, id.index < symbols) ∧ (∀ id ∈ info.erasure, id.index < place) ∧
        ∀ id ∈ info.element, id.index < place)
    ⟨fun ⟨superclass, interfaces, symbol, erasure, element⟩ =>
        ⟨superclass, interfaces, symbol, erasure, element⟩,
      fun fits => ⟨fits.superclass, fits.interfaces, fits.symbol, fits.erasure, fits.element⟩⟩

instance (info : SymbolInfo) (types symbols : Nat) : Decidable (info.Fits types symbols) :=
  decidable_of_iff
    ((∀ id ∈ info.owner, id.index < symbols) ∧ (∀ id ∈ info.type, id.index < types) ∧
      (∀ id ∈ info.members, id.index < symbols) ∧ ∀ id ∈ info.params, id.index < symbols)
    ⟨fun ⟨owner, type, members, params⟩ => ⟨owner, type, members, params⟩,
      fun fits => ⟨fits.owner, fits.type, fits.members, fits.params⟩⟩

namespace Model

/-- A model is sound when its look-up lists are right and lead to every number, and what is stored
    under each number is right. -/
theorem sound_of_lists {model : Model}
    (names : ∀ entry ∈ model.typeNames,
      entry.2.index < model.typeCount ∧ model.nameOf entry.2 = entry.1)
    (types : ∀ i < model.typeCount, model.type? (model.nameOf ⟨i⟩) = some ⟨i⟩ ∧
      (model.type ⟨i⟩).Fits i model.typeCount model.symbolCount ∧
        ∀ symbol ∈ (model.type ⟨i⟩).symbol, model.keyOf symbol = model.nameOf ⟨i⟩)
    (keys : ∀ entry ∈ model.symbolKeys,
      entry.2.index < model.symbolCount ∧ model.keyOf entry.2 = entry.1)
    (symbols : ∀ i < model.symbolCount, model.symbol? (model.keyOf ⟨i⟩) = some ⟨i⟩ ∧
      (model.symbol ⟨i⟩).Fits model.typeCount model.symbolCount) : model.Sound where
  type?_iff := by
    intro name id
    constructor
    · intro found
      exact names _ (mem_of_lookup_eq_some found)
    · rintro ⟨there, rfl⟩
      exact (types id.index there).1
  symbol?_iff := by
    intro key id
    constructor
    · intro found
      exact keys _ (mem_of_lookup_eq_some found)
    · rintro ⟨there, rfl⟩
      exact (symbols id.index there).1
  types := by
    intro id
    by_cases there : id.index < model.typeCount
    · exact (types id.index there).2.1
    · rw [type_of_le model (Nat.not_lt.mp there)]
      exact TypeInfo.fits_bare ..
  symbols := by
    intro id
    by_cases there : id.index < model.symbolCount
    · exact (symbols id.index there).2
    · rw [symbol_of_le model (Nat.not_lt.mp there)]
      constructor <;> rintro _ ⟨⟩
  own := by
    intro id symbol owned
    by_cases there : id.index < model.typeCount
    · exact (types id.index there).2.2 symbol owned
    · rw [type_of_le model (Nat.not_lt.mp there)] at owned
      cases owned

theorem sound_prelude : prelude.Sound := by
  apply sound_of_lists
  · decide +kernel
  · decide +kernel
  · decide +kernel
  · decide +kernel

/-- The prelude declares no symbols but those of types. -/
theorem onlyTypeSymbols_prelude : prelude.outline.OnlyTypeSymbols := by
  have listed : ∀ entry ∈ prelude.symbolKeys,
      ((prelude.type? entry.1).bind fun id => (prelude.type id).symbol).isSome := by
    decide +kernel
  intro name unowned
  rw [← symbol?_eq_none]
  by_contra found
  obtain ⟨id, found⟩ := Option.ne_none_iff_exists'.mp found
  have owned := listed _ (mem_of_lookup_eq_some found)
  rw [types_outline, Option.bind_map] at unowned
  obtain ⟨symbol, owned⟩ := Option.isSome_iff_exists.mp owned
  obtain ⟨type, known, owned⟩ := Option.bind_eq_some_iff.mp owned
  simp [known, owned, TypeInfo.facts] at unowned

end Model

end BugPatterns
