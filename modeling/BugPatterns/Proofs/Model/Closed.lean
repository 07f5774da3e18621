import BugPatterns.Proofs.Model.Outline

/-!
# Closed models

A model is closed when every number that is stored in it is that of a type or symbol of it, and when
an erasure or element type is older than the type it belongs to (`Model.Closed`).

A model is built in four ways: a type or a symbol is added, or what is known of one is changed. This
module says what is stored after each, and that each keeps a model closed as long as the new data
fits.
-/

namespace BugPatterns

/-- All numbers in a type are those of types and symbols, and those of the types it is built from
    are smaller than its own. -/
structure TypeInfo.Fits (info : TypeInfo) (place types symbols : Nat) : Prop where
  superclass : ∀ id ∈ info.superclass, id.index < types
  interfaces : ∀ id ∈ info.interfaces, id.index < types
  symbol : ∀ id ∈ info.symbol, id.index < symbols
  erasure : ∀ id ∈ info.erasure, id.index < place
  element : ∀ id ∈ info.element, id.index < place

/-- All numbers in a symbol are those of types and symbols. -/
structure SymbolInfo.Fits (info : SymbolInfo) (types symbols : Nat) : Prop where
  owner : ∀ id ∈ info.owner, id.index < symbols
  type : ∀ id ∈ info.type, id.index < types
  members : ∀ id ∈ info.members, id.index < symbols
  params : ∀ id ∈ info.params, id.index < symbols

namespace TypeInfo

theorem fits_bare (name : String) (tag : TypeTag) (place types symbols : Nat) :
    (bare name tag).Fits place types symbols := by
  constructor <;> intro id member <;> cases member

theorem Fits.mono {info : TypeInfo} {place types symbols types' symbols' : Nat}
    (fits : info.Fits place types symbols) (moreTypes : types ≤ types')
    (moreSymbols : symbols ≤ symbols') : info.Fits place types' symbols' where
  superclass id member := (fits.superclass id member).trans_le moreTypes
  interfaces id member := (fits.interfaces id member).trans_le moreTypes
  symbol id member := (fits.symbol id member).trans_le moreSymbols
  erasure := fits.erasure
  element := fits.element

end TypeInfo

namespace SymbolInfo

theorem fits_bare {types symbols : Nat} (key name : String) (kind : SymbolKind)
    {owner : Option SymbolId} {type : Option TypeId} (owned : ∀ id ∈ owner, id.index < symbols)
    (typed : ∀ id ∈ type, id.index < types) :
    (bare key name kind owner type).Fits types symbols where
  owner := owned
  type := typed
  members _ absurd := by cases absurd
  params _ absurd := by cases absurd

theorem Fits.mono {info : SymbolInfo} {types symbols types' symbols' : Nat}
    (fits : info.Fits types symbols) (moreTypes : types ≤ types')
    (moreSymbols : symbols ≤ symbols') : info.Fits types' symbols' where
  owner id member := (fits.owner id member).trans_le moreSymbols
  type id member := (fits.type id member).trans_le moreTypes
  members id member := (fits.members id member).trans_le moreSymbols
  params id member := (fits.params id member).trans_le moreSymbols

end SymbolInfo

namespace Model

/-- All numbers in a model, and all that are found in it, are those of types and symbols of it. -/
structure Closed (model : Model) : Prop where
  types : ∀ id, (model.type id).Fits id.index model.typeCount model.symbolCount
  symbols : ∀ id, (model.symbol id).Fits model.typeCount model.symbolCount
  names : ∀ {name id}, model.type? name = some id → id.index < model.typeCount
  keys : ∀ {key id}, model.symbol? key = some id → id.index < model.symbolCount

/-! ## What is stored after a change -/

section Primitives

variable (model : Model)

theorem type_of_le {id : TypeId} (beyond : model.typeCount ≤ id.index) :
    model.type id = .bare "" .unknown := by
  rw [type, Array.getElem?_eq_none beyond, Option.getD_none]

theorem symbol_of_le {id : SymbolId} (beyond : model.symbolCount ≤ id.index) :
    model.symbol id = .bare "" "" .variable none none := by
  rw [symbol, Array.getElem?_eq_none beyond, Option.getD_none]

theorem type_pushType (info : TypeInfo) (id : TypeId) :
    (model.pushType info).2.type id =
      if id.index = model.typeCount then info else model.type id := by
  unfold type pushType
  rw [Array.getElem?_push]
  by_cases new : id.index = model.typeCount
  · rw [if_pos new, if_pos (show id.index = model.types.size from new), Option.getD_some]
  · rw [if_neg new, if_neg (show id.index ≠ model.types.size from new)]

theorem symbol_pushSymbol (info : SymbolInfo) (id : SymbolId) :
    (model.pushSymbol info).2.symbol id =
      if id.index = model.symbolCount then info else model.symbol id := by
  unfold symbol pushSymbol
  rw [Array.getElem?_push]
  by_cases new : id.index = model.symbolCount
  · rw [if_pos new, if_pos (show id.index = model.symbols.size from new), Option.getD_some]
  · rw [if_neg new, if_neg (show id.index ≠ model.symbols.size from new)]

theorem lookup_cons_eq_ite {α : Type} (name other : String) (value : α)
    (entries : List (String × α)) :
    List.lookup name ((other, value) :: entries) =
      if name = other then some value else entries.lookup name := by
  rw [List.lookup_cons]
  by_cases same : name = other
  · rw [if_pos same, beq_iff_eq.mpr same]
  · rw [if_neg same, beq_eq_false_iff_ne.mpr same]

theorem type?_pushType (info : TypeInfo) (name : String) :
    (model.pushType info).2.type? name =
      if name = info.name then some ⟨model.typeCount⟩ else model.type? name :=
  lookup_cons_eq_ite ..

theorem symbol?_pushSymbol (info : SymbolInfo) (key : String) :
    (model.pushSymbol info).2.symbol? key =
      if key = info.key then some ⟨model.symbolCount⟩ else model.symbol? key :=
  lookup_cons_eq_ite ..

theorem type_pushType_self (info : TypeInfo) :
    (model.pushType info).2.type (model.pushType info).1 = info := by
  rw [type_pushType]
  exact if_pos rfl

theorem symbol_pushSymbol_self (info : SymbolInfo) :
    (model.pushSymbol info).2.symbol (model.pushSymbol info).1 = info := by
  rw [symbol_pushSymbol]
  exact if_pos rfl

theorem type?_pushType_self (info : TypeInfo) :
    (model.pushType info).2.type? info.name = some (model.pushType info).1 := by
  rw [type?_pushType, if_pos rfl]
  rfl

theorem symbol?_pushSymbol_self (info : SymbolInfo) :
    (model.pushSymbol info).2.symbol? info.key = some (model.pushSymbol info).1 := by
  rw [symbol?_pushSymbol, if_pos rfl]
  rfl

theorem nameOf_pushType (info : TypeInfo) {id : TypeId} (there : id.index < model.typeCount) :
    (model.pushType info).2.nameOf id = model.nameOf id := by
  rw [nameOf, type_pushType, if_neg there.ne, nameOf]

theorem keyOf_pushSymbol (info : SymbolInfo) {id : SymbolId}
    (there : id.index < model.symbolCount) :
    (model.pushSymbol info).2.keyOf id = model.keyOf id := by
  rw [keyOf, symbol_pushSymbol, if_neg there.ne, keyOf]

theorem typeCount_pushType (info : TypeInfo) :
    (model.pushType info).2.typeCount = model.typeCount + 1 :=
  Array.size_push info

theorem symbolCount_pushSymbol (info : SymbolInfo) :
    (model.pushSymbol info).2.symbolCount = model.symbolCount + 1 :=
  Array.size_push info

theorem typeCount_modifyType (id : TypeId) (f : TypeInfo → TypeInfo) :
    (model.modifyType id f).typeCount = model.typeCount :=
  Array.size_modify

theorem symbolCount_modifySymbol (id : SymbolId) (f : SymbolInfo → SymbolInfo) :
    (model.modifySymbol id f).symbolCount = model.symbolCount :=
  Array.size_modify

theorem type_modifyType {id : TypeId} (there : id.index < model.typeCount)
    (f : TypeInfo → TypeInfo) (other : TypeId) :
    (model.modifyType id f).type other =
      if other = id then f (model.type other) else model.type other := by
  simp only [type, modifyType, Array.getElem?_modify]
  by_cases same : other = id
  · subst same
    rw [if_pos rfl, if_pos rfl, Array.getElem?_eq_getElem there]
    rfl
  · have apart : id.index ≠ other.index := fun equal => same (by cases id; cases other; simp_all)
    rw [if_neg apart, if_neg same]

theorem symbol_modifySymbol {id : SymbolId} (there : id.index < model.symbolCount)
    (f : SymbolInfo → SymbolInfo) (other : SymbolId) :
    (model.modifySymbol id f).symbol other =
      if other = id then f (model.symbol other) else model.symbol other := by
  simp only [symbol, modifySymbol, Array.getElem?_modify]
  by_cases same : other = id
  · subst same
    rw [if_pos rfl, if_pos rfl, Array.getElem?_eq_getElem there]
    rfl
  · have apart : id.index ≠ other.index := fun equal => same (by cases id; cases other; simp_all)
    rw [if_neg apart, if_neg same]

/-- There is nothing to change under a number that belongs to no type. -/
theorem modifyType_of_le {id : TypeId} (beyond : model.typeCount ≤ id.index)
    (f : TypeInfo → TypeInfo) : model.modifyType id f = model := by
  have same : model.types.modify id.index f = model.types := by
    refine Array.ext_getElem? fun i => ?_
    rw [Array.getElem?_modify]
    split
    · next here => rw [← here, Array.getElem?_eq_none beyond, Option.map_none]
    · rfl
  rw [modifyType, same]

/-- There is nothing to change under a number that belongs to no symbol. -/
theorem modifySymbol_of_le {id : SymbolId} (beyond : model.symbolCount ≤ id.index)
    (f : SymbolInfo → SymbolInfo) : model.modifySymbol id f = model := by
  have same : model.symbols.modify id.index f = model.symbols := by
    refine Array.ext_getElem? fun i => ?_
    rw [Array.getElem?_modify]
    split
    · next here => rw [← here, Array.getElem?_eq_none beyond, Option.map_none]
    · rfl
  rw [modifySymbol, same]

/-- What a change of types leaves alone is the same for all types afterwards. -/
theorem apply_type_modifyType {α : Type} (part : TypeInfo → α) {f : TypeInfo → TypeInfo}
    (kept : ∀ info, part (f info) = part info) (id other : TypeId) :
    part ((model.modifyType id f).type other) = part (model.type other) := by
  simp only [type, modifyType, Array.getElem?_modify]
  split
  · cases model.types[other.index]? with
    | none => rfl
    | some info => exact kept info
  · rfl

/-- What a change of symbols leaves alone is the same for all symbols afterwards. -/
theorem apply_symbol_modifySymbol {α : Type} (part : SymbolInfo → α) {f : SymbolInfo → SymbolInfo}
    (kept : ∀ info, part (f info) = part info) (id other : SymbolId) :
    part ((model.modifySymbol id f).symbol other) = part (model.symbol other) := by
  simp only [symbol, modifySymbol, Array.getElem?_modify]
  split
  · cases model.symbols[other.index]? with
    | none => rfl
    | some info => exact kept info
  · rfl

theorem nameOf_modifyType {id : TypeId} (there : id.index < model.typeCount)
    {f : TypeInfo → TypeInfo} (named : (f (model.type id)).name = model.nameOf id) :
    (model.modifyType id f).nameOf = model.nameOf := by
  funext other
  rw [nameOf, type_modifyType _ there]
  by_cases same : other = id
  · rw [if_pos same, same, named]
  · rw [if_neg same, nameOf]

theorem keyOf_modifySymbol {id : SymbolId} (there : id.index < model.symbolCount)
    {f : SymbolInfo → SymbolInfo} (keyed : (f (model.symbol id)).key = model.keyOf id) :
    (model.modifySymbol id f).keyOf = model.keyOf := by
  funext other
  rw [keyOf, symbol_modifySymbol _ there]
  by_cases same : other = id
  · rw [if_pos same, same, keyed]
  · rw [if_neg same, keyOf]

end Primitives

/-! ## Changes of closed models -/

namespace Closed

variable {model : Model} (closed : model.Closed)

include closed

theorem pushType (info : TypeInfo)
    (fits : info.Fits model.typeCount model.typeCount model.symbolCount) :
    (model.pushType info).2.Closed where
  types := by
    intro id
    rw [typeCount_pushType, type_pushType]
    by_cases new : id.index = model.typeCount
    · rw [if_pos new, new]
      exact fits.mono (Nat.le_succ _) le_rfl
    · rw [if_neg new]
      exact (closed.types id).mono (Nat.le_succ _) le_rfl
  symbols := by
    intro id
    rw [typeCount_pushType]
    exact (closed.symbols id).mono (Nat.le_succ _) le_rfl
  names := by
    intro name id found
    rw [type?_pushType] at found
    rw [typeCount_pushType]
    split at found
    · cases found
      exact Nat.lt_succ_self _
    · exact Nat.lt_succ_of_lt (closed.names found)
  keys := closed.keys

theorem modifyType (id : TypeId) (f : TypeInfo → TypeInfo)
    (fits : (f (model.type id)).Fits id.index model.typeCount model.symbolCount) :
    (model.modifyType id f).Closed := by
  by_cases there : id.index < model.typeCount
  · refine ⟨?_, ?_, ?_, closed.keys⟩
    · intro other
      rw [typeCount_modifyType, type_modifyType _ there]
      split
      · next same => exact same ▸ fits
      · exact closed.types other
    · intro symbol
      rw [typeCount_modifyType]
      exact closed.symbols symbol
    · intro name other found
      rw [typeCount_modifyType]
      exact closed.names found
  · rwa [modifyType_of_le _ (Nat.not_lt.mp there)]

theorem pushSymbol (info : SymbolInfo) (fits : info.Fits model.typeCount model.symbolCount) :
    (model.pushSymbol info).2.Closed where
  types := by
    intro id
    rw [symbolCount_pushSymbol]
    exact (closed.types id).mono le_rfl (Nat.le_succ _)
  symbols := by
    intro id
    rw [symbolCount_pushSymbol, symbol_pushSymbol]
    split
    · exact fits.mono le_rfl (Nat.le_succ _)
    · exact (closed.symbols id).mono le_rfl (Nat.le_succ _)
  names := closed.names
  keys := by
    intro key id found
    rw [symbol?_pushSymbol] at found
    rw [symbolCount_pushSymbol]
    split at found
    · cases found
      exact Nat.lt_succ_self _
    · exact Nat.lt_succ_of_lt (closed.keys found)

theorem modifySymbol (id : SymbolId) (f : SymbolInfo → SymbolInfo)
    (fits : (f (model.symbol id)).Fits model.typeCount model.symbolCount) :
    (model.modifySymbol id f).Closed := by
  by_cases there : id.index < model.symbolCount
  · refine ⟨?_, ?_, closed.names, ?_⟩
    · intro type
      rw [symbolCount_modifySymbol]
      exact closed.types type
    · intro other
      rw [symbolCount_modifySymbol, symbol_modifySymbol _ there]
      split
      · next same => exact same ▸ fits
      · exact closed.symbols other
    · intro key other found
      rw [symbolCount_modifySymbol]
      exact closed.keys found
  · rwa [modifySymbol_of_le _ (Nat.not_lt.mp there)]

end Closed

end Model

end BugPatterns
