import BugPatterns.Proofs.Model.Closed

/-!
# Sound models

In a sound model names and numbers of types determine each other, and so do keys and numbers of
symbols; every number that is stored somewhere is that of a type or symbol of the model; and an
erasure or element type is older than the type it belongs to (`Model.Sound`).

Each of the four ways in which a model is built keeps it sound and all numbers as they are, and
changes its outline in one place (`Model.Advances`).
-/

namespace BugPatterns

namespace TypeInfo

/-- What is known of a type depends on the names of the numbers in it only. -/
theorem Fits.facts_congr {info : TypeInfo} {place types symbols : Nat}
    {nameOf nameOf' : TypeId → String} {keyOf keyOf' : SymbolId → String}
    (fits : info.Fits place types symbols) (old : place ≤ types)
    (names : ∀ id, id.index < types → nameOf' id = nameOf id)
    (keys : ∀ id, id.index < symbols → keyOf' id = keyOf id) :
    info.facts nameOf' keyOf' = info.facts nameOf keyOf := by
  unfold facts
  congr 1
  · exact Option.map_congr fun id found => names id (fits.superclass id found)
  · exact List.map_congr_left fun id listed => names id (fits.interfaces id listed)
  · exact Option.map_congr fun id found => keys id (fits.symbol id found)
  · exact Option.map_congr fun id found => names id ((fits.erasure id found).trans_le old)
  · exact Option.map_congr fun id found => names id ((fits.element id found).trans_le old)

end TypeInfo

namespace SymbolInfo

/-- What is known of a symbol depends on the names of the numbers in it only. -/
theorem Fits.facts_congr {info : SymbolInfo} {types symbols : Nat}
    {nameOf nameOf' : TypeId → String} {keyOf keyOf' : SymbolId → String}
    (fits : info.Fits types symbols) (names : ∀ id, id.index < types → nameOf' id = nameOf id)
    (keys : ∀ id, id.index < symbols → keyOf' id = keyOf id) :
    info.facts nameOf' keyOf' = info.facts nameOf keyOf := by
  unfold facts
  congr 1
  · exact Option.map_congr fun id found => keys id (fits.owner id found)
  · exact Option.map_congr fun id found => names id (fits.type id found)
  · exact congrArg List.toFinset
      (List.map_congr_left fun id listed => keys id (fits.members id listed))
  · exact List.map_congr_left fun id listed => keys id (fits.params id listed)

end SymbolInfo

namespace Model

/-- Numbers, names and keys of a model fit together. -/
structure Sound (model : Model) : Prop where
  type?_iff : ∀ {name id},
    model.type? name = some id ↔ id.index < model.typeCount ∧ model.nameOf id = name
  symbol?_iff : ∀ {key id},
    model.symbol? key = some id ↔ id.index < model.symbolCount ∧ model.keyOf id = key
  types : ∀ id, (model.type id).Fits id.index model.typeCount model.symbolCount
  symbols : ∀ id, (model.symbol id).Fits model.typeCount model.symbolCount
  own : ∀ id, ∀ symbol ∈ (model.type id).symbol, model.keyOf symbol = model.nameOf id

/-- A model has grown into another one, which is sound and has that outline. All numbers are kept:
    what was found by name or key still is, and so is the symbol of a type. -/
structure Advances (before after : Model) (outline : Outline) : Prop where
  sound : after.Sound
  outline_eq : after.outline = outline
  types : ∀ {name id}, before.type? name = some id → after.type? name = some id
  symbols : ∀ {key id}, before.symbol? key = some id → after.symbol? key = some id
  owned : ∀ {id symbol}, (before.type id).symbol = some symbol →
    (after.type id).symbol = some symbol

theorem Sound.advances {model : Model} (sound : model.Sound) :
    Advances model model model.outline where
  sound := sound
  outline_eq := rfl
  types found := found
  symbols found := found
  owned found := found

theorem Advances.trans {first second third : Model} {outline next : Outline}
    (before : Advances first second outline) (after : Advances second third next) :
    Advances first third next where
  sound := after.sound
  outline_eq := after.outline_eq
  types found := after.types (before.types found)
  symbols found := after.symbols (before.symbols found)
  owned found := after.owned (before.owned found)

/-- What is found once an entry was added under a new name: a type by its name, or a symbol by its
    key. -/
theorem found_iff_of_push {ι : Type} {index : ι → Nat} {look later : String → Option ι}
    {label laterLabel : ι → String} {count : Nat} {name other : String} {fresh id : ι}
    (before : ∀ {name id}, look name = some id ↔ index id < count ∧ label id = name)
    (absent : look name = none)
    (pushed : later other = if other = name then some fresh else look other)
    (labels : ∀ {id}, index id < count → laterLabel id = label id)
    (labelled : laterLabel fresh = name) (last : index id = count ↔ id = fresh) :
    later other = some id ↔ index id < count + 1 ∧ laterLabel id = other := by
  rw [pushed]
  by_cases new : index id = count
  · obtain rfl := last.mp new
    rw [new, labelled]
    by_cases same : other = name
    · simp [same]
    · rw [if_neg same, before, new]
      simp [Ne.symm same]
  · have old : index id < count + 1 ↔ index id < count := by omega
    have apart : fresh ≠ id := fun equal => new (last.mpr equal.symm)
    rw [old]
    by_cases same : other = name
    · subst same
      rw [if_pos rfl]
      refine iff_of_false (fun equal => apart (Option.some.inj equal)) ?_
      rintro ⟨there, named⟩
      rw [labels there] at named
      rw [before.mpr ⟨there, named⟩] at absent
      cases absent
    · rw [if_neg same, before]
      exact and_congr_right fun there => by rw [labels there]

/-! ## What each change does to the outline -/

/-- What is known of a type by its number is known of it by its name. -/
theorem outline_types {model : Model} {name : String} {id : TypeId}
    (found : model.type? name = some id) :
    model.outline.types name = some ((model.type id).facts model.nameOf model.keyOf) := by
  rw [types_outline, found, Option.map_some]

/-- What is known of a symbol by its number is known of it by its key. -/
theorem outline_symbols {model : Model} {key : String} {id : SymbolId}
    (found : model.symbol? key = some id) :
    model.outline.symbols key =
      some ((model.symbol id).facts model.nameOf model.keyOf) := by
  rw [symbols_outline, found, Option.map_some]

namespace Sound

variable {model : Model} (sound : model.Sound)

include sound

theorem lt_of_type? {name : String} {id : TypeId} (found : model.type? name = some id) :
    id.index < model.typeCount :=
  (sound.type?_iff.mp found).1

theorem nameOf_of_type? {name : String} {id : TypeId} (found : model.type? name = some id) :
    model.nameOf id = name :=
  (sound.type?_iff.mp found).2

theorem type?_nameOf {id : TypeId} (there : id.index < model.typeCount) :
    model.type? (model.nameOf id) = some id :=
  sound.type?_iff.mpr ⟨there, rfl⟩

/-- Types of the same name are the same. -/
theorem nameOf_inj {id other : TypeId} (there : id.index < model.typeCount)
    (also : other.index < model.typeCount) (same : model.nameOf id = model.nameOf other) :
    id = other := by
  have found := sound.type?_nameOf there
  rw [same, sound.type?_nameOf also] at found
  exact (Option.some.inj found).symm

theorem lt_of_symbol? {key : String} {id : SymbolId} (found : model.symbol? key = some id) :
    id.index < model.symbolCount :=
  (sound.symbol?_iff.mp found).1

theorem keyOf_of_symbol? {key : String} {id : SymbolId} (found : model.symbol? key = some id) :
    model.keyOf id = key :=
  (sound.symbol?_iff.mp found).2

theorem symbol?_keyOf {id : SymbolId} (there : id.index < model.symbolCount) :
    model.symbol? (model.keyOf id) = some id :=
  sound.symbol?_iff.mpr ⟨there, rfl⟩

theorem closed : model.Closed where
  types := sound.types
  symbols := sound.symbols
  names := sound.lt_of_type?
  keys := sound.lt_of_symbol?

/-- Symbols with the same key are the same. -/
theorem keyOf_inj {id other : SymbolId} (there : id.index < model.symbolCount)
    (also : other.index < model.symbolCount) (same : model.keyOf id = model.keyOf other) :
    id = other := by
  have found := sound.symbol?_keyOf there
  rw [same, sound.symbol?_keyOf also] at found
  exact (Option.some.inj found).symm

/-- What is known of a symbol of the model stands under its key. -/
theorem outline_keyOf {id : SymbolId} (there : id.index < model.symbolCount) :
    model.outline.symbols (model.keyOf id) =
      some ((model.symbol id).facts model.nameOf model.keyOf) :=
  outline_symbols (sound.symbol?_keyOf there)

section PushType

variable (info : TypeInfo) (absent : model.type? info.name = none)
  (fits : info.Fits model.typeCount model.typeCount model.symbolCount)

include absent fits

theorem sound_pushType (unowned : info.symbol = none) : (model.pushType info).2.Sound where
  type?_iff := by
    intro name id
    rw [typeCount_pushType]
    refine found_iff_of_push sound.type?_iff absent (model.type?_pushType info name)
      (model.nameOf_pushType info) ?_ ?_
    · rw [nameOf, type_pushType]
      exact congrArg TypeInfo.name (if_pos rfl)
    · exact ⟨fun new => congrArg TypeId.mk new, fun equal => congrArg TypeId.index equal⟩
  symbol?_iff := sound.symbol?_iff
  types := (sound.closed.pushType info fits).types
  symbols := (sound.closed.pushType info fits).symbols
  own := by
    intro id symbol owned
    rw [type_pushType] at owned
    by_cases new : id.index = model.typeCount
    · rw [if_pos new, unowned] at owned
      cases owned
    · rw [if_neg new] at owned
      rw [nameOf, type_pushType, if_neg new]
      exact sound.own id symbol owned

omit absent in
theorem outline_pushType : (model.pushType info).2.outline =
    model.outline.setType info.name (info.facts model.nameOf model.keyOf) := by
  have keys : (model.pushType info).2.keyOf = model.keyOf := rfl
  have names : ∀ id, id.index < model.typeCount →
      (model.pushType info).2.nameOf id = model.nameOf id :=
    fun _ there => model.nameOf_pushType info there
  ext1
  · funext name
    by_cases same : name = info.name
    · subst same
      have found := model.type?_pushType_self info
      rw [outline_types found, type_pushType_self, keys, Outline.types_setType, if_pos rfl]
      exact congrArg some (fits.facts_congr le_rfl names fun _ _ => rfl)
    · rw [Outline.types_setType, if_neg same, types_outline, types_outline, type?_pushType,
        if_neg same]
      refine Option.map_congr fun id found => ?_
      have there := sound.lt_of_type? found
      rw [type_pushType, if_neg there.ne, keys]
      exact (sound.types id).facts_congr there.le names fun _ _ => rfl
  · funext key
    exact Option.map_congr fun id _ => (sound.symbols id).facts_congr names fun _ _ => rfl

/-- A type that is new and owns no symbol is added. -/
theorem pushType (unowned : info.symbol = none) :
    Advances model (model.pushType info).2
      (model.outline.setType info.name (info.facts model.nameOf model.keyOf)) where
  sound := sound.sound_pushType info absent fits unowned
  outline_eq := sound.outline_pushType info fits
  types := by
    intro name id found
    rw [type?_pushType, if_neg, found]
    rintro rfl
    rw [absent] at found
    cases found
  symbols found := found
  owned := by
    intro id symbol found
    rw [type_pushType, if_neg]
    · exact found
    · intro new
      rw [type_of_le _ new.ge] at found
      cases found

end PushType

section ModifyType

variable {id : TypeId} (there : id.index < model.typeCount) (f : TypeInfo → TypeInfo)
  (named : (f (model.type id)).name = model.nameOf id)

include there named

theorem sound_modifyType
    (fits : (f (model.type id)).Fits id.index model.typeCount model.symbolCount)
    (own : ∀ symbol ∈ (f (model.type id)).symbol, model.keyOf symbol = model.nameOf id) :
    (model.modifyType id f).Sound where
  type?_iff := by
    intro name other
    rw [typeCount_modifyType, nameOf_modifyType _ there named]
    exact sound.type?_iff
  symbol?_iff := sound.symbol?_iff
  types := (sound.closed.modifyType id f fits).types
  symbols := (sound.closed.modifyType id f fits).symbols
  own := by
    intro other symbol owned
    rw [type_modifyType _ there] at owned
    rw [nameOf_modifyType _ there named]
    by_cases same : other = id
    · rw [if_pos same, same] at owned
      rw [same]
      exact own symbol owned
    · rw [if_neg same] at owned
      exact sound.own other symbol owned

theorem outline_modifyType (change : TypeFacts → TypeFacts)
    (facts : (f (model.type id)).facts model.nameOf model.keyOf =
      change ((model.type id).facts model.nameOf model.keyOf)) :
    (model.modifyType id f).outline = model.outline.modifyType (model.nameOf id) change := by
  have names := model.nameOf_modifyType there named
  have keys : (model.modifyType id f).keyOf = model.keyOf := rfl
  ext1
  · funext name
    by_cases same : name = model.nameOf id
    · subst same
      have found := sound.type?_nameOf there
      have still : (model.modifyType id f).type? (model.nameOf id) = some id := found
      rw [Outline.types_modifyType, if_pos rfl, outline_types found, outline_types still,
        type_modifyType _ there, if_pos rfl, names, keys]
      exact congrArg some facts
    · rw [Outline.types_modifyType, if_neg same, types_outline, types_outline, names, keys]
      refine Option.map_congr fun other found => ?_
      have apart : other ≠ id := by
        rintro rfl
        exact same (sound.nameOf_of_type? found).symm
      rw [type_modifyType _ there, if_neg apart]
  · funext key
    rw [symbols_outline, names]
    rfl

/-- What is known of a type changes. -/
theorem modifyType (change : TypeFacts → TypeFacts)
    (fits : (f (model.type id)).Fits id.index model.typeCount model.symbolCount)
    (own : ∀ symbol ∈ (f (model.type id)).symbol, model.keyOf symbol = model.nameOf id)
    (kept : ∀ symbol ∈ (model.type id).symbol, symbol ∈ (f (model.type id)).symbol)
    (facts : (f (model.type id)).facts model.nameOf model.keyOf =
      change ((model.type id).facts model.nameOf model.keyOf)) :
    Advances model (model.modifyType id f)
      (model.outline.modifyType (model.nameOf id) change) where
  sound := sound.sound_modifyType there f named fits own
  outline_eq := sound.outline_modifyType there f named change facts
  types found := found
  symbols found := found
  owned := by
    intro other symbol found
    rw [type_modifyType _ there]
    by_cases same : other = id
    · subst same
      rw [if_pos rfl]
      exact kept symbol found
    · rw [if_neg same]
      exact found

end ModifyType

section PushSymbol

variable (info : SymbolInfo) (absent : model.symbol? info.key = none)
  (fits : info.Fits model.typeCount model.symbolCount)

include absent fits

theorem sound_pushSymbol : (model.pushSymbol info).2.Sound where
  type?_iff := sound.type?_iff
  symbol?_iff := by
    intro key id
    rw [symbolCount_pushSymbol]
    refine found_iff_of_push sound.symbol?_iff absent (model.symbol?_pushSymbol info key)
      (model.keyOf_pushSymbol info) ?_ ?_
    · rw [keyOf, symbol_pushSymbol]
      exact congrArg SymbolInfo.key (if_pos rfl)
    · exact ⟨fun new => congrArg SymbolId.mk new, fun equal => congrArg SymbolId.index equal⟩
  types := (sound.closed.pushSymbol info fits).types
  symbols := (sound.closed.pushSymbol info fits).symbols
  own := by
    intro id symbol owned
    rw [keyOf_pushSymbol _ _ ((sound.types id).symbol symbol owned)]
    exact sound.own id symbol owned

omit absent in
theorem outline_pushSymbol : (model.pushSymbol info).2.outline =
    model.outline.setSymbol info.key (info.facts model.nameOf model.keyOf) := by
  have names : (model.pushSymbol info).2.nameOf = model.nameOf := rfl
  have keys : ∀ id, id.index < model.symbolCount →
      (model.pushSymbol info).2.keyOf id = model.keyOf id :=
    fun _ there => model.keyOf_pushSymbol info there
  ext1
  · funext name
    refine Option.map_congr fun id found => ?_
    exact (sound.types id).facts_congr (sound.lt_of_type? found).le (fun _ _ => rfl) keys
  · funext key
    by_cases same : key = info.key
    · subst same
      have found := model.symbol?_pushSymbol_self info
      rw [outline_symbols found, symbol_pushSymbol_self, names, Outline.symbols_setSymbol,
        if_pos rfl]
      exact congrArg some (fits.facts_congr (fun _ _ => rfl) keys)
    · rw [Outline.symbols_setSymbol, if_neg same, symbols_outline, symbols_outline,
        symbol?_pushSymbol, if_neg same]
      refine Option.map_congr fun id found => ?_
      rw [symbol_pushSymbol, if_neg (sound.lt_of_symbol? found).ne, names]
      exact (sound.symbols id).facts_congr (fun _ _ => rfl) keys

/-- A symbol that is new is added. -/
theorem pushSymbol :
    Advances model (model.pushSymbol info).2
      (model.outline.setSymbol info.key (info.facts model.nameOf model.keyOf)) where
  sound := sound.sound_pushSymbol info absent fits
  outline_eq := sound.outline_pushSymbol info fits
  types found := found
  symbols := by
    intro key id found
    rw [symbol?_pushSymbol, if_neg, found]
    rintro rfl
    rw [absent] at found
    cases found
  owned found := found

end PushSymbol

section ModifySymbol

variable {id : SymbolId} (there : id.index < model.symbolCount) (f : SymbolInfo → SymbolInfo)
  (keyed : (f (model.symbol id)).key = model.keyOf id)

include there keyed

theorem sound_modifySymbol (fits : (f (model.symbol id)).Fits model.typeCount model.symbolCount) :
    (model.modifySymbol id f).Sound where
  type?_iff := sound.type?_iff
  symbol?_iff := by
    intro key other
    rw [symbolCount_modifySymbol, keyOf_modifySymbol _ there keyed]
    exact sound.symbol?_iff
  types := (sound.closed.modifySymbol id f fits).types
  symbols := (sound.closed.modifySymbol id f fits).symbols
  own := by
    intro other symbol owned
    rw [keyOf_modifySymbol _ there keyed]
    exact sound.own other symbol owned

theorem outline_modifySymbol (change : SymbolFacts → SymbolFacts)
    (facts : (f (model.symbol id)).facts model.nameOf model.keyOf =
      change ((model.symbol id).facts model.nameOf model.keyOf)) :
    (model.modifySymbol id f).outline = model.outline.modifySymbol (model.keyOf id) change := by
  have names : (model.modifySymbol id f).nameOf = model.nameOf := rfl
  have keys := model.keyOf_modifySymbol there keyed
  ext1
  · funext name
    rw [types_outline, keys]
    rfl
  · funext key
    by_cases same : key = model.keyOf id
    · subst same
      have found := sound.symbol?_keyOf there
      have still : (model.modifySymbol id f).symbol? (model.keyOf id) = some id := found
      rw [Outline.symbols_modifySymbol, if_pos rfl, outline_symbols found, outline_symbols still,
        symbol_modifySymbol _ there, if_pos rfl, names, keys]
      exact congrArg some facts
    · rw [Outline.symbols_modifySymbol, if_neg same, symbols_outline, symbols_outline, names,
        keys]
      refine Option.map_congr fun other found => ?_
      have apart : other ≠ id := by
        rintro rfl
        exact same (sound.keyOf_of_symbol? found).symm
      rw [symbol_modifySymbol _ there, if_neg apart]

/-- What is known of a symbol changes. -/
theorem modifySymbol (change : SymbolFacts → SymbolFacts)
    (fits : (f (model.symbol id)).Fits model.typeCount model.symbolCount)
    (facts : (f (model.symbol id)).facts model.nameOf model.keyOf =
      change ((model.symbol id).facts model.nameOf model.keyOf)) :
    Advances model (model.modifySymbol id f)
      (model.outline.modifySymbol (model.keyOf id) change) where
  sound := sound.sound_modifySymbol there f keyed fits
  outline_eq := sound.outline_modifySymbol there f keyed change facts
  types found := found
  symbols found := found
  owned found := found

end ModifySymbol

end Sound

namespace Advances

variable {before after : Model} {outline : Outline} (advances : Advances before after outline)
  (sound : before.Sound)

include advances sound

theorem symbol_kept {id : SymbolId} (there : id.index < before.symbolCount) :
    id.index < after.symbolCount ∧ after.keyOf id = before.keyOf id :=
  advances.sound.symbol?_iff.mp (advances.symbols (sound.symbol?_keyOf there))

end Advances

end Model

end BugPatterns
