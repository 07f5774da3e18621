import BugPatterns.Proofs.Model.Sound

/-!
# Interning adds types

When a name is interned, types are added to a model and nothing that is there changes
(`Model.addsTypes_intern`). In particular no name that is known comes to stand for another type:
what is added for a name are the names it is built from and itself, and of these only the ones that
are not there yet.
-/

namespace BugPatterns.Model

/-- Types were added: those that were there are as they were, names that were known stand for the
    types they stood for, and no symbol has changed. -/
structure AddsTypes (before after : Model) : Prop where
  symbols : after.symbols = before.symbols
  keys : after.symbolKeys = before.symbolKeys
  count : before.typeCount ≤ after.typeCount
  type : ∀ id, id.index < before.typeCount → after.type id = before.type id
  known : ∀ {name id}, before.type? name = some id → after.type? name = some id

namespace AddsTypes

variable {before after : Model}

theorem refl (model : Model) : AddsTypes model model where
  symbols := rfl
  keys := rfl
  count := le_rfl
  type _ _ := rfl
  known found := found

theorem trans {last : Model} (first : AddsTypes before after) (next : AddsTypes after last) :
    AddsTypes before last where
  symbols := next.symbols.trans first.symbols
  keys := next.keys.trans first.keys
  count := first.count.trans next.count
  type id there := (next.type id (there.trans_le first.count)).trans (first.type id there)
  known found := next.known (first.known found)

/-- One more type is added, under a name that was not known at first. -/
theorem pushType (adds : AddsTypes before after) {info : TypeInfo}
    (absent : before.type? info.name = none) : AddsTypes before (after.pushType info).2 where
  symbols := adds.symbols
  keys := adds.keys
  count := by
    rw [typeCount_pushType]
    exact Nat.le_succ_of_le adds.count
  type id there := by
    rw [type_pushType, if_neg (there.trans_le adds.count).ne]
    exact adds.type id there
  known := by
    intro name id found
    rw [type?_pushType, if_neg]
    · exact adds.known found
    · rintro rfl
      cases absent.symm.trans found

theorem symbolCount (adds : AddsTypes before after) : after.symbolCount = before.symbolCount :=
  congrArg Array.size adds.symbols

theorem symbol (adds : AddsTypes before after) (id : SymbolId) :
    after.symbol id = before.symbol id := by
  rw [Model.symbol, Model.symbol, adds.symbols]

theorem symbol? (adds : AddsTypes before after) (key : String) :
    after.symbol? key = before.symbol? key := by
  rw [Model.symbol?, Model.symbol?, adds.keys]

end AddsTypes

theorem addsTypes_internName (name : TypeName) : ∀ model : Model,
    AddsTypes model (model.internName name).2 ∧
      (model.internName name).2.type? name.text = some (model.internName name).1 := by
  induction name with
  | plain text =>
      intro model
      unfold internName
      cases known : model.type? (TypeName.plain text).text with
      | some id => exact ⟨.refl model, known⟩
      | none => exact ⟨(AddsTypes.refl model).pushType known, type?_pushType_self ..⟩
  | array text element ih =>
      intro model
      unfold internName
      cases known : model.type? (TypeName.array text element).text with
      | some id => exact ⟨.refl model, known⟩
      | none => exact ⟨(ih model).1.pushType known, type?_pushType_self ..⟩
  | parameterized text raw ih =>
      intro model
      unfold internName
      cases known : model.type? (TypeName.parameterized text raw).text with
      | some id => exact ⟨.refl model, known⟩
      | none => exact ⟨(ih model).1.pushType known, type?_pushType_self ..⟩

/-- Interning a name adds types, and the name is known afterwards. -/
theorem addsTypes_intern (model : Model) (name : String) :
    AddsTypes model (model.intern name).2 ∧
      (model.intern name).2.type? name = some (model.intern name).1 := by
  have adds := addsTypes_internName (.parse name) model
  rwa [TypeName.text_parse] at adds

/-- Nothing happens when a name is interned that is there. -/
theorem intern_of_type? {model : Model} {name : String} {id : TypeId}
    (found : model.type? name = some id) : model.intern name = (id, model) := by
  unfold Model.intern Model.internName
  rw [TypeName.text_parse, found]

/-- Interning a name again gives the same type and changes nothing. -/
theorem intern_intern (model : Model) (name : String) :
    (model.intern name).2.intern name = model.intern name :=
  intern_of_type? (model.addsTypes_intern name).2

end BugPatterns.Model
