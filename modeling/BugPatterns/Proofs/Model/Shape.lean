import BugPatterns.Model.Query
import BugPatterns.Proofs.Model.Growth
import BugPatterns.Proofs.Model.Prelude

/-!
# What types are built from

A type that is built from another one, a parameterized type from its raw type or an array type from
that of its elements, is named by the name of the other one and something more, and is younger
(`Model.Shaped`). Nothing is asked of symbols here, nor of superclasses and interfaces, so every
operation keeps this, whatever numbers it is given (`Model.Shaped.grows`): types are added by
interning and by defining names, and no other operation touches what a type is built from
(`Model.KeepsParts`).

How a type that is interned comes to be is part of the same induction (`Model.Interned`).
-/

namespace BugPatterns

open BugPatterns.TypeName (parse)

namespace Model

/-- Types have the same numbers, names and parts after a change. -/
structure KeepsParts (before after : Model) : Prop where
  count : after.typeCount = before.typeCount
  look : after.typeNames = before.typeNames
  name : ∀ id, (after.type id).name = (before.type id).name
  erasure : ∀ id, (after.type id).erasure = (before.type id).erasure
  element : ∀ id, (after.type id).element = (before.type id).element

/-- A type with a raw type, or with elements, is named by the name of that one and something more,
    and is younger. Types are found by their names. -/
structure Shaped (model : Model) : Prop where
  type?_iff : ∀ {name id},
    model.type? name = some id ↔ id.index < model.typeCount ∧ model.nameOf id = name
  erasure : ∀ {id raw}, (model.type id).erasure = some raw → raw.index < id.index ∧
    ∃ text base, parse (model.nameOf id) = .parameterized text base ∧ model.nameOf raw = base.text
  element : ∀ {id element}, (model.type id).element = some element → element.index < id.index ∧
    ∃ text base, parse (model.nameOf id) = .array text base ∧ model.nameOf element = base.text

/-- A type is as its name makes it: an array type with its elements, or a parameterized type with
    its raw type and with the tag of that one. -/
structure Made (model : Model) (id : TypeId) : Prop where
  array : ∀ {text base}, parse (model.nameOf id) = .array text base →
    model.tag id = .array ∧ ∃ element, (model.type id).element = some element
  parameterized : ∀ {text base}, parse (model.nameOf id) = .parameterized text base →
    ∃ raw, (model.type id).erasure = some raw ∧ model.tag id = model.tag raw

/-! ## Changes that add no types -/

section Keeps

variable {before after : Model}

theorem KeepsParts.refl (model : Model) : KeepsParts model model :=
  ⟨rfl, rfl, fun _ => rfl, fun _ => rfl, fun _ => rfl⟩

theorem KeepsParts.trans {last : Model} (first : KeepsParts before after)
    (next : KeepsParts after last) : KeepsParts before last where
  count := next.count.trans first.count
  look := next.look.trans first.look
  name id := (next.name id).trans (first.name id)
  erasure id := (next.erasure id).trans (first.erasure id)
  element id := (next.element id).trans (first.element id)

theorem keepsParts_modifyType (model : Model) (id : TypeId) {f : TypeInfo → TypeInfo}
    (name : ∀ info, (f info).name = info.name) (erasure : ∀ info, (f info).erasure = info.erasure)
    (element : ∀ info, (f info).element = info.element) :
    KeepsParts model (model.modifyType id f) where
  count := typeCount_modifyType model id f
  look := rfl
  name := model.apply_type_modifyType TypeInfo.name name id
  erasure := model.apply_type_modifyType TypeInfo.erasure erasure id
  element := model.apply_type_modifyType TypeInfo.element element id

/-- A change of symbols touches no type. -/
theorem keepsParts_of_types (types : after.types = before.types)
    (look : after.typeNames = before.typeNames) : KeepsParts before after := by
  have same (id : TypeId) : after.type id = before.type id := by rw [type, type, types]
  exact ⟨congrArg Array.size types, look, fun id => by rw [same], fun id => by rw [same],
    fun id => by rw [same]⟩

theorem keepsParts_setTag (model : Model) (id : TypeId) (tag : TypeTag) :
    KeepsParts model (model.modifyType id fun info => { info with tag := tag }) :=
  keepsParts_modifyType _ _ (fun _ => rfl) (fun _ => rfl) fun _ => rfl

theorem keepsParts_setSuperclass (model : Model) (id : TypeId) (superclass : Option TypeId) :
    KeepsParts model (model.setSuperclass id superclass) :=
  keepsParts_modifyType _ _ (fun _ => rfl) (fun _ => rfl) fun _ => rfl

theorem keepsParts_addInterface (model : Model) (id interface : TypeId) :
    KeepsParts model (model.addInterface id interface) :=
  keepsParts_modifyType _ _ (fun _ => rfl) (fun _ => rfl) fun _ => rfl

theorem keepsParts_modifySymbol (model : Model) (id : SymbolId) (f : SymbolInfo → SymbolInfo) :
    KeepsParts model (model.modifySymbol id f) :=
  keepsParts_of_types rfl rfl

theorem keepsParts_nest (model : Model) (nested outer : SymbolId) :
    KeepsParts model (model.nest nested outer) :=
  keepsParts_of_types rfl rfl

theorem keepsParts_giveSymbol (model : Model) (id : TypeId) (name : String) :
    KeepsParts model (model.giveSymbol id name) := by
  unfold giveSymbol
  split
  · exact .refl _
  · let info := SymbolInfo.bare name (TypeName.simpleName name) .type none (some id)
    have pushed : KeepsParts model (model.pushSymbol info).2 := keepsParts_of_types rfl rfl
    exact pushed.trans (keepsParts_modifyType _ id (fun _ => rfl) (fun _ => rfl) fun _ => rfl)

theorem types_declare {model grown : Model} {key name : String} {kind : SymbolKind}
    {owner : Option SymbolId} {id : SymbolId}
    (declared : model.declare key name kind owner = .ok (id, grown)) :
    grown.types = model.types ∧ grown.typeNames = model.typeNames := by
  unfold declare at declared
  split at declared
  · cases declared
  · simp only at declared
    split at declared
    · cases declared
      exact ⟨rfl, rfl⟩
    · split at declared
      · cases declared
        exact ⟨rfl, rfl⟩
      · cases declared
        exact ⟨rfl, rfl⟩

theorem keepsParts_declare {model grown : Model} {key name : String} {kind : SymbolKind}
    {owner : Option SymbolId} {id : SymbolId}
    (declared : model.declare key name kind owner = .ok (id, grown)) : KeepsParts model grown :=
  keepsParts_of_types (types_declare declared).1 (types_declare declared).2

theorem KeepsParts.shaped (keeps : KeepsParts before after) (shaped : before.Shaped) :
    after.Shaped where
  type?_iff := by
    intro name id
    rw [type?, keeps.look, keeps.count, nameOf, keeps.name]
    exact shaped.type?_iff
  erasure := by
    intro id raw built
    rw [keeps.erasure] at built
    rw [nameOf, nameOf, keeps.name, keeps.name]
    exact shaped.erasure built
  element := by
    intro id element built
    rw [keeps.element] at built
    rw [nameOf, nameOf, keeps.name, keeps.name]
    exact shaped.element built

end Keeps

/-! ## Added types -/

/-- Only types of the model are built from others. -/
theorem lt_of_erasure {model : Model} {id raw : TypeId}
    (built : (model.type id).erasure = some raw) : id.index < model.typeCount := by
  by_contra beyond
  rw [type_of_le model (Nat.not_lt.mp beyond)] at built
  cases built

theorem lt_of_element {model : Model} {id element : TypeId}
    (built : (model.type id).element = some element) : id.index < model.typeCount := by
  by_contra beyond
  rw [type_of_le model (Nat.not_lt.mp beyond)] at built
  cases built

namespace Shaped

variable {model : Model} (shaped : model.Shaped)

include shaped

theorem lt_of_type? {name : String} {id : TypeId} (found : model.type? name = some id) :
    id.index < model.typeCount :=
  (shaped.type?_iff.mp found).1

theorem nameOf_of_type? {name : String} {id : TypeId} (found : model.type? name = some id) :
    model.nameOf id = name :=
  (shaped.type?_iff.mp found).2

/-- Types of the same name are the same. -/
theorem nameOf_inj {id other : TypeId} (there : id.index < model.typeCount)
    (also : other.index < model.typeCount) (same : model.nameOf id = model.nameOf other) :
    id = other := by
  have found := shaped.type?_iff.mpr ⟨there, rfl⟩
  rw [same, shaped.type?_iff.mpr ⟨also, rfl⟩] at found
  exact (Option.some.inj found).symm

/-- The raw type of a parameterized type is not parameterized itself. -/
theorem erasure_raw {id raw : TypeId} (built : (model.type id).erasure = some raw) :
    (model.type raw).erasure = none := by
  by_contra built'
  obtain ⟨other, built'⟩ := Option.ne_none_iff_exists'.mp built'
  obtain ⟨-, text, base, parsed, named⟩ := shaped.erasure built
  obtain ⟨-, rawText, rawBase, rawParsed, -⟩ := shaped.erasure built'
  rw [named, (TypeName.of_parse_parameterized parsed).2.1] at rawParsed
  exact TypeName.parameterized_ne_raw parsed rawParsed

/-- Erasing twice is erasing once. -/
theorem erasure_erasure (id : TypeId) :
    model.erasure (model.erasure id) = model.erasure id := by
  cases built : (model.type id).erasure with
  | none =>
      have itself : model.erasure id = id := by rw [Model.erasure, built, Option.getD_none]
      rw [itself, itself]
  | some raw =>
      have erased : model.erasure id = raw := by rw [Model.erasure, built, Option.getD_some]
      rw [erased, Model.erasure, shaped.erasure_raw built, Option.getD_none]

/-- A type is added under a new name; what it is built from is there. -/
theorem pushType (info : TypeInfo) (absent : model.type? info.name = none)
    (erasure : ∀ raw, info.erasure = some raw → raw.index < model.typeCount ∧
      ∃ text base, parse info.name = .parameterized text base ∧ model.nameOf raw = base.text)
    (element : ∀ element, info.element = some element → element.index < model.typeCount ∧
      ∃ text base, parse info.name = .array text base ∧ model.nameOf element = base.text) :
    (model.pushType info).2.Shaped where
  type?_iff := by
    intro name id
    rw [typeCount_pushType]
    refine found_iff_of_push shaped.type?_iff absent (model.type?_pushType info name)
      (model.nameOf_pushType info) ?_ ?_
    · rw [nameOf, type_pushType]
      exact congrArg TypeInfo.name (if_pos rfl)
    · exact ⟨fun new => congrArg TypeId.mk new, fun equal => congrArg TypeId.index equal⟩
  erasure := by
    intro id raw built
    rw [type_pushType] at built
    rw [nameOf, type_pushType]
    by_cases new : id.index = model.typeCount
    · rw [if_pos new] at built ⊢
      obtain ⟨older, text, base, parsed, named⟩ := erasure raw built
      exact ⟨new ▸ older, text, base, parsed, (model.nameOf_pushType info older).trans named⟩
    · rw [if_neg new] at built ⊢
      obtain ⟨older, text, base, parsed, named⟩ := shaped.erasure built
      have there := older.trans (lt_of_erasure built)
      exact ⟨older, text, base, parsed, (model.nameOf_pushType info there).trans named⟩
  element := by
    intro id element' built
    rw [type_pushType] at built
    rw [nameOf, type_pushType]
    by_cases new : id.index = model.typeCount
    · rw [if_pos new] at built ⊢
      obtain ⟨older, text, base, parsed, named⟩ := element element' built
      exact ⟨new ▸ older, text, base, parsed, (model.nameOf_pushType info older).trans named⟩
    · rw [if_neg new] at built ⊢
      obtain ⟨older, text, base, parsed, named⟩ := shaped.element built
      have there := older.trans (lt_of_element built)
      exact ⟨older, text, base, parsed, (model.nameOf_pushType info there).trans named⟩

theorem pushType_bare {name : String} (absent : model.type? name = none) (tag : TypeTag) :
    (model.pushType (.bare name tag)).2.Shaped :=
  shaped.pushType _ absent (fun _ absurd => by cases absurd) fun _ absurd => by cases absurd

end Shaped

/-! ## Interning -/

/-- Types were added with names shorter than a bound, and each is as its name makes it. -/
structure Interned (before after : Model) (bound : Nat) : Prop where
  shaped : after.Shaped
  count : before.typeCount ≤ after.typeCount
  kept : ∀ id, id.index < before.typeCount → after.type id = before.type id
  shorter : ∀ id, before.typeCount ≤ id.index → id.index < after.typeCount →
    (after.nameOf id).length < bound
  made : ∀ id, before.typeCount ≤ id.index → id.index < after.typeCount → after.Made id

namespace Interned

variable {before grown : Model} {bound : Nat}

theorem refl {model : Model} (shaped : model.Shaped) (bound : Nat) :
    Interned model model bound where
  shaped := shaped
  count := le_rfl
  kept _ _ := rfl
  shorter _ new there := absurd there (Nat.not_lt.mpr new)
  made _ new there := absurd there (Nat.not_lt.mpr new)

/-- A name that was absent and is no shorter than the bound is still absent. -/
theorem absent (interned : Interned before grown bound) (shaped : before.Shaped) {name : String}
    (absent : before.type? name = none) (longer : bound ≤ name.length) :
    grown.type? name = none := by
  by_contra present
  obtain ⟨id, found⟩ := Option.ne_none_iff_exists'.mp present
  obtain ⟨there, rfl⟩ := interned.shaped.type?_iff.mp found
  by_cases old : id.index < before.typeCount
  · have before := shaped.type?_iff.mpr ⟨old, rfl⟩
    rw [nameOf, interned.kept id old] at absent
    rw [nameOf, absent] at before
    cases before
  · exact absurd (interned.shorter id (Nat.not_lt.mp old) there) (Nat.not_lt.mpr longer)

/-- What a type is made of stays when types are added. -/
theorem made_pushType (shaped : grown.Shaped) (info : TypeInfo) {id : TypeId}
    (there : id.index < grown.typeCount) (made : grown.Made id) :
    (grown.pushType info).2.Made id := by
  have same : (grown.pushType info).2.type id = grown.type id := by
    rw [type_pushType, if_neg there.ne]
  have name : (grown.pushType info).2.nameOf id = grown.nameOf id := by rw [nameOf, nameOf, same]
  constructor
  · intro text base parsed
    rw [name] at parsed
    rw [tag, same]
    exact made.array parsed
  · intro text base parsed
    rw [name] at parsed
    obtain ⟨raw, built, tags⟩ := made.parameterized parsed
    have older := (shaped.erasure built).1.trans there
    refine ⟨raw, by rw [same, built], ?_⟩
    rw [tag, same, tag, type_pushType, if_neg older.ne]
    exact tags

/-- The type that was added last is as its name makes it. -/
theorem made_last (info : TypeInfo)
    (array : ∀ {text base}, parse info.name = .array text base →
      info.tag = .array ∧ ∃ element, info.element = some element)
    (parameterized : ∀ {text base}, parse info.name = .parameterized text base →
      ∃ raw, info.erasure = some raw ∧ raw.index < grown.typeCount ∧ info.tag = grown.tag raw) :
    (grown.pushType info).2.Made ⟨grown.typeCount⟩ := by
  have last : (grown.pushType info).2.type ⟨grown.typeCount⟩ = info :=
    grown.type_pushType_self info
  constructor
  · intro text base parsed
    rw [nameOf, last] at parsed
    rw [tag, last]
    exact array parsed
  · intro text base parsed
    rw [nameOf, last] at parsed
    obtain ⟨raw, built, older, tags⟩ := parameterized parsed
    refine ⟨raw, by rw [last, built], ?_⟩
    rw [tag, last, tag, type_pushType, if_neg older.ne]
    exact tags

/-- A type is added after what it is built from. -/
theorem pushType (interned : Interned before grown bound) (info : TypeInfo)
    (pushed : (grown.pushType info).2.Shaped) (longer : bound ≤ info.name.length + 1)
    (made : (grown.pushType info).2.Made ⟨grown.typeCount⟩) :
    Interned before (grown.pushType info).2 (info.name.length + 1) where
  shaped := pushed
  count := by
    rw [typeCount_pushType]
    exact interned.count.trans (Nat.le_succ _)
  kept id old := by
    rw [type_pushType, if_neg (old.trans_le interned.count).ne]
    exact interned.kept id old
  shorter id new there := by
    rw [typeCount_pushType] at there
    rw [nameOf, type_pushType]
    by_cases last : id.index = grown.typeCount
    · rw [if_pos last]
      exact Nat.lt_succ_self _
    · rw [if_neg last]
      have early : id.index < grown.typeCount := by omega
      exact (interned.shorter id new early).trans_le longer
  made id new there := by
    rw [typeCount_pushType] at there
    by_cases last : id.index = grown.typeCount
    · obtain rfl : id = ⟨grown.typeCount⟩ := congrArg TypeId.mk last
      exact made
    · have early : id.index < grown.typeCount := by omega
      exact made_pushType interned.shaped info early (interned.made id new early)

end Interned

/-- Interning a name adds it with what it is built from. The induction is along the names that a
    name is built from; these are shorter, so the name is still absent when its turn comes. -/
theorem interned_internName (name : String) :
    ∀ {model : Model}, model.Shaped →
      Interned model (model.internName (parse name)).2 (name.length + 1) ∧
        (model.internName (parse name)).2.type? name =
          some (model.internName (parse name)).1 := by
  induction name using TypeName.base_induction with
  | step name ih =>
      intro model shaped
      unfold internName
      rw [TypeName.text_parse]
      cases known : model.type? name with
      | some id => exact ⟨.refl shaped _, known⟩
      | none =>
          cases parsed : parse name with
          | plain text =>
              obtain rfl := TypeName.of_parse_plain parsed
              refine ⟨?_, type?_pushType_self ..⟩
              refine (Interned.refl shaped 0).pushType _ (shaped.pushType_bare known _)
                (Nat.zero_le _) (Interned.made_last _ ?_ ?_)
              · intro _ _ other
                cases parsed.symm.trans other
              · intro _ _ other
                cases parsed.symm.trans other
          | array text element =>
              obtain ⟨rfl, same, shorter⟩ := TypeName.of_parse_array parsed
              have base : TypeName.base? text = some element.text := by
                rw [TypeName.base?, parsed]
              obtain ⟨based, found⟩ := ih _ base shaped
              rw [same] at based found
              simp only
              generalize model.internName element = interned at based found
              obtain ⟨id, grown⟩ := interned
              refine ⟨?_, type?_pushType_self ..⟩
              have pushed := based.shaped.pushType
                { TypeInfo.bare text .array with element := some id }
                (based.absent shaped known shorter) (fun _ absurd => by cases absurd)
                (by
                  rintro _ ⟨rfl⟩
                  exact ⟨based.shaped.lt_of_type? found, text, element, parsed,
                    based.shaped.nameOf_of_type? found⟩)
              refine based.pushType _ pushed (Nat.succ_le_succ shorter.le)
                (Interned.made_last _ (fun _ => ⟨rfl, id, rfl⟩) ?_)
              intro _ _ other
              cases parsed.symm.trans other
          | parameterized text raw =>
              obtain ⟨rfl, same, shorter⟩ := TypeName.of_parse_parameterized parsed
              have base : TypeName.base? text = some raw.text := by rw [TypeName.base?, parsed]
              obtain ⟨based, found⟩ := ih _ base shaped
              rw [same] at based found
              simp only
              generalize model.internName raw = interned at based found
              obtain ⟨id, grown⟩ := interned
              refine ⟨?_, type?_pushType_self ..⟩
              have there := based.shaped.lt_of_type? found
              have pushed := based.shaped.pushType
                { TypeInfo.bare text (grown.type id).tag with erasure := some id }
                (based.absent shaped known shorter)
                (by
                  rintro _ ⟨rfl⟩
                  exact ⟨there, text, raw, parsed, based.shaped.nameOf_of_type? found⟩)
                fun _ absurd => by cases absurd
              refine based.pushType _ pushed (Nat.succ_le_succ shorter.le)
                (Interned.made_last _ ?_ fun _ => ⟨id, rfl, there, rfl⟩)
              intro _ _ other
              cases parsed.symm.trans other

theorem interned_intern {model : Model} (shaped : model.Shaped) (name : String) :
    Interned model (model.intern name).2 (name.length + 1) ∧
      (model.intern name).2.type? name = some (model.intern name).1 :=
  interned_internName name shaped

/-! ## All operations -/

namespace Shaped

variable {model : Model} (shaped : model.Shaped)

include shaped

theorem intern (name : String) : (model.intern name).2.Shaped :=
  (interned_intern shaped name).1.shaped

theorem define (name : String) (tag : TypeTag) : (model.define name tag).2.Shaped := by
  unfold Model.define
  refine ((keepsParts_setTag _ _ _).trans (keepsParts_giveSymbol _ _ _)).shaped ?_
  cases known : model.type? name with
  | some id => exact shaped
  | none => exact shaped.pushType_bare known tag

/-- One operation keeps what types are built from. -/
theorem grows {grown : Model} (step : Grows model grown) : grown.Shaped := by
  cases step with
  | intern name => exact shaped.intern name
  | define name tag => exact shaped.define name tag
  | setSuperclass id superclass => exact (keepsParts_setSuperclass _ _ _).shaped shaped
  | addInterface id interface => exact (keepsParts_addInterface _ _ _).shaped shaped
  | nest own outer => exact (keepsParts_nest _ _ _).shaped shaped
  | declare declared => exact (keepsParts_declare declared).shaped shaped
  | addParam method param => exact (keepsParts_modifySymbol _ _ _).shaped shaped
  | amend id type isStatic isFinal constant => exact (keepsParts_modifySymbol _ _ _).shaped shaped
  | amendType id type => exact (keepsParts_modifySymbol _ _ _).shaped shaped

theorem growsTo {grown : Model} (steps : GrowsTo model grown) : grown.Shaped := by
  induction steps with
  | refl => exact shaped
  | tail _ step ih => exact ih.grows step

end Shaped

theorem shaped_prelude : prelude.Shaped := by
  have bare : ∀ info ∈ prelude.types.toList, info.erasure = none ∧ info.element = none := by
    decide +kernel
  have parts (id : TypeId) :
      (prelude.type id).erasure = none ∧ (prelude.type id).element = none := by
    unfold type
    cases found : prelude.types[id.index]? with
    | none => exact ⟨rfl, rfl⟩
    | some info => exact bare info (Array.mem_toList_iff.mpr (Array.mem_of_getElem? found))
  refine ⟨sound_prelude.type?_iff, ?_, ?_⟩
  · intro id raw built
    rw [(parts id).1] at built
    cases built
  · intro id element built
    rw [(parts id).2] at built
    cases built

/-- In a loaded model types are named by what they are built from. -/
theorem shaped_of_load {document : ModelDocument} {model : Model}
    (loaded : load document = .ok model) : model.Shaped :=
  shaped_prelude.growsTo (prelude_grows_of_load loaded)

end Model

end BugPatterns
