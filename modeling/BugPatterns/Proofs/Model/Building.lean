import BugPatterns.Proofs.InsertionOrder
import BugPatterns.Proofs.Model.Sound

/-!
# What the operations on models do by name

Each operation by which a model is built has its counterpart on outlines, and takes a sound model to
a sound one that has the outline so changed. The counterparts refer to types and symbols by name, so
they say what an operation does whatever the numbers are.
-/

namespace BugPatterns

open BugPatterns.TypeName (parse)

namespace Outline

/-- Gives a type a symbol whose key is the name of the type, unless it has a symbol. -/
def giveSymbol (outline : Outline) (name : String) : Outline :=
  if ((outline.types name).bind TypeFacts.symbol).isSome then outline
  else
    (outline.setSymbol name
      ⟨TypeName.simpleName name, .type, none, some name, false, false, ∅, [], none⟩).modifyType name
      fun facts => { facts with symbol := some name }

/-- Declares a type of that name and tag. A type that is there already takes the new tag. -/
def define (outline : Outline) (name : String) (tag : TypeTag) : Outline :=
  let present := if (outline.types name).isSome then outline
    else outline.setType name (.bare tag)
  (present.modifyType name fun facts => { facts with tag := tag }).giveSymbol name

/-- What is known of a type once it is declared. -/
def declaredFacts (known : Option TypeFacts) (name : String) (tag : TypeTag) : TypeFacts :=
  { known.getD (.bare tag) with
    tag := tag
    symbol := some ((known.bind TypeFacts.symbol).getD name) }

theorem types_define (outline : Outline) (name : String) (tag : TypeTag) (other : String) :
    (outline.define name tag).types other =
      if other = name then some (declaredFacts (outline.types name) name tag)
      else outline.types other := by
  unfold define giveSymbol declaredFacts
  cases known : outline.types name with
  | none => by_cases same : other = name <;> simp [same, TypeFacts.bare]
  | some facts =>
      cases owned : facts.symbol with
      | none => by_cases same : other = name <;> simp [known, same, owned]
      | some symbol =>
          by_cases same : other = name
          · subst same
            simp [known, owned]
          · simp [known, same, owned]

theorem symbols_define (outline : Outline) (name : String) (tag : TypeTag) (other : String) :
    (outline.define name tag).symbols other =
      if other = name ∧ (outline.types name).bind TypeFacts.symbol = none then
        some ⟨TypeName.simpleName name, .type, none, some name, false, false, ∅, [], none⟩
      else outline.symbols other := by
  unfold define giveSymbol
  cases known : outline.types name with
  | none => by_cases same : other = name <;> simp [same, TypeFacts.bare]
  | some facts =>
      cases owned : facts.symbol with
      | none => by_cases same : other = name <;> simp [known, same, owned]
      | some symbol => by_cases same : other = name <;> simp [known, same, owned]

/-- Makes a type symbol a member of another one. -/
def nest (outline : Outline) (nested outer : String) : Outline :=
  (outline.modifySymbol nested fun facts => { facts with owner := some outer }).modifySymbol outer
    fun facts => { facts with members := insert nested facts.members }

/-- Adds a symbol, which becomes a member of its owner if that is a type symbol. -/
def enter (outline : Outline) (key : String) (facts : SymbolFacts) : Outline where
  types := outline.types
  symbols other :=
    if other = key then some facts
    else (outline.symbols other).map fun known =>
      if facts.owner = some other ∧ known.kind = .type then
        { known with members := insert key known.members }
      else known

/-- A type is there and has a symbol. -/
def HasSymbol (outline : Outline) (name : String) : Prop :=
  ((outline.types name).bind TypeFacts.symbol).isSome

/-- All symbols are those of types. -/
def OnlyTypeSymbols (outline : Outline) : Prop :=
  ∀ name, (outline.types name).bind TypeFacts.symbol = none → outline.symbols name = none

theorem symbols_enter (outline : Outline) (key : String) (facts : SymbolFacts) (other : String) :
    (outline.enter key facts).symbols other =
      if other = key then some facts
      else (outline.symbols other).map fun known =>
        if facts.owner = some other ∧ known.kind = .type then
          { known with members := insert key known.members }
        else known := rfl

section Enter

variable {outline : Outline} {key owner : String} {facts known : SymbolFacts}

/-- A symbol that no type symbol owns becomes a member of nothing. -/
theorem enter_eq_setSymbol
    (unowned : ∀ owner, facts.owner = some owner →
      ∀ known, outline.symbols owner = some known → known.kind ≠ .type) :
    outline.enter key facts = outline.setSymbol key facts := by
  ext1
  · rfl
  · funext other
    rw [enter, symbols_setSymbol]
    refine ite_congr rfl (fun _ => rfl) fun _ => ?_
    cases there : outline.symbols other with
    | none => rfl
    | some known =>
        have apart : ¬ (facts.owner = some other ∧ known.kind = .type) :=
          fun ⟨owned, isType⟩ => unowned other owned known there isType
        rw [Option.map_some, if_neg apart]

/-- A symbol that a type symbol owns becomes a member of it. -/
theorem enter_eq_modifySymbol (owned : facts.owner = some owner)
    (there : outline.symbols owner = some known) (isType : known.kind = .type)
    (apart : owner ≠ key) :
    outline.enter key facts = (outline.setSymbol key facts).modifySymbol owner fun known =>
      { known with members := insert key known.members } := by
  ext1
  · rfl
  · funext other
    rw [enter, symbols_modifySymbol, symbols_setSymbol]
    by_cases same : other = owner
    · subst same
      simp only [if_neg apart, there, Option.map_some, owned, isType, and_self, if_true]
    · rw [if_neg same]
      refine ite_congr rfl (fun _ => rfl) fun _ => ?_
      have unowned : facts.owner ≠ some other := by
        rw [owned]
        exact fun equal => same (Option.some.inj equal).symm
      simp only [unowned, false_and, if_false, Option.map_id']

/-- A symbol may be described more closely after it was added, except for its owner. -/
theorem enter_modifySymbol {change : SymbolFacts → SymbolFacts} {names : List String}
    (kept : (change facts).owner = facts.owner) :
    ((outline.enter key facts).withNames names).modifySymbol key change =
      (outline.enter key (change facts)).withNames names := by
  ext1
  · rw [types_modifySymbol]
    have same : (outline.enter key facts).types = (outline.enter key (change facts)).types := rfl
    exact types_withNames_congr same names
  · funext other
    simp only [symbols_modifySymbol, symbols_withNames, enter, kept]
    by_cases same : other = key
    · simp only [if_pos same, Option.map_some]
    · simp only [if_neg same]

end Enter

end Outline

namespace Model

theorem type?_eq_none {model : Model} {name : String} :
    model.type? name = none ↔ model.outline.types name = none := by
  rw [types_outline, Option.map_eq_none_iff]

theorem symbol?_eq_none {model : Model} {key : String} :
    model.symbol? key = none ↔ model.outline.symbols key = none := by
  rw [symbols_outline, Option.map_eq_none_iff]

/-- The tag of a type is the one that its outline tells. -/
theorem tag_of_type? {model : Model} {name : String} {id : TypeId}
    (found : model.type? name = some id) :
    (model.type id).tag = model.outline.tagOf (parse name) := by
  rw [Outline.tagOf_parse, outline_types found]
  rfl

/-- A symbol cannot be declared under a key that is taken. -/
theorem declare_of_taken {model : Model} {key name : String} {kind : SymbolKind}
    {owner : Option SymbolId} (taken : (model.outline.symbols key).isSome) :
    model.declare key name kind owner = .error (.duplicateSymbol key) := by
  unfold Model.declare
  cases known : model.symbol? key with
  | some id => rfl
  | none =>
      rw [symbol?_eq_none.mp known] at taken
      cases taken

namespace Sound

/-- A type is added under its name once the name that this is built from is there. -/
theorem pushType_named {model grown : Model} {name : String} {info : TypeInfo}
    (absent : model.outline.types name = none)
    (based : Advances model grown (model.outline.withNames (TypeName.base? name).toList))
    (named : info.name = name) (unowned : info.symbol = none)
    (fits : info.Fits grown.typeCount grown.typeCount grown.symbolCount)
    (facts : info.facts grown.nameOf grown.keyOf = model.outline.fresh (parse name)) :
    Advances model (grown.pushType info).2 (model.outline.withNames [name]) ∧
      (grown.pushType info).2.type? name = some (grown.pushType info).1 := by
  subst named
  have still : grown.type? info.name = none := by
    rw [type?_eq_none, based.outline_eq]
    exact Outline.types_withNames_base absent
  have pushed := based.sound.pushType info still fits unowned
  rw [based.outline_eq, facts, ← Outline.withNames_singleton absent] at pushed
  exact ⟨based.trans pushed, grown.type?_pushType_self info⟩

/-- A name is interned: it is added to the outline with what it is built from. -/
theorem internName (name : String) :
    ∀ {model : Model}, model.Sound →
      Advances model (model.internName (parse name)).2 (model.outline.withNames [name]) ∧
        (model.internName (parse name)).2.type? name =
          some (model.internName (parse name)).1 := by
  induction name using TypeName.base_induction with
  | step name ih =>
      intro model sound
      unfold Model.internName
      rw [TypeName.text_parse]
      cases known : model.type? name with
      | some id =>
          have there : (model.outline.types name).isSome := by
            rw [outline_types known, Option.isSome_some]
          have same : model.outline.withNames [name] = model.outline :=
            Outline.withNames_of_isSome (by simpa using there)
          rw [same]
          exact ⟨sound.advances, known⟩
      | none =>
          have absent := type?_eq_none.mp known
          cases parsed : parse name with
          | plain text =>
              obtain rfl := TypeName.of_parse_plain parsed
              have base : TypeName.base? text = none := by rw [TypeName.base?, parsed]
              refine pushType_named absent ?_ rfl rfl (TypeInfo.fits_bare ..) ?_
              · rw [base, Option.toList_none, Outline.withNames_of_isSome (by simp)]
                exact sound.advances
              · rw [parsed]
                rfl
          | array text element =>
              obtain ⟨rfl, same, -⟩ := TypeName.of_parse_array parsed
              have base : TypeName.base? text = some element.text := by rw [TypeName.base?, parsed]
              obtain ⟨based, found⟩ := ih _ base sound
              rw [same] at based found
              have there := based.sound.lt_of_type? found
              refine pushType_named absent ?_ rfl rfl ?_ ?_
              · rw [base]
                exact based
              · refine { TypeInfo.fits_bare text .array _ _ _ with element := ?_ }
                rintro id ⟨rfl⟩
                exact there
              · rw [parsed, Outline.fresh, ← based.sound.nameOf_of_type? found]
                rfl
          | parameterized text raw =>
              obtain ⟨rfl, same, -⟩ := TypeName.of_parse_parameterized parsed
              have base : TypeName.base? text = some raw.text := by rw [TypeName.base?, parsed]
              obtain ⟨based, found⟩ := ih _ base sound
              have tag := tag_of_type? found
              rw [based.outline_eq, Outline.tagOf_withNames] at tag
              rw [same] at based found tag
              have there := based.sound.lt_of_type? found
              refine pushType_named absent ?_ rfl rfl ?_ ?_
              · rw [base]
                exact based
              · refine { TypeInfo.fits_bare text .unknown _ _ _ with erasure := ?_ }
                rintro id ⟨rfl⟩
                exact there
              · rw [parsed, Outline.fresh, ← based.sound.nameOf_of_type? found, ← tag]
                rfl

theorem intern {model : Model} (sound : model.Sound) (name : String) :
    Advances model (model.intern name).2 (model.outline.withNames [name]) ∧
      (model.intern name).2.type? name = some (model.intern name).1 :=
  sound.internName name

section Types

variable {model : Model} {name : String} {id : TypeId} (sound : model.Sound)
  (found : model.type? name = some id)

include sound found

theorem setSuperclass (superclass : Option TypeId)
    (there : ∀ other ∈ superclass, other.index < model.typeCount) :
    Advances model (model.setSuperclass id superclass)
      (model.outline.modifyType name fun facts =>
        { facts with superclass := superclass.map model.nameOf }) := by
  obtain ⟨bound, rfl⟩ := sound.type?_iff.mp found
  exact sound.modifyType bound _ rfl _ { sound.types id with superclass := there } (sound.own id)
    (fun _ owned => owned) rfl

theorem addInterface {interface : TypeId} (there : interface.index < model.typeCount) :
    Advances model (model.addInterface id interface)
      (model.outline.modifyType name fun facts =>
        { facts with interfaces := appendNew facts.interfaces (model.nameOf interface) }) := by
  obtain ⟨bound, rfl⟩ := sound.type?_iff.mp found
  have fits := sound.types id
  refine sound.modifyType bound _ rfl _ { fits with interfaces := ?_ } (sound.own id)
    (fun _ owned => owned) ?_
  · intro other listed
    rcases mem_appendNew.mp listed with listed | rfl
    · exact fits.interfaces other listed
    · exact there
  · have names : (appendNew (model.type id).interfaces interface).map model.nameOf =
        appendNew ((model.type id).interfaces.map model.nameOf) (model.nameOf interface) := by
      apply map_appendNew
      intro other listed same
      exact sound.nameOf_inj (fits.interfaces other listed) there same
    rw [TypeInfo.facts, names]
    rfl

/-- A type that has no symbol gets one whose key is its name. -/
theorem setSymbol (unowned : (model.type id).symbol = none) {symbol : SymbolId}
    (there : symbol.index < model.symbolCount) (keyed : model.keyOf symbol = name) :
    Advances model (model.modifyType id fun info => { info with symbol := some symbol })
      (model.outline.modifyType name fun facts => { facts with symbol := some name }) := by
  obtain ⟨bound, rfl⟩ := sound.type?_iff.mp found
  refine sound.modifyType bound _ rfl _ { sound.types id with symbol := ?_ } ?_ ?_ ?_
  · rintro _ ⟨rfl⟩
    exact there
  · rintro _ ⟨rfl⟩
    exact keyed
  · rw [unowned]
    rintro _ ⟨⟩
  · rw [TypeInfo.facts, Option.map_some, keyed]
    rfl

/-- A type that is there is given a symbol, whose key is free if it has none. -/
theorem giveSymbol (free : (model.type id).symbol = none → model.symbol? name = none) :
    Advances model (model.giveSymbol id name) (model.outline.giveSymbol name) := by
  have known := outline_types found
  unfold Model.giveSymbol Outline.giveSymbol
  rw [known, Option.bind_some, TypeInfo.facts]
  cases owned : (model.type id).symbol with
  | some symbol => exact sound.advances
  | none =>
      let info := SymbolInfo.bare name (TypeName.simpleName name) .type none (some id)
      have fits : info.Fits model.typeCount model.symbolCount :=
        { owner := by rintro _ ⟨⟩
          type := by rintro _ ⟨rfl⟩; exact sound.lt_of_type? found
          members := by rintro _ ⟨⟩
          params := by rintro _ ⟨⟩ }
      have pushed := sound.pushSymbol info (free owned) fits
      have known := pushed.sound.symbol?_iff.mp (model.symbol?_pushSymbol_self info)
      have given := pushed.sound.setSymbol (pushed.types found) owned known.1 known.2
      rw [pushed.outline_eq, SymbolInfo.facts] at given
      simp only [info, SymbolInfo.bare, Option.map_some, sound.nameOf_of_type? found] at given
      exact pushed.trans given

end Types

/-- A type that is there is declared. -/
theorem define_of_found {model : Model} {name : String} {id : TypeId} (sound : model.Sound)
    (found : model.type? name = some id) (tag : TypeTag)
    (free : (model.type id).symbol = none → model.symbol? name = none) :
    Advances model ((model.modifyType id fun info => { info with tag := tag }).giveSymbol id name)
      ((model.outline.modifyType name fun facts => { facts with tag := tag }).giveSymbol name) := by
  obtain ⟨bound, rfl⟩ := sound.type?_iff.mp found
  have tagged := sound.modifyType bound (fun info => { info with tag := tag }) rfl
    (fun facts => { facts with tag := tag })
    { sound.types id with } (sound.own id) (fun _ owned => owned) rfl
  have given := tagged.sound.giveSymbol (tagged.types found) (by
    rw [type_modifyType _ bound, if_pos rfl]
    exact free)
  rw [tagged.outline_eq] at given
  exact tagged.trans given

/-- A type is declared under a name that is the key of no symbol but its own. -/
theorem define {model : Model} (sound : model.Sound) (name : String) (tag : TypeTag)
    (free : (model.outline.types name).bind TypeFacts.symbol = none →
      model.outline.symbols name = none) :
    Advances model (model.define name tag).2 (model.outline.define name tag) := by
  unfold Model.define Outline.define
  cases known : model.type? name with
  | some id =>
      rw [outline_types known] at free ⊢
      refine sound.define_of_found known tag fun unowned => ?_
      apply symbol?_eq_none.mpr
      apply free
      rw [Option.bind_some, TypeInfo.facts, unowned]
      rfl
  | none =>
      have absent := type?_eq_none.mp known
      rw [absent] at free ⊢
      have pushed := sound.pushType (.bare name tag) known (TypeInfo.fits_bare ..) rfl
      have found := model.type?_pushType_self (.bare name tag)
      have unused : model.symbol? name = none := symbol?_eq_none.mpr (free rfl)
      have defined := pushed.sound.define_of_found found tag fun _ => unused
      rw [pushed.outline_eq] at defined
      exact pushed.trans defined

section Symbols

variable {model : Model} (sound : model.Sound)

include sound

theorem nest {nested outer : SymbolId} (there : nested.index < model.symbolCount)
    (also : outer.index < model.symbolCount) :
    Advances model (model.nest nested outer)
      (model.outline.nest (model.keyOf nested) (model.keyOf outer)) := by
  have owned := sound.modifySymbol there (fun info => { info with owner := some outer }) rfl
    (fun facts => { facts with owner := some (model.keyOf outer) })
    { sound.symbols nested with owner := by rintro _ ⟨rfl⟩; exact also } rfl
  obtain ⟨outerThere, outerKey⟩ := owned.symbol_kept sound also
  obtain ⟨nestedThere, nestedKey⟩ := owned.symbol_kept sound there
  have fits := owned.sound.symbols outer
  have joined := owned.sound.modifySymbol outerThere
    (fun info => { info with members := appendNew info.members nested }) rfl
    (fun facts => { facts with members := insert (model.keyOf nested) facts.members })
    { fits with
      members := by
        intro id listed
        rcases mem_appendNew.mp listed with listed | rfl
        · exact fits.members id listed
        · exact nestedThere }
    (by rw [SymbolInfo.facts, toFinset_map_appendNew, nestedKey]; rfl)
  rw [owned.outline_eq, outerKey] at joined
  exact owned.trans joined

/-- A symbol becomes a member of another one. -/
theorem addMember {owner member : SymbolId} (there : owner.index < model.symbolCount)
    (also : member.index < model.symbolCount) :
    Advances model
      (model.modifySymbol owner fun info => { info with members := info.members ++ [member] })
      (model.outline.modifySymbol (model.keyOf owner) fun facts =>
        { facts with members := insert (model.keyOf member) facts.members }) := by
  have fits := sound.symbols owner
  refine sound.modifySymbol there _ rfl _ { fits with members := ?_ } ?_
  · intro id listed
    rcases List.mem_append.mp listed with listed | listed
    · exact fits.members id listed
    · rw [List.mem_singleton.mp listed]
      exact also
  · have keys : ((model.symbol owner).members ++ [member] |>.map model.keyOf).toFinset =
        insert (model.keyOf member) ((model.symbol owner).members.map model.keyOf).toFinset := by
      ext key
      simp
    rw [SymbolInfo.facts, keys]
    rfl

theorem addParam {method param : SymbolId} (there : method.index < model.symbolCount)
    (also : param.index < model.symbolCount) :
    Advances model (model.addParam method param)
      (model.outline.modifySymbol (model.keyOf method) fun facts =>
        { facts with params := facts.params ++ [model.keyOf param] }) := by
  have fits := sound.symbols method
  refine sound.modifySymbol there _ rfl _ { fits with params := ?_ } ?_
  · intro id listed
    rcases List.mem_append.mp listed with listed | listed
    · exact fits.params id listed
    · rw [List.mem_singleton.mp listed]
      exact also
  · rw [SymbolInfo.facts, List.map_append]
    rfl

/-- A symbol is declared under a key that is free. -/
theorem declare_of_free {key name : String} {kind : SymbolKind} {owner : Option SymbolId}
    (free : model.outline.symbols key = none)
    (there : ∀ id ∈ owner, id.index < model.symbolCount) :
    ∃ id grown, model.declare key name kind owner = .ok (id, grown) ∧
      Advances model grown (model.outline.enter key
        ⟨name, kind, owner.map model.keyOf, none, false, false, ∅, [], none⟩) ∧
      grown.symbol? key = some id := by
  have absent := symbol?_eq_none.mpr free
  let info := SymbolInfo.bare key name kind owner none
  have fits : info.Fits model.typeCount model.symbolCount :=
    { owner := there
      type := by rintro _ ⟨⟩
      members := by rintro _ ⟨⟩
      params := by rintro _ ⟨⟩ }
  have pushed := sound.pushSymbol info absent fits
  have found := model.symbol?_pushSymbol_self info
  unfold Model.declare
  rw [absent]
  cases owner with
  | none =>
      refine ⟨_, _, rfl, ?_, found⟩
      rw [Outline.enter_eq_setSymbol (by rintro _ ⟨⟩)]
      exact pushed
  | some owner =>
      have bound := there owner rfl
      have known := sound.outline_keyOf bound
      obtain ⟨still, kept⟩ := pushed.symbol_kept sound bound
      have same : (model.pushSymbol info).2.symbol owner = model.symbol owner := by
        rw [symbol_pushSymbol, if_neg bound.ne]
      by_cases isType : (model.symbol owner).kind = .type
      · refine ⟨_, _, if_pos (same.symm ▸ isType), ?_, found⟩
        have apart : model.keyOf owner ≠ key := by
          intro equal
          rw [equal, free] at known
          cases known
        have joined := pushed.sound.addMember still (pushed.sound.lt_of_symbol? found)
        rw [pushed.outline_eq, kept, pushed.sound.keyOf_of_symbol? found] at joined
        rw [Outline.enter_eq_modifySymbol rfl known isType apart]
        exact pushed.trans joined
      · refine ⟨_, _, if_neg (same.symm ▸ isType), ?_, found⟩
        rw [Outline.enter_eq_setSymbol]
        · exact pushed
        · rintro _ ⟨rfl⟩ facts present
          rw [known] at present
          cases present
          exact isType

end Symbols

end Sound

end Model

end BugPatterns
