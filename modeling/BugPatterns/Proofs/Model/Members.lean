import BugPatterns.Proofs.InsertionOrder
import BugPatterns.Proofs.Model.Growth
import BugPatterns.Proofs.Model.Prelude

/-!
# Lists of members

No symbol stands twice in a list of members (`Model.Tidy`). A symbol becomes a member when it is
declared, and then it is new, or when a type is nested, and then it is added unless it stands in the
list. For the former one has to know that lists hold symbols of the model only, so this belongs to
what the operations keep.
-/

namespace BugPatterns.Model

/-- What types and symbols refer to are symbols of the model, and no member is listed twice. -/
structure Tidy (model : Model) : Prop where
  symbols : ∀ {type symbol}, (model.type type).symbol = some symbol →
    symbol.index < model.symbolCount
  members : ∀ {symbol member}, member ∈ (model.symbol symbol).members →
    member.index < model.symbolCount
  nodup : ∀ symbol, (model.symbol symbol).members.Nodup

namespace Tidy

variable {model : Model} (tidy : model.Tidy)

include tidy

/-- A change of types that leaves their symbols alone. -/
theorem modifyType (id : TypeId) {f : TypeInfo → TypeInfo}
    (kept : ∀ info, (f info).symbol = info.symbol) : (model.modifyType id f).Tidy where
  symbols := by
    intro type symbol own
    rw [model.apply_type_modifyType TypeInfo.symbol kept] at own
    exact tidy.symbols own
  members := tidy.members
  nodup := tidy.nodup

/-- A change of symbols that leaves their members alone. -/
theorem modifySymbol (id : SymbolId) {f : SymbolInfo → SymbolInfo}
    (kept : ∀ info, (f info).members = info.members) : (model.modifySymbol id f).Tidy where
  symbols := by
    intro type symbol own
    rw [symbolCount_modifySymbol]
    exact tidy.symbols own
  members := by
    intro symbol member listed
    rw [model.apply_symbol_modifySymbol SymbolInfo.members kept] at listed
    rw [symbolCount_modifySymbol]
    exact tidy.members listed
  nodup := by
    intro symbol
    rw [model.apply_symbol_modifySymbol SymbolInfo.members kept]
    exact tidy.nodup symbol

theorem pushType {info : TypeInfo} (unowned : info.symbol = none) :
    (model.pushType info).2.Tidy where
  symbols := by
    intro type symbol own
    rw [type_pushType] at own
    split at own
    · cases unowned.symm.trans own
    · exact tidy.symbols own
  members := tidy.members
  nodup := tidy.nodup

theorem pushSymbol {info : SymbolInfo} (none : info.members = []) :
    (model.pushSymbol info).2.Tidy where
  symbols := by
    intro type symbol own
    rw [symbolCount_pushSymbol]
    exact Nat.lt_succ_of_lt (tidy.symbols own)
  members := by
    intro symbol member listed
    rw [symbol_pushSymbol] at listed
    rw [symbolCount_pushSymbol]
    split at listed
    · rw [none] at listed
      cases listed
    · exact Nat.lt_succ_of_lt (tidy.members listed)
  nodup := by
    intro symbol
    rw [symbol_pushSymbol]
    split
    · rw [none]
      exact .nil
    · exact tidy.nodup symbol

/-- A member is added to a list in which it does not stand. -/
theorem setMembers (id : SymbolId) {f : SymbolInfo → SymbolInfo}
    (members : ∀ member ∈ (f (model.symbol id)).members, member.index < model.symbolCount)
    (nodup : (f (model.symbol id)).members.Nodup) : (model.modifySymbol id f).Tidy := by
  by_cases there : id.index < model.symbolCount
  · refine ⟨?_, ?_, ?_⟩
    · intro type symbol own
      rw [symbolCount_modifySymbol]
      exact tidy.symbols own
    · intro symbol member listed
      rw [symbol_modifySymbol _ there] at listed
      rw [symbolCount_modifySymbol]
      split at listed
      · next same => exact members member (same ▸ listed)
      · exact tidy.members listed
    · intro symbol
      rw [symbol_modifySymbol _ there]
      split
      · next same => exact same ▸ nodup
      · exact tidy.nodup symbol
  · rwa [modifySymbol_of_le _ (Nat.not_lt.mp there)]

/-- A type is given a symbol of the model. -/
theorem setSymbol (id : TypeId) {symbol : SymbolId} (there : symbol.index < model.symbolCount) :
    (model.modifyType id fun info => { info with symbol := some symbol }).Tidy := by
  by_cases inside : id.index < model.typeCount
  · refine ⟨?_, tidy.members, tidy.nodup⟩
    intro type other own
    rw [type_modifyType _ inside] at own
    split at own
    · cases own
      exact there
    · exact tidy.symbols own
  · rwa [modifyType_of_le _ (Nat.not_lt.mp inside)]

/-- The symbol that was added last is a member of nothing yet. -/
theorem addMember {info : SymbolInfo} (none : info.members = []) (owner : SymbolId) :
    ((model.pushSymbol info).2.modifySymbol owner fun other =>
      { other with members := other.members ++ [(model.pushSymbol info).1] }).Tidy := by
  have pushed := tidy.pushSymbol none
  refine pushed.setMembers owner ?_ ?_
  · intro member listed
    rcases List.mem_append.mp listed with listed | listed
    · exact pushed.members listed
    · obtain rfl := List.mem_singleton.mp listed
      exact (symbolCount_pushSymbol model info).symm ▸ Nat.lt_succ_self _
  · refine List.nodup_append.mpr ⟨pushed.nodup owner, List.nodup_singleton _, ?_⟩
    intro member listed other single same
    obtain rfl := List.mem_singleton.mp single
    rw [symbol_pushSymbol] at listed
    split at listed
    · rw [none] at listed
      cases listed
    · have older := tidy.members listed
      rw [same] at older
      exact absurd older (Nat.lt_irrefl _)

theorem internName (name : TypeName) : (model.internName name).2.Tidy := by
  induction name generalizing model with
  | plain text =>
      unfold Model.internName
      split
      · exact tidy
      · exact tidy.pushType rfl
  | array text element ih =>
      unfold Model.internName
      split
      · exact tidy
      · exact (ih tidy).pushType rfl
  | parameterized text raw ih =>
      unfold Model.internName
      split
      · exact tidy
      · exact (ih tidy).pushType rfl

theorem giveSymbol (id : TypeId) (name : String) : (model.giveSymbol id name).Tidy := by
  unfold Model.giveSymbol
  split
  · exact tidy
  · have pushed : (model.pushSymbol
        (.bare name (TypeName.simpleName name) .type none (some id))).2.Tidy :=
      tidy.pushSymbol rfl
    exact pushed.setSymbol id ((symbolCount_pushSymbol model _).symm ▸ Nat.lt_succ_self _)

theorem define (name : String) (tag : TypeTag) : (model.define name tag).2.Tidy := by
  have tagged {start : Model} (tidy : start.Tidy) (id : TypeId) :
      (start.modifyType id fun info => { info with tag := tag }).Tidy :=
    tidy.modifyType id fun _ => rfl
  unfold Model.define
  cases model.type? name with
  | none => exact (tagged (tidy.pushType rfl) _).giveSymbol _ _
  | some id => exact (tagged tidy _).giveSymbol _ _

theorem nest {nested : SymbolId} (there : nested.index < model.symbolCount) (outer : SymbolId) :
    (model.nest nested outer).Tidy := by
  have owned := tidy.modifySymbol nested (f := fun info => { info with owner := some outer })
    fun _ => rfl
  refine owned.setMembers outer ?_ ?_
  · intro member listed
    rw [symbolCount_modifySymbol]
    rcases mem_appendNew.mp listed with listed | rfl
    · exact symbolCount_modifySymbol model nested _ ▸ owned.members listed
    · exact there
  · exact nodup_appendNew (owned.nodup outer) nested

theorem declare {grown : Model} {key name : String} {kind : SymbolKind} {owner : Option SymbolId}
    {id : SymbolId} (declared : model.declare key name kind owner = .ok (id, grown)) :
    grown.Tidy := by
  have pushed : (model.pushSymbol (.bare key name kind owner none)).2.Tidy :=
    tidy.pushSymbol rfl
  unfold Model.declare at declared
  split at declared
  · cases declared
  · simp only at declared
    split at declared
    · cases declared
      exact pushed
    · next owner =>
        split at declared
        · cases declared
          exact tidy.addMember rfl owner
        · cases declared
          exact pushed

/-- One operation keeps the lists of members in order. -/
theorem grows {grown : Model} (step : Grows model grown) : grown.Tidy := by
  cases step with
  | intern name => exact tidy.internName _
  | define name tag => exact tidy.define name tag
  | setSuperclass id superclass => exact tidy.modifyType id fun _ => rfl
  | addInterface id interface => exact tidy.modifyType id fun _ => rfl
  | nest own outer => exact tidy.nest (tidy.symbols own) outer
  | declare declared => exact tidy.declare declared
  | addParam method param => exact tidy.modifySymbol method fun _ => rfl
  | amend id type isStatic isFinal constant => exact tidy.modifySymbol id fun _ => rfl
  | amendType id type => exact tidy.modifySymbol id fun _ => rfl

theorem growsTo {grown : Model} (steps : GrowsTo model grown) : grown.Tidy := by
  induction steps with
  | refl => exact tidy
  | tail _ step ih => exact ih.grows step

end Tidy

theorem tidy_prelude : prelude.Tidy where
  symbols own := (sound_prelude.types _).symbol _ own
  members listed := (sound_prelude.symbols _).members _ listed
  nodup symbol := by
    have distinct : ∀ info ∈ prelude.symbols.toList, info.members.Nodup := by decide +kernel
    unfold Model.symbol
    cases found : prelude.symbols[symbol.index]? with
    | none => exact .nil
    | some info => exact distinct info (Array.mem_toList_iff.mpr (Array.mem_of_getElem? found))

/-- In a loaded model no member is listed twice. -/
theorem tidy_of_load {document : ModelDocument} {model : Model}
    (loaded : load document = .ok model) : model.Tidy :=
  tidy_prelude.growsTo (prelude_grows_of_load loaded)

end BugPatterns.Model
