import BugPatterns.Proofs.Model.Histories
import BugPatterns.Proofs.Model.Loaded

/-!
# Reached models

Models are built from the prelude or from a description, by operations on numbers of theirs and by
changes of their symbols (`Model.Reached`). Each step keeps them closed (`Model.Closed.apply`) and
keeps what their types are built from, so both hold of every model that is reached
(`Model.Reached.closed`, `Model.Reached.shaped`).
-/

namespace BugPatterns.Model

/-! ## Closed models under the operations -/

namespace Closed

theorem internName (name : TypeName) :
    ∀ {model : Model}, model.Closed → (model.internName name).2.Closed := by
  induction name with
  | plain text =>
      intro model closed
      unfold Model.internName
      split
      · exact closed
      · exact closed.pushType _ (TypeInfo.fits_bare ..)
  | array text element ih =>
      intro model closed
      have based := ih closed
      have there := based.names (addsTypes_internName element model).2
      unfold Model.internName
      split
      · exact closed
      · refine based.pushType _ { TypeInfo.fits_bare text .array _ _ _ with element := ?_ }
        rintro _ ⟨rfl⟩
        exact there
  | parameterized text raw ih =>
      intro model closed
      have based := ih closed
      have there := based.names (addsTypes_internName raw model).2
      unfold Model.internName
      split
      · exact closed
      · refine based.pushType _ { TypeInfo.fits_bare text
          ((model.internName raw).2.type (model.internName raw).1).tag _ _ _ with erasure := ?_ }
        rintro _ ⟨rfl⟩
        exact there

variable {model : Model} (closed : model.Closed)

include closed

theorem giveSymbol {id : TypeId} (there : id.index < model.typeCount) (name : String) :
    (model.giveSymbol id name).Closed := by
  unfold Model.giveSymbol
  split
  · exact closed
  · have pushed := closed.pushSymbol (.bare name (TypeName.simpleName name) .type none (some id))
      (SymbolInfo.fits_bare _ _ _ (fun _ absurd => by cases absurd)
        (by rintro _ ⟨rfl⟩; exact there))
    refine pushed.modifyType id _ { pushed.types id with symbol := ?_ }
    rintro _ ⟨rfl⟩
    exact (symbolCount_pushSymbol model _).symm ▸ Nat.lt_succ_self _

theorem withName (name : String) (tag : TypeTag) :
    (model.withName name tag).2.Closed ∧
      (model.withName name tag).1.index < (model.withName name tag).2.typeCount := by
  unfold Model.withName
  cases found : model.type? name with
  | some id => exact ⟨closed, closed.names found⟩
  | none =>
      exact ⟨closed.pushType _ (TypeInfo.fits_bare ..),
        (typeCount_pushType model _).symm ▸ Nat.lt_succ_self _⟩

theorem define (name : String) (tag : TypeTag) : (model.define name tag).2.Closed := by
  obtain ⟨named, there⟩ := closed.withName name tag
  have tagged := named.modifyType (model.withName name tag).1
    (fun info => { info with tag := tag }) { named.types _ with }
  exact tagged.giveSymbol ((typeCount_modifyType ..).symm ▸ there) name

theorem nest {nested outer : SymbolId} (there : nested.index < model.symbolCount)
    (also : outer.index < model.symbolCount) : (model.nest nested outer).Closed := by
  have owned := closed.modifySymbol nested (fun info => { info with owner := some outer })
    { closed.symbols nested with owner := by rintro _ ⟨rfl⟩; exact also }
  refine owned.modifySymbol outer _ { owned.symbols outer with members := ?_ }
  intro member listed
  rcases mem_appendNew.mp listed with listed | rfl
  · exact (owned.symbols outer).members member listed
  · exact (symbolCount_modifySymbol ..).symm ▸ there

theorem declareIfFree (key name : String) (kind : SymbolKind) {owner : Option SymbolId}
    (owned : ∀ id ∈ owner, id.index < model.symbolCount) :
    (model.declareIfFree key name kind owner).Closed := by
  have pushed := closed.pushSymbol (.bare key name kind owner none)
    (SymbolInfo.fits_bare _ _ _ owned fun _ absurd => by cases absurd)
  have step := symbolStep_declareIfFree model key name kind owner
  generalize model.declareIfFree key name kind owner = grown at step ⊢
  cases step with
  | refuse => exact closed
  | declare => exact pushed
  | enlist =>
      refine pushed.modifySymbol _ _ { pushed.symbols _ with members := ?_ }
      intro member listed
      rcases List.mem_append.mp listed with listed | listed
      · exact (pushed.symbols _).members member listed
      · obtain rfl := List.mem_singleton.mp listed
        exact (symbolCount_pushSymbol model _).symm ▸ Nat.lt_succ_self _

/-- An operation on numbers of the model keeps it closed. -/
theorem apply {operation : Operation} (within : operation.Within model) :
    (operation.apply model).Closed := by
  cases operation with
  | intern name => exact closed.internName _
  | define name tag => exact closed.define name tag
  | setSuperclass id superclass =>
      exact closed.modifyType id _ { closed.types id with superclass := within.2 }
  | addInterface id interface =>
      refine closed.modifyType id _ { closed.types id with interfaces := ?_ }
      intro other listed
      rcases mem_appendNew.mp listed with listed | rfl
      · exact (closed.types id).interfaces other listed
      · exact within.2
  | nest nested outer => exact closed.nest within.1 within.2
  | declare key name kind owner => exact closed.declareIfFree key name kind within
  | addParam method param =>
      refine closed.modifySymbol method _ { closed.symbols method with params := ?_ }
      intro other listed
      rcases List.mem_append.mp listed with listed | listed
      · exact (closed.symbols method).params other listed
      · exact List.mem_singleton.mp listed ▸ within.2

theorem perform {operations : List Operation}
    (within : Throughout (fun model operation => operation.Within model) model operations) :
    (model.perform operations).Closed :=
  within.keeps (fun closed within => closed.apply within) closed

end Closed

theorem closed_prelude : prelude.Closed := sound_prelude.closed

/-! ## Models that are reached -/

/-- A model is the prelude or that of a description, or it was led to by an operation on numbers of
    a reached model or by putting data that fits in the place of a symbol of it. -/
inductive Reached : Model → Prop where
  | prelude : Reached prelude
  | load {document : ModelDocument} {model : Model} (loaded : load document = .ok model) :
      Reached model
  | apply {model : Model} {operation : Operation} (reached : Reached model)
      (within : operation.Within model) : Reached (operation.apply model)
  | amend {model : Model} {info : SymbolInfo} (reached : Reached model) (id : SymbolId)
      (fits : info.Fits model.typeCount model.symbolCount) :
      Reached (model.modifySymbol id fun _ => info)

namespace Reached

variable {model : Model} (reached : model.Reached)

include reached

theorem closed : model.Closed := by
  induction reached with
  | prelude => exact closed_prelude
  | load loaded => exact (sound_of_load loaded).1.closed
  | apply _ within ih => exact ih.apply within
  | amend _ id fits ih => exact ih.modifySymbol id _ fits

theorem shaped : model.Shaped := by
  induction reached with
  | prelude => exact shaped_prelude
  | load loaded => exact shaped_of_load loaded
  | apply _ _ ih => exact ih.apply _
  | amend _ id _ ih => exact (keepsParts_modifySymbol _ id _).shaped ih

/-- What operations on numbers of a reached model lead to is reached. -/
theorem perform {operations : List Operation}
    (within : Throughout (fun model operation => operation.Within model) model operations) :
    (model.perform operations).Reached :=
  within.keeps (fun reached within => reached.apply within) reached

end Reached

end BugPatterns.Model
