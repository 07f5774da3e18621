import BugPatterns.Proofs.Model.Interning
import BugPatterns.Proofs.Model.Operations

/-!
# Histories of models

A history is a sequence of operations on a model. What is asked of an operation may depend on the
model that it meets, as that its numbers be those of the model (`Operation.Within`), and is then
asked all along the history (`Model.Throughout`).

What each operation does to the symbols is said once, with the conditions under which it does so
(`Model.SymbolStep`); what histories keep is proved from that.
-/

namespace BugPatterns

namespace Model

/-- Each operation has a property in the model that it meets. -/
def Throughout (p : Model → Operation → Prop) : Model → List Operation → Prop
  | _, [] => True
  | model, operation :: operations =>
      p model operation ∧ Throughout p (operation.apply model) operations

section Throughout

variable {p : Model → Operation → Prop} {model : Model} {operations : List Operation}

instance Throughout.decidable [∀ model, DecidablePred (p model)] :
    ∀ (model : Model) (operations : List Operation), Decidable (Throughout p model operations)
  | _, [] => isTrue trivial
  | model, operation :: operations =>
      have := Throughout.decidable (operation.apply model) operations
      inferInstanceAs (Decidable (p model operation ∧ _))

theorem throughout_append {more : List Operation} :
    Throughout p model (operations ++ more) ↔
      Throughout p model operations ∧ Throughout p (model.perform operations) more := by
  induction operations generalizing model with
  | nil => exact ⟨fun rest => ⟨trivial, rest⟩, And.right⟩
  | cons operation operations ih => exact (and_congr_right fun _ => ih).trans and_assoc.symm

/-- A property holds all along a history if and only if it holds wherever one cuts it. -/
theorem throughout_iff :
    Throughout p model operations ↔ ∀ before operation after,
      operations = before ++ operation :: after → p (model.perform before) operation := by
  constructor
  · rintro all before operation after rfl
    exact (throughout_append.mp all).2.1
  · induction operations generalizing model with
    | nil => exact fun _ => trivial
    | cons operation operations ih =>
        intro all
        refine ⟨all [] operation operations rfl, ih fun before later after equal => ?_⟩
        exact all (operation :: before) later after (congrArg _ equal)

/-- What each operation of a history keeps, the whole of it keeps. -/
theorem Throughout.keeps {q : Model → Prop}
    (step : ∀ {model operation}, q model → p model operation → q (operation.apply model))
    (all : Throughout p model operations) (first : q model) : q (model.perform operations) := by
  induction operations generalizing model with
  | nil => exact first
  | cons operation operations ih => exact ih all.2 (step first all.1)

end Throughout

end Model

/-- The numbers that an operation is given are those of types and symbols of the model. -/
def Operation.Within (model : Model) : Operation → Prop
  | .intern _ | .define _ _ => True
  | .setSuperclass id superclass =>
      id.index < model.typeCount ∧ ∀ other ∈ superclass, other.index < model.typeCount
  | .addInterface id interface =>
      id.index < model.typeCount ∧ interface.index < model.typeCount
  | .nest nested outer => nested.index < model.symbolCount ∧ outer.index < model.symbolCount
  | .declare _ _ _ owner => ∀ id ∈ owner, id.index < model.symbolCount
  | .addParam method param => method.index < model.symbolCount ∧ param.index < model.symbolCount

instance (model : Model) : DecidablePred (Operation.Within model)
  | .intern _ | .define _ _ => isTrue trivial
  | .setSuperclass id superclass => inferInstanceAs
      (Decidable (id.index < model.typeCount ∧ ∀ other ∈ superclass, other.index < model.typeCount))
  | .addInterface id interface =>
      inferInstanceAs (Decidable (id.index < model.typeCount ∧ interface.index < model.typeCount))
  | .nest nested outer => inferInstanceAs
      (Decidable (nested.index < model.symbolCount ∧ outer.index < model.symbolCount))
  | .declare _ _ _ owner =>
      inferInstanceAs (Decidable (∀ id ∈ owner, id.index < model.symbolCount))
  | .addParam method param => inferInstanceAs
      (Decidable (method.index < model.symbolCount ∧ param.index < model.symbolCount))

namespace Model

/-- The symbol of the type of that name. -/
def symbolOfType? (model : Model) (name : String) : Option SymbolId :=
  (model.type? name).bind fun id => (model.type id).symbol

/-- What an operation does to symbols, told by a model that holds what they are afterwards. -/
inductive SymbolStep (model : Model) : Operation → Model → Prop where
  | intern (name : String) : SymbolStep model (.intern name) model
  | redefine {name : String} {own : SymbolId} (tag : TypeTag)
      (owned : model.symbolOfType? name = some own) : SymbolStep model (.define name tag) model
  | define {name : String} (tag : TypeTag) (id : TypeId)
      (unowned : model.symbolOfType? name = none) :
      SymbolStep model (.define name tag)
        (model.pushSymbol (.bare name (TypeName.simpleName name) .type none (some id))).2
  | setSuperclass (id : TypeId) (superclass : Option TypeId) :
      SymbolStep model (.setSuperclass id superclass) model
  | addInterface (id interface : TypeId) : SymbolStep model (.addInterface id interface) model
  | nest (nested outer : SymbolId) :
      SymbolStep model (.nest nested outer) (model.nest nested outer)
  | refuse {key : String} {id : SymbolId} (name : String) (kind : SymbolKind)
      (owner : Option SymbolId) (taken : model.symbol? key = some id) :
      SymbolStep model (.declare key name kind owner) model
  | declare {key name : String} {kind : SymbolKind} {owner : Option SymbolId}
      (free : model.symbol? key = none)
      (unlisted : ∀ id ∈ owner,
        ((model.pushSymbol (.bare key name kind owner none)).2.symbol id).kind ≠ .type) :
      SymbolStep model (.declare key name kind owner)
        (model.pushSymbol (.bare key name kind owner none)).2
  | enlist {key name : String} {kind : SymbolKind} {owner : SymbolId}
      (free : model.symbol? key = none)
      (isType : ((model.pushSymbol (.bare key name kind (some owner) none)).2.symbol owner).kind =
        .type) :
      SymbolStep model (.declare key name kind (some owner))
        ((model.pushSymbol (.bare key name kind (some owner) none)).2.modifySymbol owner
          fun info => { info with members := info.members ++ [⟨model.symbolCount⟩] })
  | addParam (method param : SymbolId) :
      SymbolStep model (.addParam method param) (model.addParam method param)

section Steps

variable (model : Model)

/-- A type that is given its name has the symbol that it had. -/
theorem symbol_withName (name : String) (tag : TypeTag) :
    ((model.withName name tag).2.type (model.withName name tag).1).symbol =
      model.symbolOfType? name := by
  unfold withName symbolOfType?
  cases found : model.type? name with
  | some id => rfl
  | none =>
      simp only [type_pushType_self]
      rfl

theorem symbols_withName (name : String) (tag : TypeTag) :
    (model.withName name tag).2.symbols = model.symbols ∧
      (model.withName name tag).2.symbolKeys = model.symbolKeys := by
  unfold withName
  cases model.type? name <;> exact ⟨rfl, rfl⟩

theorem symbolStep_define (name : String) (tag : TypeTag) :
    ∃ grown, SymbolStep model (.define name tag) grown ∧
      (model.define name tag).2.symbols = grown.symbols ∧
      (model.define name tag).2.symbolKeys = grown.symbolKeys := by
  obtain ⟨symbols, keys⟩ := symbols_withName model name tag
  have tagged : (((model.withName name tag).2.modifyType (model.withName name tag).1
      fun info => { info with tag := tag }).type (model.withName name tag).1).symbol =
        model.symbolOfType? name :=
    (apply_type_modifyType _ TypeInfo.symbol (f := fun info => { info with tag := tag })
      (fun _ => rfl) _ _).trans (symbol_withName model name tag)
  have whole : (model.define name tag).2 =
      ((model.withName name tag).2.modifyType (model.withName name tag).1
        fun info => { info with tag := tag }).giveSymbol (model.withName name tag).1 name := rfl
  rw [whole]
  unfold giveSymbol
  rw [tagged]
  cases owned : model.symbolOfType? name with
  | some own => exact ⟨model, .redefine tag owned, symbols, keys⟩
  | none =>
      refine ⟨_, .define tag (model.withName name tag).1 owned, ?_, ?_⟩
      · exact congrArg (fun symbols : Array SymbolInfo => symbols.push (.bare name
          (TypeName.simpleName name) .type none (some (model.withName name tag).1))) symbols
      · have next : (model.withName name tag).2.symbolCount = model.symbolCount :=
          congrArg Array.size symbols
        exact congrArg₂ (fun next keys => (name, (⟨next⟩ : SymbolId)) :: keys) next keys

theorem symbolStep_declareIfFree (key name : String) (kind : SymbolKind)
    (owner : Option SymbolId) :
    SymbolStep model (.declare key name kind owner)
      (model.declareIfFree key name kind owner) := by
  unfold declareIfFree declare
  cases found : model.symbol? key with
  | some id => exact .refuse name kind owner found
  | none =>
      cases owner with
      | none => exact .declare found fun _ absurd => by cases absurd
      | some owner =>
          by_cases isType : ((model.pushSymbol
              (.bare key name kind (some owner) none)).2.symbol owner).kind = .type
          · simp only [if_pos isType]
            exact .enlist found isType
          · simp only [if_neg isType]
            refine .declare found ?_
            rintro _ ⟨rfl⟩
            exact isType

/-- Each operation does to the symbols what is said of it. -/
theorem symbolStep_apply (operation : Operation) :
    ∃ grown, SymbolStep model operation grown ∧
      (operation.apply model).symbols = grown.symbols ∧
      (operation.apply model).symbolKeys = grown.symbolKeys := by
  cases operation with
  | intern name =>
      have adds := (model.addsTypes_intern name).1
      exact ⟨model, .intern name, adds.symbols, adds.keys⟩
  | define name tag => exact symbolStep_define model name tag
  | setSuperclass id superclass => exact ⟨model, .setSuperclass id superclass, rfl, rfl⟩
  | addInterface id interface => exact ⟨model, .addInterface id interface, rfl, rfl⟩
  | nest nested outer => exact ⟨_, .nest nested outer, rfl, rfl⟩
  | declare key name kind owner =>
      exact ⟨_, symbolStep_declareIfFree model key name kind owner, rfl, rfl⟩
  | addParam method param => exact ⟨_, .addParam method param, rfl, rfl⟩

end Steps

end Model

end BugPatterns
