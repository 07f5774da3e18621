import BugPatterns.Proofs.Model.Shape

/-!
# Sequences of operations

The operations by which models are built as data (`Operation`), so that one can speak of all their
sequences (`Model.perform`). What types are built from is kept by every sequence
(`Model.Shaped.perform`), and so is every type that is there, but for its tag, supertypes and symbol
(`Model.KeepsOld`). The tag of a type that is there is what the last definition of its name says
(`Model.tag_perform`).
-/

namespace BugPatterns

open BugPatterns.TypeName (parse)

/-- An operation by which a model is built. -/
inductive Operation where
  | intern (name : String)
  | define (name : String) (tag : TypeTag)
  | setSuperclass (id : TypeId) (superclass : Option TypeId)
  | addInterface (id interface : TypeId)
  | nest (nested outer : SymbolId)
  | declare (key name : String) (kind : SymbolKind) (owner : Option SymbolId)
  | addParam (method param : SymbolId)
  deriving DecidableEq, Repr

/-- What declaring a symbol makes of a model. A symbol whose key is taken is refused, which leaves
    the model as it is. -/
def Model.declareIfFree (model : Model) (key name : String) (kind : SymbolKind)
    (owner : Option SymbolId) : Model :=
  match model.declare key name kind owner with
  | .ok (_, grown) => grown
  | .error _ => model

namespace Operation

/-- What an operation makes of a model. -/
def apply (model : Model) : Operation → Model
  | .intern name => (model.intern name).2
  | .define name tag => (model.define name tag).2
  | .setSuperclass id superclass => model.setSuperclass id superclass
  | .addInterface id interface => model.addInterface id interface
  | .nest nested outer => model.nest nested outer
  | .declare key name kind owner => model.declareIfFree key name kind owner
  | .addParam method param => model.addParam method param

/-- The tag that an operation gives the type of some name by defining it. -/
def tagFor? (name : String) : Operation → Option TypeTag
  | .define other tag => if other = name then some tag else none
  | _ => none

/-- If the operation defines a type, its name is neither that of an array type nor that of a
    parameterized type. -/
def DefinesPlain : Operation → Prop
  | .define name _ => TypeName.base? name = none
  | _ => True

instance : DecidablePred DefinesPlain
  | .define name _ => inferInstanceAs (Decidable (TypeName.base? name = none))
  | .intern _ | .setSuperclass _ _ | .addInterface _ _ | .nest _ _ | .declare _ _ _ _
  | .addParam _ _ => isTrue trivial

/-- A plain definition defines no name that is built from another one. -/
theorem DefinesPlain.tagFor? {operation : Operation} (plain : operation.DefinesPlain)
    {name base : String} (built : TypeName.base? name = some base) :
    operation.tagFor? name = none := by
  cases operation with
  | define other tag =>
      refine if_neg ?_
      rintro rfl
      cases built.symm.trans plain
  | _ => rfl

end Operation

namespace Model

/-- What operations make of a model, one after the other. -/
def perform (model : Model) (operations : List Operation) : Model :=
  operations.foldl Operation.apply model

theorem perform_cons (model : Model) (operation : Operation) (operations : List Operation) :
    model.perform (operation :: operations) = (operation.apply model).perform operations := rfl

theorem perform_append (model : Model) (first last : List Operation) :
    model.perform (first ++ last) = (model.perform first).perform last :=
  List.foldl_append

/-- Types that are there are still there, with their names and what they are built from. -/
structure KeepsOld (before after : Model) : Prop where
  count : before.typeCount ≤ after.typeCount
  name : ∀ {id}, id.index < before.typeCount → after.nameOf id = before.nameOf id
  erasure : ∀ {id}, id.index < before.typeCount →
    (after.type id).erasure = (before.type id).erasure
  element : ∀ {id}, id.index < before.typeCount →
    (after.type id).element = (before.type id).element

section Steps

variable {before after : Model}

theorem KeepsParts.keepsOld (keeps : KeepsParts before after) : KeepsOld before after where
  count := keeps.count.ge
  name _ := keeps.name _
  erasure _ := keeps.erasure _
  element _ := keeps.element _

theorem Interned.keepsOld {bound : Nat} (interned : Interned before after bound) :
    KeepsOld before after where
  count := interned.count
  name there := by rw [nameOf, interned.kept _ there, nameOf]
  erasure there := by rw [interned.kept _ there]
  element there := by rw [interned.kept _ there]

theorem keepsOld_pushType (model : Model) (info : TypeInfo) :
    KeepsOld model (model.pushType info).2 where
  count := by
    rw [typeCount_pushType]
    exact Nat.le_succ _
  name there := model.nameOf_pushType info there
  erasure there := by rw [type_pushType, if_neg there.ne]
  element there := by rw [type_pushType, if_neg there.ne]

theorem keepsParts_declareIfFree (model : Model) (key name : String) (kind : SymbolKind)
    (owner : Option SymbolId) : KeepsParts model (model.declareIfFree key name kind owner) := by
  unfold declareIfFree
  split
  · next declared => exact keepsParts_declare declared
  · exact .refl model

theorem KeepsOld.trans {last : Model} (first : KeepsOld before after) (next : KeepsOld after last) :
    KeepsOld before last where
  count := first.count.trans next.count
  name there := (next.name (there.trans_le first.count)).trans (first.name there)
  erasure there := (next.erasure (there.trans_le first.count)).trans (first.erasure there)
  element there := (next.element (there.trans_le first.count)).trans (first.element there)

/-- What a definition makes of a model, before the type is given its tag and its symbol. -/
def withName (model : Model) (name : String) (tag : TypeTag) : TypeId × Model :=
  match model.type? name with
  | some id => (id, model)
  | none => model.pushType (.bare name tag)

theorem keepsOld_withName (model : Model) (name : String) (tag : TypeTag) :
    KeepsOld model (model.withName name tag).2 := by
  unfold withName
  split
  · exact (KeepsParts.refl model).keepsOld
  · exact model.keepsOld_pushType _

theorem keepsParts_define (model : Model) (name : String) (tag : TypeTag) :
    KeepsParts (model.withName name tag).2 (model.define name tag).2 :=
  (keepsParts_setTag _ _ tag).trans (keepsParts_giveSymbol _ _ name)

end Steps

namespace Shaped

variable {model : Model} (shaped : model.Shaped) (operation : Operation)

include shaped

/-- An operation keeps what types are built from. -/
theorem apply : (operation.apply model).Shaped := by
  cases operation with
  | intern name => exact shaped.intern name
  | define name tag => exact shaped.define name tag
  | setSuperclass id superclass => exact (keepsParts_setSuperclass ..).shaped shaped
  | addInterface id interface => exact (keepsParts_addInterface ..).shaped shaped
  | nest nested outer => exact (keepsParts_nest ..).shaped shaped
  | declare key name kind owner => exact (keepsParts_declareIfFree ..).shaped shaped
  | addParam method param => exact (keepsParts_modifySymbol ..).shaped shaped

theorem perform (operations : List Operation) : (model.perform operations).Shaped := by
  induction operations generalizing model with
  | nil => exact shaped
  | cons operation operations ih => exact ih (shaped.apply operation)

/-- An operation keeps the types that are there, but for their tags, supertypes and symbols. -/
theorem keepsOld_apply : KeepsOld model (operation.apply model) := by
  cases operation with
  | intern name => exact (interned_intern shaped name).1.keepsOld
  | define name tag =>
      exact (keepsOld_withName model name tag).trans (keepsParts_define model name tag).keepsOld
  | setSuperclass id superclass => exact (keepsParts_setSuperclass ..).keepsOld
  | addInterface id interface => exact (keepsParts_addInterface ..).keepsOld
  | nest nested outer => exact (keepsParts_nest ..).keepsOld
  | declare key name kind owner => exact (keepsParts_declareIfFree ..).keepsOld
  | addParam method param => exact (keepsParts_modifySymbol ..).keepsOld

theorem keepsOld_perform (operations : List Operation) :
    KeepsOld model (model.perform operations) := by
  induction operations generalizing model with
  | nil => exact (KeepsParts.refl model).keepsOld
  | cons operation operations ih =>
      exact (shaped.keepsOld_apply operation).trans (ih (shaped.apply operation))

end Shaped

/-! ## Tags -/

/-- The tag of a type that is there, after it was given another one perhaps. -/
theorem tag_setTag {model : Model} {id : TypeId} (there : id.index < model.typeCount)
    (tag : TypeTag) (other : TypeId) :
    (model.modifyType id fun info => { info with tag := tag }).tag other =
      if other = id then tag else model.tag other := by
  rw [Model.tag, type_modifyType model there]
  split <;> rfl

theorem tag_giveSymbol (model : Model) (id : TypeId) (name : String) (other : TypeId) :
    (model.giveSymbol id name).tag other = model.tag other := by
  unfold giveSymbol
  split
  · rfl
  · let given : SymbolId × Model :=
      model.pushSymbol (.bare name (TypeName.simpleName name) .type none (some id))
    exact given.2.apply_type_modifyType TypeInfo.tag
      (f := fun info => { info with symbol := some given.1 }) (fun _ => rfl) id other

theorem tag_setSuperclass (model : Model) (id : TypeId) (superclass : Option TypeId)
    (other : TypeId) : (model.setSuperclass id superclass).tag other = model.tag other :=
  model.apply_type_modifyType TypeInfo.tag (f := fun info => { info with superclass := superclass })
    (fun _ => rfl) id other

theorem tag_addInterface (model : Model) (id interface other : TypeId) :
    (model.addInterface id interface).tag other = model.tag other :=
  model.apply_type_modifyType TypeInfo.tag
    (f := fun info => { info with interfaces := appendNew info.interfaces interface })
    (fun _ => rfl) id other

theorem tag_declareIfFree (model : Model) (key name : String) (kind : SymbolKind)
    (owner : Option SymbolId) (other : TypeId) :
    (model.declareIfFree key name kind owner).tag other = model.tag other := by
  unfold declareIfFree
  split
  · next declared => rw [tag, type, (types_declare declared).1, tag, type]
  · rfl

theorem Shaped.withName {model : Model} (shaped : model.Shaped) (name : String) (tag : TypeTag) :
    (model.withName name tag).2.Shaped ∧
      (model.withName name tag).2.type? name = some (model.withName name tag).1 := by
  unfold Model.withName
  cases known : model.type? name with
  | some id => exact ⟨shaped, known⟩
  | none => exact ⟨shaped.pushType_bare known tag, type?_pushType_self ..⟩

section Tags

variable {model : Model} (shaped : model.Shaped) {id : TypeId}
  (there : id.index < model.typeCount)

include shaped there

theorem tag_define (name : String) (tag : TypeTag) :
    (model.define name tag).2.tag id = if model.nameOf id = name then tag else model.tag id := by
  obtain ⟨named, found⟩ := shaped.withName name tag
  have kept := keepsOld_withName model name tag
  have still := there.trans_le kept.count
  have present := named.lt_of_type? found
  have defined : (model.define name tag).2.tag id =
      if id = (model.withName name tag).1 then tag else (model.withName name tag).2.tag id :=
    (tag_giveSymbol ..).trans (tag_setTag present tag id)
  have same : id = (model.withName name tag).1 ↔ model.nameOf id = name := by
    rw [← kept.name there, ← named.type?_iff.trans (and_iff_right still), found,
      Option.some.injEq, eq_comm]
  have old : (model.withName name tag).2.tag id = model.tag id := by
    unfold withName
    split
    · rfl
    · rw [Model.tag, type_pushType, if_neg there.ne, Model.tag]
  rw [defined, old]
  exact if_congr same rfl rfl

/-- An operation gives a type that is there another tag only by defining its name. -/
theorem tag_apply (operation : Operation) :
    (operation.apply model).tag id =
      (operation.tagFor? (model.nameOf id)).getD (model.tag id) := by
  cases operation with
  | intern name => exact congrArg _ ((interned_intern shaped name).1.kept id there)
  | define name tag =>
      refine (tag_define shaped there name tag).trans ?_
      by_cases same : name = model.nameOf id
      · rw [if_pos same.symm, Operation.tagFor?, if_pos same, Option.getD_some]
      · rw [if_neg (Ne.symm same), Operation.tagFor?, if_neg same, Option.getD_none]
  | setSuperclass other superclass => exact tag_setSuperclass model other superclass id
  | addInterface other interface => exact tag_addInterface model other interface id
  | nest nested outer => rfl
  | declare key name kind owner => exact tag_declareIfFree model key name kind owner id
  | addParam method param => rfl

/-- The tag of a type that is there is the one of the last definition of its name, or else the one
    it had. -/
theorem tag_perform (operations : List Operation) :
    (model.perform operations).tag id =
      (operations.filterMap (Operation.tagFor? (model.nameOf id))).getLast?.getD
        (model.tag id) := by
  induction operations generalizing model with
  | nil => rfl
  | cons operation operations ih =>
      have kept := shaped.keepsOld_apply operation
      rw [perform_cons, ih (shaped.apply operation) (there.trans_le kept.count), kept.name there,
        tag_apply shaped there, List.filterMap_cons]
      cases operation.tagFor? (model.nameOf id) with
      | none => rfl
      | some tag => rw [List.getLast?_cons, Option.getD_some, Option.getD_some]

end Tags

/-- What is not counted at first and is counted in the end was added by one of the operations. -/
theorem exists_adding (count : Model → Nat) {i : Nat} (operations : List Operation) :
    ∀ {model : Model}, count model ≤ i → i < count (model.perform operations) →
      ∃ before operation after, operations = before ++ operation :: after ∧
        count (model.perform before) ≤ i ∧ i < count (operation.apply (model.perform before)) := by
  induction operations with
  | nil =>
      intro model absent there
      exact absurd there (Nat.not_lt.mpr absent)
  | cons operation operations ih =>
      intro model absent there
      by_cases here : i < count (operation.apply model)
      · exact ⟨[], operation, operations, rfl, absent, here⟩
      · obtain ⟨before, later, after, rfl, notYet, added⟩ := ih (Nat.not_lt.mp here) there
        exact ⟨operation :: before, later, after, rfl, notYet, added⟩

end Model

end BugPatterns
