import BugPatterns.Proofs.Model.Locality

/-!
# Types of reached models

In a reached model names and types determine each other, all numbers are those of types and symbols,
and types are built from older ones. So no question leads beyond the model, and what recurs from an
array to its elements ends, though superclasses and interfaces may form circles
(`Model.wellFormed_of_reached`).
-/

namespace BugPatterns.Model

/-- A type is that of the elements of another one, as the subtype relation takes it apart. -/
def ElementOf (model : Model) (element array : TypeId) : Prop :=
  (model.type (model.erasure array)).element = some element

/-- Element types are older than the types that are taken apart. -/
theorem Shaped.index_lt_of_elementOf {model : Model} (shaped : model.Shaped)
    {element array : TypeId} (elements : model.ElementOf element array) :
    element.index < array.index :=
  (shaped.element elements).1.trans_le (shaped.erasure_le array)

/-- So no type can be taken apart forever. -/
theorem Shaped.wellFounded_elementOf {model : Model} (shaped : model.Shaped) :
    WellFounded model.ElementOf :=
  Subrelation.wf (fun elements => shaped.index_lt_of_elementOf elements)
    (InvImage.wf TypeId.index Nat.lt_wfRel.wf)

/-- As many levels as the number of a type are enough to take it apart. -/
theorem Shaped.isSubtypeWithin_of_le {model : Model} (shaped : model.Shaped) {levels : Nat}
    {a : TypeId} (there : a.index < model.typeCount) (enough : a.index ≤ levels) (b : TypeId) :
    model.isSubtypeWithin levels a b = model.isSubtype a b := by
  rcases Nat.le_total levels model.typeCount with fewer | more
  · exact shaped.isSubtypeWithin_eq levels b enough fewer
  · exact (shaped.isSubtypeWithin_eq model.typeCount b there.le more).symm

/-- In a reached model a type is found by its name, and no two types have the same. Every number in
    the model is that of a type or symbol, an erasure or element type being older than the type it
    belongs to. Erasing twice is erasing once. A model that holds the same, and anything beyond,
    gives the same answers, so none depends on what lies beyond. The subtype relation cannot take
    types apart forever, and allowing more levels than it needs changes nothing; whatever circles
    the supertypes form, one type is reached from another if and only if a path leads there. -/
theorem wellFormed_of_reached {model : Model} (reached : model.Reached) :
    (∀ id : TypeId, id.index < model.typeCount → model.type? (model.nameOf id) = some id) ∧
      (∀ id other : TypeId, id.index < model.typeCount → other.index < model.typeCount →
        model.nameOf id = model.nameOf other → id = other) ∧
      model.Closed ∧
      (∀ id part, (model.type id).erasure = some part ∨ (model.type id).element = some part →
        part.index < id.index) ∧
      (∀ id, model.erasure (model.erasure id) = model.erasure id) ∧
      (∀ other, Extends model other → SameAnswers model other) ∧
      WellFounded model.ElementOf ∧
      (∀ levels a b, a.index < model.typeCount → a.index ≤ levels →
        model.isSubtypeWithin levels a b = model.isSubtype a b) ∧
      ∀ a b, model.reaches a b = true ↔ Relation.ReflTransGen model.DirectlyBelow a b := by
  have shaped := reached.shaped
  have closed := reached.closed
  refine ⟨fun id there => shaped.type?_iff.mpr ⟨there, rfl⟩,
    fun id other there also => shaped.nameOf_inj there also, closed, ?_, shaped.erasure_erasure,
    fun other extension => extension.sameAnswers closed shaped, shaped.wellFounded_elementOf,
    fun levels a b there enough => shaped.isSubtypeWithin_of_le there enough b,
    fun a b => reaches_iff⟩
  rintro id part (built | built)
  · exact (closed.types id).erasure part built
  · exact (closed.types id).element part built

/-- Two classes are each other's superclass, and strange names are built from them. -/
def circularClasses : List Operation :=
  [.define "p.A" (.declared .ordinary), .define "p.B" (.declared .ordinary),
    .setSuperclass ⟨17⟩ (some ⟨18⟩), .setSuperclass ⟨18⟩ (some ⟨17⟩), .intern "p.A[]<p.B>[]",
    .intern "[]", .intern "<", .define "p.A[]" (.declared .enum),
    .declare "p.A#f" "f" .variable (some ⟨7⟩), .nest ⟨8⟩ ⟨7⟩]

theorem wellFormed_of_reached_circularClasses : ∃ model,
    prelude.perform circularClasses = model ∧ model.Reached ∧ model.typeCount = 25 ∧
      model.type? "p.A[]<p.B>" = some ⟨20⟩ ∧ model.erasure ⟨20⟩ = ⟨19⟩ ∧
      model.erasure (model.erasure ⟨20⟩) = model.erasure ⟨20⟩ ∧
      model.isSubtypeWithin 21 ⟨21⟩ ⟨19⟩ = model.isSubtype ⟨21⟩ ⟨19⟩ ∧
      Relation.ReflTransGen model.DirectlyBelow ⟨18⟩ ⟨17⟩ := by
  have reached : (prelude.perform circularClasses).Reached :=
    Reached.prelude.perform (by decide +kernel)
  have count : (prelude.perform circularClasses).typeCount = 25 := by decide +kernel
  have known : (prelude.perform circularClasses).type? "p.A[]<p.B>" = some ⟨20⟩ := by
    decide +kernel
  have raw : (prelude.perform circularClasses).erasure ⟨20⟩ = ⟨19⟩ := by decide +kernel
  have path : (prelude.perform circularClasses).reaches ⟨18⟩ ⟨17⟩ = true := by decide +kernel
  obtain ⟨-, -, -, -, erased, -, -, levels, paths⟩ := wellFormed_of_reached reached
  exact ⟨_, rfl, reached, count, known, raw, erased ⟨20⟩,
    levels 21 ⟨21⟩ ⟨19⟩ (count ▸ by decide) (by decide), (paths ⟨18⟩ ⟨17⟩).mp path⟩

end BugPatterns.Model
