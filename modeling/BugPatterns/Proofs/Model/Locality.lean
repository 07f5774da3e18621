import BugPatterns.Catalog.Basic
import BugPatterns.Proofs.Model.OwnerChain
import BugPatterns.Proofs.Model.Reached
import BugPatterns.Proofs.Model.Tags

/-!
# Questions look at no number beyond a model

A model extends another one when it holds the same under all numbers of that one, and anything
beyond (`Model.Extends`). As long as the numbers in a model are its own, no question about a number
of it leads beyond it, so every model that extends it gives the same answers (`Model.SameAnswers`,
`Model.Extends.sameAnswers`).
-/

namespace BugPatterns.Model

/-- A model holds what another one holds, under the same numbers. -/
structure Extends (before after : Model) : Prop where
  typeCount : before.typeCount ≤ after.typeCount
  symbolCount : before.symbolCount ≤ after.symbolCount
  type : ∀ {id}, id.index < before.typeCount → after.type id = before.type id
  symbol : ∀ {id}, id.index < before.symbolCount → after.symbol id = before.symbol id

/-- Two models say the same of a type. -/
structure SameOfType (before after : Model) (id : TypeId) : Prop where
  info : after.type id = before.type id
  tag : after.tag id = before.tag id
  isUnknown : after.isUnknown id = before.isUnknown id
  isNumeric : after.isNumeric id = before.isNumeric id
  isEnum : after.isEnum id = before.isEnum id
  isClassLike : after.isClassLike id = before.isClassLike id
  isNullType : after.isNullType id = before.isNullType id
  isNamed : ∀ name, after.isNamed id name = before.isNamed id name
  erasure : after.erasure id = before.erasure id
  superclass : after.superclass id = before.superclass id
  implementsInterface : ∀ name,
    after.implementsInterface id name = before.implementsInterface id name
  sink? : ∀ (catalog : Catalog) (method : String),
    catalog.sink? after id method = catalog.sink? before id method

/-- Two models say the same of a symbol. -/
structure SameOfSymbol (before after : Model) (id : SymbolId) : Prop where
  info : after.symbol id = before.symbol id
  owner : after.owner id = before.owner id
  isTypeSymbol : after.isTypeSymbol id = before.isTypeSymbol id
  isMethodSymbol : after.isMethodSymbol id = before.isMethodSymbol id
  isParameter : after.isParameter id = before.isParameter id
  isLocalVariable : after.isLocalVariable id = before.isLocalVariable id
  isField : after.isField id = before.isField id
  enclosingType : after.enclosingType id = before.enclosingType id
  declaredType : after.declaredType id = before.declaredType id
  constantValue : after.constantValue id = before.constantValue id
  membersNamed : ∀ name, after.membersNamed id name = before.membersNamed id name

/-- Two models answer all questions about the numbers of the first one alike. -/
structure SameAnswers (before after : Model) : Prop where
  ofType : ∀ {id : TypeId}, id.index < before.typeCount → SameOfType before after id
  isSubtype : ∀ {a b : TypeId}, a.index < before.typeCount → b.index < before.typeCount →
    after.isSubtype a b = before.isSubtype a b
  numericWidens : ∀ {a b : TypeId}, a.index < before.typeCount → b.index < before.typeCount →
    after.numericWidens a b = before.numericWidens a b
  ofSymbol : ∀ {id : SymbolId}, id.index < before.symbolCount → SameOfSymbol before after id

/-! ## Numbers that are led to -/

section Paths

variable {α : Type} {r s : α → α → Prop} {p : α → Prop}

/-- A path of steps that keep a property is one of another relation, if these are steps of it. -/
theorem transGen_of_keeps (step : ∀ a b, p a → r a b → s a b ∧ p b) {a b : α} (here : p a)
    (path : Relation.TransGen r a b) : Relation.TransGen s a b ∧ p b := by
  induction path with
  | single first =>
      obtain ⟨first, there⟩ := step _ _ here first
      exact ⟨.single first, there⟩
  | tail _ last ih =>
      obtain ⟨last, there⟩ := step _ _ ih.2 last
      exact ⟨ih.1.tail last, there⟩

/-- Relations that agree on what has a property, which the one keeps, have the same paths. -/
theorem transGen_congr_of_keeps (same : ∀ a b, p a → (r a b ↔ s a b))
    (keeps : ∀ a b, s a b → p b) {a b : α} (here : p a) :
    Relation.TransGen r a b ↔ Relation.TransGen s a b := by
  constructor
  · refine fun path => (transGen_of_keeps (fun a b inside step => ?_) here path).1
    have other := (same a b inside).mp step
    exact ⟨other, keeps a b other⟩
  · refine fun path => (transGen_of_keeps (fun a b inside step => ?_) here path).1
    exact ⟨(same a b inside).mpr step, keeps a b step⟩

end Paths

section Closed

variable {model : Model} (closed : model.Closed)

include closed

theorem Closed.erasure_lt {id : TypeId} (there : id.index < model.typeCount) :
    (model.erasure id).index < model.typeCount := by
  unfold Model.erasure
  cases built : (model.type id).erasure with
  | none => exact there
  | some raw => exact ((closed.types id).erasure raw built).trans there

/-- The types right above a type are types of the model. -/
theorem Closed.lt_of_directlyBelow {a b : TypeId} (below : model.DirectlyBelow a b) :
    b.index < model.typeCount := by
  obtain ⟨parent, above, rfl⟩ := below
  refine closed.erasure_lt ?_
  rcases above with above | above
  · exact (closed.types a).superclass parent above
  · exact (closed.types a).interfaces parent above

theorem Closed.lt_of_directlyImplements {a b : TypeId} (below : model.DirectlyImplements a b) :
    b.index < model.typeCount := by
  obtain ⟨parent, above, rfl⟩ := below
  exact closed.erasure_lt ((closed.types a).interfaces parent above)

theorem Closed.owner_lt {id owner : SymbolId} (owned : model.owner id = some owner) :
    owner.index < model.symbolCount :=
  (closed.symbols id).owner owner owned

end Closed

namespace Extends

variable {before after : Model} (extension : Extends before after)

include extension

/-! ## Types -/

section Types

theorem tag_eq {id : TypeId} (there : id.index < before.typeCount) :
    after.tag id = before.tag id := by
  rw [Model.tag, Model.tag, extension.type there]

theorem erasure_eq {id : TypeId} (there : id.index < before.typeCount) :
    after.erasure id = before.erasure id := by
  rw [Model.erasure, Model.erasure, extension.type there]

theorem isNamed_eq {id : TypeId} (there : id.index < before.typeCount) (name : String) :
    after.isNamed id name = before.isNamed id name := by
  rw [Model.isNamed, Model.isNamed, extension.type there]

variable (closed : before.Closed)

include closed

theorem directlyBelow_iff {a b : TypeId} (there : a.index < before.typeCount) :
    after.DirectlyBelow a b ↔ before.DirectlyBelow a b := by
  unfold DirectlyBelow
  rw [extension.type there]
  refine exists_congr fun parent => and_congr_right fun above => ?_
  have inside : parent.index < before.typeCount := by
    rcases above with above | above
    · exact (closed.types a).superclass parent above
    · exact (closed.types a).interfaces parent above
  rw [extension.erasure_eq inside]

theorem directlyImplements_iff {a b : TypeId} (there : a.index < before.typeCount) :
    after.DirectlyImplements a b ↔ before.DirectlyImplements a b := by
  unfold DirectlyImplements
  rw [extension.type there]
  refine exists_congr fun parent => and_congr_right fun above => ?_
  rw [extension.erasure_eq ((closed.types a).interfaces parent above)]

theorem reaches_eq {a : TypeId} (there : a.index < before.typeCount) (b : TypeId) :
    after.reaches a b = before.reaches a b := by
  have paths : Relation.TransGen after.DirectlyBelow a b ↔
      Relation.TransGen before.DirectlyBelow a b :=
    transGen_congr_of_keeps (p := fun id => id.index < before.typeCount)
      (fun _ _ inside => extension.directlyBelow_iff closed inside)
      (fun _ _ => closed.lt_of_directlyBelow) there
  rw [Bool.eq_iff_iff, reaches_iff, reaches_iff, Relation.reflTransGen_iff_eq_or_transGen,
    Relation.reflTransGen_iff_eq_or_transGen, paths]

theorem implementsInterface_eq {id : TypeId} (there : id.index < before.typeCount)
    (name : String) :
    after.implementsInterface id name = before.implementsInterface id name := by
  have inside := closed.erasure_lt there
  have paths (b : TypeId) : Relation.TransGen after.DirectlyImplements (before.erasure id) b ↔
      Relation.TransGen before.DirectlyImplements (before.erasure id) b :=
    transGen_congr_of_keeps (p := fun id => id.index < before.typeCount)
      (fun _ _ inside => extension.directlyImplements_iff closed inside)
      (fun _ _ => closed.lt_of_directlyImplements) inside
  rw [Bool.eq_iff_iff, implementsInterface_iff, implementsInterface_iff,
    extension.erasure_eq there]
  refine exists_congr fun b => ?_
  rw [paths]
  refine and_congr_right fun path => ?_
  obtain ⟨c, -, last⟩ := Relation.TransGen.tail'_iff.mp path
  rw [extension.isNamed_eq (closed.lt_of_directlyImplements last)]

/-- With the same number of levels, the subtype relation is the same. -/
theorem isSubtypeWithin_eq (levels : Nat) : ∀ {a b : TypeId}, a.index < before.typeCount →
    b.index < before.typeCount →
      after.isSubtypeWithin levels a b = before.isSubtypeWithin levels a b := by
  induction levels with
  | zero =>
      intro a b there also
      have inside := closed.erasure_lt there
      have inside' := closed.erasure_lt also
      unfold isSubtypeWithin
      rw [extension.erasure_eq there, extension.erasure_eq also]
      simp only [Model.isUnknown, extension.tag_eq inside, extension.tag_eq inside',
        extension.isNamed_eq inside', extension.reaches_eq closed inside]
  | succ levels ih =>
      intro a b there also
      have inside := closed.erasure_lt there
      have inside' := closed.erasure_lt also
      unfold isSubtypeWithin
      rw [extension.erasure_eq there, extension.erasure_eq also]
      simp only [Model.isUnknown, extension.tag_eq inside, extension.tag_eq inside',
        extension.isNamed_eq inside', extension.reaches_eq closed inside, extension.type inside,
        extension.type inside']
      refine ite_congr rfl (fun _ => rfl) fun _ => ite_congr rfl (fun _ => rfl) fun _ => ?_
      cases before.tag (before.erasure a) with
      | array =>
          cases before.tag (before.erasure b) with
          | array =>
              -- Only here is a level used up, for elements older than their arrays.
              cases elements : (before.type (before.erasure a)).element with
              | none => rfl
              | some element =>
                  cases others : (before.type (before.erasure b)).element with
                  | none => rfl
                  | some other =>
                      have older := ((closed.types _).element element elements).trans inside
                      have older' := ((closed.types _).element other others).trans inside'
                      simp only [extension.tag_eq older, ih older older']
          | _ => rfl
      | _ => cases before.tag (before.erasure b) <;> rfl

theorem typeMatches_eq {id : TypeId} (there : id.index < before.typeCount) (name : String) :
    Catalog.typeMatches after id name = Catalog.typeMatches before id name := by
  have inside := closed.erasure_lt there
  simp only [Catalog.typeMatches, extension.erasure_eq there, extension.isNamed_eq inside,
    extension.implementsInterface_eq closed inside]

theorem sameOfType {id : TypeId} (there : id.index < before.typeCount) :
    SameOfType before after id := by
  have inside := closed.erasure_lt there
  have tags := extension.tag_eq there
  have names := extension.isNamed_eq there
  have erasures := extension.erasure_eq there
  exact {
    info := extension.type there
    tag := tags
    isUnknown := by rw [Model.isUnknown, Model.isUnknown, tags]
    isNumeric := by rw [Model.isNumeric, Model.isNumeric, tags]
    isEnum := by rw [Model.isEnum, Model.isEnum, erasures, extension.tag_eq inside]
    isClassLike := by rw [Model.isClassLike, Model.isClassLike, erasures, extension.tag_eq inside]
    isNullType := by rw [Model.isNullType, Model.isNullType, tags, names]
    isNamed := names
    erasure := erasures
    superclass := congrArg TypeInfo.superclass (extension.type there)
    implementsInterface := extension.implementsInterface_eq closed there
    sink? := fun catalog method => by
      unfold Catalog.sink?
      simp only [extension.typeMatches_eq closed there] }

/-- The subtype relation is the same, though more levels are allowed in the larger model. -/
theorem isSubtype_eq (shaped : before.Shaped) {a b : TypeId} (there : a.index < before.typeCount)
    (also : b.index < before.typeCount) : after.isSubtype a b = before.isSubtype a b :=
  calc after.isSubtypeWithin after.typeCount a b
    _ = before.isSubtypeWithin after.typeCount a b :=
        extension.isSubtypeWithin_eq closed _ there also
    _ = before.isSubtypeWithin before.typeCount a b :=
        (shaped.isSubtypeWithin_eq _ b there.le extension.typeCount).symm

end Types

/-! ## Symbols -/

section Symbols

theorem owner_eq {id : SymbolId} (there : id.index < before.symbolCount) :
    after.owner id = before.owner id := by
  rw [Model.owner, Model.owner, extension.symbol there]

theorem isTypeSymbol_eq {id : SymbolId} (there : id.index < before.symbolCount) :
    after.isTypeSymbol id = before.isTypeSymbol id := by
  rw [Model.isTypeSymbol, Model.isTypeSymbol, extension.symbol there]

theorem isMethodSymbol_eq {id : SymbolId} (there : id.index < before.symbolCount) :
    after.isMethodSymbol id = before.isMethodSymbol id := by
  rw [Model.isMethodSymbol, Model.isMethodSymbol, extension.symbol there]

variable (closed : before.Closed)

include closed

theorem isParameter_eq {id : SymbolId} (there : id.index < before.symbolCount) :
    after.isParameter id = before.isParameter id := by
  unfold isParameter
  rw [extension.owner_eq there]
  cases owned : before.owner id with
  | none => rfl
  | some owner =>
      have inside := closed.owner_lt owned
      simp only [extension.isMethodSymbol_eq inside, extension.symbol inside]

theorem any_owner_eq {id : SymbolId} (there : id.index < before.symbolCount)
    {p q : SymbolId → Bool}
    (same : ∀ {owner}, owner.index < before.symbolCount → p owner = q owner) :
    (after.owner id).any p = (before.owner id).any q := by
  rw [extension.owner_eq there]
  cases owned : before.owner id with
  | none => rfl
  | some owner => exact same (closed.owner_lt owned)

theorem firstTypeSymbol_eq (steps : Nat) : ∀ {start : Option SymbolId},
    (∀ id ∈ start, id.index < before.symbolCount) →
      after.firstTypeSymbol steps start = before.firstTypeSymbol steps start := by
  induction steps with
  | zero =>
      intro start _
      cases start <;> rfl
  | succ steps ih =>
      intro start inside
      cases start with
      | none => rfl
      | some id =>
          have there := inside id rfl
          rw [firstTypeSymbol, firstTypeSymbol, extension.isTypeSymbol_eq there,
            extension.owner_eq there, ih fun owner owned => closed.owner_lt owned]

theorem enclosingType_eq {id : SymbolId} (there : id.index < before.symbolCount) :
    after.enclosingType id = before.enclosingType id := by
  unfold enclosingType
  rw [extension.owner_eq there,
    extension.firstTypeSymbol_eq closed _ fun owner owned => closed.owner_lt owned]
  exact firstTypeSymbol_of_le (extension.symbolCount.trans (Nat.le_succ _)) (Nat.le_succ _)

theorem membersNamed_eq {id : SymbolId} (there : id.index < before.symbolCount) (name : String) :
    after.membersNamed id name = before.membersNamed id name := by
  unfold membersNamed
  rw [extension.symbol there]
  refine List.filter_congr fun member listed => ?_
  rw [extension.symbol ((closed.symbols id).members member listed)]

theorem sameOfSymbol {id : SymbolId} (there : id.index < before.symbolCount) :
    SameOfSymbol before after id := by
  have info := extension.symbol there
  have types := extension.isTypeSymbol_eq there
  exact {
    info := info
    owner := extension.owner_eq there
    isTypeSymbol := types
    isMethodSymbol := extension.isMethodSymbol_eq there
    isParameter := extension.isParameter_eq closed there
    isLocalVariable := by
      rw [Model.isLocalVariable, Model.isLocalVariable, info, extension.isParameter_eq closed there,
        extension.any_owner_eq closed there extension.isMethodSymbol_eq]
    isField := by
      rw [Model.isField, Model.isField, info,
        extension.any_owner_eq closed there extension.isTypeSymbol_eq]
    enclosingType := extension.enclosingType_eq closed there
    declaredType := by rw [Model.declaredType, Model.declaredType, types, info]
    constantValue := by rw [Model.constantValue, Model.constantValue, info]
    membersNamed := extension.membersNamed_eq closed there }

end Symbols

/-- A model that extends a closed one gives the same answers about its types and symbols. -/
theorem sameAnswers (closed : before.Closed) (shaped : before.Shaped) :
    SameAnswers before after where
  ofType there := extension.sameOfType closed there
  isSubtype there also := extension.isSubtype_eq closed shaped there also
  numericWidens there also := by
    rw [Model.numericWidens, Model.numericWidens, extension.tag_eq there, extension.tag_eq also]
  ofSymbol there := extension.sameOfSymbol closed there

end Extends

end BugPatterns.Model
