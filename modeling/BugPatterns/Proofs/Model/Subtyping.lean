import BugPatterns.Model.Query
import BugPatterns.Proofs.Model.Sound
import BugPatterns.Proofs.Reach

/-!
# The subtype relation

The subtype check decides a relation that is read off the declarations
(`Model.Sound.isSubtype_iff`): two types are related when their erasures are equal, or by one of the
rules for `null`, for arrays and for the root class, or when a path of superclasses and interfaces
leads from the one to the other.

Two bounds stand in the check. The one on the length of paths is enough because a search enters no
type twice (`Model.reaches_iff`, `Model.implementsInterface_iff`). The one on how many array types
are taken apart is enough because elements are older than their arrays
(`Model.Sound.isSubtypeWithin_eq`).
-/

namespace BugPatterns

theorem TypeTag.isReference_of_isDeclared {tag : TypeTag} (declared : tag.isDeclared = true) :
    tag.isReference = true := by
  cases tag <;> cases declared
  rfl

namespace Model

variable (model : Model)

/-- A type has another one, erased, as its superclass or among its interfaces. -/
def DirectlyBelow (a b : TypeId) : Prop :=
  ∃ parent, ((model.type a).superclass = some parent ∨ parent ∈ (model.type a).interfaces) ∧
    model.erasure parent = b

/-- A type has another one, erased, among its interfaces. -/
def DirectlyImplements (a b : TypeId) : Prop :=
  ∃ parent ∈ (model.type a).interfaces, model.erasure parent = b

/-- How erased types are related as long as neither is unknown; `below` relates the elements of
    arrays. -/
inductive Related (below : TypeId → TypeId → Prop) (a b : TypeId) : Prop where
  | same (equal : a = b)
  | null (isNull : model.tag a = .null) (reference : (model.tag b).isReference = true)
  | arrays {element other : TypeId} (array : model.tag a = .array)
      (otherArray : model.tag b = .array) (elements : (model.type a).element = some element)
      (otherElements : (model.type b).element = some other)
      (reference : (model.tag element).isReference = true) (elementsBelow : below element other)
  | root (named : model.isNamed b objectName = true)
      (reference : (model.tag a).isReference = true)
  | hierarchy (classLike : (model.tag a).isDeclared = true)
      (noPrimitive : ∀ kind, model.tag b ≠ .primitive kind) (noVoid : model.tag b ≠ .void)
      (noNull : model.tag b ≠ .null) (path : Relation.ReflTransGen model.DirectlyBelow a b)

/-- The erasures of two types are not unknown, and they are related. -/
def DeclaredSubtype (below : TypeId → TypeId → Prop) (a b : TypeId) : Prop :=
  model.isUnknown (model.erasure a) = false ∧ model.isUnknown (model.erasure b) = false ∧
    model.Related below (model.erasure a) (model.erasure b)

/-- The root class is a declared type. -/
def RootDeclared : Prop :=
  ∀ id, model.isNamed id objectName = true → (model.tag id).isDeclared = true

variable {model}

/-! ## Paths of supertypes -/

theorem edge_parents_iff {a b : TypeId} :
    Reach.Edge model.parents a b ↔ model.DirectlyBelow a b := by
  unfold Reach.Edge parents DirectlyBelow
  simp only [List.mem_map, List.mem_append, Option.mem_toList]

/-- The numbers of all types. -/
def typeIds (model : Model) : Finset TypeId :=
  (Finset.range model.typeCount).image TypeId.mk

theorem card_typeIds_le : model.typeIds.card ≤ model.typeCount := by
  have bound := Finset.card_image_le (s := Finset.range model.typeCount) (f := TypeId.mk)
  rwa [Finset.card_range] at bound

theorem mem_typeIds {id : TypeId} : id ∈ model.typeIds ↔ id.index < model.typeCount := by
  unfold typeIds
  rw [Finset.mem_image]
  constructor
  · rintro ⟨index, listed, rfl⟩
    exact Finset.mem_range.mp listed
  · intro there
    exact ⟨id.index, Finset.mem_range.mpr there, rfl⟩

theorem type_eq_bare_of_not_mem {id : TypeId} (absent : id ∉ model.typeIds) :
    model.type id = .bare "" .unknown :=
  type_of_le model (Nat.not_lt.mp (mem_typeIds.not.mp absent))

theorem reaches_iff {a b : TypeId} :
    model.reaches a b = true ↔ Relation.ReflTransGen model.DirectlyBelow a b := by
  have bounded : ∀ id, model.parents id ≠ [] → id ∈ model.typeIds := by
    intro id above
    by_contra absent
    exact above (by rw [parents, type_eq_bare_of_not_mem absent]; rfl)
  have edges : Reach.Edge model.parents = model.DirectlyBelow := by
    funext a b
    exact propext edge_parents_iff
  unfold reaches
  rw [Reach.leadsTo_iff bounded card_typeIds_le, edges]
  simp

/-- An interface is implemented when a path of interfaces, one at least, leads to its name. -/
theorem implementsInterface_iff {id : TypeId} {name : String} :
    model.implementsInterface id name = true ↔
      ∃ b, Relation.TransGen model.DirectlyImplements (model.erasure id) b ∧
        model.isNamed b name = true := by
  have bounded : ∀ id, model.parentInterfaces id ≠ [] → id ∈ model.typeIds := by
    intro id above
    by_contra absent
    exact above (by rw [parentInterfaces, type_eq_bare_of_not_mem absent]; rfl)
  have edges : Reach.Edge model.parentInterfaces = model.DirectlyImplements := by
    funext a b
    exact propext List.mem_map
  unfold implementsInterface
  rw [Reach.leadsOnTo_iff bounded card_typeIds_le, edges]

/-! ## One level of the check -/

theorem lt_typeCount_of_known {id : TypeId} (known : model.isUnknown id = false) :
    id.index < model.typeCount := by
  by_contra beyond
  rw [isUnknown, tag, type_of_le model (Nat.not_lt.mp beyond)] at known
  cases known

section Rules

variable {below : TypeId → TypeId → Prop} {a b : TypeId} (root : model.RootDeclared)
  (apart : a ≠ b)

include apart

/-- A type without references is related to no other type. -/
theorem not_related_of_value (value : (model.tag a).isReference = false) :
    ¬ model.Related below a b := by
  intro related
  cases related with
  | same equal => exact apart equal
  | null isNull =>
      rw [isNull] at value
      cases value
  | arrays array =>
      rw [array] at value
      cases value
  | root _ reference =>
      rw [reference] at value
      cases value
  | hierarchy classLike =>
      rw [TypeTag.isReference_of_isDeclared classLike] at value
      cases value

include root in
theorem related_null_iff (isNull : model.tag a = .null) :
    model.Related below a b ↔ (model.tag b).isReference = true := by
  constructor
  · intro related
    cases related with
    | same equal => exact absurd equal apart
    | null _ reference => exact reference
    | arrays array =>
        rw [isNull] at array
        cases array
    | root named => exact TypeTag.isReference_of_isDeclared (root b named)
    | hierarchy classLike =>
        rw [isNull] at classLike
        cases classLike
  · exact .null isNull

theorem related_array_iff (array : model.tag a = .array) :
    model.Related below a b ↔
      (model.tag b = .array ∧ ∃ element other, (model.type a).element = some element ∧
        (model.type b).element = some other ∧ (model.tag element).isReference = true ∧
          below element other) ∨ model.isNamed b objectName = true := by
  constructor
  · intro related
    cases related with
    | same equal => exact absurd equal apart
    | null isNull =>
        rw [array] at isNull
        cases isNull
    | arrays _ otherArray elements otherElements reference elementsBelow =>
        exact .inl ⟨otherArray, _, _, elements, otherElements, reference, elementsBelow⟩
    | root named => exact .inr named
    | hierarchy classLike =>
        rw [array] at classLike
        cases classLike
  · rintro (⟨otherArray, element, other, elements, otherElements, reference, rest⟩ | named)
    · exact .arrays array otherArray elements otherElements reference rest
    · exact .root named (by rw [array]; rfl)

theorem related_declared_iff {kind : ClassKind} (declared : model.tag a = .declared kind) :
    model.Related below a b ↔ model.isNamed b objectName = true ∨
      (∀ kind, model.tag b ≠ .primitive kind) ∧ model.tag b ≠ .void ∧ model.tag b ≠ .null ∧
        model.reaches a b = true := by
  rw [reaches_iff]
  constructor
  · intro related
    cases related with
    | same equal => exact absurd equal apart
    | null isNull =>
        rw [declared] at isNull
        cases isNull
    | arrays array =>
        rw [declared] at array
        cases array
    | root named => exact .inl named
    | hierarchy _ noPrimitive noVoid noNull path =>
        exact .inr ⟨noPrimitive, noVoid, noNull, path⟩
  · rintro (named | ⟨noPrimitive, noVoid, noNull, path⟩)
    · exact .root named (by rw [declared]; rfl)
    · exact .hierarchy (by rw [declared]; rfl) noPrimitive noVoid noNull path

end Rules

/-- The check decides the relation, elements being checked with one level less. -/
theorem isSubtypeWithin_iff (root : model.RootDeclared) (levels : Nat) (a b : TypeId) :
    model.isSubtypeWithin levels a b = true ↔
      model.DeclaredSubtype (fun element other =>
        ∃ fewer, levels = fewer + 1 ∧ model.isSubtypeWithin fewer element other = true) a b := by
  conv_lhs => unfold isSubtypeWithin
  unfold DeclaredSubtype
  generalize model.erasure a = a
  generalize model.erasure b = b
  simp only
  by_cases unknown : (model.isUnknown a || model.isUnknown b) = true
  · rw [if_pos unknown]
    rcases Bool.or_eq_true_iff.mp unknown with unknown | unknown <;> simp [unknown]
  · rw [if_neg unknown]
    obtain ⟨known, otherKnown⟩ := Bool.or_eq_false_iff.mp (Bool.eq_false_iff.mpr unknown)
    by_cases same : a = b
    · rw [if_pos same]
      exact iff_of_true rfl ⟨known, otherKnown, .same same⟩
    · rw [if_neg same]
      simp only [known, otherKnown, true_and]
      have unnamed : (model.tag b).isDeclared = false → model.isNamed b objectName = false := by
        intro undeclared
        by_contra named
        rw [root b (Bool.not_eq_false _ ▸ named)] at undeclared
        cases undeclared
      cases ta : model.tag a with
      | null => exact (related_null_iff root same ta).symm
      | primitive kind =>
          exact iff_of_false Bool.false_ne_true (not_related_of_value same (by rw [ta]; rfl))
      | void =>
          refine iff_of_false ?_ (not_related_of_value same (by rw [ta]; rfl))
          cases model.tag b <;> exact Bool.false_ne_true
      | unknown =>
          rw [isUnknown, ta] at known
          cases known
      | array =>
          rw [related_array_iff same ta]
          cases tb : model.tag b with
          | array =>
              rw [unnamed (by rw [tb]; rfl)]
              cases levels <;> cases (model.type a).element <;> cases (model.type b).element <;>
                simp
          | declared kind => simp [TypeTag.isReference]
          | unknown =>
              rw [isUnknown, tb] at otherKnown
              cases otherKnown
          | primitive kind => simp [unnamed (by rw [tb]; rfl)]
          | null => simp [unnamed (by rw [tb]; rfl)]
          | void => simp [unnamed (by rw [tb]; rfl)]
      | declared kind =>
          rw [related_declared_iff same ta]
          cases tb : model.tag b with
          | array => simp [TypeTag.isReference]
          | declared otherKind => simp [TypeTag.isReference]
          | unknown =>
              rw [isUnknown, tb] at otherKnown
              cases otherKnown
          | primitive kind => simp [unnamed (by rw [tb]; rfl)]
          | null => simp [unnamed (by rw [tb]; rfl)]
          | void => simp [unnamed (by rw [tb]; rfl)]

/-! ## All levels of the check -/

theorem Related.imp {below other : TypeId → TypeId → Prop} {a b : TypeId}
    (related : model.Related below a b)
    (weaker : ∀ element, (model.type a).element = some element →
      ∀ target, below element target → other element target) : model.Related other a b := by
  cases related with
  | same equal => exact .same equal
  | null isNull reference => exact .null isNull reference
  | arrays array otherArray elements otherElements reference elementsBelow =>
      exact .arrays array otherArray elements otherElements reference
        (weaker _ elements _ elementsBelow)
  | root named reference => exact .root named reference
  | hierarchy classLike noPrimitive noVoid noNull path =>
      exact .hierarchy classLike noPrimitive noVoid noNull path

/-- Rules that treat the elements of the erased first type alike relate the same types. -/
theorem declaredSubtype_congr {below other : TypeId → TypeId → Prop} {a b : TypeId}
    (alike : ∀ element, (model.type (model.erasure a)).element = some element →
      ∀ target, below element target ↔ other element target) :
    model.DeclaredSubtype below a b ↔ model.DeclaredSubtype other a b := by
  refine and_congr_right fun _ => and_congr_right fun _ => ?_
  constructor
  · intro related
    exact related.imp fun element found target => (alike element found target).mp
  · intro related
    exact related.imp fun element found target => (alike element found target).mpr

namespace Sound

variable (sound : model.Sound)

include sound

theorem erasure_le (id : TypeId) : (model.erasure id).index ≤ id.index := by
  unfold erasure
  cases raw : (model.type id).erasure with
  | none => exact le_rfl
  | some other => exact ((sound.types id).erasure other raw).le

theorem element_lt {id element : TypeId}
    (found : (model.type (model.erasure id)).element = some element) : element.index < id.index :=
  ((sound.types _).element element found).trans_le (sound.erasure_le id)

/-- More levels than the number of the first type make no difference. -/
theorem isSubtypeWithin_eq (root : model.RootDeclared) (levels : Nat) :
    ∀ {more : Nat} {a : TypeId} (b : TypeId), a.index ≤ levels → levels ≤ more →
      model.isSubtypeWithin more a b = model.isSubtypeWithin levels a b := by
  induction levels with
  | zero =>
      intro more a b enough _
      rw [Bool.eq_iff_iff, isSubtypeWithin_iff root, isSubtypeWithin_iff root]
      apply declaredSubtype_congr
      intro element found
      have older := sound.element_lt found
      omega
  | succ levels ih =>
      intro more a b enough fewer
      obtain ⟨more, rfl⟩ : ∃ fewer, more = fewer + 1 := ⟨more - 1, by omega⟩
      rw [Bool.eq_iff_iff, isSubtypeWithin_iff root, isSubtypeWithin_iff root]
      apply declaredSubtype_congr
      intro element found target
      have older := sound.element_lt found
      have same := ih (a := element) target (by omega) (Nat.le_of_succ_le_succ fewer)
      simp [same]

/-- The bound on the levels never cuts the check short. -/
theorem isSubtypeWithin_of_le (root : model.RootDeclared) {levels : Nat}
    (enough : model.typeCount ≤ levels) (a b : TypeId) :
    model.isSubtypeWithin levels a b = model.isSubtype a b := by
  by_cases there : a.index < model.typeCount
  · rw [isSubtype, sound.isSubtypeWithin_eq root _ b there.le enough]
  · have unknown : model.isUnknown (model.erasure a) = true := by
      have nothing := type_of_le model (Nat.not_lt.mp there)
      have itself : model.erasure a = a := by
        rw [erasure, nothing]
        rfl
      rw [itself, isUnknown, tag, nothing]
      rfl
    rw [isSubtype, Bool.eq_iff_iff, isSubtypeWithin_iff root, isSubtypeWithin_iff root]
    simp [DeclaredSubtype, unknown]

/-- A type is a subtype of another one if and only if their erasures are known and related by the
    rules, where elements of arrays are compared as types are. -/
theorem isSubtype_iff (root : model.RootDeclared) (a b : TypeId) :
    model.isSubtype a b = true ↔
      model.DeclaredSubtype (fun element other => model.isSubtype element other = true) a b := by
  rw [← sound.isSubtypeWithin_of_le root (Nat.le_add_right _ 1), isSubtypeWithin_iff root]
  apply declaredSubtype_congr
  intro element found target
  simp only [Nat.add_right_cancel_iff, exists_eq_left', isSubtype]

theorem isSubtype_self (root : model.RootDeclared) {a : TypeId}
    (known : model.isUnknown (model.erasure a) = false) : model.isSubtype a a = true :=
  (sound.isSubtype_iff root a a).mpr ⟨known, known, .same rfl⟩

end Sound

end Model

end BugPatterns
