import BugPatterns.Proofs.Model.Loaded

/-!
# Where subtyping is transitive

Two steps of the subtype relation compose unless they leave a gap (`Model.Gap`,
`Model.isSubtype_trans_iff`). Gaps come from the search of the hierarchy, which follows supertypes
only: once it has come to an array type, the wider array types are out of reach, although the array
type itself is below them. Likewise what stands above a root class that was given supertypes is not
above all types that are below the root class.
-/

namespace BugPatterns.Model

variable (model : Model)

/-- A step from `a` to `b` and one from `b` to `c` that do not make one from `a` to `c`, all types
    being erased. -/
inductive Gap : TypeId → TypeId → TypeId → Prop where
  | beyondArray {a b c : TypeId} (classLike : (model.tag a).isDeclared = true)
      (array : model.tag b = .array) (otherArray : model.tag c = .array)
      (noPath : ¬ Relation.ReflTransGen model.DirectlyBelow a c) : Gap a b c
  | beyondRoot {a b c : TypeId} (classLike : (model.tag a).isDeclared = true)
      (named : model.isNamed b objectName = true) (other : b ≠ c)
      (noPath : ¬ Relation.ReflTransGen model.DirectlyBelow a c) : Gap a b c
  | arrayBeyondRoot {a b c : TypeId} (array : model.tag a = .array)
      (named : model.isNamed b objectName = true) (other : b ≠ c) (apart : a ≠ c)
      (elementsApart : model.tag c = .array → ∀ element target,
        (model.type a).element = some element → (model.type c).element = some target →
          (model.tag element).isReference = true → model.isSubtype element target = false) :
      Gap a b c
  | elements {a b c element middle target : TypeId} (array : model.tag a = .array)
      (otherArray : model.tag c = .array) (elementOf : (model.type a).element = some element)
      (middleOf : (model.type b).element = some middle)
      (targetOf : (model.type c).element = some target)
      (first : model.isSubtype element middle = true) (last : model.isSubtype middle target = true)
      (inner : Gap (model.erasure element) (model.erasure middle) (model.erasure target)) :
      Gap a b c

/-- A step of the subtype relation between erased types. -/
abbrev Step (a b : TypeId) : Prop :=
  model.Related (fun element other => model.isSubtype element other = true) a b

variable {model}

/-- What a type of references is related to has references as well. -/
theorem Related.reference {below : TypeId → TypeId → Prop} {a b : TypeId}
    (related : model.Related below a b) (root : model.RootDeclared)
    (known : model.isUnknown b = false) (reference : (model.tag a).isReference = true) :
    (model.tag b).isReference = true := by
  cases related with
  | same equal => exact equal ▸ reference
  | null _ other => exact other
  | arrays _ otherArray =>
      rw [otherArray]
      rfl
  | root named => exact TypeTag.isReference_of_isDeclared (root b named)
  | hierarchy _ noPrimitive noVoid noNull =>
      cases tagged : model.tag b with
      | declared kind => rfl
      | array => rfl
      | primitive kind => exact absurd tagged (noPrimitive kind)
      | null => exact absurd tagged noNull
      | void => exact absurd tagged noVoid
      | unknown =>
          rw [isUnknown, tagged] at known
          cases known

/-- An array type is not the root class. -/
theorem RootDeclared.not_isNamed_of_array (root : model.RootDeclared) {a : TypeId}
    (array : model.tag a = .array) : ¬ model.isNamed a objectName = true := by
  intro named
  have declared := root a named
  rw [array] at declared
  cases declared

/-- From a declared type the hierarchy leads to all that is above it except for the root class. -/
theorem Related.path_of_declared {below : TypeId → TypeId → Prop} {a b : TypeId}
    (related : model.Related below a b) (classLike : (model.tag a).isDeclared = true)
    (notRoot : ¬ model.isNamed b objectName = true) :
    Relation.ReflTransGen model.DirectlyBelow a b := by
  cases related with
  | same equal => exact equal ▸ .refl
  | null isNull => rw [isNull] at classLike; cases classLike
  | arrays array => rw [array] at classLike; cases classLike
  | root named => exact absurd named notRoot
  | hierarchy _ _ _ _ path => exact path

/-- Up the hierarchy. -/
theorem step_or_gap_of_path {a b c : TypeId} (classLike : (model.tag a).isDeclared = true)
    (noNull : model.tag b ≠ .null) (path : Relation.ReflTransGen model.DirectlyBelow a b)
    (first : model.Step a b) (last : model.Step b c) : model.Step a c ∨ model.Gap a b c := by
  cases last with
  | same equal => exact .inl (equal ▸ first)
  | null isNull => exact absurd isNull noNull
  | arrays array otherArray =>
      by_cases above : Relation.ReflTransGen model.DirectlyBelow a c
      · refine .inl (.hierarchy classLike ?_ ?_ ?_ above) <;> simp [otherArray]
      · exact .inr (.beyondArray classLike array otherArray above)
  | root named => exact .inl (.root named (TypeTag.isReference_of_isDeclared classLike))
  | hierarchy _ noPrimitive noVoid noNull rest =>
      exact .inl (.hierarchy classLike noPrimitive noVoid noNull (path.trans rest))

namespace Sound

variable (sound : model.Sound) (root : model.RootDeclared)

include sound root

/-- There is one root class. -/
theorem eq_of_isNamed_root {a b : TypeId} (named : model.isNamed a objectName = true)
    (also : model.isNamed b objectName = true) : a = b := by
  have there : ∀ {id}, model.isNamed id objectName = true → id.index < model.typeCount := by
    intro id named
    apply lt_typeCount_of_known
    have declared := root id named
    unfold isUnknown
    cases tagged : model.tag id <;> rw [tagged] at declared <;> cases declared
    rfl
  apply sound.nameOf_inj (there named) (there also)
  exact (of_decide_eq_true named).trans (of_decide_eq_true also).symm

/-- Nothing bridges a gap. -/
theorem not_step_of_gap {a b c : TypeId} (gap : model.Gap a b c) : ¬ model.Step a c := by
  induction gap with
  | beyondArray classLike array otherArray noPath =>
      have notRoot := root.not_isNamed_of_array otherArray
      exact fun step => noPath (step.path_of_declared classLike notRoot)
  | beyondRoot classLike named other noPath =>
      intro step
      apply noPath
      apply step.path_of_declared classLike
      exact fun also => other (sound.eq_of_isNamed_root root named also)
  | arrayBeyondRoot array named other apart elementsApart =>
      intro step
      rcases (related_array_iff apart array).mp step with
        ⟨otherArray, element, target, elementOf, targetOf, reference, below⟩ | also
      · rw [elementsApart otherArray _ _ elementOf targetOf reference] at below
        cases below
      · exact other (sound.eq_of_isNamed_root root named also)
  | @elements a b c element middle target array otherArray elementOf middleOf targetOf first last
      inner ih =>
      have elementsApart : model.isSubtype element target ≠ true := by
        intro below
        obtain ⟨-, -, related⟩ := (sound.isSubtype_iff root element target).mp below
        exact ih related
      intro step
      by_cases same : a = c
      · subst same
        obtain rfl := Option.some.inj (elementOf.symm.trans targetOf)
        obtain ⟨known, -, -⟩ := (sound.isSubtype_iff root element middle).mp first
        exact elementsApart (sound.isSubtype_self root known)
      · rcases (related_array_iff same array).mp step with
          ⟨-, again, also, againOf, alsoOf, -, below⟩ | named
        · obtain rfl := Option.some.inj (elementOf.symm.trans againOf)
          obtain rfl := Option.some.inj (targetOf.symm.trans alsoOf)
          exact elementsApart below
        · exact root.not_isNamed_of_array otherArray named

/-- A step that leaves the root class follows the hierarchy. -/
theorem hierarchy_of_root {b c : TypeId} (named : model.isNamed b objectName = true)
    (other : b ≠ c) (step : model.Step b c) :
    (∀ kind, model.tag c ≠ .primitive kind) ∧ model.tag c ≠ .void ∧ model.tag c ≠ .null ∧
      Relation.ReflTransGen model.DirectlyBelow b c := by
  have declared := root b named
  cases step with
  | same equal => exact absurd equal other
  | null isNull => rw [isNull] at declared; cases declared
  | arrays array => rw [array] at declared; cases declared
  | root also => exact absurd (sound.eq_of_isNamed_root root named also) other
  | hierarchy _ noPrimitive noVoid noNull path => exact ⟨noPrimitive, noVoid, noNull, path⟩

section Steps

variable {a b c : TypeId}

/-- Over the root class. -/
theorem step_or_gap_of_root (known : model.isUnknown c = false)
    (named : model.isNamed b objectName = true) (reference : (model.tag a).isReference = true)
    (last : model.Step b c) : model.Step a c ∨ model.Gap a b c := by
  by_cases same : b = c
  · subst same
    exact .inl (.root named reference)
  · cases tagged : model.tag a with
    | null =>
        have declared := TypeTag.isReference_of_isDeclared (root b named)
        exact .inl (.null tagged (last.reference root known declared))
    | declared kind =>
        have classLike : (model.tag a).isDeclared = true := by rw [tagged]; rfl
        obtain ⟨noPrimitive, noVoid, noNull, -⟩ := sound.hierarchy_of_root root named same last
        by_cases path : Relation.ReflTransGen model.DirectlyBelow a c
        · exact .inl (.hierarchy classLike noPrimitive noVoid noNull path)
        · exact .inr (.beyondRoot classLike named same path)
    | array =>
        by_cases step : model.Step a c
        · exact .inl step
        · refine .inr (.arrayBeyondRoot tagged named same (fun equal => step (.same equal)) ?_)
          intro otherArray element target elementOf targetOf elementReference
          rw [← Bool.not_eq_true]
          exact fun below =>
            step (.arrays tagged otherArray elementOf targetOf elementReference below)
    | primitive kind => rw [tagged] at reference; cases reference
    | void => rw [tagged] at reference; cases reference
    | unknown => rw [tagged] at reference; cases reference

/-- Two steps make one, or they leave a gap. -/
theorem step_or_gap (known : model.isUnknown c = false) (first : model.Step a b)
    (last : model.Step b c)
    (elements : ∀ element ∈ (model.type a).element, ∀ {middle target},
      model.isSubtype element middle = true → model.isSubtype middle target = true →
        model.isSubtype element target = true ∨
          model.Gap (model.erasure element) (model.erasure middle) (model.erasure target)) :
    model.Step a c ∨ model.Gap a b c := by
  cases first with
  | same equal => exact .inl (equal ▸ last)
  | null isNull reference => exact .inl (.null isNull (last.reference root known reference))
  | arrays array otherArray elementOf middleOf reference firstBelow =>
      cases last with
      | same equal =>
          subst equal
          exact .inl (.arrays array otherArray elementOf middleOf reference firstBelow)
      | null isNull => rw [otherArray] at isNull; cases isNull
      | arrays _ lastArray again targetOf _ lastBelow =>
          obtain rfl := Option.some.inj (middleOf.symm.trans again)
          rcases elements _ elementOf firstBelow lastBelow with below | gap
          · exact .inl (.arrays array lastArray elementOf targetOf reference below)
          · exact .inr
              (.elements array lastArray elementOf middleOf targetOf firstBelow lastBelow gap)
      | root named => exact .inl (.root named (by rw [array]; rfl))
      | hierarchy classLike => rw [otherArray] at classLike; cases classLike
  | root named reference => exact sound.step_or_gap_of_root root known named reference last
  | hierarchy classLike noPrimitive noVoid noNull path =>
      exact step_or_gap_of_path classLike noNull path
        (.hierarchy classLike noPrimitive noVoid noNull path) last

end Steps

/-- Two subtypes in a row make one, or they leave a gap. The induction is along the elements of
    arrays, which are older than the arrays. -/
theorem isSubtype_or_gap {a : TypeId} : ∀ {b c : TypeId}, model.isSubtype a b = true →
    model.isSubtype b c = true → model.isSubtype a c = true ∨
      model.Gap (model.erasure a) (model.erasure b) (model.erasure c) := by
  induction number : a.index using Nat.strongRecOn generalizing a with
  | ind n ih =>
      subst number
      intro b c first last
      rw [sound.isSubtype_iff root] at first last ⊢
      obtain ⟨known, -, first⟩ := first
      obtain ⟨-, lastKnown, last⟩ := last
      have composed := sound.step_or_gap root lastKnown first last ?_
      · exact composed.imp_left fun step => ⟨known, lastKnown, step⟩
      · intro element elementOf middle target
        exact ih _ (sound.element_lt elementOf) rfl

end Sound

/-- In a loaded model, to which names may have been added, two subtypes in a row make one if and
    only if they leave no gap. -/
theorem isSubtype_trans_iff {document : ModelDocument} {loaded : Model}
    (made : load document = .ok loaded) (names : List String) {a b c : TypeId}
    (first : (loaded.internAll names).isSubtype a b = true)
    (last : (loaded.internAll names).isSubtype b c = true) :
    (loaded.internAll names).isSubtype a c = true ↔
      ¬ (loaded.internAll names).Gap ((loaded.internAll names).erasure a)
        ((loaded.internAll names).erasure b) ((loaded.internAll names).erasure c) := by
  obtain ⟨sound, root⟩ := sound_internAll_of_load made names
  constructor
  · intro below gap
    obtain ⟨-, -, step⟩ := (sound.isSubtype_iff root a c).mp below
    exact sound.not_step_of_gap root gap step
  · exact (sound.isSubtype_or_gap root first last).resolve_right

/-- A class that extends the array type of another class, and a field of a wider array type. -/
def arraySuperclass : ModelDocument where
  types := [⟨"p.Y", .ordinary, none, [], none, []⟩, ⟨"p.X", .ordinary, some "p.Y", [], none, []⟩,
    ⟨"p.C", .ordinary, some "p.X[]", [], none,
      [⟨"f", none, .field, false, false, some "p.Y[]", none, [], []⟩]⟩]

/-- The class is below the array type that it extends, and that one is below the wider array type,
    but the class is not. -/
theorem isSubtype_not_trans_arraySuperclass :
    ∃ loaded, load arraySuperclass = .ok loaded ∧ loaded.type? "p.C" = some ⟨19⟩ ∧
      loaded.type? "p.X[]" = some ⟨20⟩ ∧ loaded.type? "p.Y[]" = some ⟨21⟩ ∧
        loaded.isSubtype ⟨19⟩ ⟨20⟩ = true ∧ loaded.isSubtype ⟨20⟩ ⟨21⟩ = true ∧
          loaded.isSubtype ⟨19⟩ ⟨21⟩ = false := by
  have evaluated : (load arraySuperclass).toOption.map (fun loaded =>
      (loaded.type? "p.C", loaded.type? "p.X[]", loaded.type? "p.Y[]",
        loaded.isSubtype ⟨19⟩ ⟨20⟩, loaded.isSubtype ⟨20⟩ ⟨21⟩, loaded.isSubtype ⟨19⟩ ⟨21⟩)) =
      some (some ⟨19⟩, some ⟨20⟩, some ⟨21⟩, true, true, false) := by
    decide +kernel
  obtain ⟨loaded, made, found⟩ := exists_ok_of_toOption_map evaluated
  simp only [Prod.mk.injEq] at found
  exact ⟨loaded, made, found⟩

/-- The class leaves a gap there; array types of array types, added later, leave none below the root
    class. -/
theorem isSubtype_trans_iff_arraySuperclass :
    ∃ loaded, load arraySuperclass = .ok loaded ∧
      (loaded.internAll ["p.X[][]", "p.Y[][]"]).Gap ⟨19⟩ ⟨20⟩ ⟨21⟩ ∧
      ¬ (loaded.internAll ["p.X[][]", "p.Y[][]"]).Gap ⟨22⟩ ⟨23⟩ ⟨10⟩ := by
  have evaluated : (load arraySuperclass).toOption.map (fun loaded =>
      let extended := loaded.internAll ["p.X[][]", "p.Y[][]"]
      ([19, 20, 21, 22, 23, 10].all fun i => extended.erasure ⟨i⟩ = ⟨i⟩,
        (extended.isSubtype ⟨19⟩ ⟨20⟩, extended.isSubtype ⟨20⟩ ⟨21⟩, extended.isSubtype ⟨19⟩ ⟨21⟩),
        (extended.isSubtype ⟨22⟩ ⟨23⟩, extended.isSubtype ⟨23⟩ ⟨10⟩,
          extended.isSubtype ⟨22⟩ ⟨10⟩))) =
      some (true, (true, true, false), (true, true, true)) := by
    decide +kernel
  obtain ⟨loaded, made, found⟩ := exists_ok_of_toOption_map evaluated
  simp only [Prod.mk.injEq, List.all_cons, List.all_nil, Bool.and_true, Bool.and_eq_true,
    decide_eq_true_eq] at found
  obtain ⟨⟨class', narrow, wide, arrays, wideArrays, root⟩, ⟨first, last, apart⟩, next, top,
    composed⟩ := found
  have gap := not_iff_not.mpr (isSubtype_trans_iff made _ first last)
  have noGap := isSubtype_trans_iff made _ next top
  rw [not_not, apart, class', narrow, wide] at gap
  rw [composed, arrays, wideArrays, root] at noGap
  exact ⟨loaded, made, gap.mp Bool.false_ne_true, noGap.mp rfl⟩

end BugPatterns.Model
