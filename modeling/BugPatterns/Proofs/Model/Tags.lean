import BugPatterns.Proofs.Model.Operations

/-!
# Tags of parameterized and array types

A parameterized type takes the tag of its raw type when it is added, and keeps it: a later
definition of the raw type's name changes the tag of the raw type alone. So after a sequence of
operations that define plain names only, the two tags agree if and only if the last definition of
the raw type after the parameterized type was added, if there is one, gives the tag that both had
then (`Model.tag_eq_tag_raw_iff`). A raw type that is defined too late makes them differ
(`Model.not_forall_tag_eq_tag_raw`).

Where the tags agree, the questions that read the tag of a type and those that read the tag of its
erasure agree. Arrays of references are compared by their elements whatever the tags
(`Model.Shaped.isSubtype_arrays`).
-/

namespace BugPatterns.Model

open BugPatterns.TypeName (parse)

/-! ## What the questions say of a type whose tag agrees with that of its erasure -/

section Questions

variable {model : Model}

theorem isSubtype_of_isUnknown_erasure {id other : TypeId}
    (unknown : model.isUnknown (model.erasure id) = true ∨
      model.isUnknown (model.erasure other) = true) : model.isSubtype id other = false := by
  unfold isSubtype isSubtypeWithin
  exact if_pos (Bool.or_eq_true_iff.mpr unknown)

/-- A type whose tag is that of its erasure is unknown, or numeric, when its erasure is; and a type
    that is unknown then is related to nothing. -/
theorem questions_of_tag_eq {id : TypeId} (agree : model.tag id = model.tag (model.erasure id)) :
    (model.isUnknown id = true →
        ∀ other, model.isSubtype id other = false ∧ model.isSubtype other id = false) ∧
      model.isUnknown id = model.isUnknown (model.erasure id) ∧
      model.isNumeric id = model.isNumeric (model.erasure id) := by
  have unknown : model.isUnknown id = model.isUnknown (model.erasure id) := by
    rw [isUnknown, isUnknown, agree]
  refine ⟨fun isUnknown other => ?_, unknown, ?_⟩
  · rw [unknown] at isUnknown
    exact ⟨isSubtype_of_isUnknown_erasure (.inl isUnknown),
      isSubtype_of_isUnknown_erasure (.inr isUnknown)⟩
  · rw [isNumeric, isNumeric, agree]

/-! ## Arrays -/

/-- The check of elements, for which there is one level less. -/
def elementsWithin (model : Model) : Nat → TypeId → TypeId → Bool
  | 0, _, _ => false
  | levels + 1, element, other => model.isSubtypeWithin levels element other

/-- The check with some levels is the check with others if both treat the elements alike. -/
theorem isSubtypeWithin_congr {levels more : Nat} {a b : TypeId}
    (alike : ∀ element other, (model.type (model.erasure a)).element = some element →
      model.elementsWithin levels element other = model.elementsWithin more element other) :
    model.isSubtypeWithin levels a b = model.isSubtypeWithin more a b := by
  unfold isSubtypeWithin
  generalize model.erasure a = a at alike ⊢
  generalize model.erasure b = b
  simp only
  refine ite_congr rfl (fun _ => rfl) fun _ => ite_congr rfl (fun _ => rfl) fun _ => ?_
  cases model.tag a with
  | array =>
      cases model.tag b with
      | array =>
          cases elements : (model.type a).element with
          | none => cases levels <;> cases more <;> rfl
          | some element =>
              cases (model.type b).element with
              | none => cases levels <;> cases more <;> rfl
              | some other =>
                  have same := alike element other elements
                  cases levels <;> cases more <;> simp_all [elementsWithin]
      | _ => rfl
  | _ => cases model.tag b <;> rfl

/-- Array types that differ are compared by their elements. -/
theorem isSubtypeWithin_arrays {levels : Nat} {a b element other : TypeId} (apart : a ≠ b)
    (erased : model.erasure a = a ∧ model.erasure b = b)
    (arrays : model.tag a = .array ∧ model.tag b = .array)
    (elements : (model.type a).element = some element)
    (others : (model.type b).element = some other) :
    model.isSubtypeWithin levels a b =
      ((model.tag element).isReference && model.elementsWithin levels element other) := by
  unfold isSubtypeWithin
  rw [erased.1, erased.2]
  have known : (model.isUnknown a || model.isUnknown b) ≠ true := by
    simp [isUnknown, arrays]
  simp only [if_neg known, if_neg apart, arrays, elements, others]
  cases levels with
  | zero => exact (Bool.and_false _).symm
  | succ levels => rfl

namespace Shaped

variable (shaped : model.Shaped)

include shaped

theorem erasure_le (id : TypeId) : (model.erasure id).index ≤ id.index := by
  unfold Model.erasure
  cases built : (model.type id).erasure with
  | none => exact le_rfl
  | some raw => exact (shaped.erasure built).1.le

/-- More levels than the number of the first type make no difference. -/
theorem isSubtypeWithin_eq (levels : Nat) : ∀ {more : Nat} {a : TypeId} (b : TypeId),
    a.index ≤ levels → levels ≤ more →
      model.isSubtypeWithin levels a b = model.isSubtypeWithin more a b := by
  induction levels with
  | zero =>
      intro more a b enough _
      refine isSubtypeWithin_congr fun element other found => ?_
      have older := (shaped.element found).1.trans_le (shaped.erasure_le a)
      omega
  | succ levels ih =>
      intro more a b enough fewer
      obtain ⟨more, rfl⟩ : ∃ fewer, more = fewer + 1 := ⟨more - 1, by omega⟩
      refine isSubtypeWithin_congr fun element other found => ?_
      have older := (shaped.element found).1.trans_le (shaped.erasure_le a)
      exact ih other (by omega) (Nat.le_of_succ_le_succ fewer)

/-- A type with elements is not parameterized. -/
theorem erasure_of_element {id element : TypeId}
    (built : (model.type id).element = some element) : model.erasure id = id := by
  cases parameterized : (model.type id).erasure with
  | none => rw [Model.erasure, parameterized, Option.getD_none]
  | some raw =>
      obtain ⟨-, _, _, parsed, -⟩ := shaped.element built
      obtain ⟨-, _, _, other, -⟩ := shaped.erasure parameterized
      cases parsed.symm.trans other

/-- Arrays of different elements, those of the first being references, are related as their elements
    are. -/
theorem isSubtype_arrays {a b element other : TypeId}
    (arrays : model.tag a = .array ∧ model.tag b = .array)
    (elements : (model.type a).element = some element)
    (others : (model.type b).element = some other) (apart : element ≠ other)
    (reference : (model.tag element).isReference = true) :
    model.isSubtype a b = model.isSubtype element other := by
  have different : a ≠ b := by
    rintro rfl
    exact apart (Option.some.inj (elements.symm.trans others))
  have there := lt_of_element elements
  have older := (shaped.element elements).1
  obtain ⟨fewer, count⟩ : ∃ fewer, model.typeCount = fewer + 1 :=
    ⟨model.typeCount - 1, by omega⟩
  rw [isSubtype, isSubtypeWithin_arrays different
    ⟨shaped.erasure_of_element elements, shaped.erasure_of_element others⟩ arrays elements others,
    reference, Bool.true_and, isSubtype, count]
  exact shaped.isSubtypeWithin_eq fewer other (by omega) (Nat.le_succ _)

end Shaped

end Questions

/-! ## Sequences of operations -/

/-- Types that are named as array types are array types, with the elements that their names tell. -/
def ArraysBuilt (model : Model) : Prop :=
  ∀ id text base, id.index < model.typeCount → parse (model.nameOf id) = .array text base →
    model.tag id = .array ∧ ∃ element, (model.type id).element = some element

/-- A type is named as the array type of another one. -/
def IsArrayOf (model : Model) (array element : TypeId) : Prop :=
  array.index < model.typeCount ∧ ∃ text base,
    parse (model.nameOf array) = .array text base ∧ model.type? base.text = some element

theorem Shaped.element_of_isArrayOf {model : Model} (shaped : model.Shaped)
    (built : model.ArraysBuilt) {array element : TypeId} (named : model.IsArrayOf array element) :
    model.tag array = .array ∧ (model.type array).element = some element := by
  obtain ⟨there, text, base, parsed, found⟩ := named
  obtain ⟨tagged, made, elements⟩ := built _ _ _ there parsed
  obtain ⟨older, _, _, same, name⟩ := shaped.element elements
  obtain ⟨-, rfl⟩ := TypeName.array.inj (parsed.symm.trans same)
  have other := shaped.type?_iff.mpr ⟨older.trans there, name⟩
  obtain rfl := Option.some.inj (found.symm.trans other)
  exact ⟨tagged, elements⟩

theorem arraysBuilt_prelude : prelude.ArraysBuilt := by
  have plain : ∀ i < prelude.typeCount, TypeName.base? (prelude.nameOf ⟨i⟩) = none := by
    decide +kernel
  intro id text base there parsed
  have built := plain id.index there
  rw [TypeName.base?, parsed] at built
  cases built

/-- A type with a plain name is as its name makes it. -/
theorem made_of_plain {model : Model} {id : TypeId}
    (plain : TypeName.base? (model.nameOf id) = none) : model.Made id := by
  constructor
  · intro text base parsed
    rw [TypeName.base?, parsed] at plain
    cases plain
  · intro text base parsed
    rw [TypeName.base?, parsed] at plain
    cases plain

section Step

variable {model : Model} (shaped : model.Shaped) {operation : Operation}
  (plain : operation.DefinesPlain)

include shaped plain

/-- What an operation adds is as its name makes it. -/
theorem made_apply {id : TypeId} (new : model.typeCount ≤ id.index)
    (there : id.index < (operation.apply model).typeCount) : (operation.apply model).Made id := by
  have unchanged (same : KeepsParts model (operation.apply model)) :
      (operation.apply model).Made id :=
    absurd (same.count ▸ there) (Nat.not_lt.mpr new)
  cases operation with
  | intern name => exact (interned_intern shaped name).1.made id new there
  | define name tag =>
      have keeps := keepsParts_define model name tag
      have last : (model.withName name tag).2.nameOf id = name := by
        have bound : id.index < (model.withName name tag).2.typeCount := keeps.count ▸ there
        unfold withName at bound ⊢
        split at bound
        · exact absurd bound (Nat.not_lt.mpr new)
        · rw [typeCount_pushType] at bound
          have last : id.index = model.typeCount := by omega
          rw [nameOf, type_pushType, if_pos last]
          rfl
      apply made_of_plain
      have named : (model.define name tag).2.nameOf id = name := (keeps.name id).trans last
      exact named.symm ▸ plain
  | setSuperclass id superclass => exact unchanged (keepsParts_setSuperclass ..)
  | addInterface id interface => exact unchanged (keepsParts_addInterface ..)
  | nest nested outer => exact unchanged (keepsParts_nest ..)
  | declare key name kind owner => exact unchanged (keepsParts_declareIfFree ..)
  | addParam method param => exact unchanged (keepsParts_modifySymbol ..)

/-- No operation makes anything else of an array type. -/
theorem ArraysBuilt.apply (built : model.ArraysBuilt) : (operation.apply model).ArraysBuilt := by
  intro id text base there parsed
  by_cases old : id.index < model.typeCount
  · have kept := shaped.keepsOld_apply operation
    rw [kept.name old] at parsed
    obtain ⟨isArray, element, elements⟩ := built id text base old parsed
    have based : TypeName.base? (model.nameOf id) = some base.text := by
      rw [TypeName.base?, parsed]
    rw [tag_apply shaped old, plain.tagFor? based, Option.getD_none]
    exact ⟨isArray, element, (kept.element old).trans elements⟩
  · exact (made_apply shaped plain (Nat.not_lt.mp old) there).array parsed

end Step

section Run

variable {model : Model} (shaped : model.Shaped) {operations : List Operation}
  (plain : ∀ operation ∈ operations, operation.DefinesPlain)

include shaped plain

theorem ArraysBuilt.perform (built : model.ArraysBuilt) :
    (model.perform operations).ArraysBuilt := by
  induction operations generalizing model with
  | nil => exact built
  | cons operation operations ih =>
      obtain ⟨first, rest⟩ := List.forall_mem_cons.mp plain
      exact ih (shaped.apply operation) rest (built.apply shaped first)

/-- The tag of a type that is built from another one stays as it is. -/
theorem tag_perform_of_base {id : TypeId} (there : id.index < model.typeCount) {base : String}
    (built : TypeName.base? (model.nameOf id) = some base) :
    (model.perform operations).tag id = model.tag id := by
  have undefined : operations.filterMap (Operation.tagFor? (model.nameOf id)) = [] :=
    List.filterMap_eq_nil_iff.mpr fun operation listed => (plain operation listed).tagFor? built
  rw [tag_perform shaped there, undefined]
  rfl

/-- A parameterized type that operations add takes the tag of its raw type then and keeps it, while
    the raw type has the tag of its last definition since. -/
theorem tag_eq_tag_raw_iff_of_added {id raw : TypeId} (added : model.typeCount ≤ id.index)
    (built : ((model.perform operations).type id).erasure = some raw) :
    ∃ before operation after, operations = before ++ operation :: after ∧
      (model.perform before).typeCount ≤ id.index ∧
      id.index < (model.perform (before ++ [operation])).typeCount ∧
      ((model.perform operations).tag id = (model.perform operations).tag raw ↔
        ∀ tag ∈ (after.filterMap
            (Operation.tagFor? ((model.perform operations).nameOf raw))).getLast?,
          tag = (model.perform operations).tag id) := by
  obtain ⟨before, operation, after, rfl, absent, there⟩ :=
    exists_adding typeCount operations added (lt_of_erasure built)
  have last : model.perform (before ++ [operation]) = operation.apply (model.perform before) :=
    perform_append ..
  have whole : model.perform (before ++ operation :: after) =
      (operation.apply (model.perform before)).perform after := perform_append ..
  refine ⟨before, operation, after, rfl, absent, last ▸ there, ?_⟩
  have shapedBefore := shaped.perform before
  have shapedThen := shapedBefore.apply operation
  have plainAfter : ∀ operation ∈ after, operation.DefinesPlain :=
    fun later listed => plain later (by simp [listed])
  have made := made_apply shapedBefore (plain operation (by simp)) absent there
  rw [whole] at built ⊢
  generalize operation.apply (model.perform before) = added at *
  have kept := shapedThen.keepsOld_perform after
  rw [kept.erasure there] at built
  obtain ⟨older, text, base, parsed, -⟩ := shapedThen.erasure built
  obtain ⟨other, same, tags⟩ := made.parameterized parsed
  obtain rfl := Option.some.inj (built.symm.trans same)
  have based : TypeName.base? (added.nameOf id) = some base.text := by rw [TypeName.base?, parsed]
  have present := older.trans there
  rw [tag_perform_of_base shapedThen plainAfter there based, tag_perform shapedThen present,
    kept.name present, tags]
  cases (after.filterMap (Operation.tagFor? (added.nameOf raw))).getLast? with
  | none => simp
  | some tag => simp [eq_comm]

end Run

/-- The prelude has no parameterized types: those of a model that operations make of it were
    added. -/
theorem added_of_erasure {operations : List Operation} {id raw : TypeId}
    (built : ((prelude.perform operations).type id).erasure = some raw) :
    prelude.typeCount ≤ id.index := by
  by_contra old
  have there := Nat.not_le.mp old
  have none : ∀ i < prelude.typeCount, (prelude.type ⟨i⟩).erasure = none := by decide +kernel
  have kept := (shaped_prelude.keepsOld_perform operations).erasure there
  rw [none id.index there] at kept
  cases built.symm.trans kept

/-- Operations that define plain names only are performed on the prelude. Then a parameterized type
    has the tag of its raw type if and only if the last definition of that one after the operation
    that added the parameterized type, if there is one, gives the tag that the parameterized type
    has. A type that has the tag of its erasure is unknown or numeric when its erasure is, and it is
    related to nothing if it is unknown. Array types are related as their elements are, if these
    differ and are references. -/
theorem tag_eq_tag_raw_iff {operations : List Operation} {model : Model}
    (performed : prelude.perform operations = model)
    (plain : ∀ operation ∈ operations, operation.DefinesPlain) :
    (∀ id raw, (model.type id).erasure = some raw →
        ∃ before operation after, operations = before ++ operation :: after ∧
          (prelude.perform before).typeCount ≤ id.index ∧
          id.index < (prelude.perform (before ++ [operation])).typeCount ∧
          (model.tag id = model.tag raw ↔
            ∀ tag ∈ (after.filterMap (Operation.tagFor? (model.nameOf raw))).getLast?,
              tag = model.tag id)) ∧
      (∀ id, model.tag id = model.tag (model.erasure id) →
        (model.isUnknown id = true →
            ∀ other, model.isSubtype id other = false ∧ model.isSubtype other id = false) ∧
          model.isUnknown id = model.isUnknown (model.erasure id) ∧
          model.isNumeric id = model.isNumeric (model.erasure id)) ∧
      ∀ array element other otherElement, model.IsArrayOf array element →
        model.IsArrayOf other otherElement → element ≠ otherElement →
          (model.tag element).isReference = true →
            model.isSubtype array other = model.isSubtype element otherElement := by
  subst performed
  have shaped := shaped_prelude.perform operations
  have built := ArraysBuilt.perform shaped_prelude plain arraysBuilt_prelude
  have elements {array element : TypeId} (isArray : IsArrayOf _ array element) :=
    shaped.element_of_isArrayOf built isArray
  refine ⟨?_, fun _ => questions_of_tag_eq, ?_⟩
  · intro id raw erased
    exact tag_eq_tag_raw_iff_of_added shaped_prelude plain (added_of_erasure erased) erased
  · intro array element other otherElement isArray otherIsArray apart reference
    obtain ⟨tagged, made⟩ := elements isArray
    obtain ⟨otherTagged, otherMade⟩ := elements otherIsArray
    exact shaped.isSubtype_arrays ⟨tagged, otherTagged⟩ made otherMade apart reference

/-- A class is declared, then named with an argument, and arrays of both are named. -/
def classThenArgument : List Operation :=
  [.define "p.A" (.declared .ordinary), .intern "p.A<p.B>[]", .intern "p.A[]"]

/-- The arrays are related as their elements are. -/
theorem tag_eq_tag_raw_iff_classThenArgument : ∃ model,
    prelude.perform classThenArgument = model ∧ model.type? "p.A" = some ⟨17⟩ ∧
      model.type? "p.A<p.B>" = some ⟨18⟩ ∧
      model.isUnknown ⟨18⟩ = model.isUnknown (model.erasure ⟨18⟩) ∧
      model.isSubtype ⟨19⟩ ⟨20⟩ = model.isSubtype ⟨18⟩ ⟨17⟩ := by
  have plain : ∀ operation ∈ classThenArgument, operation.DefinesPlain := by decide +kernel
  have found : (prelude.perform classThenArgument).type? "p.A" = some ⟨17⟩ ∧
      (prelude.perform classThenArgument).type? "p.A<p.B>" = some ⟨18⟩ := by decide +kernel
  have agree : (prelude.perform classThenArgument).tag ⟨18⟩ =
      (prelude.perform classThenArgument).tag
        ((prelude.perform classThenArgument).erasure ⟨18⟩) := by decide +kernel
  have reference : ((prelude.perform classThenArgument).tag ⟨18⟩).isReference = true := by
    decide +kernel
  have names : (prelude.perform classThenArgument).nameOf ⟨19⟩ = "p.A<p.B>[]" ∧
      (prelude.perform classThenArgument).nameOf ⟨20⟩ = "p.A[]" ∧
        (prelude.perform classThenArgument).typeCount = 21 := by decide +kernel
  have parsed : parse "p.A<p.B>[]" = .array "p.A<p.B>[]" (parse "p.A<p.B>") ∧
      parse "p.A[]" = .array "p.A[]" (parse "p.A") := by decide +kernel
  generalize performed : prelude.perform classThenArgument = model at *
  obtain ⟨-, questions, arrays⟩ := tag_eq_tag_raw_iff performed plain
  have whole : model.IsArrayOf ⟨19⟩ ⟨18⟩ :=
    ⟨by rw [names.2.2]; decide, _, _, by rw [names.1, parsed.1],
      by rw [TypeName.text_parse, found.2]⟩
  have raw : model.IsArrayOf ⟨20⟩ ⟨17⟩ :=
    ⟨by rw [names.2.2]; decide, _, _, by rw [names.2.1, parsed.2],
      by rw [TypeName.text_parse, found.1]⟩
  exact ⟨model, rfl, found.1, found.2, (questions _ agree).2.1,
    arrays _ _ _ _ whole raw (by decide) reference⟩

/-- The raw type may be defined after the parameterized type was added, which keeps its tag. -/
theorem not_forall_tag_eq_tag_raw :
    ¬ ∀ operations : List Operation, (∀ operation ∈ operations, operation.DefinesPlain) →
      ∀ id raw, ((prelude.perform operations).type id).erasure = some raw →
        (prelude.perform operations).tag id = (prelude.perform operations).tag raw := by
  intro always
  have late := always [.intern "p.A<p.B>", .define "p.A" (.declared .ordinary)]
    (by decide +kernel) ⟨18⟩ ⟨17⟩ (by decide +kernel)
  revert late
  decide +kernel

end BugPatterns.Model
