import BugPatterns.Proofs.Model.Unknown
import BugPatterns.Proofs.Unit.Scopes
import BugPatterns.Rule.Equality

/-!
# Comparisons with operands of unknown type

A comparison by identity is reported when one operand is an object with contents, and nothing asks
whether the type of the other one is known. So an operand whose type nothing declares silences the
rule exactly when the other operand has no contents (`Rule.reports_of_unresolved`); two operands of
unknown type are silent, an unknown one and a text are not (`Rule.not_silent_of_unresolved`).
-/

namespace BugPatterns

namespace LoadedUnit

/-- No known type is bound to the expression: it has none, or its type is erased to one that
    nothing declares. -/
def Unresolved (loaded : LoadedUnit) (e : Expr Site) : Prop :=
  ∀ type ∈ loaded.typeOf e, loaded.model.isUnknown (loaded.model.erasure type) = true

/-- The expression has a type, which is erased to one that nothing declares. -/
def HasUnknownType (loaded : LoadedUnit) (e : Expr Site) : Prop :=
  ∃ type ∈ loaded.typeOf e, loaded.model.isUnknown (loaded.model.erasure type) = true

end LoadedUnit

namespace Rule

/-- The type of the expression is that of objects which are not rightly compared by identity. -/
def HasContents (loaded : LoadedUnit) (e : Expr Site) : Prop :=
  ∃ type ∈ loaded.typeOf e,
    isObject loaded.model type = true ∧ comparedByIdentity loaded.model type = false

section Unknown

variable {document : UnitDocument} {loaded : LoadedUnit}
  (made : LoadedUnit.ofDocument document = .ok loaded) {type : TypeId}
  (unknown : loaded.model.isUnknown (loaded.model.erasure type) = true)

include unknown in
/-- What is unknown is not known to be an object. -/
theorem isObject_of_unknown : isObject loaded.model type = false := by
  have tag : loaded.model.tag (loaded.model.erasure type) = .unknown := of_decide_eq_true unknown
  simp [isObject, Model.isClassLike, tag, TypeTag.isDeclared]

include made unknown

/-- Nothing speaks for comparing values of an unknown type by identity. -/
theorem comparedByIdentity_of_unknown : comparedByIdentity loaded.model type = false := by
  have erased : loaded.model.tag (loaded.model.erasure type) = .unknown := of_decide_eq_true unknown
  have self : loaded.model.isUnknown type = true := by
    rw [← LoadedUnit.isUnknown_erasure made, unknown]
  have tag : loaded.model.tag type = .unknown := of_decide_eq_true self
  have notNull : loaded.model.isNamed type nullTypeName = false := by
    by_contra named
    rw [Bool.not_eq_false] at named
    have found : Model.prelude.type? nullTypeName = some ⟨8⟩ := by decide +kernel
    rw [LoadedUnit.isUnknown_of_prelude made found (by decide +kernel) named] at self
    cases self
  have notClass : loaded.model.isNamed (loaded.model.erasure type) className = false := by
    by_contra named
    rw [Bool.not_eq_false] at named
    have found : Model.prelude.type? className = some ⟨15⟩ := by decide +kernel
    rw [LoadedUnit.isUnknown_of_prelude made found (by decide +kernel) named] at unknown
    cases unknown
  simp [comparedByIdentity, Model.isNullType, Model.isNumeric, Model.isEnum, tag, erased, notNull,
    notClass]

end Unknown

/-- A comparison is reported unless an `equals` is around it, an operand is `null`, or its types are
    not such that identity is confused with equality. -/
theorem reports_objectEquality {here : Surroundings} {label : Site} {op : BinaryOp}
    {lhs rhs : Expr Site} {type : Option String} :
    (objectEquality.visit here (.expr (.binary label op lhs rhs type))).reports = [] ↔
      confusesIdentity here lhs rhs = false := by
  simp only [objectEquality]
  cases confusesIdentity here lhs rhs <;> simp [Answer.ofReports, Answer.nothing]

/-- Where the type of one operand is missing or unknown, a comparison is reported exactly when that
    operand has a type and the other one has contents. -/
theorem confusesTypes_of_unresolved {document : UnitDocument} {loaded : LoadedUnit}
    (made : LoadedUnit.ofDocument document = .ok loaded) {lhs rhs : Expr Site}
    (unresolved : loaded.Unresolved lhs ∨ loaded.Unresolved rhs) :
    (match loaded.typeOf lhs, loaded.typeOf rhs with
      | some left, some right =>
          !comparedByIdentity loaded.model left && !comparedByIdentity loaded.model right &&
            (isObject loaded.model left || isObject loaded.model right)
      | _, _ => false) = true ↔
      loaded.HasUnknownType lhs ∧ HasContents loaded rhs ∨
        HasContents loaded lhs ∧ loaded.HasUnknownType rhs := by
  unfold LoadedUnit.Unresolved at unresolved
  unfold LoadedUnit.HasUnknownType HasContents
  cases leftType : loaded.typeOf lhs with
  | none => simp
  | some left =>
      cases rightType : loaded.typeOf rhs with
      | none => simp
      | some right =>
          rw [leftType, rightType] at unresolved
          simp only [Option.mem_some_iff, exists_eq_left', forall_eq'] at unresolved ⊢
          rcases unresolved with unknown | unknown
          · simp [unknown, isObject_of_unknown unknown, comparedByIdentity_of_unknown made unknown,
              and_comm]
          · simp [unknown, isObject_of_unknown unknown, comparedByIdentity_of_unknown made unknown,
              and_comm]

/-- Where the type of one operand is missing or unknown, the rule is silent about a comparison
    exactly when an `equals` method is around it, an operand is the literal `null`, or it is not the
    case that one operand has an unknown type and the other one has contents. -/
theorem reports_of_unresolved {document : UnitDocument} {here : Surroundings}
    (made : LoadedUnit.ofDocument document = .ok here.loaded) {lhs rhs : Expr Site}
    (unresolved : here.loaded.Unresolved lhs ∨ here.loaded.Unresolved rhs) (label : Site)
    (op : BinaryOp) (type : Option String) :
    (objectEquality.visit here (.expr (.binary label op lhs rhs type))).reports = [] ↔
      here.enclosingMethods.any (isEqualsMethod here.model) = true ∨
        lhs.isNullLiteral = true ∨ rhs.isNullLiteral = true ∨
        ¬ (here.loaded.HasUnknownType lhs ∧ HasContents here.loaded rhs ∨
          HasContents here.loaded lhs ∧ here.loaded.HasUnknownType rhs) := by
  rw [reports_objectEquality, ← confusesTypes_of_unresolved made unresolved, confusesIdentity]
  simp only [Bool.and_eq_false_iff, Bool.not_eq_false', Bool.not_eq_true, or_assoc]
  rfl

/-- A value of an undeclared type is compared to a text. -/
def undeclaredComparison : UnitDocument where
  model := .empty
  tree := ⟨"E.java", none, [⟨.unknown, .ordinary, some "E", some "p.E", [.field ⟨.unknown, "same",
    none, none, some (.binary (.point 2 18) .equalTo
      (.ident .unknown "color" none (some "vendor.Color"))
      (.ident .unknown "text" none (some "java.lang.String")) none)⟩]⟩]⟩

namespace UndeclaredComparison

/-- The operand of undeclared type. -/
def color : Expr Site := .ident ⟨4, .unknown⟩ "color" none (some "vendor.Color")

/-- The text. -/
def text : Expr Site := .ident ⟨5, .unknown⟩ "text" none (some "java.lang.String")

/-- The comparison. -/
def comparison : Expr Site := .binary ⟨3, .point 2 18⟩ .equalTo color text none

/-- The unit is loaded, and the types of the operands are an unknown one and that of texts. -/
theorem operands : ∃ loaded, LoadedUnit.ofDocument undeclaredComparison = .ok loaded ∧
    .expr comparison ∈ loaded.nodes ∧ loaded.HasUnknownType color ∧ loaded.Unresolved color ∧
      HasContents loaded text ∧ confusesIdentity ⟨loaded, .empty, 32, []⟩ color text = true := by
  have evaluated : (LoadedUnit.ofDocument undeclaredComparison).toOption.bind (fun loaded =>
      (loaded.typeOf color).bind fun left => (loaded.typeOf text).map fun right =>
        loaded.model.isUnknown (loaded.model.erasure left) && isObject loaded.model right &&
          !comparedByIdentity loaded.model right &&
          confusesIdentity ⟨loaded, .empty, 32, []⟩ color text) = some true := by
    decide +kernel
  obtain ⟨loaded, made, found⟩ := exists_ok_of_toOption_bind evaluated
  obtain ⟨left, leftType, found⟩ := Option.bind_eq_some_iff.mp found
  obtain ⟨right, rightType, found⟩ := Option.map_eq_some_iff.mp found
  simp only [Bool.and_eq_true, Bool.not_eq_true'] at found
  obtain ⟨⟨⟨unknown, object⟩, contents⟩, confused⟩ := found
  have listed : .expr comparison ∈ loaded.nodes := by
    rw [LoadedUnit.nodes, LoadedUnit.unit_ofDocument made]
    exact List.mem_of_getElem? (i := 3) rfl
  refine ⟨loaded, made, listed, ⟨left, leftType, unknown⟩, fun type typed => ?_,
    ⟨right, rightType, object, contents⟩, confused⟩
  obtain rfl := Option.some.inj (leftType.symm.trans typed)
  exact unknown

end UndeclaredComparison

open UndeclaredComparison in
/-- An operand of undeclared type does not silence the rule. -/
theorem not_silent_of_unresolved :
    ¬ ∀ (document : UnitDocument) (here : Surroundings) (label : Site) (op : BinaryOp)
      (lhs rhs : Expr Site) (type : Option String),
      LoadedUnit.ofDocument document = .ok here.loaded →
        .expr (.binary label op lhs rhs type) ∈ here.loaded.nodes →
          op = .equalTo ∨ op = .notEqualTo →
            here.loaded.Unresolved lhs ∨ here.loaded.Unresolved rhs →
              (objectEquality.visit here (.expr (.binary label op lhs rhs type))).reports = [] := by
  intro silent
  obtain ⟨loaded, made, listed, -, unresolved, -, confused⟩ := operands
  have reported := reports_objectEquality.mp (silent _ ⟨loaded, .empty, 32, []⟩ _ _ _ _ _ made
    listed (.inl rfl) (.inl unresolved))
  rw [confused] at reported
  cases reported

open UndeclaredComparison in
theorem reports_of_unresolved_text : ∃ loaded,
    LoadedUnit.ofDocument undeclaredComparison = .ok loaded ∧ loaded.Unresolved color ∧
      (objectEquality.visit ⟨loaded, .empty, 32, []⟩ (.expr comparison)).reports ≠ [] := by
  obtain ⟨loaded, made, -, unknown, unresolved, contents, -⟩ := operands
  refine ⟨loaded, made, unresolved, fun silent => ?_⟩
  have here : LoadedUnit.ofDocument undeclaredComparison =
      .ok (Surroundings.mk loaded .empty 32 []).loaded := made
  have exceptions := (reports_of_unresolved here (.inl unresolved) _ _ _).mp silent
  rcases exceptions with around | null | null | apart
  · cases around
  · cases null
  · cases null
  · exact apart (.inl ⟨unknown, contents⟩)

end Rule

end BugPatterns
