import BugPatterns.Proofs.Model.Locality
import BugPatterns.Proofs.Unit.Coherence

/-!
# Types that a unit mentions

Interning adds types and changes nothing else, so a model answers all questions about its own types
and symbols as before (`Model.Reached.sameAnswers`). When a tree is made ready, the types are
interned that its nodes mention, wherever they lie; so an expression has a type if and only if it
carries the name of one (`LoadedUnit.typeOf_of_contains`).
-/

namespace BugPatterns

namespace Model

theorem AddsTypes.extends {before after : Model} (adds : AddsTypes before after) :
    Extends before after where
  typeCount := adds.count
  symbolCount := adds.symbolCount.ge
  type there := adds.type _ there
  symbol _ := adds.symbol _

/-- A reached model to which types are added gives the same answers about its own. -/
theorem Reached.sameAnswers {before after : Model} (reached : before.Reached)
    (adds : AddsTypes before after) : SameAnswers before after :=
  adds.extends.sameAnswers reached.closed reached.shaped

theorem Reached.internAll (names : List String) :
    ∀ {model : Model}, model.Reached → (model.internAll names).Reached := by
  induction names with
  | nil => exact fun reached => reached
  | cons name names ih =>
      intro model reached
      have within : (Operation.intern name).Within model := trivial
      exact ih (reached.apply within)

/-- Interning names adds types, and each of the names is known afterwards. -/
theorem addsTypes_internAll (names : List String) : ∀ model : Model,
    AddsTypes model (model.internAll names) ∧
      ∀ name ∈ names, ∃ id, (model.internAll names).type? name = some id := by
  induction names with
  | nil => exact fun model => ⟨.refl model, fun _ absurd => by cases absurd⟩
  | cons name names ih =>
      intro model
      obtain ⟨first, known⟩ := model.addsTypes_intern name
      obtain ⟨rest, others⟩ := ih (model.intern name).2
      refine ⟨first.trans rest, List.forall_mem_cons.mpr ⟨?_, others⟩⟩
      exact ⟨_, rest.known known⟩

end Model

namespace LoadedUnit

section OfTree

variable {model : Model} (reached : model.Reached) {tree : CompilationUnit Span}
  {loaded : LoadedUnit} (made : ofTree tree model = .ok loaded)

include made

/-- The model of a tree that is ready has the types that its nodes mention. -/
theorem addsTypes_ofTree :
    Model.AddsTypes model loaded.model ∧
      ∀ node, (Node.unit loaded.unit).Contains node →
        ∀ name ∈ mentionedType node, ∃ id, loaded.model.type? name = some id := by
  obtain rfl := eq_of_ofTree made
  obtain ⟨adds, known⟩ :=
    model.addsTypes_internAll (tree.numbered.tree.preorder.filterMap mentionedType)
  refine ⟨adds, fun node below name mentioned => known name ?_⟩
  exact List.mem_filterMap.mpr ⟨node, Node.contains_iff.mp below, mentioned⟩

/-- An expression of the tree has a type if and only if it carries the name of one. -/
theorem isSome_typeOf_iff {e : Expr Site} (below : (Node.unit loaded.unit).Contains (.expr e)) :
    (loaded.typeOf e).isSome ↔ e.type.isSome := by
  unfold typeOf
  cases mentioned : e.type with
  | none => rfl
  | some name =>
      obtain ⟨id, found⟩ := (addsTypes_ofTree made).2 _ below name mentioned
      rw [Option.bind_some, found, Option.isSome_some, Option.isSome_some]

include reached

theorem reached_ofTree : loaded.model.Reached := by
  obtain rfl := eq_of_ofTree made
  exact reached.internAll _

/-- Its type has the name that it carries. -/
theorem typeOf_of_contains {e : Expr Site} (below : (Node.unit loaded.unit).Contains (.expr e)) :
    (loaded.typeOf e).map loaded.model.nameOf = e.type := by
  have shaped := (reached_ofTree reached made).shaped
  have known := isSome_typeOf_iff made below
  unfold typeOf at known ⊢
  cases mentioned : e.type with
  | none => rfl
  | some name =>
      rw [mentioned, Option.bind_some] at known
      obtain ⟨id, found⟩ := Option.isSome_iff_exists.mp (known.mpr rfl)
      rw [Option.bind_some, found, Option.map_some, shaped.nameOf_of_type? found]

end OfTree

/-- Interning a name adds types and leaves all else as it is; interning it again gives the same type
    and changes nothing. When a tree is made ready, too, types are added, and an expression of the
    tree, wherever children lead to it, has a type if and only if it carries the name of one. In
    both cases a reached model answers all questions about its own types and symbols as before, and
    the type of an expression has the name that it carries. -/
theorem intern_conservative (model : Model) :
    (∀ name, Model.AddsTypes model (model.intern name).2 ∧
        (model.intern name).2.intern name = model.intern name ∧
        (model.Reached → Model.SameAnswers model (model.intern name).2)) ∧
      ∀ tree loaded, ofTree tree model = .ok loaded →
        Model.AddsTypes model loaded.model ∧
        (model.Reached → Model.SameAnswers model loaded.model) ∧
        ∀ e, (Node.unit loaded.unit).Contains (.expr e) →
          ((loaded.typeOf e).isSome ↔ e.type.isSome) ∧
          (model.Reached → (loaded.typeOf e).map loaded.model.nameOf = e.type) := by
  refine ⟨fun name => ?_, fun tree loaded made => ?_⟩
  · have adds := (model.addsTypes_intern name).1
    exact ⟨adds, model.intern_intern name, fun reached => reached.sameAnswers adds⟩
  · have adds := (addsTypes_ofTree made).1
    refine ⟨adds, fun reached => reached.sameAnswers adds, fun e below => ?_⟩
    exact ⟨isSome_typeOf_iff made below, fun reached => typeOf_of_contains reached made below⟩

/-- An anonymous class, in whose initializer a name of an array type stands. -/
def mentioningInside : CompilationUnit Span :=
  let inner : ClassDecl Span := ⟨.unknown, .ordinary, none, none,
    [.initBlock ⟨.unknown, [.expression .unknown (.ident .unknown "x" none (some "p.A<p.B>[]"))]⟩]⟩
  ⟨"P.java", none, [⟨.unknown, .ordinary, some "P", some "p.P",
    [.field ⟨.unknown, "f", none, none, some (.creation .unknown [] (some inner) none none)⟩]⟩]⟩

theorem intern_conservative_mentioningInside : ∃ loaded e,
    ofTree mentioningInside .prelude = .ok loaded ∧
      (Node.unit loaded.unit).Contains (.expr e) ∧ e.type = some "p.A<p.B>[]" ∧
      (loaded.typeOf e).isSome = true ∧
      loaded.model.isSubtype ⟨12⟩ ⟨11⟩ = Model.prelude.isSubtype ⟨12⟩ ⟨11⟩ := by
  have evaluated : (ofTree mentioningInside .prelude).toOption.map (fun loaded =>
      (loaded.unit.tree.preorder.filterMap Node.expr?).map Expr.type) =
        some [none, some "p.A<p.B>[]"] := by
    decide +kernel
  have old : ∀ i ∈ [11, 12], i < Model.prelude.typeCount := by decide +kernel
  obtain ⟨loaded, made, found⟩ := exists_ok_of_toOption_map evaluated
  obtain ⟨-, preserved⟩ := intern_conservative Model.prelude
  obtain ⟨-, same, typed⟩ := preserved _ loaded made
  obtain ⟨e, listed, mentioned⟩ : ∃ e ∈ loaded.unit.tree.preorder.filterMap Node.expr?,
      e.type = some "p.A<p.B>[]" := List.mem_map.mp (by rw [found]; decide)
  obtain ⟨node, walked, isExpr⟩ := List.mem_filterMap.mp listed
  obtain rfl : node = .expr e := by
    cases node <;> cases isExpr
    rfl
  have below : (Node.unit loaded.unit).Contains (.expr e) := Node.contains_iff.mpr walked
  refine ⟨loaded, e, made, below, mentioned, ?_, ?_⟩
  · exact (typed e below).1.mpr (by rw [mentioned]; rfl)
  · exact (same .prelude).isSubtype (old 12 (by decide)) (old 11 (by decide))

end LoadedUnit

end BugPatterns
