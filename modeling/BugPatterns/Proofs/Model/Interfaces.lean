import BugPatterns.Proofs.Model.Loaded
import BugPatterns.Proofs.Model.Shape

/-!
# Implemented interfaces

A type implements an interface of some name when a path of interfaces, one edge at least, leads from
its erasure to that name. The search follows the interfaces only, enters no type twice, and looks at
the name before it asks whether it has been there, so it finds the name of the type it starts from
when the interfaces run in a circle (`Model.implementsInterface_reachability`).

Interfaces are supertypes. In a loaded model erasing twice is erasing once and names belong to one
type each, so a type that implements a declared type by name is a subtype of it
(`Model.isSubtype_of_implements`).
-/

namespace BugPatterns.Model

/-- A model is that of a description, to which names may have been added. -/
def IsLoaded (model : Model) : Prop :=
  ∃ document base names, load document = .ok base ∧ model = base.internAll names

theorem growsTo_internAll (names : List String) :
    ∀ model : Model, GrowsTo model (model.internAll names) :=
  growsTo_foldl (fun model name => .single (.intern model name)) names

section Paths

variable {model : Model} {id : TypeId} {name : String}

/-- Only types that have interfaces are entered, so with as many levels as there are types a search
    is never cut short. -/
theorem leadsOnTo_of_le {levels : Nat} (enough : model.typeCount ≤ levels) :
    Reach.leadsOnTo model.parentInterfaces (model.isNamed · name) levels (model.erasure id) =
      model.implementsInterface id name := by
  have bounded : ∀ id, model.parentInterfaces id ≠ [] → id ∈ model.typeIds := by
    intro id above
    by_contra absent
    exact above (by rw [parentInterfaces, type_eq_bare_of_not_mem absent]; rfl)
  rw [implementsInterface, Bool.eq_iff_iff,
    Reach.leadsOnTo_iff bounded (card_typeIds_le.trans enough),
    Reach.leadsOnTo_iff bounded card_typeIds_le]

/-- Superclasses play no part. -/
theorem implementsInterface_setSuperclass (other : TypeId) (superclass : Option TypeId) :
    (model.setSuperclass other superclass).implementsInterface id name =
      model.implementsInterface id name := by
  have part {α : Type} (part : TypeInfo → α)
      (kept : ∀ info superclass, part { info with superclass := superclass } = part info) :
      ∀ id, part ((model.setSuperclass other superclass).type id) = part (model.type id) :=
    model.apply_type_modifyType part (fun info => kept info superclass) other
  have erasure : (model.setSuperclass other superclass).erasure = model.erasure := by
    funext id
    rw [Model.erasure, part TypeInfo.erasure fun _ _ => rfl, Model.erasure]
  have above : (model.setSuperclass other superclass).parentInterfaces =
      model.parentInterfaces := by
    funext id
    rw [parentInterfaces, part TypeInfo.interfaces fun _ _ => rfl, erasure, parentInterfaces]
  have named : (model.setSuperclass other superclass).isNamed = model.isNamed := by
    funext id name
    rw [isNamed, part TypeInfo.name fun _ _ => rfl, isNamed]
  have count : (model.setSuperclass other superclass).typeCount = model.typeCount :=
    typeCount_modifyType model other _
  rw [implementsInterface, implementsInterface, above, named, count, erasure]

theorem DirectlyImplements.directlyBelow {a b : TypeId} (edge : model.DirectlyImplements a b) :
    model.DirectlyBelow a b := by
  obtain ⟨parent, listed, erased⟩ := edge
  exact ⟨parent, .inr listed, erased⟩

/-- A path of interfaces ends in an erased type of the model. -/
theorem erased_of_implements (shaped : model.Shaped) (sound : model.Sound) {a b : TypeId}
    (path : Relation.TransGen model.DirectlyImplements a b) :
    model.erasure b = b ∧ b.index < model.typeCount := by
  obtain ⟨last, -, parent, listed, rfl⟩ := Relation.TransGen.tail'_iff.mp path
  refine ⟨shaped.erasure_erasure parent, ?_⟩
  exact (sound.erasure_le parent).trans_lt ((sound.types last).interfaces parent listed)

end Paths

theorem isUnknown_of_isClassLike {model : Model} {id : TypeId}
    (classLike : model.isClassLike id = true) : model.isUnknown (model.erasure id) = false := by
  rw [isUnknown, decide_eq_false_iff_not]
  intro unknown
  rw [isClassLike, unknown] at classLike
  cases classLike

theorem lt_of_isClassLike {model : Model} {id : TypeId} (classLike : model.isClassLike id = true) :
    id.index < model.typeCount := by
  by_contra beyond
  have nothing := type_of_le model (Nat.not_lt.mp beyond)
  have itself : model.erasure id = id := by
    rw [erasure, nothing]
    rfl
  rw [isClassLike, itself, tag, nothing] at classLike
  cases classLike

/-- In a loaded model a class-like type is a subtype of each class-like type that it implements by
    name. -/
theorem isSubtype_of_implements {model : Model} (loaded : model.IsLoaded) {id interface : TypeId}
    (classLike : model.isClassLike id = true) (also : model.isClassLike interface = true)
    (implemented : model.implementsInterface id (model.nameOf interface) = true ∨
      model.implementsInterface id (model.nameOf (model.erasure interface)) = true) :
    model.isSubtype id interface = true := by
  obtain ⟨document, base, names, made, rfl⟩ := loaded
  obtain ⟨sound, root⟩ := sound_internAll_of_load made names
  have shaped := (shaped_of_load made).growsTo (growsTo_internAll names base)
  generalize base.internAll names = model at *
  have known := isUnknown_of_isClassLike classLike
  have alsoKnown := isUnknown_of_isClassLike also
  have path : Relation.TransGen model.DirectlyImplements (model.erasure id)
      (model.erasure interface) := by
    rcases implemented with whole | erased
    · obtain ⟨b, path, named⟩ := implementsInterface_iff.mp whole
      obtain ⟨erased, present⟩ := erased_of_implements shaped sound path
      have same := sound.nameOf_inj present (lt_of_isClassLike also) (of_decide_eq_true named)
      rw [same] at path erased
      rwa [erased]
    · obtain ⟨b, path, named⟩ := implementsInterface_iff.mp erased
      obtain ⟨-, present⟩ := erased_of_implements shaped sound path
      have there := lt_typeCount_of_known alsoKnown
      rwa [sound.nameOf_inj present there (of_decide_eq_true named)] at path
  refine (sound.isSubtype_iff root id interface).mpr ⟨known, alsoKnown, ?_⟩
  have below : Relation.ReflTransGen model.DirectlyBelow _ _ :=
    Relation.ReflTransGen.mono (fun _ _ => DirectlyImplements.directlyBelow) _ _
      path.to_reflTransGen
  refine .hierarchy classLike ?_ ?_ ?_ below
  · intro kind primitive
    rw [isClassLike, primitive] at also
    cases also
  · intro void
    rw [isClassLike, void] at also
    cases also
  · intro null
    rw [isClassLike, null] at also
    cases also

/-- In every model, the search for an interface ends by itself and tells whether a path of one
    interface edge or more, each end of an edge erased, leads from the erasure of a type to the
    name; this may be that of the type itself when the path closes a circle. What superclasses are
    set makes no difference. In a loaded model a class-like type is a subtype of each class-like
    type that it implements by name. -/
theorem implementsInterface_reachability (model : Model) (id : TypeId) (name : String) :
    (∀ levels, model.typeCount ≤ levels →
        Reach.leadsOnTo model.parentInterfaces (model.isNamed · name) levels (model.erasure id) =
          model.implementsInterface id name) ∧
      (model.implementsInterface id name = true ↔
        ∃ b, Relation.TransGen model.DirectlyImplements (model.erasure id) b ∧
          model.isNamed b name = true) ∧
      (Relation.TransGen model.DirectlyImplements (model.erasure id) (model.erasure id) →
        model.isNamed (model.erasure id) name = true →
          model.implementsInterface id name = true) ∧
      (∀ other superclass, (model.setSuperclass other superclass).implementsInterface id name =
        model.implementsInterface id name) ∧
      (model.IsLoaded → model.isClassLike id = true →
        ∀ interface, model.isClassLike interface = true →
          model.isNamed interface name = true ∨
              model.isNamed (model.erasure interface) name = true →
            model.implementsInterface id name = true → model.isSubtype id interface = true) := by
  refine ⟨fun _ => leadsOnTo_of_le, implementsInterface_iff, ?_, ?_, ?_⟩
  · intro circle named
    exact implementsInterface_iff.mpr ⟨_, circle, named⟩
  · exact implementsInterface_setSuperclass
  · intro loaded classLike interface also named implemented
    apply isSubtype_of_implements loaded classLike also
    refine named.imp (fun whole => ?_) fun erased => ?_
    · rwa [nameOf, of_decide_eq_true whole]
    · rwa [nameOf, of_decide_eq_true erased]

/-- Two interfaces that extend each other, and a class that implements one of them with an
    argument. -/
def interfaceCircle : ModelDocument :=
  ⟨[⟨"p.I", .interface, none, ["p.J"], none, []⟩, ⟨"p.J", .interface, none, ["p.I"], none, []⟩,
    ⟨"p.C", .ordinary, none, ["p.I<p.C>"], none, []⟩]⟩

/-- The class implements both and is a subtype of both, and the first interface implements
    itself. -/
theorem implementsInterface_reachability_circle : ∃ model, load interfaceCircle = .ok model ∧
    model.type? "p.I" = some ⟨17⟩ ∧ model.type? "p.J" = some ⟨18⟩ ∧
      model.type? "p.C" = some ⟨19⟩ ∧ model.isSubtype ⟨19⟩ ⟨18⟩ = true ∧
      (∃ b, Relation.TransGen model.DirectlyImplements (model.erasure ⟨17⟩) b ∧
        model.isNamed b "p.I" = true) ∧
      ¬ ∃ b, Relation.TransGen model.DirectlyImplements (model.erasure ⟨19⟩) b ∧
        model.isNamed b "p.C" = true := by
  have evaluated : (load interfaceCircle).toOption.map (fun model =>
      (["p.I", "p.J", "p.C"].map model.type?,
        [model.implementsInterface ⟨19⟩ "p.J", model.implementsInterface ⟨17⟩ "p.I",
          model.implementsInterface ⟨19⟩ "p.C", model.isClassLike ⟨19⟩, model.isClassLike ⟨18⟩,
          model.isNamed ⟨18⟩ "p.J"])) =
      some ([some ⟨17⟩, some ⟨18⟩, some ⟨19⟩], [true, true, false, true, true, true]) := by
    decide +kernel
  obtain ⟨model, made, found⟩ := exists_ok_of_toOption_map evaluated
  simp only [Prod.mk.injEq, List.map_cons, List.map_nil, List.cons.injEq, and_true] at found
  obtain ⟨⟨first, second, third⟩, both, itself, other, classLike, also, named⟩ := found
  refine ⟨model, made, first, second, third, ?_, ?_, ?_⟩
  · exact (implementsInterface_reachability model ⟨19⟩ "p.J").2.2.2.2
      ⟨_, model, [], made, rfl⟩ classLike ⟨18⟩ also (.inl named) both
  · exact (implementsInterface_reachability model ⟨17⟩ "p.I").2.1.mp itself
  · rw [← (implementsInterface_reachability model ⟨19⟩ "p.C").2.1, other]
    exact Bool.false_ne_true

end BugPatterns.Model
