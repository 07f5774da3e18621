import BugPatterns.Proofs.Model.Loaded

/-!
# Unknown types of loaded models

A parameterized type takes the tag of its raw type when its name is added. While a model is loaded
all types are declared before any name is added, and no tag changes afterwards
(`Outline.tagsAgree_of_load`). So in a loaded model a type is unknown exactly when the type it is
erased to is (`LoadedUnit.tag_erasure`), and no type of the prelude ever is.
-/

namespace BugPatterns

open BugPatterns.TypeName (parse)

namespace Outline

/-- No type is a parameterized one. -/
def NoErasures (outline : Outline) : Prop :=
  ∀ name, ∀ facts ∈ outline.types name, facts.erasure = none

/-- Every parameterized type has the tag of its raw type. -/
def TagsAgree (outline : Outline) : Prop :=
  ∀ name, ∀ facts ∈ outline.types name, ∀ raw ∈ facts.erasure,
    facts.tag = outline.tagOf (parse raw)

variable {outline : Outline}

theorem NoErasures.tagsAgree (none : outline.NoErasures) : outline.TagsAgree := by
  intro name facts there raw erased
  rw [none name facts there] at erased
  cases erased

theorem NoErasures.defineTypes (entries : List TypeEntry) :
    ∀ {outline : Outline}, outline.NoErasures → (outline.defineTypes entries).NoErasures := by
  induction entries with
  | nil => exact fun none => none
  | cons entry entries ih =>
      intro outline none
      refine ih fun name facts there => ?_
      rw [types_define] at there
      by_cases same : name = entry.name
      · rw [if_pos same] at there
        cases there
        cases known : outline.types entry.name with
        | none => rfl
        | some before => exact none _ before known
      · rw [if_neg same] at there
        exact none name facts there

theorem noErasures_prelude : Model.prelude.outline.NoErasures := by
  have listed : ∀ i < Model.prelude.typeCount, (Model.prelude.type ⟨i⟩).erasure = none := by
    decide +kernel
  intro name facts there
  obtain ⟨id, found, rfl⟩ := Option.map_eq_some_iff.mp there
  have bound := Model.sound_prelude.lt_of_type? found
  exact congrArg (Option.map _) (listed id.index bound)

/-- A parameterized type that is added takes the tag of its raw type. -/
theorem tag_fresh {name raw : String} (erased : raw ∈ (outline.fresh (parse name)).erasure) :
    (outline.fresh (parse name)).tag = outline.tagOf (parse raw) := by
  cases parsed : parse name with
  | plain text => rw [parsed] at erased; cases erased
  | array text element => rw [parsed] at erased; cases erased
  | parameterized text inner =>
      rw [parsed] at erased
      obtain rfl := Option.some.inj erased
      rw [(TypeName.of_parse_parameterized parsed).2.1]
      rfl

namespace TagsAgree

variable (agree : outline.TagsAgree)

include agree

theorem of_types {other : Outline} (types : other.types = outline.types) : other.TagsAgree := by
  intro name facts there raw erased
  rw [types] at there
  have tags : other.tagOf (parse raw) = outline.tagOf (parse raw) :=
    tagOf_congr (fun _ => by rw [types]) raw
  rw [tags]
  exact agree name facts there raw erased

theorem withNames (names : List String) : (outline.withNames names).TagsAgree := by
  intro name facts there raw erased
  rw [tagOf_withNames]
  cases known : outline.types name with
  | some before =>
      rw [types_withNames_of_some known] at there
      cases there
      exact agree name _ known raw erased
  | none =>
      rw [types_withNames_of_none known] at there
      split at there
      · cases there
        exact tag_fresh erased
      · cases there

/-- Supertypes have no part in tags and raw types. -/
theorem modifyType {name : String} {change : TypeFacts → TypeFacts}
    (tags : ∀ facts, (change facts).tag = facts.tag)
    (erasures : ∀ facts, (change facts).erasure = facts.erasure) :
    (outline.modifyType name change).TagsAgree := by
  have same : ∀ other, ((outline.modifyType name change).types other).map TypeFacts.tag =
      (outline.types other).map TypeFacts.tag := by
    intro other
    rw [types_modifyType]
    split
    · rw [Option.map_map]
      exact Option.map_congr fun facts _ => tags facts
    · rfl
  intro other facts there raw erased
  rw [tagOf_congr same]
  rw [types_modifyType] at there
  split at there
  · obtain ⟨before, known, rfl⟩ := Option.map_eq_some_iff.mp there
    rw [tags]
    rw [erasures] at erased
    exact agree other before known raw erased
  · exact agree other facts there raw erased

theorem link {declared : List String} {entry : TypeEntry} {next : Outline}
    (linked : outline.link declared entry = some next) : next.TagsAgree := by
  unfold Outline.link at linked
  by_cases owner : OwnerDeclared declared entry
  · rw [if_pos owner] at linked
    cases linked
    have supertypes : (outline.linkSupertypes entry).TagsAgree :=
      (agree.withNames (linkedNames entry)).modifyType (fun _ => rfl) (fun _ => rfl)
    exact supertypes.of_types (types_linkOwner (outline.linkSupertypes entry) entry)
  · rw [if_neg owner] at linked
    cases linked

theorem declare {declaration : String × SymbolFacts} {next : Outline}
    (declared : outline.declare declaration = some next) : next.TagsAgree := by
  unfold Outline.declare at declared
  by_cases taken : (outline.symbols declaration.1).isSome
  · rw [if_pos taken] at declared
    cases declared
  · rw [if_neg taken] at declared
    cases declared
    have entered : (outline.enter declaration.1 declaration.2).TagsAgree := agree.of_types rfl
    exact entered.withNames _

end TagsAgree

/-- What is known once a document is loaded. -/
theorem tagsAgree_of_load {document : ModelDocument} (loaded : load document = some outline) :
    outline.TagsAgree := by
  unfold load at loaded
  by_cases named : WellNamed document.types
  · rw [if_pos named] at loaded
    obtain ⟨linked, linking, declaring⟩ := Option.bind_eq_some_iff.mp loaded
    have defined := (noErasures_prelude.defineTypes document.types).tagsAgree
    have last := foldlM_keeps _ (fun _ _ _ _ agree => TagsAgree.link agree) defined linking
    exact foldlM_keeps _ (fun _ _ _ _ agree => TagsAgree.declare agree) last declaring
  · rw [if_neg named] at loaded
    cases loaded

end Outline

namespace Model

/-- In a sound model whose tags agree a type has the tag of the type it is erased to. -/
theorem Sound.tag_erasure {model : Model} (sound : model.Sound) (agree : model.outline.TagsAgree)
    (id : TypeId) : model.tag (model.erasure id) = model.tag id := by
  unfold erasure
  cases erased : (model.type id).erasure with
  | none => rfl
  | some raw =>
      have there : id.index < model.typeCount := by
        by_contra beyond
        rw [type_of_le model (Nat.not_lt.mp beyond)] at erased
        cases erased
      have older : raw.index < model.typeCount :=
        ((sound.types id).erasure raw erased).trans there
      have tags := agree _ _ (outline_types (sound.type?_nameOf there)) (model.nameOf raw)
        (congrArg (Option.map model.nameOf) erased)
      rw [Outline.tagOf_parse, outline_types (sound.type?_nameOf older)] at tags
      exact tags.symm

end Model

namespace LoadedUnit

variable {document : UnitDocument} {loaded : LoadedUnit} (made : ofDocument document = .ok loaded)

include made

/-- A type of a loaded unit is unknown exactly when the type it is erased to is. -/
theorem isUnknown_erasure (id : TypeId) :
    loaded.model.isUnknown (loaded.model.erasure id) = loaded.model.isUnknown id := by
  obtain ⟨model, modelled, same⟩ := model_ofDocument made
  obtain ⟨sound, described⟩ := Model.sound_of_load modelled
  have extended := sound.internAll (loaded.unit.tree.preorder.filterMap mentionedType)
  have agree := (Outline.tagsAgree_of_load described).withNames
    (loaded.unit.tree.preorder.filterMap mentionedType)
  rw [← extended.outline_eq, ← same] at agree
  have tags := (same ▸ extended.sound).tag_erasure agree id
  rw [Model.isUnknown, tags, Model.isUnknown]

/-- A type with the name of one that the prelude knows is not unknown. -/
theorem isUnknown_of_prelude {name : String} {known : TypeId}
    (found : Model.prelude.type? name = some known)
    (isKnown : Model.prelude.isUnknown known = false) {id : TypeId}
    (named : loaded.model.isNamed id name = true) : loaded.model.isUnknown id = false := by
  obtain ⟨model, modelled, same⟩ := model_ofDocument made
  obtain ⟨sound, described⟩ := Model.sound_of_load modelled
  have extended := sound.internAll (loaded.unit.tree.preorder.filterMap mentionedType)
  have prelude : Model.prelude.outline.HasTag (· ≠ .unknown) name :=
    ⟨_, Model.outline_types found, of_decide_eq_false isKnown⟩
  have tagged := (Outline.hasTag_of_load (fun _ => by rintro ⟨⟩) prelude described).withNames
    (loaded.unit.tree.preorder.filterMap mentionedType)
  rw [← extended.outline_eq, ← same] at tagged
  have nonempty : name ≠ "" := by
    rintro rfl
    have absent : Model.prelude.type? "" = none := by decide +kernel
    rw [absent] at found
    cases found
  exact decide_eq_false ((same ▸ extended.sound).tag_of_hasTag tagged nonempty named)

end LoadedUnit

end BugPatterns
