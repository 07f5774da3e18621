import BugPatterns.Proofs.Model.Transitivity

/-!
# Documents whose subtyping is transitive

A document is plain when none of its types has an array type above it and the root class has nothing
above it (`ModelDocument.PlainSupertypes`). This stays true in the model that is loaded, for all
types and whatever names are added (`Outline.Plain`), so there are no gaps in its hierarchy, and
subtyping is transitive (`Model.isSubtype_trans_of_plainSupertypes`).
-/

namespace BugPatterns

open BugPatterns.TypeName (parse)

/-- No supertype is an array type, and the root class has no supertypes. -/
structure TypeEntry.PlainSupertypes (entry : TypeEntry) : Prop where
  superclass : ∀ parent ∈ Model.superclassName? entry, (parse parent).isArray = false
  interfaces : ∀ parent ∈ entry.interfaces, (parse parent).isArray = false
  root : entry.name = objectName → Model.superclassName? entry = none ∧ entry.interfaces = []

/-- The types of a document have plain supertypes. -/
def ModelDocument.PlainSupertypes (document : ModelDocument) : Prop :=
  ∀ entry ∈ document.types, entry.PlainSupertypes

/-- A type is an array type by its name if it is one, its supertypes are no array types, and it has
    none if it is the root class. -/
structure TypeFacts.Plain (facts : TypeFacts) (name : String) : Prop where
  array : facts.tag = .array → (parse name).isArray = true
  erasure : ∀ raw ∈ facts.erasure, (parse raw).isArray = true → (parse name).isArray = true
  superclass : ∀ parent ∈ facts.superclass, (parse parent).isArray = false
  interfaces : ∀ parent ∈ facts.interfaces, (parse parent).isArray = false
  root : name = objectName → facts.superclass = none ∧ facts.interfaces = []

theorem TypeFacts.plain_bare {tag : TypeTag} {name : String}
    (array : tag = .array → (parse name).isArray = true) : (bare tag).Plain name where
  array := array
  erasure := by rintro _ ⟨⟩
  superclass := by rintro _ ⟨⟩
  interfaces := by rintro _ ⟨⟩
  root _ := ⟨rfl, rfl⟩

namespace Outline

/-- What is known of each type is plain. -/
def Plain (outline : Outline) : Prop :=
  ∀ name, ∀ facts ∈ outline.types name, facts.Plain name

theorem plain_fresh {outline : Outline} {name : String}
    (base : ∀ base, TypeName.base? name = some base → outline.tagOf (parse base) = .array →
      (parse base).isArray = true) : (outline.fresh (parse name)).Plain name := by
  cases parsed : parse name with
  | plain text => exact TypeFacts.plain_bare (by rintro ⟨⟩)
  | array text element =>
      have array : (parse name).isArray = true := by rw [parsed]; rfl
      exact { TypeFacts.plain_bare (fun _ => array) with erasure := by rintro _ ⟨⟩ }
  | parameterized text raw =>
      have same : (parse name).isArray = raw.isArray := by rw [parsed]; rfl
      have rawParsed : parse raw.text = raw := (TypeName.of_parse_parameterized parsed).2.1
      have built : TypeName.base? name = some raw.text := by rw [TypeName.base?, parsed]
      have array : outline.tagOf raw = .array → (parse name).isArray = true := by
        have array := base raw.text built
        rw [rawParsed] at array
        rwa [same]
      refine { TypeFacts.plain_bare array with erasure := ?_ }
      rintro _ ⟨rfl⟩ rawArray
      rwa [rawParsed, ← same] at rawArray

namespace Plain

variable {outline : Outline} (plain : outline.Plain)

include plain

/-- Only the names of array types have the tag of these. -/
theorem isArray_of_tagOf (name : String) :
    outline.tagOf (parse name) = .array → (parse name).isArray = true := by
  induction name using TypeName.base_induction with
  | step name ih =>
      intro array
      rw [tagOf_parse] at array
      cases there : outline.types name with
      | some facts =>
          rw [there] at array
          exact (plain name facts there).array array
      | none =>
          rw [there] at array
          exact (plain_fresh ih).array array

theorem withNames (names : List String) : (outline.withNames names).Plain := by
  intro name facts there
  cases known : outline.types name with
  | some before =>
      rw [types_withNames_of_some known] at there
      cases there
      exact plain name _ known
  | none =>
      rw [types_withNames_of_none known] at there
      split at there
      · cases there
        exact plain_fresh fun base _ => plain.isArray_of_tagOf base
      · cases there

theorem define (name : String) (kind : ClassKind) :
    (outline.define name (.declared kind)).Plain := by
  intro other facts there
  rw [types_define] at there
  by_cases same : other = name
  · rw [if_pos same] at there
    cases there
    subst same
    have before : ((outline.types other).getD (.bare (.declared kind))).Plain other := by
      cases known : outline.types other with
      | none => exact TypeFacts.plain_bare (by rintro ⟨⟩)
      | some facts => exact plain other facts known
    exact { before with array := by rintro ⟨⟩ }
  · rw [if_neg same] at there
    exact plain other facts there

theorem link {declared : List String} {entry : TypeEntry} {next : Outline}
    (entryPlain : entry.PlainSupertypes) (linked : outline.link declared entry = some next) :
    next.Plain := by
  unfold Outline.link at linked
  by_cases owner : OwnerDeclared declared entry
  · rw [if_pos owner] at linked
    cases linked
    intro name facts there
    rw [types_linkOwner, linkSupertypes, types_modifyType] at there
    have grown := plain.withNames (linkedNames entry)
    by_cases same : name = entry.name
    · rw [if_pos same] at there
      obtain ⟨before, known, rfl⟩ := Option.map_eq_some_iff.mp there
      have beforePlain := grown name before known
      refine { beforePlain with superclass := ?_, interfaces := ?_, root := ?_ }
      · exact entryPlain.superclass
      · intro parent listed
        rcases (mem_foldl_appendNew _).mp listed with old | new
        · exact beforePlain.interfaces parent old
        · exact entryPlain.interfaces parent new
      · intro named
        obtain ⟨superclass, interfaces⟩ := entryPlain.root (same ▸ named)
        refine ⟨superclass, ?_⟩
        rw [interfaces]
        exact (beforePlain.root named).2
    · rw [if_neg same] at there
      exact grown name facts there
  · rw [if_neg owner] at linked
    cases linked

theorem declare {declaration : String × SymbolFacts} {next : Outline}
    (declared : outline.declare declaration = some next) : next.Plain := by
  unfold Outline.declare at declared
  by_cases taken : (outline.symbols declaration.1).isSome
  · rw [if_pos taken] at declared
    cases declared
  · rw [if_neg taken] at declared
    cases declared
    have entered : (outline.enter declaration.1 declaration.2).Plain := plain
    exact entered.withNames _

end Plain

theorem Plain.defineTypes (entries : List TypeEntry) :
    ∀ {outline : Outline}, outline.Plain → (outline.defineTypes entries).Plain := by
  induction entries with
  | nil => exact fun plain => plain
  | cons entry entries ih => exact fun plain => ih (plain.define entry.name entry.kind)

theorem plain_prelude : Model.prelude.outline.Plain := by
  have listed : ∀ i < Model.prelude.typeCount,
      let info := Model.prelude.type ⟨i⟩
      info.tag ≠ .array ∧ info.erasure = none ∧
        (∀ parent ∈ info.superclass, (parse (Model.prelude.nameOf parent)).isArray = false) ∧
          (∀ parent ∈ info.interfaces, (parse (Model.prelude.nameOf parent)).isArray = false) ∧
            (info.name = objectName → info.superclass = none ∧ info.interfaces = []) := by
    decide +kernel
  intro name facts there
  obtain ⟨id, found, rfl⟩ := Option.map_eq_some_iff.mp there
  obtain ⟨bound, rfl⟩ := Model.sound_prelude.type?_iff.mp found
  obtain ⟨noArray, noErasure, superclass, interfaces, root⟩ := listed id.index bound
  constructor
  · exact fun array => absurd array noArray
  · intro raw erased
    obtain ⟨raw, erased, -⟩ := Option.map_eq_some_iff.mp erased
    rw [noErasure] at erased
    cases erased
  · intro name above
    obtain ⟨parent, found, rfl⟩ := Option.map_eq_some_iff.mp above
    exact superclass parent found
  · intro name above
    obtain ⟨parent, listed, rfl⟩ := List.mem_map.mp above
    exact interfaces parent listed
  · intro named
    obtain ⟨noSuperclass, noInterfaces⟩ := root named
    exact ⟨congrArg (Option.map _) noSuperclass, congrArg (List.map _) noInterfaces⟩

theorem plain_of_load {document : ModelDocument} {outline : Outline}
    (documentPlain : document.PlainSupertypes) (loaded : load document = some outline) :
    outline.Plain := by
  unfold load at loaded
  by_cases named : WellNamed document.types
  · rw [if_pos named] at loaded
    obtain ⟨linked, linking, declaring⟩ := Option.bind_eq_some_iff.mp loaded
    have defined := Plain.defineTypes document.types plain_prelude
    have last := foldlM_keeps _ (fun entry listed _ _ plain =>
      Plain.link plain (documentPlain entry listed)) defined linking
    exact foldlM_keeps _ (fun _ _ _ _ plain => Plain.declare plain) last declaring
  · rw [if_neg named] at loaded
    cases loaded

end Outline

namespace Model

namespace Sound

variable {model : Model} (sound : model.Sound) (plain : model.outline.Plain)

include sound plain

theorem plain_facts (id : TypeId) :
    ((model.type id).facts model.nameOf model.keyOf).Plain (model.nameOf id) := by
  by_cases there : id.index < model.typeCount
  · exact plain _ _ (outline_types (sound.type?_nameOf there))
  · rw [type_of_le model (Nat.not_lt.mp there)]
    exact TypeFacts.plain_bare (by rintro ⟨⟩)

/-- Right above a type there is no array type. -/
theorem tag_ne_array_of_directlyBelow {a b : TypeId} (step : model.DirectlyBelow a b) :
    model.tag b ≠ .array := by
  obtain ⟨parent, above, rfl⟩ := step
  have facts := sound.plain_facts plain a
  have noArray : (parse (model.nameOf parent)).isArray ≠ true := by
    rw [ne_eq, Bool.not_eq_true]
    rcases above with found | listed
    · exact facts.superclass _ (congrArg (Option.map model.nameOf) found)
    · exact facts.interfaces _ (List.mem_map_of_mem listed)
  have parentFacts := sound.plain_facts plain parent
  intro array
  apply noArray
  unfold Model.erasure at array
  cases raw : (model.type parent).erasure with
  | none =>
      rw [raw] at array
      exact parentFacts.array array
  | some other =>
      rw [raw] at array
      apply parentFacts.erasure _ (congrArg (Option.map model.nameOf) raw)
      exact (sound.plain_facts plain other).array array

/-- Right above the root class there is nothing. -/
theorem not_directlyBelow_of_root {a b : TypeId} (named : model.isNamed a objectName = true) :
    ¬ model.DirectlyBelow a b := by
  rintro ⟨parent, above, -⟩
  obtain ⟨noSuperclass, noInterfaces⟩ :=
    (sound.plain_facts plain a).root (of_decide_eq_true named)
  rcases above with found | listed
  · rw [Option.map_eq_none_iff.mp noSuperclass] at found
    cases found
  · rw [List.map_eq_nil_iff.mp noInterfaces] at listed
    cases listed

/-- Steps of a plain hierarchy leave no gaps. -/
theorem not_gap (root : model.RootDeclared) {a b c : TypeId} (gap : model.Gap a b c) :
    model.Step a b → ¬ model.Step b c := by
  have top : ∀ {b c}, model.isNamed b objectName = true → b ≠ c → ¬ model.Step b c := by
    intro b c named other step
    obtain ⟨-, -, -, path⟩ := sound.hierarchy_of_root root named other step
    rcases path.cases_head with same | ⟨next, edge, -⟩
    · exact other same
    · exact sound.not_directlyBelow_of_root plain named edge
  induction gap with
  | @beyondArray a b c classLike array otherArray noPath =>
      intro first
      have path := first.path_of_declared classLike (root.not_isNamed_of_array array)
      rcases path.cases_tail with same | ⟨before, -, edge⟩
      · rw [← same, array] at classLike
        cases classLike
      · exact absurd array (sound.tag_ne_array_of_directlyBelow plain edge)
  | beyondRoot classLike named other noPath => exact fun _ => top named other
  | arrayBeyondRoot array named other => exact fun _ => top named other
  | elements array otherArray elementOf middleOf targetOf first last inner ih =>
      obtain ⟨-, -, first⟩ := (sound.isSubtype_iff root _ _).mp first
      obtain ⟨-, -, last⟩ := (sound.isSubtype_iff root _ _).mp last
      exact absurd last (ih first)

end Sound

/-- Subtyping is transitive in the model of a document with plain supertypes, whatever names are
    added to it. -/
theorem isSubtype_trans_of_plainSupertypes {document : ModelDocument} {loaded : Model}
    (plain : document.PlainSupertypes) (made : load document = .ok loaded) (names : List String)
    {a b c : TypeId} (first : (loaded.internAll names).isSubtype a b = true)
    (last : (loaded.internAll names).isSubtype b c = true) :
    (loaded.internAll names).isSubtype a c = true := by
  obtain ⟨sound, root⟩ := sound_internAll_of_load made names
  obtain ⟨loadedSound, described⟩ := sound_of_load made
  have extended := (Outline.plain_of_load plain described).withNames names
  rw [← (loadedSound.internAll names).outline_eq] at extended
  refine (sound.isSubtype_or_gap root first last).resolve_right fun gap => ?_
  obtain ⟨-, -, firstStep⟩ := (sound.isSubtype_iff root a b).mp first
  obtain ⟨-, -, lastStep⟩ := (sound.isSubtype_iff root b c).mp last
  exact sound.not_gap extended root gap firstStep lastStep

end Model

end BugPatterns
