import BugPatterns.Model.Basic
import BugPatterns.Proofs.Model.Names
import Mathlib.Data.Finset.Image

/-!
# What a model says by name

Models that were built in different orders number their types and symbols differently. An outline
forgets the numbers: it gives what is known of a type by its name and of a symbol by its key, other
types and symbols being named as well (`Model.outline`).

Outlines have operations of their own. Names can be added to one, all at once: with a name come the
names it is built from that are not there yet. What is added for a name depends on what was there
before only, so it does not matter in which portions or in which order names are added
(`Outline.withNames_withNames`, `Outline.withNames_comm`).
-/

namespace BugPatterns

/-- What is known of a type, apart from its name. -/
structure TypeFacts where
  tag : TypeTag
  superclass : Option String
  interfaces : List String
  symbol : Option String
  erasure : Option String
  element : Option String
  deriving DecidableEq, Repr

/-- A type of which only the tag is known. -/
def TypeFacts.bare (tag : TypeTag) : TypeFacts := ⟨tag, none, [], none, none, none⟩

/-- What is known of a symbol, apart from its key. -/
structure SymbolFacts where
  name : String
  kind : SymbolKind
  owner : Option String
  type : Option String
  isStatic : Bool
  isFinal : Bool
  members : Finset String
  params : List String
  constant : Option String
  deriving DecidableEq

/-- What is known of types by name and of symbols by key. -/
@[ext]
structure Outline where
  types : String → Option TypeFacts
  symbols : String → Option SymbolFacts

/-! ## The outline of a model -/

namespace TypeInfo

/-- What is known of a type when the others go by these names. -/
def facts (info : TypeInfo) (nameOf : TypeId → String) (keyOf : SymbolId → String) :
    TypeFacts where
  tag := info.tag
  superclass := info.superclass.map nameOf
  interfaces := info.interfaces.map nameOf
  symbol := info.symbol.map keyOf
  erasure := info.erasure.map nameOf
  element := info.element.map nameOf

end TypeInfo

namespace SymbolInfo

/-- What is known of a symbol when the others go by these keys. -/
def facts (info : SymbolInfo) (nameOf : TypeId → String) (keyOf : SymbolId → String) :
    SymbolFacts where
  name := info.name
  kind := info.kind
  owner := info.owner.map keyOf
  type := info.type.map nameOf
  isStatic := info.isStatic
  isFinal := info.isFinal
  members := (info.members.map keyOf).toFinset
  params := info.params.map keyOf
  constant := info.constant

end SymbolInfo

namespace Model

/-- The name of a type. -/
def nameOf (model : Model) (id : TypeId) : String := (model.type id).name

/-- The key of a symbol. -/
def keyOf (model : Model) (id : SymbolId) : String := (model.symbol id).key

/-- What a model says by name. -/
def outline (model : Model) : Outline where
  types name := (model.type? name).map fun id => (model.type id).facts model.nameOf model.keyOf
  symbols key := (model.symbol? key).map fun id =>
    (model.symbol id).facts model.nameOf model.keyOf

theorem types_outline (model : Model) (name : String) :
    model.outline.types name =
      (model.type? name).map fun id => (model.type id).facts model.nameOf model.keyOf := rfl

theorem symbols_outline (model : Model) (key : String) :
    model.outline.symbols key =
      (model.symbol? key).map fun id => (model.symbol id).facts model.nameOf model.keyOf := rfl

end Model

/-! ## Adding names -/

namespace Outline

open BugPatterns.TypeName (parse)

/-- The names to be added for a name: itself, and the missing ones among those it is built from. -/
def missing (outline : Outline) : TypeName → List String
  | .plain text => if (outline.types text).isSome then [] else [text]
  | .array text element =>
      if (outline.types text).isSome then [] else text :: outline.missing element
  | .parameterized text raw =>
      if (outline.types text).isSome then [] else text :: outline.missing raw

/-- The tag that a type has or will have when its name is added. -/
def tagOf (outline : Outline) : TypeName → TypeTag
  | .plain text => ((outline.types text).map TypeFacts.tag).getD .unknown
  | .array text _ => ((outline.types text).map TypeFacts.tag).getD .array
  | .parameterized text raw => ((outline.types text).map TypeFacts.tag).getD (outline.tagOf raw)

/-- What is known of a type when its name is added. -/
def fresh (outline : Outline) : TypeName → TypeFacts
  | .plain _ => .bare .unknown
  | .array _ element => { TypeFacts.bare .array with element := some element.text }
  | .parameterized _ raw => { TypeFacts.bare (outline.tagOf raw) with erasure := some raw.text }

/-- The names to be added for some names. -/
def missingFor (outline : Outline) (names : List String) : List String :=
  names.flatMap fun name => outline.missing (parse name)

/-- Adds names, with what they are built from. -/
def withNames (outline : Outline) (names : List String) : Outline where
  types name :=
    match outline.types name with
    | some facts => some facts
    | none => if name ∈ outline.missingFor names then some (outline.fresh (parse name)) else none
  symbols := outline.symbols

variable {outline : Outline}

/-- A name is missing for another one if that one is absent, and it is that one or missing for the
    name that that one is built from. -/
theorem mem_missing {part name : String} :
    part ∈ outline.missing (parse name) ↔
      outline.types name = none ∧
        (part = name ∨
          ∃ base, TypeName.base? name = some base ∧ part ∈ outline.missing (parse base)) := by
  unfold TypeName.base?
  cases parsed : parse name with
  | plain text =>
      obtain rfl := TypeName.of_parse_plain parsed
      cases there : outline.types text <;> simp [missing, there]
  | array text element =>
      obtain ⟨rfl, same, -⟩ := TypeName.of_parse_array parsed
      cases there : outline.types text <;> simp [missing, there, same]
  | parameterized text raw =>
      obtain ⟨rfl, same, -⟩ := TypeName.of_parse_parameterized parsed
      cases there : outline.types text <;> simp [missing, there, same]

theorem missing_of_isSome {name : String} (there : (outline.types name).isSome) :
    outline.missing (parse name) = [] := by
  apply List.eq_nil_iff_forall_not_mem.mpr
  intro part member
  rw [(mem_missing.mp member).1] at there
  cases there

/-- What is missing for a missing part is missing for the whole. -/
theorem missing_subset {part : String} (name : String) :
    part ∈ outline.missing (parse name) →
      outline.missing (parse part) ⊆ outline.missing (parse name) := by
  induction name using TypeName.base_induction with
  | step name ih =>
      intro member
      obtain ⟨absent, rfl | ⟨base, built, member⟩⟩ := mem_missing.mp member
      · exact List.Subset.refl _
      · intro other inner
        exact mem_missing.mpr ⟨absent, .inr ⟨base, built, ih base built member inner⟩⟩

/-- No name is missing for a shorter one. -/
theorem length_le_of_mem_missing {part : String} (name : String) :
    part ∈ outline.missing (parse name) → part.length ≤ name.length := by
  induction name using TypeName.base_induction with
  | step name ih =>
      intro member
      obtain ⟨-, rfl | ⟨base, built, member⟩⟩ := mem_missing.mp member
      · exact le_rfl
      · exact (ih base built member).trans (TypeName.length_lt_of_base? built).le

theorem mem_missingFor {names : List String} {part : String} :
    part ∈ outline.missingFor names ↔ ∃ name ∈ names, part ∈ outline.missing (parse name) :=
  List.mem_flatMap

/-- The tag of a type is the one it has, or else the one it gets when its name is added. -/
theorem tagOf_parse (name : String) :
    outline.tagOf (parse name) =
      ((outline.types name).map TypeFacts.tag).getD (outline.fresh (parse name)).tag := by
  cases parsed : parse name with
  | plain text =>
      obtain rfl := TypeName.of_parse_plain parsed
      rfl
  | array text element =>
      obtain ⟨rfl, -⟩ := TypeName.of_parse_array parsed
      rfl
  | parameterized text raw =>
      obtain ⟨rfl, -⟩ := TypeName.of_parse_parameterized parsed
      rfl

/-- What is added for a name depends on the tag of what the name is built from only. -/
theorem fresh_congr {other : Outline} {name : String}
    (same : ∀ base, TypeName.base? name = some base →
      other.tagOf (parse base) = outline.tagOf (parse base)) :
    other.fresh (parse name) = outline.fresh (parse name) := by
  unfold TypeName.base? at same
  cases parsed : parse name with
  | plain text => rfl
  | array text element => rfl
  | parameterized text raw =>
      rw [parsed] at same
      have tags := same raw.text rfl
      rw [(TypeName.of_parse_parameterized parsed).2.1] at tags
      rw [fresh, fresh, tags]

theorem types_withNames_of_some {names : List String} {name : String} {facts : TypeFacts}
    (there : outline.types name = some facts) :
    (outline.withNames names).types name = some facts := by
  simp only [withNames, there]

theorem types_withNames_of_none {names : List String} {name : String}
    (absent : outline.types name = none) :
    (outline.withNames names).types name =
      if name ∈ outline.missingFor names then some (outline.fresh (parse name)) else none := by
  simp only [withNames, absent]

theorem types_withNames_eq_none {names : List String} {name : String} :
    (outline.withNames names).types name = none ↔
      outline.types name = none ∧ name ∉ outline.missingFor names := by
  cases there : outline.types name with
  | some facts => simp [types_withNames_of_some there]
  | none => simp [types_withNames_of_none there]

/-- Adding names leaves the tags as they are or will be. -/
theorem tagOf_withNames (names : List String) (name : String) :
    (outline.withNames names).tagOf (parse name) = outline.tagOf (parse name) := by
  induction name using TypeName.base_induction with
  | step name ih =>
      have later : (outline.withNames names).fresh (parse name) = outline.fresh (parse name) :=
        fresh_congr ih
      rw [tagOf_parse, tagOf_parse, later]
      cases there : outline.types name with
      | some facts => rw [types_withNames_of_some there]
      | none =>
          rw [types_withNames_of_none there]
          split <;> rfl

theorem fresh_withNames (names : List String) (name : String) :
    (outline.withNames names).fresh (parse name) = outline.fresh (parse name) :=
  fresh_congr fun base _ => tagOf_withNames names base

/-! ### The order in which names are added -/

/-- What is missing after some names are added was missing before. -/
theorem missing_of_missing_withNames {names : List String} {part : String} (name : String) :
    part ∈ (outline.withNames names).missing (parse name) →
      part ∈ outline.missing (parse name) := by
  induction name using TypeName.base_induction with
  | step name ih =>
      intro member
      obtain ⟨absent, found⟩ := mem_missing.mp member
      refine mem_missing.mpr ⟨(types_withNames_eq_none.mp absent).1, ?_⟩
      exact found.imp_right fun ⟨base, built, member⟩ => ⟨base, built, ih base built member⟩

/-- What is missing is added with some names or still missing afterwards. -/
theorem missing_withNames_of_missing {names : List String} {part : String} (name : String) :
    part ∈ outline.missing (parse name) →
      part ∈ outline.missingFor names ∨
        part ∈ (outline.withNames names).missing (parse name) := by
  induction name using TypeName.base_induction with
  | step name ih =>
      intro member
      by_cases added : name ∈ outline.missingFor names
      · obtain ⟨source, listed, missed⟩ := mem_missingFor.mp added
        exact .inl (mem_missingFor.mpr ⟨source, listed, missing_subset source missed member⟩)
      · obtain ⟨absent, rfl | ⟨base, built, member⟩⟩ := mem_missing.mp member
        · exact .inr (mem_missing.mpr ⟨types_withNames_eq_none.mpr ⟨absent, added⟩, .inl rfl⟩)
        · refine (ih base built member).imp_right fun inner => ?_
          exact mem_missing.mpr
            ⟨types_withNames_eq_none.mpr ⟨absent, added⟩, .inr ⟨base, built, inner⟩⟩

theorem missingFor_append (first last : List String) (part : String) :
    part ∈ outline.missingFor (first ++ last) ↔
      part ∈ outline.missingFor first ∨
        part ∈ (outline.withNames first).missingFor last := by
  simp only [mem_missingFor, List.mem_append, or_and_right, exists_or]
  constructor
  · rintro (early | ⟨name, listed, member⟩)
    · exact .inl early
    · rw [← mem_missingFor]
      exact (missing_withNames_of_missing name member).imp_right
        fun member => ⟨name, listed, member⟩
  · exact Or.imp_right fun ⟨name, listed, member⟩ =>
      ⟨name, listed, missing_of_missing_withNames name member⟩

/-- Names may be added in portions. -/
theorem withNames_withNames (first last : List String) :
    (outline.withNames first).withNames last = outline.withNames (first ++ last) := by
  ext1
  · funext name
    have added : name ∈ outline.missingFor (first ++ last) ↔ _ := missingFor_append first last name
    cases there : outline.types name with
    | some facts =>
        rw [types_withNames_of_some (types_withNames_of_some there), types_withNames_of_some there]
    | none =>
        rw [types_withNames_of_none there]
        by_cases early : name ∈ outline.missingFor first
        · rw [if_pos (added.mpr (.inl early))]
          apply types_withNames_of_some
          rw [types_withNames_of_none there, if_pos early]
        · rw [types_withNames_of_none (types_withNames_eq_none.mpr ⟨there, early⟩),
            fresh_withNames]
          simp only [added, early, false_or]
  · rfl

/-- Adding names that are there changes nothing. -/
theorem withNames_of_isSome {names : List String}
    (there : ∀ name ∈ names, (outline.types name).isSome) : outline.withNames names = outline := by
  have nothing : outline.missingFor names = [] := by
    apply List.flatMap_eq_nil_iff.mpr
    intro name listed
    exact missing_of_isSome (there name listed)
  ext1
  · funext name
    cases known : outline.types name with
    | some facts => exact types_withNames_of_some known
    | none => rw [types_withNames_of_none known, nothing, if_neg List.not_mem_nil]
  · rfl

/-- It does not matter how names are listed. -/
theorem withNames_congr {names others : List String} (same : ∀ name, name ∈ names ↔ name ∈ others) :
    outline.withNames names = outline.withNames others := by
  have missing : ∀ part, part ∈ outline.missingFor names ↔ part ∈ outline.missingFor others := by
    intro part
    simp only [mem_missingFor, same]
  simp only [withNames, missing]

theorem withNames_comm (first last : List String) :
    (outline.withNames first).withNames last = (outline.withNames last).withNames first := by
  rw [withNames_withNames, withNames_withNames]
  apply withNames_congr
  intro name
  rw [List.mem_append, List.mem_append, or_comm]

/-! ## Other changes -/

/-- Adds a type, or replaces what is known of it. -/
def setType (outline : Outline) (name : String) (facts : TypeFacts) : Outline :=
  { outline with types := fun other => if other = name then some facts else outline.types other }

/-- Adds a symbol, or replaces what is known of it. -/
def setSymbol (outline : Outline) (key : String) (facts : SymbolFacts) : Outline :=
  { outline with symbols := fun other => if other = key then some facts else outline.symbols other }

/-- Changes what is known of a type. -/
def modifyType (outline : Outline) (name : String) (change : TypeFacts → TypeFacts) : Outline :=
  { outline with
    types := fun other =>
      if other = name then (outline.types other).map change else outline.types other }

/-- Changes what is known of a symbol. -/
def modifySymbol (outline : Outline) (key : String) (change : SymbolFacts → SymbolFacts) :
    Outline :=
  { outline with
    symbols := fun other =>
      if other = key then (outline.symbols other).map change else outline.symbols other }

section Changes

variable (outline) (name key other : String)

@[simp] theorem types_setType (facts : TypeFacts) :
    (outline.setType name facts).types other =
      if other = name then some facts else outline.types other := rfl

@[simp] theorem symbols_setType (facts : TypeFacts) :
    (outline.setType name facts).symbols = outline.symbols := rfl

@[simp] theorem types_setSymbol (facts : SymbolFacts) :
    (outline.setSymbol key facts).types = outline.types := rfl

@[simp] theorem symbols_setSymbol (facts : SymbolFacts) :
    (outline.setSymbol key facts).symbols other =
      if other = key then some facts else outline.symbols other := rfl

@[simp] theorem types_modifyType (change : TypeFacts → TypeFacts) :
    (outline.modifyType name change).types other =
      if other = name then (outline.types other).map change else outline.types other := rfl

@[simp] theorem symbols_modifyType (change : TypeFacts → TypeFacts) :
    (outline.modifyType name change).symbols = outline.symbols := rfl

@[simp] theorem types_modifySymbol (change : SymbolFacts → SymbolFacts) :
    (outline.modifySymbol key change).types = outline.types := rfl

@[simp] theorem symbols_modifySymbol (change : SymbolFacts → SymbolFacts) :
    (outline.modifySymbol key change).symbols other =
      if other = key then (outline.symbols other).map change else outline.symbols other := rfl

@[simp] theorem symbols_withNames (names : List String) :
    (outline.withNames names).symbols = outline.symbols := rfl

end Changes

/-- What is missing depends on what is there only. -/
theorem mem_missing_congr {other : Outline}
    (same : ∀ name, other.types name = none ↔ outline.types name = none) {part : String}
    (name : String) :
    part ∈ other.missing (parse name) ↔ part ∈ outline.missing (parse name) := by
  induction name using TypeName.base_induction with
  | step name ih =>
      rw [mem_missing, mem_missing, same]
      refine and_congr_right fun _ => or_congr_right ?_
      exact exists_congr fun base => and_congr_right fun built => ih base built

/-- The tags of names depend on the tags that are there only. -/
theorem tagOf_congr {other : Outline}
    (same : ∀ name, (other.types name).map TypeFacts.tag = (outline.types name).map TypeFacts.tag)
    (name : String) : other.tagOf (parse name) = outline.tagOf (parse name) := by
  induction name using TypeName.base_induction with
  | step name ih => rw [tagOf_parse, tagOf_parse, same, fresh_congr ih]

/-- Adding names has to do with types only. -/
theorem types_withNames_congr {other : Outline} (same : other.types = outline.types)
    (names : List String) : (other.withNames names).types = (outline.withNames names).types := by
  have absent : ∀ name, other.types name = none ↔ outline.types name = none := by
    intro name
    rw [same]
  have tags : ∀ name, other.tagOf (parse name) = outline.tagOf (parse name) :=
    tagOf_congr fun name => by rw [same]
  funext name
  cases there : outline.types name with
  | some facts =>
      rw [types_withNames_of_some there, types_withNames_of_some (same ▸ there)]
  | none =>
      have missing : name ∈ other.missingFor names ↔ name ∈ outline.missingFor names := by
        simp only [mem_missingFor, mem_missing_congr absent]
      rw [types_withNames_of_none there, types_withNames_of_none (same ▸ there),
        fresh_congr fun base _ => tags base]
      simp only [missing]

/-- A change of a type that is there, other than one of its tag, may come before or after names
    are added. -/
theorem modifyType_withNames {name : String} {change : TypeFacts → TypeFacts}
    {names : List String} (there : (outline.types name).isSome)
    (tags : ∀ facts, (change facts).tag = facts.tag) :
    (outline.modifyType name change).withNames names =
      (outline.withNames names).modifyType name change := by
  have sameTags : ∀ other, ((outline.modifyType name change).types other).map TypeFacts.tag =
      (outline.types other).map TypeFacts.tag := by
    intro other
    rw [types_modifyType]
    by_cases same : other = name
    · rw [if_pos same, Option.map_map]
      exact Option.map_congr fun facts _ => tags facts
    · rw [if_neg same]
  have sameNames : ∀ other, (outline.modifyType name change).types other = none ↔
      outline.types other = none := by
    intro other
    rw [← Option.map_eq_none_iff (f := TypeFacts.tag), sameTags, Option.map_eq_none_iff]
  ext1
  · funext other
    rw [types_modifyType]
    cases known : outline.types other with
    | some facts =>
        rw [types_withNames_of_some known]
        by_cases same : other = name
        · rw [if_pos same]
          apply types_withNames_of_some
          rw [types_modifyType, if_pos same, known]
          rfl
        · rw [if_neg same]
          apply types_withNames_of_some
          rw [types_modifyType, if_neg same, known]
    | none =>
        have apart : other ≠ name := by
          rintro rfl
          rw [known] at there
          cases there
        have missing : other ∈ (outline.modifyType name change).missingFor names ↔
            other ∈ outline.missingFor names := by
          simp only [mem_missingFor, mem_missing_congr sameNames]
        have fresh : (outline.modifyType name change).fresh (parse other) =
            outline.fresh (parse other) := fresh_congr fun base _ => tagOf_congr sameTags base
        rw [if_neg apart, types_withNames_of_none known,
          types_withNames_of_none ((sameNames other).mpr known), fresh]
        simp only [missing]
  · rfl

/-- Two changes of a type are one. -/
theorem modifyType_modifyType (name : String) (first last : TypeFacts → TypeFacts) :
    (outline.modifyType name first).modifyType name last =
      outline.modifyType name (last ∘ first) := by
  ext1
  · funext other
    simp only [types_modifyType]
    by_cases same : other = name
    · rw [if_pos same, if_pos same, if_pos same, Option.map_map]
    · rw [if_neg same, if_neg same, if_neg same]
  · rfl

/-- A name is added after the one it is built from. -/
theorem withNames_singleton {name : String} (absent : outline.types name = none) :
    outline.withNames [name] =
      (outline.withNames (TypeName.base? name).toList).setType name
        (outline.fresh (parse name)) := by
  ext1
  · funext other
    rw [types_setType]
    by_cases same : other = name
    · subst same
      have self : other ∈ outline.missingFor [other] :=
        mem_missingFor.mpr ⟨other, List.mem_singleton_self _, mem_missing.mpr ⟨absent, .inl rfl⟩⟩
      rw [if_pos rfl, types_withNames_of_none absent, if_pos self]
    · rw [if_neg same]
      cases there : outline.types other with
      | some facts => rw [types_withNames_of_some there, types_withNames_of_some there]
      | none =>
          have below : other ∈ outline.missingFor [name] ↔
              other ∈ outline.missingFor (TypeName.base? name).toList := by
            simp only [mem_missingFor, List.mem_singleton, Option.mem_toList, exists_eq_left]
            rw [mem_missing]
            simp only [absent, same, true_and, false_or]
          rw [types_withNames_of_none there, types_withNames_of_none there]
          simp only [below]
  · rfl

/-- A name is not added with the name it is built from. -/
theorem types_withNames_base {name : String} (absent : outline.types name = none) :
    (outline.withNames (TypeName.base? name).toList).types name = none := by
  apply types_withNames_eq_none.mpr
  refine ⟨absent, fun member => ?_⟩
  obtain ⟨base, built, member⟩ := mem_missingFor.mp member
  have shorter := TypeName.length_lt_of_base? (Option.mem_toList.mp built)
  exact absurd (length_le_of_mem_missing base member) (Nat.not_le.mpr shorter)

end Outline

end BugPatterns
