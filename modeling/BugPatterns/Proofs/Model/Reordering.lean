import BugPatterns.Proofs.Model.Loading
import Mathlib.Data.List.Perm.Basic
import Mathlib.Data.List.Nodup

/-!
# The order of a description

By name, loading the types of a description in another order makes no difference: each of the three
passes over the types does one thing for each, and what it does for one commutes with what it does
for another (`Outline.load_of_perm`).

Names may be interned at any time. A type is changed under its own name only, which no other type of
the description has. Members of a type are a set. The symbols that a description declares are no
type symbols, so none of them can take the members of another.
-/

namespace BugPatterns

/-- Steps that commute may be taken in any order. -/
theorem foldlM_eq_of_perm {α σ : Type} {f : σ → α → Option σ} {items others : List α}
    (perm : items.Perm others) :
    (∀ a ∈ items, ∀ b ∈ items, ∀ state, (f state a).bind (f · b) = (f state b).bind (f · a)) →
      ∀ start, items.foldlM f start = others.foldlM f start := by
  induction perm with
  | nil => exact fun _ _ => rfl
  | @cons a items others _ ih =>
      intro commute start
      rw [List.foldlM_cons, List.foldlM_cons]
      refine Option.bind_congr fun state _ => ?_
      exact ih (fun b listed c member =>
        commute b (List.mem_cons_of_mem _ listed) c (List.mem_cons_of_mem _ member)) state
  | swap a b items =>
      intro commute start
      have swapped :=
        commute b List.mem_cons_self a (List.mem_cons_of_mem _ List.mem_cons_self) start
      simp only [List.foldlM_cons, Option.bind_eq_bind]
      rw [← Option.bind_assoc, ← Option.bind_assoc, swapped]
  | trans first _ ih₁ ih₂ =>
      intro commute start
      refine (ih₁ commute start).trans (ih₂ ?_ start)
      intro a listed b member
      exact commute a (first.mem_iff.mpr listed) b (first.mem_iff.mpr member)

namespace Outline

variable (outline : Outline)

/-! ## Defining types -/

theorem define_comm {name other : String} (apart : name ≠ other) (tag otherTag : TypeTag) :
    (outline.define name tag).define other otherTag =
      (outline.define other otherTag).define name tag := by
  ext1
  · funext asked
    simp only [types_define, if_neg apart, if_neg apart.symm]
    by_cases first : asked = name
    · subst first
      rw [if_neg apart, if_pos rfl, if_pos rfl]
    · rw [if_neg first, if_neg first]
  · funext asked
    simp only [symbols_define, types_define, if_neg apart, if_neg apart.symm]
    by_cases first : asked = name
    · subst first
      simp only [apart, false_and, if_false]
    · simp only [first, false_and, if_false]

theorem defineTypes_of_perm {entries others : List TypeEntry} (perm : entries.Perm others)
    (distinct : (entries.map TypeEntry.name).Nodup) :
    outline.defineTypes entries = outline.defineTypes others := by
  apply perm.foldl_eq'
  intro entry listed other member outline
  by_cases same : entry.name = other.name
  · rw [List.inj_on_of_nodup_map distinct listed member same]
  · exact outline.define_comm same _ _

/-! ## Linking types -/

theorem modifyType_comm {name other : String} (apart : name ≠ other)
    (change otherChange : TypeFacts → TypeFacts) :
    (outline.modifyType name change).modifyType other otherChange =
      (outline.modifyType other otherChange).modifyType name change := by
  ext1
  · funext asked
    simp only [types_modifyType]
    by_cases first : asked = name
    · subst first
      simp only [if_neg apart]
    · simp only [if_neg first]
  · rfl

theorem isSome_withNames {name : String} {names : List String} (listed : name ∈ names) :
    ((outline.withNames names).types name).isSome := by
  rw [← Option.ne_none_iff_isSome]
  intro absent
  obtain ⟨before, not⟩ := types_withNames_eq_none.mp absent
  exact not (mem_missingFor.mpr ⟨name, listed, mem_missing.mpr ⟨before, .inl rfl⟩⟩)

theorem linkSupertypes_comm {entry other : TypeEntry} (apart : entry.name ≠ other.name) :
    (outline.linkSupertypes entry).linkSupertypes other =
      (outline.linkSupertypes other).linkSupertypes entry := by
  have self : ∀ entry : TypeEntry, entry.name ∈ linkedNames entry := fun _ => List.mem_cons_self
  unfold linkSupertypes
  rw [modifyType_withNames (outline.isSome_withNames (self entry)),
    modifyType_withNames (outline.isSome_withNames (self other)), withNames_comm,
    modifyType_comm _ apart]
  · exact fun _ => rfl
  · exact fun _ => rfl

/-- What nesting one type in another does to a symbol. -/
theorem symbols_nest (nested outer asked : String) :
    (outline.nest nested outer).symbols asked =
      (outline.symbols asked).map fun facts =>
        { facts with
          owner := if asked = nested then some outer else facts.owner
          members := if asked = outer then insert nested facts.members else facts.members } := by
  simp only [nest, symbols_modifySymbol]
  by_cases isOuter : asked = outer
  · by_cases isNested : asked = nested
    · simp only [if_pos isOuter, if_pos isNested, Option.map_map]
      rfl
    · simp only [if_pos isOuter, if_neg isNested]
  · by_cases isNested : asked = nested
    · simp only [if_neg isOuter, if_pos isNested]
    · simp only [if_neg isOuter, if_neg isNested, Option.map_id']

theorem nest_comm {nested otherNested : String} (apart : nested ≠ otherNested)
    (outer otherOuter : String) :
    (outline.nest nested outer).nest otherNested otherOuter =
      (outline.nest otherNested otherOuter).nest nested outer := by
  ext1
  · rfl
  · funext asked
    simp only [symbols_nest, Option.map_map]
    refine Option.map_congr fun facts _ => ?_
    have owners : (if asked = otherNested then some otherOuter
        else if asked = nested then some outer else facts.owner) =
        if asked = nested then some outer
        else if asked = otherNested then some otherOuter else facts.owner := by
      by_cases first : asked = nested
      · rw [if_pos first, if_neg (first ▸ apart), if_pos first]
      · rw [if_neg first, if_neg first]
    have members : (if asked = otherOuter then
          insert otherNested (if asked = outer then insert nested facts.members else facts.members)
        else if asked = outer then insert nested facts.members else facts.members) =
        if asked = outer then
          insert nested
            (if asked = otherOuter then insert otherNested facts.members else facts.members)
        else if asked = otherOuter then insert otherNested facts.members else facts.members := by
      by_cases first : asked = outer
      · by_cases second : asked = otherOuter
        · simp only [if_pos first, if_pos second, Finset.insert_comm]
        · simp only [if_pos first, if_neg second]
      · simp only [if_neg first]
    simp only [Function.comp_apply, owners, members]

theorem linkOwner_comm {entry other : TypeEntry} (apart : entry.name ≠ other.name) :
    (outline.linkOwner entry).linkOwner other = (outline.linkOwner other).linkOwner entry := by
  unfold linkOwner
  cases entry.owner with
  | none => cases other.owner <;> rfl
  | some owner =>
      cases other.owner with
      | none => rfl
      | some otherOwner => exact outline.nest_comm apart _ _

/-- Supertypes are set and types are nested independently of each other. -/
theorem linkOwner_linkSupertypes (entry other : TypeEntry) :
    (outline.linkOwner entry).linkSupertypes other =
      (outline.linkSupertypes other).linkOwner entry := by
  unfold linkOwner
  cases entry.owner with
  | none => rfl
  | some owner =>
      ext1
      · have same : (outline.nest entry.name owner).types = outline.types := rfl
        funext asked
        simp only [linkSupertypes, types_modifyType, types_withNames_congr same]
        rfl
      · rfl

theorem link_comm (declared : List String) {entry other : TypeEntry}
    (apart : entry.name ≠ other.name) :
    (outline.link declared entry).bind (link declared · other) =
      (outline.link declared other).bind (link declared · entry) := by
  unfold link
  by_cases first : OwnerDeclared declared entry
  · by_cases second : OwnerDeclared declared other
    · simp only [if_pos first, if_pos second, Option.bind_some]
      rw [linkOwner_linkSupertypes, linkOwner_linkSupertypes, linkOwner_comm _ apart,
        linkSupertypes_comm _ apart]
    · simp only [if_pos first, if_neg second, Option.bind_some, Option.bind_none]
  · by_cases second : OwnerDeclared declared other
    · simp only [if_neg first, if_pos second, Option.bind_some, Option.bind_none]
    · simp only [if_neg first, if_neg second]

/-! ## Declaring symbols -/

theorem enter_comm {key other : String} {facts otherFacts : SymbolFacts} (apart : key ≠ other)
    (noType : facts.kind ≠ .type) (otherNoType : otherFacts.kind ≠ .type) :
    (outline.enter key facts).enter other otherFacts =
      (outline.enter other otherFacts).enter key facts := by
  ext1
  · rfl
  · funext asked
    simp only [symbols_enter]
    by_cases first : asked = key
    · subst first
      simp only [if_neg apart, if_true, Option.map_some, noType, and_false, if_false]
    · by_cases second : asked = other
      · subst second
        simp only [if_neg first, if_true, Option.map_some, otherNoType, and_false, if_false]
      · simp only [if_neg first, if_neg second, Option.map_map]
        refine Option.map_congr fun known _ => ?_
        by_cases isType : known.kind = .type
        · by_cases joins : facts.owner = some asked
          · by_cases otherJoins : otherFacts.owner = some asked
            · simp [isType, joins, otherJoins, Finset.insert_comm]
            · simp [isType, joins, otherJoins]
          · simp [isType, joins]
        · simp [isType]

theorem withNames_enter (names : List String) (key : String) (facts : SymbolFacts) :
    (outline.withNames names).enter key facts = (outline.enter key facts).withNames names := by
  ext1
  · have same : (outline.enter key facts).types = outline.types := rfl
    exact (types_withNames_congr same names).symm
  · rfl

theorem isSome_enter {key other : String} (apart : other ≠ key) (facts : SymbolFacts) :
    ((outline.enter key facts).symbols other).isSome = (outline.symbols other).isSome := by
  rw [symbols_enter, if_neg apart, Option.isSome_map]

/-- Symbols are declared in any order; under one key neither can be declared after the other. -/
theorem declare_comm {declaration other : String × SymbolFacts}
    (noType : declaration.2.kind ≠ .type) (otherNoType : other.2.kind ≠ .type) :
    (outline.declare declaration).bind (declare · other) =
      (outline.declare other).bind (declare · declaration) := by
  obtain ⟨key, facts⟩ := declaration
  obtain ⟨otherKey, otherFacts⟩ := other
  unfold declare
  by_cases same : key = otherKey
  · subst same
    by_cases taken : (outline.symbols key).isSome
    · simp only [if_pos taken, Option.bind_none]
    · simp only [if_neg taken, Option.bind_some, symbols_withNames, symbols_enter, if_true,
        Option.isSome_some]
  · have still := fun facts => outline.isSome_enter (Ne.symm same) facts
    have otherStill := fun facts => outline.isSome_enter same facts
    by_cases taken : (outline.symbols key).isSome
    · by_cases otherTaken : (outline.symbols otherKey).isSome
      · simp only [if_pos taken, if_pos otherTaken, Option.bind_none]
      · simp only [if_pos taken, if_neg otherTaken, Option.bind_none, Option.bind_some,
          symbols_withNames, otherStill]
    · by_cases otherTaken : (outline.symbols otherKey).isSome
      · simp only [if_neg taken, if_pos otherTaken, Option.bind_none, Option.bind_some,
          symbols_withNames, still]
      · simp only [if_neg taken, if_neg otherTaken, Option.bind_some, symbols_withNames, still,
          otherStill, withNames_enter]
        rw [enter_comm _ same noType otherNoType, withNames_comm]

theorem noType_of_mem_declarations {entry : TypeEntry} {declaration : String × SymbolFacts}
    (listed : declaration ∈ declarations entry) : declaration.2.kind ≠ .type := by
  obtain ⟨member, -, listed⟩ := List.mem_flatMap.mp listed
  rcases List.mem_cons.mp listed with rfl | listed
  · exact memberFacts_noType entry member
  · rcases List.mem_append.mp listed with listed | listed
    · obtain ⟨var, -, rfl⟩ := List.mem_map.mp listed
      exact SymbolKind.noConfusion
    · obtain ⟨var, -, rfl⟩ := List.mem_map.mp listed
      exact SymbolKind.noConfusion

/-! ## Loading -/

theorem wellNamed_of_perm {entries others : List TypeEntry} (perm : entries.Perm others) :
    WellNamed entries ↔ WellNamed others := by
  unfold WellNamed
  rw [(perm.map TypeEntry.name).nodup_iff]
  simp only [perm.mem_iff]

theorem link_of_perm {entries others : List TypeEntry} (perm : entries.Perm others) :
    link (entries.map TypeEntry.name) = link (others.map TypeEntry.name) := by
  funext outline entry
  have same : OwnerDeclared (entries.map TypeEntry.name) entry ↔
      OwnerDeclared (others.map TypeEntry.name) entry := by
    unfold OwnerDeclared
    simp only [(perm.map TypeEntry.name).mem_iff]
  simp only [link, same]

/-- By name, a document is loaded the same whichever way its types are ordered. -/
theorem load_of_perm {document other : ModelDocument} (perm : document.types.Perm other.types) :
    load document = load other := by
  unfold load
  simp only [← wellNamed_of_perm perm]
  by_cases named : WellNamed document.types
  · rw [if_pos named, if_pos named, ← defineTypes_of_perm _ perm named.2, ← link_of_perm perm]
    have linked := foldlM_eq_of_perm (f := link (document.types.map TypeEntry.name)) perm
      (by
        intro entry listed other member outline
        by_cases same : entry.name = other.name
        · rw [List.inj_on_of_nodup_map named.2 listed member same]
        · exact outline.link_comm _ same)
    have declared := foldlM_eq_of_perm (f := declare) (perm.flatMap_right declarations)
      (by
        intro declaration listed other member outline
        obtain ⟨entry, -, listed⟩ := List.mem_flatMap.mp listed
        obtain ⟨entry, -, member⟩ := List.mem_flatMap.mp member
        exact outline.declare_comm (noType_of_mem_declarations listed)
          (noType_of_mem_declarations member))
    rw [linked]
    simp only [declared]
  · rw [if_neg named, if_neg named]

end Outline

end BugPatterns
