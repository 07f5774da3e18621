import BugPatterns.Proofs.Model.Loaded
import BugPatterns.Proofs.Model.Reordering

/-!
# Models that answer alike

Models with the same outline may number their types and symbols differently, but they answer every
question alike that is asked by name or key (`Model.Agrees`, `Model.Matches.agrees`). A path of
supertypes in the one is followed in the other, number by number (`Model.Matches.directlyBelow`), so
the two have the same subtypes.

It follows that the order in which a document lists its types does not matter
(`Model.agrees_of_load_of_perm`).
-/

namespace BugPatterns.Model

/-- The numbers that a type has in two models: both are found by the same name. -/
def SameType (a b : Model) (x y : TypeId) : Prop :=
  ∃ name, a.type? name = some x ∧ b.type? name = some y

/-- The numbers that a symbol has in two models: both are found by the same key. -/
def SameSymbol (a b : Model) (s t : SymbolId) : Prop :=
  ∃ key, a.symbol? key = some s ∧ b.symbol? key = some t

/-- Two models answer alike what is asked by name or key: which types and symbols there are; all
    that is stored of each, by the names and keys of the others; and what follows from it. -/
structure Agrees (a b : Model) : Prop where
  typeNames : ∀ name, (a.type? name).isSome = (b.type? name).isSome
  symbolKeys : ∀ key, (a.symbol? key).isSome = (b.symbol? key).isSome
  types : ∀ {x y}, a.SameType b x y →
    (a.type x).facts a.nameOf a.keyOf = (b.type y).facts b.nameOf b.keyOf
  symbols : ∀ {s t}, a.SameSymbol b s t →
    (a.symbol s).facts a.nameOf a.keyOf = (b.symbol t).facts b.nameOf b.keyOf
  erasure : ∀ {x y}, a.SameType b x y → a.nameOf (a.erasure x) = b.nameOf (b.erasure y)
  isSubtype : ∀ {x y x' y'}, a.SameType b x y → a.SameType b x' y' →
    a.isSubtype x x' = b.isSubtype y y'
  implementsInterface : ∀ {x y}, a.SameType b x y → ∀ name,
    a.implementsInterface x name = b.implementsInterface y name
  membersNamed : ∀ {s t}, a.SameSymbol b s t → ∀ name,
    ((a.membersNamed s name).map a.keyOf).toFinset =
      ((b.membersNamed t name).map b.keyOf).toFinset

/-- Two sound models say the same by name, and the root class is declared in them. -/
structure Matches (a b : Model) : Prop where
  sound : a.Sound
  otherSound : b.Sound
  root : a.outline.HasRoot
  outline_eq : a.outline = b.outline

variable {a b : Model}

theorem SameType.symm {x y : TypeId} (same : a.SameType b x y) : b.SameType a y x := by
  obtain ⟨name, found, also⟩ := same
  exact ⟨name, also, found⟩

theorem SameSymbol.symm {s t : SymbolId} (same : a.SameSymbol b s t) : b.SameSymbol a t s := by
  obtain ⟨key, found, also⟩ := same
  exact ⟨key, also, found⟩

/-- What one step does that is followed by a step on the other side, a whole path does. -/
theorem exists_path_of_steps {α β : Type} {step : α → α → Prop} {other : β → β → Prop}
    {same : α → β → Prop}
    (follows : ∀ {x x' y}, same x y → step x x' → ∃ y', other y y' ∧ same x' y')
    {x x' : α} {y : β} (start : same x y) (path : Relation.ReflTransGen step x x') :
    ∃ y', Relation.ReflTransGen other y y' ∧ same x' y' := by
  induction path with
  | refl => exact ⟨y, .refl, start⟩
  | tail _ last ih =>
      obtain ⟨middle, path, there⟩ := ih
      obtain ⟨y', edge, arrived⟩ := follows there last
      exact ⟨y', .tail path edge, arrived⟩

namespace Matches

variable (both : a.Matches b)

include both

theorem symm : b.Matches a where
  sound := both.otherSound
  otherSound := both.sound
  root := both.outline_eq ▸ both.root
  outline_eq := both.outline_eq.symm

theorem rootDeclared : a.RootDeclared :=
  rootDeclared_of_hasRoot both.sound both.root

/-! ## Types and symbols -/

theorem isSome_type? (name : String) : (a.type? name).isSome = (b.type? name).isSome := by
  have outlines := congrArg (fun outline => (outline.types name).isSome) both.outline_eq
  simpa only [types_outline, Option.isSome_map] using outlines

theorem isSome_symbol? (key : String) : (a.symbol? key).isSome = (b.symbol? key).isSome := by
  have outlines := congrArg (fun outline => (outline.symbols key).isSome) both.outline_eq
  simpa only [symbols_outline, Option.isSome_map] using outlines

theorem sameType_of_nameOf {x y : TypeId} (there : x.index < a.typeCount)
    (also : y.index < b.typeCount) (names : a.nameOf x = b.nameOf y) : a.SameType b x y :=
  ⟨a.nameOf x, both.sound.type?_nameOf there, names ▸ both.otherSound.type?_nameOf also⟩

theorem sameSymbol_of_keyOf {s t : SymbolId} (there : s.index < a.symbolCount)
    (also : t.index < b.symbolCount) (keys : a.keyOf s = b.keyOf t) : a.SameSymbol b s t :=
  ⟨a.keyOf s, both.sound.symbol?_keyOf there, keys ▸ both.otherSound.symbol?_keyOf also⟩

section Facts

variable {x y : TypeId} (same : a.SameType b x y)

include same

theorem nameOf : a.nameOf x = b.nameOf y := by
  obtain ⟨name, found, also⟩ := same
  rw [both.sound.nameOf_of_type? found, both.otherSound.nameOf_of_type? also]

theorem isNamed (name : String) : a.isNamed x name = b.isNamed y name := by
  have names := both.nameOf same
  unfold Model.nameOf at names
  rw [Model.isNamed, Model.isNamed, names]

theorem lt_typeCount : x.index < a.typeCount := by
  obtain ⟨name, found, -⟩ := same
  exact both.sound.lt_of_type? found

theorem types : (a.type x).facts a.nameOf a.keyOf = (b.type y).facts b.nameOf b.keyOf := by
  obtain ⟨name, found, also⟩ := same
  have outlines := congrArg (fun outline => outline.types name) both.outline_eq
  rw [outline_types found, outline_types also] at outlines
  exact Option.some.inj outlines

theorem tag : a.tag x = b.tag y :=
  congrArg TypeFacts.tag (both.types same)

theorem element {element : TypeId} (found : (a.type x).element = some element) :
    ∃ other, (b.type y).element = some other ∧ a.SameType b element other := by
  have names : (a.type x).element.map a.nameOf = (b.type y).element.map b.nameOf :=
    congrArg TypeFacts.element (both.types same)
  rw [found, Option.map_some] at names
  obtain ⟨other, also, named⟩ := Option.map_eq_some_iff.mp names.symm
  have there := ((both.sound.types x).element element found).trans (both.lt_typeCount same)
  have otherThere := ((both.otherSound.types y).element other also).trans
    (both.symm.lt_typeCount same.symm)
  exact ⟨other, also, both.sameType_of_nameOf there otherThere named.symm⟩

theorem erasure : a.SameType b (a.erasure x) (b.erasure y) := by
  have names : (a.type x).erasure.map a.nameOf = (b.type y).erasure.map b.nameOf :=
    congrArg TypeFacts.erasure (both.types same)
  unfold Model.erasure
  cases found : (a.type x).erasure with
  | none =>
      rw [found, Option.map_none] at names
      rw [Option.map_eq_none_iff.mp names.symm]
      exact same
  | some raw =>
      rw [found, Option.map_some] at names
      obtain ⟨other, also, named⟩ := Option.map_eq_some_iff.mp names.symm
      have there := ((both.sound.types x).erasure raw found).trans (both.lt_typeCount same)
      have otherThere := ((both.otherSound.types y).erasure other also).trans
        (both.symm.lt_typeCount same.symm)
      rw [also]
      exact both.sameType_of_nameOf there otherThere named.symm

theorem interface {parent : TypeId} (listed : parent ∈ (a.type x).interfaces) :
    ∃ other ∈ (b.type y).interfaces, a.SameType b parent other := by
  have names : (a.type x).interfaces.map a.nameOf = (b.type y).interfaces.map b.nameOf :=
    congrArg TypeFacts.interfaces (both.types same)
  have named := List.mem_map_of_mem (f := a.nameOf) listed
  rw [names] at named
  obtain ⟨other, also, named⟩ := List.mem_map.mp named
  exact ⟨other, also, both.sameType_of_nameOf ((both.sound.types x).interfaces parent listed)
    ((both.otherSound.types y).interfaces other also) named.symm⟩

theorem superclass {parent : TypeId} (found : (a.type x).superclass = some parent) :
    ∃ other, (b.type y).superclass = some other ∧ a.SameType b parent other := by
  have names : (a.type x).superclass.map a.nameOf = (b.type y).superclass.map b.nameOf :=
    congrArg TypeFacts.superclass (both.types same)
  rw [found, Option.map_some] at names
  obtain ⟨other, also, named⟩ := Option.map_eq_some_iff.mp names.symm
  exact ⟨other, also, both.sameType_of_nameOf ((both.sound.types x).superclass parent found)
    ((both.otherSound.types y).superclass other also) named.symm⟩

/-- A type has one number only. -/
theorem eq_of_sameType {y' : TypeId} (again : a.SameType b x y') : y = y' := by
  apply both.otherSound.nameOf_inj (both.symm.lt_typeCount same.symm)
    (both.symm.lt_typeCount again.symm)
  rw [← both.nameOf same, ← both.nameOf again]

end Facts

/-! ## The hierarchy -/

theorem directlyBelow {x x' y : TypeId} (same : a.SameType b x y)
    (step : a.DirectlyBelow x x') : ∃ y', b.DirectlyBelow y y' ∧ a.SameType b x' y' := by
  obtain ⟨parent, above, rfl⟩ := step
  rcases above with found | listed
  · obtain ⟨other, also, same⟩ := both.superclass same found
    exact ⟨_, ⟨other, .inl also, rfl⟩, both.erasure same⟩
  · obtain ⟨other, also, same⟩ := both.interface same listed
    exact ⟨_, ⟨other, .inr also, rfl⟩, both.erasure same⟩

theorem directlyImplements {x x' y : TypeId} (same : a.SameType b x y)
    (step : a.DirectlyImplements x x') :
    ∃ y', b.DirectlyImplements y y' ∧ a.SameType b x' y' := by
  obtain ⟨parent, listed, rfl⟩ := step
  obtain ⟨other, also, same⟩ := both.interface same listed
  exact ⟨_, ⟨other, also, rfl⟩, both.erasure same⟩

theorem implementsInterface_of {x y : TypeId} (same : a.SameType b x y) {name : String}
    (implemented : a.implementsInterface x name = true) :
    b.implementsInterface y name = true := by
  obtain ⟨target, path, named⟩ := implementsInterface_iff.mp implemented
  obtain ⟨first, step, rest⟩ := Relation.TransGen.head'_iff.mp path
  obtain ⟨other, otherStep, there⟩ := both.directlyImplements (both.erasure same) step
  obtain ⟨otherTarget, otherRest, arrived⟩ :=
    exists_path_of_steps both.directlyImplements there rest
  rw [both.isNamed arrived] at named
  exact implementsInterface_iff.mpr ⟨otherTarget, .head' otherStep otherRest, named⟩

/-- The rules relate what they relate in the other model, provided that the elements of arrays are
    compared alike. -/
theorem related {below other : TypeId → TypeId → Prop} {x x' y y' : TypeId}
    (same : a.SameType b x y) (same' : a.SameType b x' y')
    (alike : ∀ {element target found wanted}, (a.type x).element = some element →
      a.SameType b element found → a.SameType b target wanted → below element target →
        other found wanted)
    (relation : a.Related below x x') : b.Related other y y' := by
  have tag := both.tag same
  have tag' := both.tag same'
  cases relation with
  | same equal =>
      subst equal
      exact .same (both.eq_of_sameType same same')
  | null isNull reference => exact .null (tag ▸ isNull) (tag' ▸ reference)
  | arrays array otherArray elements otherElements reference elementsBelow =>
      obtain ⟨found, known, there⟩ := both.element same elements
      obtain ⟨wanted, otherKnown, arrived⟩ := both.element same' otherElements
      exact .arrays (tag ▸ array) (tag' ▸ otherArray) known otherKnown (both.tag there ▸ reference)
        (alike elements there arrived elementsBelow)
  | root named reference => exact .root (both.isNamed same' _ ▸ named) (tag ▸ reference)
  | hierarchy classLike noPrimitive noVoid noNull path =>
      obtain ⟨reached, otherPath, arrived⟩ := exists_path_of_steps both.directlyBelow same path
      obtain rfl := both.eq_of_sameType arrived same'
      exact .hierarchy (tag ▸ classLike) (tag' ▸ noPrimitive) (tag' ▸ noVoid) (tag' ▸ noNull)
        otherPath

/-- A subtype is one in the other model. The induction is along the elements of arrays, which are
    older than the arrays. -/
theorem isSubtype_of {x : TypeId} : ∀ {y x' y' : TypeId}, a.SameType b x y → a.SameType b x' y' →
    a.isSubtype x x' = true → b.isSubtype y y' = true := by
  induction number : x.index using Nat.strongRecOn generalizing x with
  | ind n ih =>
      subst number
      intro y x' y' same same' below
      rw [both.sound.isSubtype_iff both.rootDeclared] at below
      rw [both.otherSound.isSubtype_iff both.symm.rootDeclared]
      obtain ⟨known, otherKnown, relation⟩ := below
      have erased := both.erasure same
      have erased' := both.erasure same'
      refine ⟨?_, ?_, both.related erased erased' ?_ relation⟩
      · rw [isUnknown, ← both.tag erased]
        exact known
      · rw [isUnknown, ← both.tag erased']
        exact otherKnown
      · intro element target found wanted elements there arrived elementsBelow
        exact ih _ (both.sound.element_lt elements) rfl there arrived elementsBelow

/-! ## Symbols -/

theorem symbols {s t : SymbolId} (same : a.SameSymbol b s t) :
    (a.symbol s).facts a.nameOf a.keyOf = (b.symbol t).facts b.nameOf b.keyOf := by
  obtain ⟨key, found, also⟩ := same
  have outlines := congrArg (fun outline => outline.symbols key) both.outline_eq
  rw [outline_symbols found, outline_symbols also] at outlines
  exact Option.some.inj outlines

theorem keyOf_mem_membersNamed {s t : SymbolId} (same : a.SameSymbol b s t) {name key : String}
    (named : key ∈ (a.membersNamed s name).map a.keyOf) :
    key ∈ (b.membersNamed t name).map b.keyOf := by
  obtain ⟨member, listed, rfl⟩ := List.mem_map.mp named
  obtain ⟨listed, named⟩ := List.mem_filter.mp listed
  have keys : ((a.symbol s).members.map a.keyOf).toFinset =
      ((b.symbol t).members.map b.keyOf).toFinset :=
    congrArg SymbolFacts.members (both.symbols same)
  have found := List.mem_toFinset.mpr (List.mem_map_of_mem (f := a.keyOf) listed)
  rw [keys, List.mem_toFinset] at found
  obtain ⟨other, also, keyed⟩ := List.mem_map.mp found
  have members := both.sameSymbol_of_keyOf ((both.sound.symbols s).members member listed)
    ((both.otherSound.symbols t).members other also) keyed.symm
  have names : (a.symbol member).name = (b.symbol other).name :=
    congrArg SymbolFacts.name (both.symbols members)
  rw [names] at named
  exact List.mem_map.mpr ⟨other, List.mem_filter.mpr ⟨also, named⟩, keyed⟩

/-- Models with the same outline answer alike. -/
theorem agrees : a.Agrees b where
  typeNames := both.isSome_type?
  symbolKeys := both.isSome_symbol?
  types := both.types
  symbols := both.symbols
  erasure same := both.nameOf (both.erasure same)
  isSubtype same same' := by
    rw [Bool.eq_iff_iff]
    exact ⟨both.isSubtype_of same same', both.symm.isSubtype_of same.symm same'.symm⟩
  implementsInterface same name := by
    rw [Bool.eq_iff_iff]
    exact ⟨both.implementsInterface_of same, both.symm.implementsInterface_of same.symm⟩
  membersNamed same name := by
    ext key
    simp only [List.mem_toFinset]
    exact ⟨both.keyOf_mem_membersNamed same, both.symm.keyOf_mem_membersNamed same.symm⟩

end Matches

/-- The order of the types in a document matters neither to whether it is loaded nor to what its
    model answers. -/
theorem agrees_of_load_of_perm {document other : ModelDocument}
    (perm : document.types.Perm other.types) :
    ((∃ model, load document = .ok model) ↔ ∃ model, load other = .ok model) ∧
      ∀ {first second}, load document = .ok first → load other = .ok second →
        first.Agrees second := by
  have outlines := Outline.load_of_perm perm
  constructor
  · rw [← (tracks_load document).isSome_iff, outlines, (tracks_load other).isSome_iff]
  · intro first second loaded otherLoaded
    obtain ⟨sound, described⟩ := sound_of_load loaded
    obtain ⟨otherSound, otherDescribed⟩ := sound_of_load otherLoaded
    rw [outlines, otherDescribed] at described
    have both : first.Matches second :=
      { sound := sound
        otherSound := otherSound
        root := Outline.hasRoot_of_load (outlines.trans (described ▸ otherDescribed))
        outline_eq := (Option.some.inj described).symm }
    exact both.agrees

/-- A type that refers to the one after it: as its owner, and as the raw type of its superclass. -/
def forwardTypes : List TypeEntry :=
  [⟨"p.B.A", .ordinary, some "p.B<p.B.A[]>", [], some "p.B", []⟩,
    ⟨"p.B", .interface, none, [], none, []⟩]

theorem agrees_of_load_of_perm_forward :
    ∃ first second, load ⟨forwardTypes⟩ = .ok first ∧ load ⟨forwardTypes.reverse⟩ = .ok second ∧
      first.type? "p.B" = some ⟨18⟩ ∧ second.type? "p.B" = some ⟨17⟩ ∧ first.Agrees second := by
  have evaluated : (load ⟨forwardTypes⟩).toOption.map (·.type? "p.B") = some (some ⟨18⟩) ∧
      (load ⟨forwardTypes.reverse⟩).toOption.map (·.type? "p.B") = some (some ⟨17⟩) := by
    decide +kernel
  obtain ⟨first, loaded, found⟩ := exists_ok_of_toOption_map evaluated.1
  obtain ⟨second, otherLoaded, otherFound⟩ := exists_ok_of_toOption_map evaluated.2
  have perm : (ModelDocument.mk forwardTypes).types.Perm
      (ModelDocument.mk forwardTypes.reverse).types := (List.reverse_perm _).symm
  exact ⟨first, second, loaded, otherLoaded, found, otherFound,
    (agrees_of_load_of_perm perm).2 loaded otherLoaded⟩

end BugPatterns.Model
