import BugPatterns.Proofs.Model.Loaded
import BugPatterns.Proofs.Model.Reordering

/-!
# What a document says of symbols

Each pass over a document does one thing to the symbols, and what it has done in the end can be told
without the passes: which symbols there are, who owns them and who their members are
(`Outline.Describes`). A document is refused for the names of its types, for an owner that it does
not declare, or for a key that comes twice or is the name of a declared type
(`Outline.isSome_load_iff`).
-/

namespace BugPatterns

/-- Steps each of which is allowed or not, whatever was done before. -/
theorem foldlM_ite {α σ : Type} {allowed : α → Prop} [DecidablePred allowed] (step : σ → α → σ)
    (items : List α) : ∀ start, items.foldlM
        (fun state a => if allowed a then some (step state a) else none) start =
      if ∀ a ∈ items, allowed a then some (items.foldl step start) else none := by
  induction items with
  | nil => exact fun start => (if_pos (by simp)).symm
  | cons a items ih =>
      intro start
      rw [List.foldlM_cons]
      simp only [List.forall_mem_cons]
      by_cases first : allowed a
      · simp only [first, if_true, true_and]
        exact ih (step start a)
      · simp only [first, if_false, false_and]
        rfl

namespace Outline

variable {outline : Outline}

/-! ## Defining types -/

/-- The symbol of a type when it has just been declared. -/
def typeFacts (name : String) : SymbolFacts :=
  ⟨TypeName.simpleName name, .type, none, some name, false, false, ∅, [], none⟩

instance (outline : Outline) (name : String) : Decidable (outline.HasSymbol name) :=
  inferInstanceAs (Decidable (Option.isSome _ = true))

/-- All symbols are those of types, as they are when these have just been declared. -/
def Fresh (outline : Outline) : Prop :=
  ∀ name, outline.symbols name = if outline.HasSymbol name then some (typeFacts name) else none

theorem Fresh.define (fresh : outline.Fresh) (name : String) (tag : TypeTag) :
    (outline.define name tag).Fresh := by
  intro other
  have owned : (outline.define name tag).HasSymbol other ↔ _ := hasSymbol_define_iff name tag other
  rw [symbols_define]
  by_cases same : other = name
  · subst same
    rw [if_pos (owned.mpr (.inr rfl))]
    by_cases unowned : (outline.types other).bind TypeFacts.symbol = none
    · exact if_pos ⟨rfl, unowned⟩
    · rw [if_neg fun both => unowned both.2, fresh other]
      exact if_pos (Option.ne_none_iff_isSome.mp unowned)
  · rw [if_neg fun both => same both.1, fresh other]
    exact if_congr (owned.trans (or_iff_left same)).symm rfl rfl

theorem Fresh.defineTypes (entries : List TypeEntry) :
    ∀ {outline : Outline}, outline.Fresh → (outline.defineTypes entries).Fresh := by
  induction entries with
  | nil => exact fun fresh => fresh
  | cons entry entries ih => exact fun fresh => ih (fresh.define entry.name (.declared entry.kind))

/-! ## Linking types -/

/-- The types that name another one as their owner. -/
def nestedIn (entries : List TypeEntry) (owner : String) : Finset String :=
  ((entries.filter fun entry => entry.owner = some owner).map TypeEntry.name).toFinset

/-- The owner that the type of some name names. -/
def ownerNamed (entries : List TypeEntry) (name : String) : Option String :=
  (entries.find? fun entry => entry.name = name).bind TypeEntry.owner

theorem mem_nestedIn {entries : List TypeEntry} {owner name : String} :
    name ∈ nestedIn entries owner ↔ ∃ entry ∈ entries, entry.owner = some owner ∧
      entry.name = name := by
  simp only [nestedIn, List.mem_toFinset, List.mem_map, List.mem_filter, decide_eq_true_eq,
    and_assoc]

theorem nestedIn_cons (entry : TypeEntry) (entries : List TypeEntry) (owner : String) :
    nestedIn (entry :: entries) owner = if entry.owner = some owner then
      insert entry.name (nestedIn entries owner) else nestedIn entries owner := by
  unfold nestedIn
  by_cases owned : entry.owner = some owner <;> simp [owned]

theorem ownerNamed_of_mem {entries : List TypeEntry} (distinct : (entries.map TypeEntry.name).Nodup)
    {entry : TypeEntry} (listed : entry ∈ entries) :
    ownerNamed entries entry.name = entry.owner := by
  unfold ownerNamed
  cases found : entries.find? fun other => other.name = entry.name with
  | none =>
      have absent := List.find?_eq_none.mp found entry listed
      exact absurd rfl (of_decide_eq_false (Bool.eq_false_iff.mpr absent))
  | some other =>
      have same : other.name = entry.name := by simpa using List.find?_some found
      obtain rfl := List.inj_on_of_nodup_map distinct (List.mem_of_find?_eq_some found) listed same
      rfl

theorem exists_of_ownerNamed {entries : List TypeEntry} {name owner : String}
    (named : ownerNamed entries name = some owner) :
    ∃ entry ∈ entries, entry.name = name ∧ entry.owner = some owner := by
  obtain ⟨entry, found, owned⟩ := Option.bind_eq_some_iff.mp named
  have same : entry.name = name := by simpa using List.find?_some found
  exact ⟨entry, List.mem_of_find?_eq_some found, same, owned⟩

/-- What nesting a type in its owner does to a symbol. -/
theorem symbols_linkOwner (outline : Outline) (entry : TypeEntry) (key : String) :
    (outline.linkOwner entry).symbols key = (outline.symbols key).map fun facts =>
      { facts with
        owner := if entry.name = key then entry.owner.or facts.owner else facts.owner
        members := if entry.owner = some key then insert entry.name facts.members
          else facts.members } := by
  unfold linkOwner
  cases entry.owner with
  | none => simp
  | some owner =>
      rw [symbols_nest]
      refine Option.map_congr fun facts _ => ?_
      simp only [Option.some_or, Option.some.injEq, eq_comm]

/-- What linking all types does to a symbol: it gets the owner that its type names and, as members,
    the types that name it as theirs. -/
theorem symbols_links (entries : List TypeEntry) :
    ∀ outline : Outline, (entries.map TypeEntry.name).Nodup → ∀ key,
      (entries.foldl (fun outline entry => (outline.linkSupertypes entry).linkOwner entry)
        outline).symbols key = (outline.symbols key).map fun facts =>
          { facts with
            owner := (ownerNamed entries key).or facts.owner
            members := facts.members ∪ nestedIn entries key } := by
  induction entries with
  | nil =>
      intro outline _ key
      simp [ownerNamed, nestedIn]
  | cons entry entries ih =>
      intro outline distinct key
      rw [List.map_cons, List.nodup_cons] at distinct
      have supertypes : (outline.linkSupertypes entry).symbols = outline.symbols := rfl
      rw [List.foldl_cons, ih _ distinct.2, symbols_linkOwner, supertypes, Option.map_map]
      refine Option.map_congr fun facts _ => ?_
      have owner : (ownerNamed entries key).or
          (if entry.name = key then entry.owner.or facts.owner else facts.owner) =
            (ownerNamed (entry :: entries) key).or facts.owner := by
        unfold ownerNamed
        rw [List.find?_cons]
        by_cases same : entry.name = key
        · have none : entries.find? (fun other => other.name = key) = none := by
            refine List.find?_eq_none.mpr fun other listed named => distinct.1 ?_
            rw [same, ← of_decide_eq_true named]
            exact List.mem_map_of_mem listed
          rw [none, if_pos same, decide_eq_true same]
          rfl
        · rw [if_neg same, decide_eq_false same]
      have members : (if entry.owner = some key then insert entry.name facts.members
          else facts.members) ∪ nestedIn entries key =
            facts.members ∪ nestedIn (entry :: entries) key := by
        rw [nestedIn_cons]
        by_cases owned : entry.owner = some key
        · rw [if_pos owned, if_pos owned, Finset.insert_union, Finset.union_insert]
        · rw [if_neg owned, if_neg owned]
      simp only [Function.comp_apply, owner, members]

/-! ## Declaring symbols -/

/-- The declared symbols that another one owns. -/
def declaredIn (declarations : List (String × SymbolFacts)) (owner : String) : Finset String :=
  ((declarations.filter fun declaration => declaration.2.owner = some owner).map
    Prod.fst).toFinset

theorem mem_declaredIn {declarations : List (String × SymbolFacts)} {owner key : String} :
    key ∈ declaredIn declarations owner ↔
      ∃ facts, (key, facts) ∈ declarations ∧ facts.owner = some owner := by
  simp only [declaredIn, List.mem_toFinset, List.mem_map, List.mem_filter, decide_eq_true_eq]
  constructor
  · rintro ⟨⟨_, facts⟩, ⟨listed, owned⟩, rfl⟩
    exact ⟨facts, listed, owned⟩
  · rintro ⟨facts, listed, owned⟩
    exact ⟨(key, facts), ⟨listed, owned⟩, rfl⟩

theorem declaredIn_cons (declaration : String × SymbolFacts)
    (declarations : List (String × SymbolFacts)) (owner : String) :
    declaredIn (declaration :: declarations) owner = if declaration.2.owner = some owner then
      insert declaration.1 (declaredIn declarations owner) else declaredIn declarations owner := by
  unfold declaredIn
  by_cases owned : declaration.2.owner = some owner <;> simp [owned]

/-- Declaring a symbol takes its key, and no other. -/
theorem declare_eq_some_iff {declaration : String × SymbolFacts} {next : Outline} :
    outline.declare declaration = some next ↔ outline.symbols declaration.1 = none ∧
      (outline.enter declaration.1 declaration.2).withNames declaration.2.type.toList = next := by
  unfold declare
  cases outline.symbols declaration.1 <;> simp

/-- Symbols can be declared when their keys are free and all different. -/
theorem isSome_declares_iff (declarations : List (String × SymbolFacts)) :
    ∀ {outline : Outline}, (declarations.foldlM declare outline).isSome ↔
      (declarations.map Prod.fst).Nodup ∧
        ∀ declaration ∈ declarations, outline.symbols declaration.1 = none := by
  induction declarations with
  | nil => simp
  | cons declaration declarations ih =>
      intro outline
      rw [List.foldlM_cons, List.map_cons, List.nodup_cons, List.forall_mem_cons]
      by_cases taken : (outline.symbols declaration.1).isSome
      · have refused : outline.declare declaration = none := if_pos taken
        rw [refused]
        refine iff_of_false (by simp) ?_
        rintro ⟨-, free, -⟩
        rw [free] at taken
        cases taken
      · have free := Option.not_isSome_iff_eq_none.mp taken
        have declared : outline.declare declaration = some
            ((outline.enter declaration.1 declaration.2).withNames
              declaration.2.type.toList) := if_neg taken
        have still (other : String × SymbolFacts) :
            ((outline.enter declaration.1 declaration.2).withNames
                declaration.2.type.toList).symbols other.1 = none ↔
              other.1 ≠ declaration.1 ∧ outline.symbols other.1 = none := by
          rw [symbols_withNames, symbols_enter]
          by_cases same : other.1 = declaration.1 <;> simp [same]
        rw [declared, Option.bind_eq_bind, Option.bind_some, ih]
        simp only [still, free, true_and]
        constructor
        · rintro ⟨distinct, others⟩
          refine ⟨⟨fun listed => ?_, distinct⟩, fun other listed => (others other listed).2⟩
          obtain ⟨other, member, same⟩ := List.mem_map.mp listed
          exact (others other member).1 same
        · rintro ⟨⟨absent, distinct⟩, others⟩
          refine ⟨distinct, fun other listed => ⟨fun same => absent ?_, others other listed⟩⟩
          exact same ▸ List.mem_map_of_mem listed

/-- A declared symbol is there in the end as it was declared. -/
theorem symbols_of_mem_declares (declarations : List (String × SymbolFacts)) :
    ∀ {outline last : Outline}, (∀ declaration ∈ declarations, declaration.2.kind ≠ .type) →
      declarations.foldlM declare outline = some last →
        ∀ declaration ∈ declarations, last.symbols declaration.1 = some declaration.2 := by
  induction declarations with
  | nil => exact fun _ _ _ absurd => by cases absurd
  | cons first declarations ih =>
      intro outline last noTypes folded declaration listed
      rw [List.foldlM_cons] at folded
      obtain ⟨next, declared, rest⟩ := Option.bind_eq_some_iff.mp folded
      obtain ⟨noType, others⟩ := List.forall_mem_cons.mp noTypes
      rcases List.mem_cons.mp listed with rfl | listed
      · have entered : next.symbols declaration.1 = some declaration.2 := by
          obtain ⟨-, rfl⟩ := declare_eq_some_iff.mp declared
          rw [symbols_withNames, symbols_enter, if_pos rfl]
        have kept : ∀ other ∈ declarations, ∀ {outline next : Outline},
            outline.symbols declaration.1 = some declaration.2 →
              outline.declare other = some next →
                next.symbols declaration.1 = some declaration.2 :=
          fun _ _ _ _ there declared => symbols_of_declare there noType declared
        exact foldlM_keeps declarations kept entered rest
      · exact ih others rest declaration listed

/-- Other symbols get the declared ones as members, if they are type symbols. -/
theorem symbols_of_not_mem_declares (declarations : List (String × SymbolFacts)) :
    ∀ {outline last : Outline}, declarations.foldlM declare outline = some last →
      ∀ key, key ∉ declarations.map Prod.fst →
        last.symbols key = (outline.symbols key).map fun known =>
          if known.kind = .type then
            { known with members := known.members ∪ declaredIn declarations key }
          else known := by
  induction declarations with
  | nil =>
      intro outline last folded key _
      cases folded
      have same (known : SymbolFacts) : (if known.kind = .type then
          { known with members := known.members ∪ declaredIn [] key } else known) = known := by
        split
        · simp [declaredIn]
        · rfl
      simp only [same, Option.map_id']
  | cons declaration declarations ih =>
      intro outline last folded key absent
      rw [List.foldlM_cons] at folded
      obtain ⟨next, declared, rest⟩ := Option.bind_eq_some_iff.mp folded
      rw [List.map_cons, List.mem_cons, not_or] at absent
      obtain ⟨-, rfl⟩ := declare_eq_some_iff.mp declared
      rw [ih rest key absent.2, symbols_withNames, symbols_enter, if_neg absent.1, Option.map_map]
      refine Option.map_congr fun known _ => ?_
      simp only [Function.comp_apply, declaredIn_cons]
      by_cases isType : known.kind = .type
      · by_cases owned : declaration.2.owner = some key
        · simp only [isType, owned, and_self, if_true, Finset.insert_union, Finset.union_insert]
        · simp only [isType, owned, false_and, if_true, if_false]
      · simp only [isType, and_false, if_false]

/-! ## Loading a document -/

theorem fresh_prelude : Model.prelude.outline.Fresh := by
  have listed : ∀ entry ∈ Model.prelude.typeNames, Model.prelude.outline.HasSymbol entry.1 →
      Model.prelude.outline.symbols entry.1 = some (typeFacts entry.1) := by
    decide +kernel
  intro name
  by_cases owned : Model.prelude.outline.HasSymbol name
  · obtain ⟨symbol, found⟩ := Option.isSome_iff_exists.mp owned
    obtain ⟨facts, there, -⟩ := Option.bind_eq_some_iff.mp found
    obtain ⟨id, known, -⟩ := Option.map_eq_some_iff.mp there
    rw [if_pos owned]
    exact listed _ (Model.mem_of_lookup_eq_some known) owned
  · rw [if_neg owned]
    exact Model.onlyTypeSymbols_prelude name (Option.not_isSome_iff_eq_none.mp owned)

/-- All symbols that a document declares, with their keys. -/
def declared (document : ModelDocument) : List (String × SymbolFacts) :=
  document.types.flatMap declarations

theorem noType_of_mem_declared {document : ModelDocument} :
    ∀ declaration ∈ declared document, declaration.2.kind ≠ .type := by
  intro declaration listed
  obtain ⟨entry, -, listed⟩ := List.mem_flatMap.mp listed
  exact noType_of_mem_declarations listed

/-- A name is that of a type which has a symbol before anything is declared in it. -/
def IsTypeName (document : ModelDocument) (name : String) : Prop :=
  Model.prelude.outline.HasSymbol name ∨ name ∈ document.types.map TypeEntry.name

instance (document : ModelDocument) (name : String) : Decidable (IsTypeName document name) :=
  inferInstanceAs (Decidable (_ ∨ _))

/-- The outline of a document before its symbols are declared. -/
def linked (document : ModelDocument) : Outline :=
  document.types.foldl (fun outline entry => (outline.linkSupertypes entry).linkOwner entry)
    (Model.prelude.outline.defineTypes document.types)

theorem symbols_linked {document : ModelDocument}
    (distinct : (document.types.map TypeEntry.name).Nodup) (key : String) :
    (linked document).symbols key = if IsTypeName document key then
      some { typeFacts key with
        owner := ownerNamed document.types key
        members := nestedIn document.types key } else none := by
  have owned : (Model.prelude.outline.defineTypes document.types).HasSymbol key ↔ _ :=
    hasSymbol_defineTypes_iff document.types
  rw [linked, symbols_links _ _ distinct, fresh_prelude.defineTypes document.types key]
  by_cases isType : IsTypeName document key
  · rw [if_pos (owned.mpr isType), if_pos isType, Option.map_some]
    simp [typeFacts]
  · rw [if_neg (owned.not.mpr isType), if_neg isType, Option.map_none]

/-- A document is loaded in two steps once its names and owners are found in order. -/
theorem load_eq_some_iff {document : ModelDocument} {outline : Outline} :
    load document = some outline ↔ WellNamed document.types ∧
      (∀ entry ∈ document.types, OwnerDeclared (document.types.map TypeEntry.name) entry) ∧
      (declared document).foldlM declare (linked document) = some outline := by
  have links : document.types.foldlM (link (document.types.map TypeEntry.name))
      (Model.prelude.outline.defineTypes document.types) =
        if ∀ entry ∈ document.types, OwnerDeclared (document.types.map TypeEntry.name) entry then
          some (linked document) else none := foldlM_ite _ document.types _
  unfold load
  rw [links]
  by_cases named : WellNamed document.types
  · rw [if_pos named]
    by_cases owners : ∀ entry ∈ document.types,
        OwnerDeclared (document.types.map TypeEntry.name) entry
    · rw [if_pos owners]
      exact (and_iff_right named).trans (and_iff_right owners) |>.symm
    · rw [if_neg owners]
      exact iff_of_false (by simp) fun all => owners all.2.1
  · rw [if_neg named]
    exact iff_of_false (by simp) fun all => named all.1

/-- When a document is loaded by name. -/
theorem isSome_load_iff {document : ModelDocument} :
    (load document).isSome ↔ WellNamed document.types ∧
      (∀ entry ∈ document.types, OwnerDeclared (document.types.map TypeEntry.name) entry) ∧
      ((declared document).map Prod.fst).Nodup ∧
      ∀ key ∈ (declared document).map Prod.fst, ¬ IsTypeName document key := by
  rw [Option.isSome_iff_exists]
  simp only [load_eq_some_iff, exists_and_left]
  refine and_congr_right fun named => and_congr_right fun _ => ?_
  rw [← Option.isSome_iff_exists, isSome_declares_iff]
  simp [symbols_linked named.2]

/-- The symbols that a document describes: those it declares, and those of types, which own the
    types nested in them and the symbols declared in them. -/
structure Describes (document : ModelDocument) (outline : Outline) : Prop where
  declared : ∀ declaration ∈ declared document,
    outline.symbols declaration.1 = some declaration.2
  types : ∀ key, key ∉ (Outline.declared document).map Prod.fst →
    outline.symbols key = if IsTypeName document key then
      some { typeFacts key with
        owner := ownerNamed document.types key
        members := nestedIn document.types key ∪ declaredIn (Outline.declared document) key }
      else none

theorem describes_of_load {document : ModelDocument} (loaded : load document = some outline) :
    Describes document outline := by
  obtain ⟨named, -, declaring⟩ := load_eq_some_iff.mp loaded
  refine ⟨symbols_of_mem_declares _ noType_of_mem_declared declaring, fun key absent => ?_⟩
  rw [symbols_of_not_mem_declares _ declaring key absent, symbols_linked named.2]
  split
  · rfl
  · rfl

/-- A type symbol has as members just the symbols that name it as their owner. -/
theorem Describes.mem_members {document : ModelDocument} (describes : Describes document outline)
    (loaded : (load document).isSome) {key member : String} {facts : SymbolFacts}
    (there : outline.symbols key = some facts) (isType : facts.kind = .type) :
    member ∈ facts.members ↔
      ∃ known, outline.symbols member = some known ∧ known.owner = some key := by
  obtain ⟨named, -, -, free⟩ := isSome_load_iff.mp loaded
  have undeclared : key ∉ (Outline.declared document).map Prod.fst := by
    intro taken
    obtain ⟨declaration, listed, rfl⟩ := List.mem_map.mp taken
    cases there.symm.trans (describes.declared declaration listed)
    exact noType_of_mem_declared declaration listed isType
  have known := describes.types key undeclared
  have members : facts.members =
      nestedIn document.types key ∪ declaredIn (Outline.declared document) key := by
    rw [there] at known
    split at known
    · cases known
      rfl
    · cases known
  rw [members, Finset.mem_union, mem_nestedIn, mem_declaredIn]
  constructor
  · rintro (⟨entry, listed, owned, rfl⟩ | ⟨declaration, listed, owned⟩)
    · have isTypeName : IsTypeName document entry.name := .inr (List.mem_map_of_mem listed)
      have found := describes.types entry.name fun taken => free _ taken isTypeName
      rw [if_pos isTypeName] at found
      exact ⟨_, found, (ownerNamed_of_mem named.2 listed).trans owned⟩
    · exact ⟨declaration, describes.declared _ listed, owned⟩
  · rintro ⟨facts, found, owned⟩
    by_cases taken : member ∈ (Outline.declared document).map Prod.fst
    · obtain ⟨declaration, listed, rfl⟩ := List.mem_map.mp taken
      cases found.symm.trans (describes.declared declaration listed)
      exact .inr ⟨declaration.2, listed, owned⟩
    · rw [describes.types member taken] at found
      split at found
      · cases found
        obtain ⟨entry, listed, same, owner⟩ := exists_of_ownerNamed owned
        exact .inl ⟨entry, listed, owner, same⟩
      · cases found

end Outline

end BugPatterns
