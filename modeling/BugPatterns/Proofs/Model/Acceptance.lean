import BugPatterns.Proofs.Model.Described
import BugPatterns.Proofs.Model.Members

/-!
# Which documents are loaded, and as what

A document is loaded if and only if it is well-formed (`ModelDocument.WellFormed`). Its types,
members, parameters and local variables are then found by their keys as the document describes them,
each symbol of the model is of one sort, and types have as members what they own
(`Model.Represents`).

One kind of variable is of no sort: a field may list parameters and local variables, but only what a
method owns counts as one of these (`ModelDocument.IsFieldVariable`).
-/

namespace BugPatterns

namespace ModelDocument

/-- The keys of all members, parameters and local variables. -/
def keys (document : ModelDocument) : List String :=
  document.types.flatMap fun entry => entry.members.flatMap fun member =>
    Model.memberKey entry member ::
      (member.params ++ member.locals).map (Model.variableKey entry member)

/-- Types have names of their own without blanks and name declared types as their owners. Keys are
    all different, and no class of the document or the prelude goes by one of them. -/
structure WellFormed (document : ModelDocument) : Prop where
  nonempty : ∀ entry ∈ document.types, entry.name ≠ ""
  noBlanks : ∀ entry ∈ document.types, hasBlank entry.name = false
  distinct : (document.types.map TypeEntry.name).Nodup
  owners : ∀ entry ∈ document.types, ∀ owner, entry.owner = some owner →
    owner ∈ document.types.map TypeEntry.name
  keysDistinct : document.keys.Nodup
  noDeclaredType : ∀ key ∈ document.keys, key ∉ document.types.map TypeEntry.name
  noPreludeType : ∀ key ∈ document.keys, ∀ id, Model.prelude.type? key = some id →
    Model.prelude.isClassLike id = false

/-- The key is that of a variable which is listed as a parameter or local variable of a field. -/
def IsFieldVariable (document : ModelDocument) (key : String) : Prop :=
  ∃ entry ∈ document.types, ∃ member ∈ entry.members, member.kind = .field ∧
    ∃ var ∈ member.params ++ member.locals, key = Model.variableKey entry member var

end ModelDocument

/-- What a symbol may turn out to be. -/
inductive SymbolSort where
  | type
  | method
  | field
  | parameter
  | localVariable
  deriving DecidableEq, Repr

namespace Model

/-- The symbol is of that sort. -/
def isOf (model : Model) (symbol : SymbolId) : SymbolSort → Bool
  | .type => model.isTypeSymbol symbol
  | .method => model.isMethodSymbol symbol
  | .field => model.isField symbol
  | .parameter => model.isParameter symbol
  | .localVariable => model.isLocalVariable symbol

/-- A symbol with that key is there, and this is what is known of it, other types and symbols being
    named. -/
def Shows (model : Model) (key : String) (facts : SymbolFacts) : Prop :=
  ∃ symbol, model.symbol? key = some symbol ∧
    (model.symbol symbol).facts model.nameOf model.keyOf = facts

/-- A model holds what a document describes. -/
structure Represents (model : Model) (document : ModelDocument) : Prop where
  keys : ∀ symbol, symbol.index < model.symbolCount →
    model.symbol? (model.keyOf symbol) = some symbol
  kinds : ∀ entry ∈ document.types, ∃ id, model.type? entry.name = some id ∧
    model.tag id = .declared entry.kind
  types : ∀ entry ∈ document.types, ∃ members, model.Shows entry.name
    { name := TypeName.simpleName entry.name, kind := .type, owner := entry.owner,
      type := some entry.name, isStatic := false, isFinal := false, members := members,
      params := [], constant := none }
  members : ∀ entry ∈ document.types, ∀ member ∈ entry.members,
    model.Shows (memberKey entry member)
      { name := member.name, kind := memberSymbolKind member.kind, owner := some entry.name,
        type := member.type, isStatic := member.isStatic, isFinal := member.isFinal, members := ∅,
        params := member.params.map (variableKey entry member), constant := member.constant }
  vars : ∀ entry ∈ document.types, ∀ member ∈ entry.members,
    ∀ var ∈ member.params ++ member.locals, model.Shows (variableKey entry member var)
      { name := var.name, kind := .variable, owner := some (memberKey entry member),
        type := var.type, isStatic := false, isFinal := false, members := ∅, params := [],
        constant := none }
  sorts : ∀ symbol, symbol.index < model.symbolCount →
    ¬ document.IsFieldVariable (model.keyOf symbol) → ∃! sort, model.isOf symbol sort = true
  noSort : ∀ symbol, symbol.index < model.symbolCount →
    document.IsFieldVariable (model.keyOf symbol) → ∀ sort, model.isOf symbol sort = false
  membersDistinct : ∀ symbol, (model.symbol symbol).members.Nodup
  membersOwned : ∀ symbol, symbol.index < model.symbolCount → model.isTypeSymbol symbol = true →
    ∀ member, member ∈ (model.symbol symbol).members ↔ model.owner member = some symbol

end Model

/-! ## Well-formed documents -/

namespace Outline

theorem map_fst_declared (document : ModelDocument) :
    (declared document).map Prod.fst = document.keys := by
  have members (entry : TypeEntry) (member : MemberEntry) :
      (memberDeclarations entry member).map Prod.fst = Model.memberKey entry member ::
        (member.params ++ member.locals).map (Model.variableKey entry member) := by
    simp [memberDeclarations, variableDeclarations, Function.comp_def]
  simp only [declared, declarations, ModelDocument.keys, List.map_flatMap, members]

/-- The types of the prelude that have symbols are its classes. -/
theorem hasSymbol_prelude_iff {name : String} : Model.prelude.outline.HasSymbol name ↔
    ∃ id, Model.prelude.type? name = some id ∧ Model.prelude.isClassLike id = true := by
  have listed : ∀ entry ∈ Model.prelude.typeNames,
      (Model.prelude.type entry.2).symbol.isSome = Model.prelude.isClassLike entry.2 := by
    decide +kernel
  unfold HasSymbol
  rw [Model.types_outline]
  cases found : Model.prelude.type? name with
  | none => simp
  | some id =>
      have same := listed _ (Model.mem_of_lookup_eq_some found)
      simp [TypeInfo.facts, same]

/-- Documents are loaded by name just if they are well-formed. -/
theorem isSome_load_iff_wellFormed {document : ModelDocument} :
    (load document).isSome ↔ document.WellFormed := by
  have named (entry : TypeEntry) : (entry.name.isEmpty || hasBlank entry.name) = false ↔
      entry.name ≠ "" ∧ hasBlank entry.name = false := by
    simp
  rw [isSome_load_iff, map_fst_declared]
  simp only [WellNamed, named, OwnerDeclared, Option.mem_def, IsTypeName, hasSymbol_prelude_iff]
  constructor
  · rintro ⟨⟨names, distinct⟩, owners, keys, free⟩
    refine ⟨fun entry listed => (names entry listed).1, fun entry listed => (names entry listed).2,
      distinct, owners, keys, fun key listed taken => free key listed (.inr taken), ?_⟩
    intro key listed id found
    by_contra classLike
    exact free key listed (.inl ⟨id, found, eq_true_of_ne_false classLike⟩)
  · intro wellFormed
    have names : ∀ entry ∈ document.types, entry.name ≠ "" ∧ hasBlank entry.name = false :=
      fun entry listed => ⟨wellFormed.nonempty entry listed, wellFormed.noBlanks entry listed⟩
    refine ⟨⟨names, wellFormed.distinct⟩, wellFormed.owners, wellFormed.keysDistinct, ?_⟩
    rintro key listed (⟨id, found, classLike⟩ | taken)
    · rw [wellFormed.noPreludeType key listed id found] at classLike
      cases classLike
    · exact wellFormed.noDeclaredType key listed taken

/-! ## What is described -/

variable {document : ModelDocument} {outline : Outline}

/-- What a document declares is a member of a type, or a parameter or local variable of a member. -/
theorem mem_declared {key : String} {facts : SymbolFacts} : (key, facts) ∈ declared document ↔
    ∃ entry ∈ document.types, ∃ member ∈ entry.members,
      (key = Model.memberKey entry member ∧ facts = memberFacts entry member) ∨
        ∃ var ∈ member.params ++ member.locals,
          key = Model.variableKey entry member var ∧ facts = variableFacts entry member var := by
  simp only [declared, declarations, memberDeclarations, variableDeclarations, ← List.map_append,
    List.mem_flatMap, List.mem_cons, List.mem_map, Prod.mk.injEq, eq_comm]

namespace Describes

variable (describes : Describes document outline) (loaded : (load document).isSome)

include describes

theorem member {entry : TypeEntry} (listed : entry ∈ document.types) {member : MemberEntry}
    (inside : member ∈ entry.members) :
    outline.symbols (Model.memberKey entry member) = some (memberFacts entry member) :=
  describes.declared (_, _) (mem_declared.mpr ⟨entry, listed, member, inside, .inl ⟨rfl, rfl⟩⟩)

theorem var {entry : TypeEntry} (listed : entry ∈ document.types) {member : MemberEntry}
    (inside : member ∈ entry.members) {var : VariableEntry}
    (bound : var ∈ member.params ++ member.locals) :
    outline.symbols (Model.variableKey entry member var) =
      some (variableFacts entry member var) :=
  describes.declared (_, _)
    (mem_declared.mpr ⟨entry, listed, member, inside, .inr ⟨var, bound, rfl, rfl⟩⟩)

include loaded

theorem typeName {name : String} (isType : IsTypeName document name) :
    outline.symbols name = some { typeFacts name with
      owner := ownerNamed document.types name
      members := nestedIn document.types name ∪ declaredIn (Outline.declared document) name } := by
  obtain ⟨-, -, -, free⟩ := isSome_load_iff.mp loaded
  rw [describes.types name fun taken => free name taken isType, if_pos isType]

theorem entry {entry : TypeEntry} (listed : entry ∈ document.types) :
    outline.symbols entry.name = some { typeFacts entry.name with
      owner := entry.owner
      members := nestedIn document.types entry.name ∪
        declaredIn (Outline.declared document) entry.name } := by
  obtain ⟨named, -, -, -⟩ := isSome_load_iff.mp loaded
  rw [describes.typeName loaded (.inr (List.mem_map_of_mem listed)),
    ownerNamed_of_mem named.2 listed]

/-- There are no symbols but those of types and those that the document declares. -/
theorem cases_of_symbols {key : String} {facts : SymbolFacts}
    (there : outline.symbols key = some facts) :
    (facts.kind = .type ∧ ∀ owner, facts.owner = some owner → IsTypeName document owner) ∨
      (key, facts) ∈ Outline.declared document := by
  by_cases taken : key ∈ (Outline.declared document).map Prod.fst
  · obtain ⟨declaration, listed, rfl⟩ := List.mem_map.mp taken
    cases there.symm.trans (describes.declared declaration listed)
    exact .inr listed
  · rw [describes.types key taken] at there
    split at there
    · cases there
      refine .inl ⟨rfl, fun owner owned => ?_⟩
      obtain ⟨-, owners, -, -⟩ := isSome_load_iff.mp loaded
      obtain ⟨entry, listed, -, named⟩ := exists_of_ownerNamed owned
      exact .inr (owners entry listed owner named)
    · cases there

end Describes

end Outline

/-! ## Sorts of symbols -/

namespace Model

/-- The sort of a symbol by its kind and that of its owner. -/
def sort? (model : Model) (symbol : SymbolId) : Option SymbolSort :=
  match (model.symbol symbol).kind, (model.owner symbol).map fun id => (model.symbol id).kind with
  | .type, _ => some .type
  | .method, _ => some .method
  | .variable, some .type => some .field
  | .variable, some .method =>
      if model.isParameter symbol then some .parameter else some .localVariable
  | .variable, _ => none

/-- Parameters are owned by methods. -/
theorem isParameter_eq_false {model : Model} {symbol : SymbolId}
    (above : ∀ owner, model.owner symbol = some owner → (model.symbol owner).kind ≠ .method) :
    model.isParameter symbol = false := by
  unfold isParameter
  cases owned : model.owner symbol with
  | none => rfl
  | some owner =>
      have noMethod : model.isMethodSymbol owner = false := decide_eq_false (above owner owned)
      exact Bool.and_eq_false_imp.mpr fun method => by rw [noMethod] at method; cases method

/-- How the kind of a symbol and that of its owner go together. -/
inductive Placed (model : Model) (document : ModelDocument) (symbol : SymbolId) : Prop where
  | type (kind : (model.symbol symbol).kind = .type)
      (above : ∀ owner, model.owner symbol = some owner → (model.symbol owner).kind = .type)
  | member (owner : SymbolId) (kind : (model.symbol symbol).kind ≠ .type)
      (owned : model.owner symbol = some owner) (above : (model.symbol owner).kind = .type)
  | methodVariable (owner : SymbolId) (kind : (model.symbol symbol).kind = .variable)
      (owned : model.owner symbol = some owner) (above : (model.symbol owner).kind = .method)
  | fieldVariable (owner : SymbolId) (kind : (model.symbol symbol).kind = .variable)
      (owned : model.owner symbol = some owner) (above : (model.symbol owner).kind = .variable)
      (listed : document.IsFieldVariable (model.keyOf symbol))

/-- A symbol is of its sort and of no other. -/
theorem Placed.isOf_iff_sort? {model : Model} {document : ModelDocument} {symbol : SymbolId}
    (placed : Placed model document symbol) (sort : SymbolSort) :
    model.isOf symbol sort = true ↔ model.sort? symbol = some sort := by
  unfold sort?
  cases placed with
  | type kind above =>
      have noParameter : model.isParameter symbol = false :=
        isParameter_eq_false fun owner owned => by simp [above owner owned]
      cases sort <;>
        simp [isOf, isTypeSymbol, isMethodSymbol, isField, isLocalVariable, kind, noParameter]
  | member owner kind owned above =>
      have noParameter : model.isParameter symbol = false :=
        isParameter_eq_false fun other also => by
          cases owned.symm.trans also
          simp [above]
      cases same : (model.symbol symbol).kind
      · exact absurd same kind
      · cases sort <;>
          simp [isOf, isTypeSymbol, isMethodSymbol, isField, isLocalVariable, same, noParameter]
      · cases sort <;>
          simp [isOf, isTypeSymbol, isMethodSymbol, isField, isLocalVariable, same, owned, above,
            noParameter]
  | methodVariable owner kind owned above =>
      cases parameter : model.isParameter symbol <;> cases sort <;>
        simp [isOf, isTypeSymbol, isMethodSymbol, isField, isLocalVariable, kind, owned, above,
          parameter]
  | fieldVariable owner kind owned above listed =>
      have noParameter : model.isParameter symbol = false :=
        isParameter_eq_false fun other also => by
          cases owned.symm.trans also
          simp [above]
      cases sort <;>
        simp [isOf, isTypeSymbol, isMethodSymbol, isField, isLocalVariable, kind, owned, above,
          noParameter]

/-- A symbol is of some sort, unless it is a variable of a field. -/
theorem Placed.isSome_sort? {model : Model} {document : ModelDocument} {symbol : SymbolId}
    (placed : Placed model document symbol)
    (noFieldVariable : ¬ document.IsFieldVariable (model.keyOf symbol)) :
    (model.sort? symbol).isSome := by
  unfold sort?
  cases placed with
  | type kind above => rw [kind]; rfl
  | member owner kind owned above =>
      rw [owned, Option.map_some, above]
      cases (model.symbol symbol).kind <;> rfl
  | methodVariable owner kind owned above =>
      rw [kind, owned, Option.map_some, above]
      cases model.isParameter symbol <;> rfl
  | fieldVariable owner kind owned above listed => exact absurd listed noFieldVariable

theorem shows_iff {model : Model} {key : String} {facts : SymbolFacts} :
    model.Shows key facts ↔ model.outline.symbols key = some facts := by
  rw [symbols_outline, Option.map_eq_some_iff]
  rfl

namespace Sound

variable {model : Model} (sound : model.Sound)

include sound

/-- The owner of a symbol is the one that goes by the key of its owner. -/
theorem exists_owner {symbol : SymbolId} {key : String} {facts : SymbolFacts}
    (named : (model.owner symbol).map model.keyOf = some key)
    (known : model.outline.symbols key = some facts) :
    ∃ owner, model.owner symbol = some owner ∧ (model.symbol owner).kind = facts.kind := by
  obtain ⟨owner, owned, rfl⟩ := Option.map_eq_some_iff.mp named
  have there := (sound.symbols symbol).owner owner owned
  rw [sound.outline_keyOf there] at known
  cases known
  exact ⟨owner, owned, rfl⟩

/-- A symbol owns another one if its key is that of the owner. -/
theorem owner_iff {symbol member : SymbolId} (there : symbol.index < model.symbolCount) :
    model.owner member = some symbol ↔
      (model.owner member).map model.keyOf = some (model.keyOf symbol) := by
  constructor
  · intro owned
    rw [owned, Option.map_some]
  · intro named
    obtain ⟨owner, owned, same⟩ := Option.map_eq_some_iff.mp named
    have known := (sound.symbols member).owner owner owned
    rw [owned, sound.keyOf_inj known there same]

end Sound

section Loaded

variable {document : ModelDocument} {model : Model} (loaded : load document = .ok model)

include loaded

theorem describes_outline : Outline.Describes document model.outline ∧
    (Outline.load document).isSome := by
  obtain ⟨-, described⟩ := sound_of_load loaded
  exact ⟨Outline.describes_of_load described, by rw [described]; rfl⟩

/-- How a variable and the member that lists it go together. -/
theorem placed_var {symbol : SymbolId} {entry : TypeEntry} {member : MemberEntry}
    {var : VariableEntry} (listed : entry ∈ document.types) (inside : member ∈ entry.members)
    (facts : (model.symbol symbol).facts model.nameOf model.keyOf =
      Outline.variableFacts entry member var) :
    (model.symbol symbol).kind = .variable ∧ ∃ owner, model.owner symbol = some owner ∧
      (model.symbol owner).kind = memberSymbolKind member.kind := by
  obtain ⟨sound, -⟩ := sound_of_load loaded
  obtain ⟨describes, -⟩ := describes_outline loaded
  have kind : (model.symbol symbol).kind = .variable := congrArg SymbolFacts.kind facts
  have owner : (model.owner symbol).map model.keyOf = some (memberKey entry member) :=
    congrArg SymbolFacts.owner facts
  exact ⟨kind, sound.exists_owner owner (describes.member listed inside)⟩

theorem placed_of_load {symbol : SymbolId} (there : symbol.index < model.symbolCount) :
    Placed model document symbol := by
  obtain ⟨sound, -⟩ := sound_of_load loaded
  obtain ⟨describes, described⟩ := describes_outline loaded
  rcases describes.cases_of_symbols described (sound.outline_keyOf there) with
    ⟨kind, owners⟩ | declared
  · refine .type kind fun owner owned => ?_
    have named : (model.owner symbol).map model.keyOf = some (model.keyOf owner) := by
      rw [owned, Option.map_some]
    obtain ⟨other, also, above⟩ :=
      sound.exists_owner named (describes.typeName described (owners _ named))
    cases owned.symm.trans also
    exact above
  · obtain ⟨entry, listed, member, inside, ⟨-, facts⟩ | ⟨var, bound, key, facts⟩⟩ :=
      Outline.mem_declared.mp declared
    · have owner : (model.owner symbol).map model.keyOf = some entry.name :=
        congrArg SymbolFacts.owner facts
      obtain ⟨owner, owned, above⟩ := sound.exists_owner owner (describes.entry described listed)
      refine .member owner (fun isType => Outline.memberFacts_noType entry member ?_) owned above
      exact (congrArg SymbolFacts.kind facts).symm.trans isType
    · obtain ⟨kind, owner, owned, above⟩ := placed_var loaded listed inside facts
      cases isField : member.kind with
      | method =>
          rw [isField] at above
          exact .methodVariable owner kind owned above
      | field =>
          rw [isField] at above
          exact .fieldVariable owner kind owned above
            ⟨entry, listed, member, inside, isField, var, bound, key⟩

/-- A variable of a field is of no sort. -/
theorem sort?_of_isFieldVariable {symbol : SymbolId} (there : symbol.index < model.symbolCount)
    (listed : document.IsFieldVariable (model.keyOf symbol)) : model.sort? symbol = none := by
  obtain ⟨sound, -⟩ := sound_of_load loaded
  obtain ⟨describes, -⟩ := describes_outline loaded
  obtain ⟨entry, listed, member, inside, isField, var, bound, key⟩ := listed
  have known := sound.outline_keyOf there
  rw [key, describes.var listed inside bound] at known
  obtain ⟨kind, owner, owned, above⟩ :=
    placed_var loaded listed inside (Option.some.inj known).symm
  rw [isField] at above
  unfold sort?
  rw [kind, owned, Option.map_some, above]
  rfl

/-- The members of a type are the symbols that it owns. -/
theorem mem_members_iff {symbol : SymbolId} (there : symbol.index < model.symbolCount)
    (isType : model.isTypeSymbol symbol = true) (member : SymbolId) :
    member ∈ (model.symbol symbol).members ↔ model.owner member = some symbol := by
  obtain ⟨sound, -⟩ := sound_of_load loaded
  obtain ⟨describes, described⟩ := describes_outline loaded
  have known := sound.outline_keyOf there
  have byKey (key : String) : key ∈ SymbolFacts.members _ ↔ _ :=
    describes.mem_members described known (of_decide_eq_true isType)
  simp only [SymbolInfo.facts, List.mem_toFinset, List.mem_map] at byKey
  constructor
  · intro listed
    have inside := (sound.symbols symbol).members member listed
    obtain ⟨facts, found, owned⟩ := (byKey (model.keyOf member)).mp ⟨member, listed, rfl⟩
    rw [sound.outline_keyOf inside] at found
    cases found
    exact (sound.owner_iff there).mpr owned
  · intro owned
    have inside : member.index < model.symbolCount := by
      by_contra beyond
      rw [owner, symbol_of_le model (Nat.not_lt.mp beyond)] at owned
      cases owned
    obtain ⟨other, listed, same⟩ := (byKey (model.keyOf member)).mpr
      ⟨_, sound.outline_keyOf inside, (sound.owner_iff there).mp owned⟩
    have known := (sound.symbols symbol).members other listed
    rwa [sound.keyOf_inj known inside same] at listed

/-- A loaded model holds what its document describes. -/
theorem represents_of_load : model.Represents document := by
  obtain ⟨sound, outlined⟩ := sound_of_load loaded
  obtain ⟨describes, described⟩ := describes_outline loaded
  obtain ⟨named, -, -, -⟩ := Outline.isSome_load_iff.mp described
  refine ⟨fun symbol there => sound.symbol?_keyOf there, ?_, ?_, ?_, ?_, ?_, ?_,
    (tidy_of_load loaded).nodup, fun symbol => mem_members_iff loaded⟩
  · intro entry listed
    obtain ⟨facts, there, tag⟩ :=
      (Outline.hasTag_defineTypes_of_mem named.2 listed).linkAndDeclare outlined
    obtain ⟨id, found, rfl⟩ := Option.map_eq_some_iff.mp there
    exact ⟨id, found, tag⟩
  · intro entry listed
    exact ⟨_, shows_iff.mpr (describes.entry described listed)⟩
  · intro entry listed member inside
    exact shows_iff.mpr (describes.member listed inside)
  · intro entry listed member inside var bound
    exact shows_iff.mpr (describes.var listed inside bound)
  · intro symbol there noFieldVariable
    have placed := placed_of_load loaded there
    obtain ⟨sort, found⟩ := Option.isSome_iff_exists.mp (placed.isSome_sort? noFieldVariable)
    refine ⟨sort, (placed.isOf_iff_sort? sort).mpr found, fun other also => ?_⟩
    exact Option.some.inj (((placed.isOf_iff_sort? other).mp also).symm.trans found)
  · intro symbol there listed sort
    have none := sort?_of_isFieldVariable loaded there listed
    refine Bool.eq_false_iff.mpr fun also => ?_
    have found := ((placed_of_load loaded there).isOf_iff_sort? sort).mp also
    rw [none] at found
    cases found

end Loaded

/-- Loading accepts the well-formed documents and no others, and what it makes of one holds what the
    document describes. -/
theorem load_iff_wellFormed (document : ModelDocument) :
    ((∃ model, load document = .ok model) ↔ document.WellFormed) ∧
      ∀ model, load document = .ok model → model.Represents document :=
  ⟨(tracks_load document).isSome_iff.symm.trans Outline.isSome_load_iff_wellFormed,
    fun _ loaded => represents_of_load loaded⟩

/-- A class with a constant, a method with a parameter and a local variable, and an interface inside
    of it. -/
def shelfDocument : ModelDocument :=
  ⟨[⟨"p.Shelf", .ordinary, none, [], none,
      [⟨"size", none, .field, true, true, some "int", some "3", [], []⟩,
        ⟨"put", none, .method, false, false, some "void", none, [⟨"book", none, some "p.Book"⟩],
          [⟨"slot", none, some "int"⟩]⟩]⟩,
    ⟨"p.Shelf.Row", .interface, none, [], some "p.Shelf", []⟩]⟩

theorem load_iff_wellFormed_shelf : ∃ model, load shelfDocument = .ok model ∧
    shelfDocument.WellFormed ∧ model.Represents shelfDocument ∧
      ["p.Shelf", "p.Shelf#put.book", "p.Shelf#put.slot"].map model.symbol? =
        [some ⟨7⟩, some ⟨11⟩, some ⟨12⟩] ∧
      (model.symbol ⟨7⟩).members = [⟨8⟩, ⟨9⟩, ⟨10⟩] ∧
      model.isOf ⟨11⟩ .parameter = true ∧ model.isOf ⟨12⟩ .localVariable = true := by
  have evaluated : (load shelfDocument).toOption.map (fun model =>
      (["p.Shelf", "p.Shelf#put.book", "p.Shelf#put.slot"].map model.symbol?,
        (model.symbol ⟨7⟩).members, model.isOf ⟨11⟩ .parameter,
        model.isOf ⟨12⟩ .localVariable)) =
      some ([some ⟨7⟩, some ⟨11⟩, some ⟨12⟩], [⟨8⟩, ⟨9⟩, ⟨10⟩], true, true) := by
    decide +kernel
  obtain ⟨model, loaded, found⟩ := exists_ok_of_toOption_map evaluated
  simp only [Prod.mk.injEq] at found
  have accepted := load_iff_wellFormed shelfDocument
  exact ⟨model, loaded, accepted.1.mp ⟨model, loaded⟩, accepted.2 model loaded, found⟩

/-- A class with a field that lists a parameter. -/
def fieldParameterDocument : ModelDocument :=
  ⟨[⟨"p.Shelf", .ordinary, none, [], none,
    [⟨"size", none, .field, false, false, some "int", none, [⟨"unit", none, some "int"⟩], []⟩]⟩]⟩

/-- Not all symbols of loaded models are of some sort: what a field lists as its parameter is not,
    as only methods have parameters. -/
theorem not_forall_existsUnique_sort : ¬ ∀ (document : ModelDocument) (model : Model),
    load document = .ok model → ∀ symbol, symbol.index < model.symbolCount →
      ∃! sort, model.isOf symbol sort = true := by
  have evaluated : (load fieldParameterDocument).toOption.map (fun model =>
      (model.symbolCount, model.symbol? "p.Shelf#size.unit",
        [SymbolSort.type, .method, .field, .parameter, .localVariable].any (model.isOf ⟨9⟩))) =
      some (10, some ⟨9⟩, false) := by
    decide +kernel
  obtain ⟨model, loaded, found⟩ := exists_ok_of_toOption_map evaluated
  simp only [Prod.mk.injEq] at found
  obtain ⟨count, -, none⟩ := found
  intro all
  obtain ⟨sort, found, -⟩ := all fieldParameterDocument model loaded ⟨9⟩ (by rw [count]; decide)
  refine absurd found (List.any_eq_false.mp none sort ?_)
  cases sort <;> decide

end Model

end BugPatterns
