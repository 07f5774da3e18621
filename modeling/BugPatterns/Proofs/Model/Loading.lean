import BugPatterns.Proofs.Model.Interning
import BugPatterns.Proofs.Model.Prelude

/-!
# Loading by name

Loading a document has its counterpart on outlines (`Outline.load`), which defines the types, links
each to its supertypes and its owner, and declares the symbols. A document is loaded into a sound
model with the outline so computed, and it is refused exactly when its outline is
(`Model.tracks_load`).

A method is declared before its parameters, which are added to it one by one. On outlines it has all
of them from the start, so that the declarations of a document are one list in which each stands for
itself (`Outline.declarations`).
-/

namespace BugPatterns

namespace Outline

/-- The names that are mentioned by the supertypes of a type, after its own. -/
def linkedNames (entry : TypeEntry) : List String :=
  entry.name :: ((Model.superclassName? entry).toList ++ entry.interfaces)

/-- Sets the supertypes of a type. -/
def linkSupertypes (outline : Outline) (entry : TypeEntry) : Outline :=
  (outline.withNames (linkedNames entry)).modifyType entry.name fun facts =>
    { facts with
      superclass := Model.superclassName? entry
      interfaces := entry.interfaces.foldl appendNew facts.interfaces }

/-- Nests a type in the one it names as its owner. -/
def linkOwner (outline : Outline) (entry : TypeEntry) : Outline :=
  match entry.owner with
  | none => outline
  | some owner => outline.nest entry.name owner

theorem types_linkOwner (outline : Outline) (entry : TypeEntry) :
    (outline.linkOwner entry).types = outline.types := by
  unfold linkOwner
  cases entry.owner <;> rfl

/-- The owner that a type names, if any, is one of the types of the description. -/
def OwnerDeclared (declared : List String) (entry : TypeEntry) : Prop :=
  ∀ owner ∈ entry.owner, owner ∈ declared

instance (declared : List String) (entry : TypeEntry) : Decidable (OwnerDeclared declared entry) :=
  inferInstanceAs (Decidable (∀ owner ∈ entry.owner, owner ∈ declared))

/-- Sets the supertypes and the owner of a type. -/
def link (declared : List String) (outline : Outline) (entry : TypeEntry) : Option Outline :=
  if OwnerDeclared declared entry then some ((outline.linkSupertypes entry).linkOwner entry)
  else none

/-- What a description says of a parameter or local variable. -/
def variableFacts (entry : TypeEntry) (member : MemberEntry) (var : VariableEntry) : SymbolFacts :=
  ⟨var.name, .variable, some (Model.memberKey entry member), var.type, false, false, ∅, [], none⟩

/-- What a description says of a member. -/
def memberFacts (entry : TypeEntry) (member : MemberEntry) : SymbolFacts :=
  ⟨member.name, Model.memberSymbolKind member.kind, some entry.name, member.type, member.isStatic,
    member.isFinal, ∅, member.params.map (Model.variableKey entry member), member.constant⟩

theorem memberFacts_noType (entry : TypeEntry) (member : MemberEntry) :
    (memberFacts entry member).kind ≠ .type := by
  unfold memberFacts Model.memberSymbolKind
  cases member.kind <;> exact SymbolKind.noConfusion

/-- The variables of a member, with their keys. -/
def variableDeclarations (entry : TypeEntry) (member : MemberEntry) (vars : List VariableEntry) :
    List (String × SymbolFacts) :=
  vars.map fun var => (Model.variableKey entry member var, variableFacts entry member var)

/-- A member and its variables, with their keys. -/
def memberDeclarations (entry : TypeEntry) (member : MemberEntry) : List (String × SymbolFacts) :=
  (Model.memberKey entry member, memberFacts entry member) ::
    (variableDeclarations entry member member.params ++
      variableDeclarations entry member member.locals)

/-- All symbols that the description of a type declares, with their keys. -/
def declarations (entry : TypeEntry) : List (String × SymbolFacts) :=
  entry.members.flatMap (memberDeclarations entry)

/-- Declares a symbol under a key that no symbol has yet, and adds the name of its type. -/
def declare (outline : Outline) (declaration : String × SymbolFacts) : Option Outline :=
  if (outline.symbols declaration.1).isSome then none
  else some ((outline.enter declaration.1 declaration.2).withNames declaration.2.type.toList)

/-- The names of types are neither empty nor do they hold blanks, and they are all different. -/
def WellNamed (entries : List TypeEntry) : Prop :=
  (∀ entry ∈ entries, (entry.name.isEmpty || hasBlank entry.name) = false) ∧
    (entries.map TypeEntry.name).Nodup

instance (entries : List TypeEntry) : Decidable (WellNamed entries) :=
  inferInstanceAs (Decidable (_ ∧ _))

/-- Defines the types of a description. -/
def defineTypes (outline : Outline) (entries : List TypeEntry) : Outline :=
  entries.foldl (fun outline entry => outline.define entry.name (.declared entry.kind)) outline

/-- The outline that a document describes. -/
def load (document : ModelDocument) : Option Outline :=
  if WellNamed document.types then do
    let outline ← document.types.foldlM (link (document.types.map TypeEntry.name))
      (Model.prelude.outline.defineTypes document.types)
    (document.types.flatMap declarations).foldlM declare outline
  else none

end Outline

namespace Model

/-- A computation on models and one on outlines both fail, or both succeed with a model and an
    outline that belong together. -/
inductive Tracks (model : Model) : Except ModelError Model → Option Outline → Prop where
  | fails (cause : ModelError) : Tracks model (.error cause) none
  | succeeds {grown : Model} {outline : Outline} (advances : Advances model grown outline) :
      Tracks model (.ok grown) (some outline)

namespace Tracks

variable {model : Model} {result : Except ModelError Model} {outline? : Option Outline}

theorem isSome_iff (tracks : Tracks model result outline?) :
    outline?.isSome ↔ ∃ grown, result = .ok grown := by
  cases tracks <;> simp

theorem after {before : Model} {outline : Outline} (advances : Advances before model outline)
    (tracks : Tracks model result outline?) : Tracks before result outline? := by
  cases tracks with
  | fails cause => exact .fails cause
  | succeeds later => exact .succeeds (advances.trans later)

theorem bind {rest : Model → Except ModelError Model} {restOutline : Outline → Option Outline}
    (first : Tracks model result outline?)
    (later : ∀ {grown}, outline? = some grown.outline → Advances model grown grown.outline →
      Tracks grown (rest grown) (restOutline grown.outline)) :
    Tracks model (result >>= rest) (outline? >>= restOutline) := by
  cases first with
  | fails cause => exact .fails cause
  | succeeds advances =>
      obtain rfl := advances.outline_eq
      exact .after advances (later rfl advances)

/-- Folds belong together when their steps do, as long as something is known of the model that
    stays true as it grows. -/
theorem foldlM {α : Type} {step : Model → α → Except ModelError Model}
    {stepOutline : Outline → α → Option Outline} (known : Model → Prop)
    (kept : ∀ {before after outline}, known before → Advances before after outline → known after)
    (items : List α)
    (one : ∀ a ∈ items, ∀ model : Model, model.Sound → known model →
      Tracks model (step model a) (stepOutline model.outline a)) :
    ∀ {model : Model}, model.Sound → known model →
      Tracks model (items.foldlM step model) (items.foldlM stepOutline model.outline) := by
  induction items with
  | nil => exact fun sound _ => .succeeds sound.advances
  | cons a items ih =>
      intro model sound start
      rw [List.foldlM_cons, List.foldlM_cons]
      refine (one a List.mem_cons_self model sound start).bind fun _ advances => ?_
      exact ih (fun b listed => one b (List.mem_cons_of_mem _ listed)) advances.sound
        (kept start advances)

end Tracks

/-! ## Defining the types -/

/-- A type of that name is there and has a symbol. -/
def Declares (model : Model) (name : String) : Prop :=
  ∃ id symbol, model.type? name = some id ∧ (model.type id).symbol = some symbol

theorem declares_iff {model : Model} {name : String} :
    model.Declares name ↔ model.outline.HasSymbol name := by
  unfold Declares Outline.HasSymbol
  rw [types_outline]
  cases model.type? name with
  | none => simp
  | some id => simp [TypeInfo.facts, Option.isSome_iff_exists]

theorem Declares.advances {before after : Model} {outline : Outline} {name : String}
    (declares : before.Declares name) (advances : Advances before after outline) :
    after.Declares name := by
  obtain ⟨id, symbol, found, owned⟩ := declares
  exact ⟨id, symbol, advances.types found, advances.owned owned⟩

end Model

namespace Outline

theorem OnlyTypeSymbols.define {outline : Outline} (only : outline.OnlyTypeSymbols) (name : String)
    (tag : TypeTag) : (outline.define name tag).OnlyTypeSymbols := by
  intro other unowned
  rw [types_define] at unowned
  rw [symbols_define]
  by_cases same : other = name
  · rw [if_pos same] at unowned
    cases unowned
  · rw [if_neg same] at unowned
    rw [if_neg fun both => same both.1]
    exact only other unowned

theorem hasSymbol_define_iff {outline : Outline} (name : String) (tag : TypeTag) (other : String) :
    (outline.define name tag).HasSymbol other ↔ outline.HasSymbol other ∨ other = name := by
  unfold HasSymbol
  rw [types_define]
  by_cases same : other = name
  · simp [same, declaredFacts]
  · simp [same]

/-- The types that have symbols are those that had some before and those that are defined. -/
theorem hasSymbol_defineTypes_iff {name : String} (entries : List TypeEntry) :
    ∀ {outline : Outline}, (outline.defineTypes entries).HasSymbol name ↔
      outline.HasSymbol name ∨ name ∈ entries.map TypeEntry.name := by
  induction entries with
  | nil => simp [defineTypes]
  | cons entry entries ih =>
      intro outline
      have rest : (outline.defineTypes (entry :: entries)) =
          (outline.define entry.name (.declared entry.kind)).defineTypes entries := rfl
      rw [rest, ih, hasSymbol_define_iff, List.map_cons, List.mem_cons, or_assoc]

theorem wellNamed_cons {entry : TypeEntry} {entries : List TypeEntry} :
    WellNamed (entry :: entries) ↔
      (entry.name.isEmpty || hasBlank entry.name) = false ∧ WellNamed entries ∧
        ∀ other ∈ entries, other.name ≠ entry.name := by
  unfold WellNamed
  rw [List.forall_mem_cons, List.map_cons, List.nodup_cons]
  constructor
  · rintro ⟨⟨valid, all⟩, absent, distinct⟩
    exact ⟨valid, ⟨all, distinct⟩, fun other listed same =>
      absent (same ▸ List.mem_map_of_mem listed)⟩
  · rintro ⟨valid, ⟨all, distinct⟩, others⟩
    refine ⟨⟨valid, all⟩, fun listed => ?_, distinct⟩
    obtain ⟨other, member, same⟩ := List.mem_map.mp listed
    exact others other member same

end Outline

namespace Model

/-- Types are defined unless their names are refused; none of them may have been seen before. -/
theorem tracks_defineTypes (entries : List TypeEntry) :
    ∀ {model : Model} (seen : List String), model.Sound → model.outline.OnlyTypeSymbols →
      Tracks model (model.defineTypes seen entries)
        (if Outline.WellNamed entries ∧ ∀ entry ∈ entries, entry.name ∉ seen then
          some (model.outline.defineTypes entries) else none) := by
  induction entries with
  | nil =>
      intro model seen sound _
      rw [if_pos ⟨⟨by simp, by simp⟩, by simp⟩]
      exact .succeeds sound.advances
  | cons entry entries ih =>
      intro model seen sound only
      unfold Model.defineTypes
      by_cases invalid : (entry.name.isEmpty || hasBlank entry.name) = true
      · rw [if_pos invalid, if_neg]
        · exact .fails _
        · rintro ⟨named, -⟩
          rw [(Outline.wellNamed_cons.mp named).1] at invalid
          cases invalid
      · rw [if_neg invalid]
        by_cases again : entry.name ∈ seen
        · rw [if_pos again, if_neg]
          · exact .fails _
          · rintro ⟨-, fresh⟩
            exact fresh entry List.mem_cons_self again
        · rw [if_neg again]
          have defined := sound.define entry.name (.declared entry.kind) (only entry.name)
          have rest := ih (entry.name :: seen) defined.sound
            (defined.outline_eq ▸ only.define entry.name (.declared entry.kind))
          have same : (Outline.WellNamed (entry :: entries) ∧
                ∀ other ∈ entry :: entries, other.name ∉ seen) ↔
              Outline.WellNamed entries ∧
                ∀ other ∈ entries, other.name ∉ entry.name :: seen := by
            rw [Outline.wellNamed_cons, List.forall_mem_cons]
            simp only [List.mem_cons, not_or]
            constructor
            · rintro ⟨⟨-, named, others⟩, -, fresh⟩
              exact ⟨named, fun other listed => ⟨others other listed, fresh other listed⟩⟩
            · rintro ⟨named, fresh⟩
              refine ⟨⟨Bool.eq_false_iff.mpr invalid, named, ?_⟩, again, ?_⟩
              · exact fun other listed => (fresh other listed).1
              · exact fun other listed => (fresh other listed).2
          rw [defined.outline_eq] at rest
          simp only [same]
          exact rest.after defined

/-! ## Linking the types -/

namespace Sound

variable {model : Model} {name : String} {id : TypeId} (sound : model.Sound)
  (found : model.type? name = some id)

include sound found

theorem linkSuperclass (entry : TypeEntry) :
    Advances model (model.linkSuperclass id entry)
      ((model.outline.withNames (superclassName? entry).toList).modifyType name fun facts =>
        { facts with superclass := superclassName? entry }) := by
  unfold Model.linkSuperclass
  cases superclassName? entry with
  | none =>
      have set := sound.setSuperclass found none (by rintro _ ⟨⟩)
      rw [Option.toList_none, Outline.withNames_of_isSome (by simp)]
      exact set
  | some superclass =>
      obtain ⟨interned, known⟩ := sound.intern superclass
      have set := interned.sound.setSuperclass (interned.types found)
        (some (model.intern superclass).1)
        (by rintro _ ⟨rfl⟩; exact interned.sound.lt_of_type? known)
      rw [Option.map_some, interned.sound.nameOf_of_type? known, interned.outline_eq] at set
      exact interned.trans set

theorem linkInterface (interface : String) :
    Advances model (Model.linkInterface id model interface)
      ((model.outline.withNames [interface]).modifyType name fun facts =>
        { facts with interfaces := appendNew facts.interfaces interface }) := by
  unfold Model.linkInterface
  obtain ⟨interned, known⟩ := sound.intern interface
  have added := interned.sound.addInterface (interned.types found)
    (interned.sound.lt_of_type? known)
  rw [interned.sound.nameOf_of_type? known, interned.outline_eq] at added
  exact interned.trans added

end Sound

/-- A type that was found by its name before names were added still is in the outline. -/
theorem isSome_withNames {model : Model} {name : String} {id : TypeId}
    (found : model.type? name = some id) (names : List String) :
    ((model.outline.withNames names).types name).isSome := by
  rw [Outline.types_withNames_of_some (outline_types found), Option.isSome_some]

theorem Sound.linkInterfaces {name : String} {id : TypeId} (interfaces : List String) :
    ∀ {model : Model}, model.Sound → model.type? name = some id →
      Advances model (interfaces.foldl (Model.linkInterface id) model)
        ((model.outline.withNames interfaces).modifyType name fun facts =>
          { facts with interfaces := interfaces.foldl appendNew facts.interfaces }) := by
  induction interfaces with
  | nil =>
      intro model sound _
      rw [Outline.withNames_of_isSome (by simp)]
      have same : (model.outline.modifyType name fun facts =>
          { facts with interfaces := [].foldl appendNew facts.interfaces }) = model.outline := by
        ext1
        · funext other
          simp
        · rfl
      rw [same]
      exact sound.advances
  | cons interface interfaces ih =>
      intro model sound found
      have first := sound.linkInterface found interface
      have rest := ih first.sound (first.types found)
      rw [first.outline_eq, Outline.modifyType_withNames (isSome_withNames found _),
        Outline.modifyType_modifyType, Outline.withNames_withNames] at rest
      · exact first.trans rest
      · exact fun _ => rfl

/-- The supertypes of a type are set. -/
theorem Sound.linkSupertypes {model interned : Model} {entry : TypeEntry} {id : TypeId}
    (based : Advances model interned (model.outline.withNames [entry.name]))
    (found : interned.type? entry.name = some id) :
    Advances model
      (entry.interfaces.foldl (Model.linkInterface id) (interned.linkSuperclass id entry))
      (model.outline.linkSupertypes entry) := by
  have classes := based.sound.linkSuperclass found entry
  have interfaces := Sound.linkInterfaces entry.interfaces classes.sound (classes.types found)
  have there := isSome_withNames found (superclassName? entry).toList
  rw [based.outline_eq] at classes there
  rw [classes.outline_eq, Outline.modifyType_withNames there, Outline.modifyType_modifyType,
    Outline.withNames_withNames, Outline.withNames_withNames] at interfaces
  · exact (based.trans classes).trans interfaces
  · exact fun _ => rfl

/-- A type is nested in its owner, if that is one of the types of the description. -/
theorem Sound.tracks_linkOwner {model : Model} (sound : model.Sound) {declared : List String}
    (known : ∀ name ∈ declared, model.Declares name) {entry : TypeEntry} {id : TypeId}
    (found : model.type? entry.name = some id) (listed : entry.name ∈ declared) :
    Tracks model (model.linkOwner declared id entry)
      (if Outline.OwnerDeclared declared entry then some (model.outline.linkOwner entry)
        else none) := by
  cases owned : entry.owner with
  | none =>
      have all : Outline.OwnerDeclared declared entry := by
        unfold Outline.OwnerDeclared
        rw [owned]
        rintro _ ⟨⟩
      rw [if_pos all, Model.linkOwner, Outline.linkOwner, owned]
      exact .succeeds sound.advances
  | some owner =>
      have all : Outline.OwnerDeclared declared entry ↔ owner ∈ declared := by
        unfold Outline.OwnerDeclared
        rw [owned]
        exact ⟨fun all => all owner rfl, by rintro there _ ⟨rfl⟩; exact there⟩
      rw [Model.linkOwner, Outline.linkOwner, owned]
      by_cases there : owner ∈ declared
      · obtain ⟨outerType, outer, outerFound, outerOwned⟩ := known owner there
        obtain ⟨nestedType, nested, nestedFound, nestedOwned⟩ := known entry.name listed
        obtain rfl := Option.some.inj (nestedFound.symm.trans found)
        have nestedKey := sound.own _ nested nestedOwned
        have outerKey := sound.own _ outer outerOwned
        rw [sound.nameOf_of_type? nestedFound] at nestedKey
        rw [sound.nameOf_of_type? outerFound] at outerKey
        have advances := sound.nest ((sound.types _).symbol nested nestedOwned)
          ((sound.types _).symbol outer outerOwned)
        rw [nestedKey, outerKey] at advances
        rw [if_pos (all.mpr there)]
        simp only [there, if_true, outerFound, Option.bind_some, outerOwned, nestedOwned]
        exact .succeeds advances
      · rw [if_neg (all.not.mpr there)]
        simp only [there, if_false]
        exact .fails _

theorem Sound.tracks_linkType {model : Model} (sound : model.Sound) {declared : List String}
    (known : ∀ name ∈ declared, model.Declares name) {entry : TypeEntry}
    (listed : entry.name ∈ declared) :
    Tracks model (linkType declared model entry) (model.outline.link declared entry) := by
  obtain ⟨interned, found⟩ := sound.intern entry.name
  have linked := Sound.linkSupertypes interned found
  have classes := interned.sound.linkSuperclass found entry
  have interfaces := Sound.linkInterfaces entry.interfaces classes.sound (classes.types found)
  have owner := linked.sound.tracks_linkOwner
    (fun name member => (known name member).advances linked)
    (interfaces.types (classes.types found)) listed
  rw [linked.outline_eq] at owner
  exact owner.after linked

/-! ## Declaring the symbols -/

theorem Sound.internOption {model : Model} (sound : model.Sound) (name : Option String) :
    Advances model (model.internOption name).2 (model.outline.withNames name.toList) ∧
      (∀ id ∈ (model.internOption name).1, id.index < (model.internOption name).2.typeCount) ∧
        (model.internOption name).1.map (model.internOption name).2.nameOf = name := by
  cases name with
  | none =>
      rw [Option.toList_none, Outline.withNames_of_isSome (by simp)]
      exact ⟨sound.advances, by rintro _ ⟨⟩, rfl⟩
  | some name =>
      obtain ⟨interned, found⟩ := sound.intern name
      refine ⟨interned, ?_, congrArg some (interned.sound.nameOf_of_type? found)⟩
      rintro _ ⟨rfl⟩
      exact interned.sound.lt_of_type? found

/-- A symbol is declared under a key that is free, and then described. -/
theorem Sound.declare_described {model : Model} (sound : model.Sound) {key : String}
    (free : model.outline.symbols key = none) (name : String) (kind : SymbolKind)
    {owner : Option SymbolId} (there : ∀ id ∈ owner, id.index < model.symbolCount)
    (type : Option String) (fill : Option TypeId → SymbolInfo → SymbolInfo)
    (change : SymbolFacts → SymbolFacts)
    (filled : ∀ id info, fill id info =
      { info with type := id, isStatic := (fill id info).isStatic,
                  isFinal := (fill id info).isFinal, constant := (fill id info).constant })
    (facts : ∀ id info nameOf keyOf, Option.map nameOf id = type →
      (fill id info).facts nameOf keyOf = change (info.facts nameOf keyOf))
    (owned : ∀ facts, (change facts).owner = facts.owner) :
    ∃ id declared, model.declare key name kind owner = .ok (id, declared) ∧
      Advances model
        ((declared.internOption type).2.modifySymbol id (fill (declared.internOption type).1))
        ((model.outline.enter key (change
          ⟨name, kind, owner.map model.keyOf, none, false, false, ∅, [], none⟩)).withNames
            type.toList) ∧
      ((declared.internOption type).2.modifySymbol id
        (fill (declared.internOption type).1)).symbol? key = some id := by
  obtain ⟨id, declared, made, entered, found⟩ := sound.declare_of_free free there
  refine ⟨id, declared, made, ?_⟩
  obtain ⟨interned, bound, named⟩ := entered.sound.internOption type
  have still := interned.symbols found
  obtain ⟨there, keyed⟩ := interned.sound.symbol?_iff.mp still
  have fits := interned.sound.symbols id
  have described := interned.sound.modifySymbol there (fill (declared.internOption type).1)
    (by rw [filled]; rfl) change
    (by
      rw [filled]
      exact { fits with type := bound })
    (facts _ _ _ _ named)
  rw [interned.outline_eq, entered.outline_eq, keyed, Outline.enter_modifySymbol] at described
  · exact ⟨(entered.trans interned).trans described, described.symbols still⟩
  · exact owned _

namespace Sound

variable {model : Model} (sound : model.Sound) {entry : TypeEntry} {member : MemberEntry}
  {method : SymbolId} (found : model.symbol? (memberKey entry member) = some method)

include sound found

/-- A variable of a member is declared, and added to its parameters if it is one. -/
theorem tracks_declareVariable (isParam : Bool) (var : VariableEntry) :
    Tracks model (declareVariable entry member method isParam model var)
      ((model.outline.declare
          (variableKey entry member var, Outline.variableFacts entry member var)).map fun outline =>
        if isParam then outline.modifySymbol (memberKey entry member) fun facts =>
          { facts with params := facts.params ++ [variableKey entry member var] }
        else outline) := by
  unfold declareVariable Outline.declare
  by_cases taken : (model.outline.symbols (variableKey entry member var)).isSome
  · rw [if_pos taken, declare_of_taken taken]
    exact .fails _
  · obtain ⟨there, keyed⟩ := sound.symbol?_iff.mp found
    have ownerThere : ∀ id ∈ some method, id.index < model.symbolCount := by
      rintro _ ⟨rfl⟩
      exact there
    obtain ⟨id, declared, made, described, known⟩ := sound.declare_described
      (Option.not_isSome_iff_eq_none.mp taken) var.name .variable ownerThere var.type
      (fun type info => { info with type := type }) (fun facts => { facts with type := var.type })
      (fun _ _ => rfl) (by intro type info nameOf keyOf same; rw [← same]; rfl) (fun _ => rfl)
    rw [Option.map_some, keyed] at described
    rw [if_neg taken, made]
    cases isParam with
    | false => exact .succeeds described
    | true =>
        obtain ⟨bound, variableKeyed⟩ := described.sound.symbol?_iff.mp known
        obtain ⟨methodBound, methodKeyed⟩ := described.symbol_kept sound there
        have added := described.sound.addParam methodBound bound
        rw [methodKeyed, keyed, variableKeyed, described.outline_eq] at added
        exact .succeeds (described.trans added)

end Sound

theorem tracks_locals {entry : TypeEntry} {member : MemberEntry} {method : SymbolId}
    (vars : List VariableEntry) {model : Model} (sound : model.Sound)
    (found : model.symbol? (memberKey entry member) = some method) :
    Tracks model (vars.foldlM (declareVariable entry member method false) model)
      ((Outline.variableDeclarations entry member vars).foldlM Outline.declare model.outline) := by
  rw [Outline.variableDeclarations, List.foldlM_map]
  refine Tracks.foldlM (fun model => model.symbol? (memberKey entry member) = some method)
    (fun found advances => advances.symbols found) vars ?_ sound found
  intro var _ model sound found
  simpa using sound.tracks_declareVariable found false var

end Model

namespace Outline

/-- The outline in which a symbol has these parameters. -/
def withParams (outline : Outline) (key : String) (params : List String) : Outline :=
  outline.modifySymbol key fun facts => { facts with params := params }

variable {outline : Outline} {key : String} {facts : SymbolFacts}

theorem withParams_self (there : outline.symbols key = some facts) :
    outline.withParams key facts.params = outline := by
  ext1
  · rfl
  · funext other
    rw [withParams, symbols_modifySymbol]
    by_cases same : other = key
    · rw [if_pos same, same, there]
      rfl
    · rw [if_neg same]

/-- What is known of a symbol that is no type symbol stays when others are declared. -/
theorem symbols_of_declare {next : Outline} {declaration : String × SymbolFacts}
    (there : outline.symbols key = some facts) (noType : facts.kind ≠ .type)
    (declared : outline.declare declaration = some next) : next.symbols key = some facts := by
  unfold declare at declared
  by_cases taken : (outline.symbols declaration.1).isSome
  · rw [if_pos taken] at declared
    cases declared
  · rw [if_neg taken] at declared
    cases declared
    have apart : key ≠ declaration.1 := by
      rintro rfl
      rw [there] at taken
      exact taken rfl
    rw [symbols_withNames, symbols_enter, if_neg apart, there, Option.map_some, if_neg]
    exact fun both => noType both.2

theorem isSome_withParams (params : List String) (other : String) :
    ((outline.withParams key params).symbols other).isSome = (outline.symbols other).isSome := by
  rw [withParams, symbols_modifySymbol]
  by_cases same : other = key
  · rw [if_pos same, Option.isSome_map]
  · rw [if_neg same]

/-- A symbol may be declared before or after its parameters are cut short, where the new one is the
    next of them. -/
theorem declare_withParams (param : String) (described : SymbolFacts) (params : List String)
    (there : outline.symbols key = some facts) (noType : facts.kind ≠ .type) :
    ((outline.withParams key params).declare (param, described)).map (fun outline =>
        outline.modifySymbol key fun facts => { facts with params := facts.params ++ [param] }) =
      (outline.declare (param, described)).map fun outline =>
        outline.withParams key (params ++ [param]) := by
  unfold declare
  rw [isSome_withParams]
  by_cases taken : (outline.symbols param).isSome
  · rw [if_pos taken, if_pos taken]
    rfl
  · rw [if_neg taken, if_neg taken]
    have apart : key ≠ param := by
      rintro rfl
      rw [there] at taken
      exact taken rfl
    have still : ¬ (described.owner = some key ∧ facts.kind = .type) :=
      fun both => noType both.2
    refine congrArg some ?_
    ext1
    · have same : ((outline.withParams key params).enter param described).types =
          (outline.enter param described).types := rfl
      exact types_withNames_congr same _
    · funext other
      simp only [withParams, symbols_modifySymbol, symbols_withNames, symbols_enter]
      by_cases same : other = key
      · subst same
        simp only [if_neg apart, there, Option.map_some, if_true, if_neg still]
      · simp only [if_neg same]

end Outline

/-- A fold over lists put together is a fold of the folds over each. -/
theorem foldlM_flatMap {m : Type → Type} [Monad m] [LawfulMonad m] {α β σ : Type}
    (f : σ → β → m σ) (g : α → List β) (items : List α) :
    ∀ start, (items.flatMap g).foldlM f start =
      items.foldlM (fun state item => (g item).foldlM f state) start := by
  induction items with
  | nil => exact fun _ => rfl
  | cons item items ih =>
      intro start
      rw [List.flatMap_cons, List.foldlM_append, List.foldlM_cons]
      simp only [ih]

namespace Model

/-- The parameters of a member are declared and added to it one by one. In the outline it has them
    already: `params` are those that the model has added. -/
theorem tracks_params {entry : TypeEntry} {member : MemberEntry} {method : SymbolId}
    {facts : SymbolFacts} (noType : facts.kind ≠ .type) (vars : List VariableEntry) :
    ∀ (params : List String) {model : Model} {outline : Outline}, model.Sound →
      model.symbol? (memberKey entry member) = some method →
      model.outline = outline.withParams (memberKey entry member) params →
      outline.symbols (memberKey entry member) = some facts →
      facts.params = params ++ vars.map (variableKey entry member) →
      Tracks model (vars.foldlM (declareVariable entry member method true) model)
        ((Outline.variableDeclarations entry member vars).foldlM Outline.declare outline) := by
  induction vars with
  | nil =>
      intro params model outline sound _ shown there all
      rw [List.map_nil, List.append_nil] at all
      rw [← all, Outline.withParams_self there] at shown
      exact .succeeds (shown ▸ sound.advances)
  | cons var vars ih =>
      intro params model outline sound found shown there all
      have first := sound.tracks_declareVariable found true var
      simp only [shown, if_true] at first
      rw [Outline.declare_withParams _ _ params there noType] at first
      rw [List.foldlM_cons, Outline.variableDeclarations, List.map_cons, List.foldlM_cons]
      cases declared : outline.declare
          (variableKey entry member var, Outline.variableFacts entry member var) with
      | none =>
          rw [declared] at first
          generalize declareVariable entry member method true model var = result at first
          cases first
          exact .fails _
      | some next =>
          rw [declared] at first
          generalize declareVariable entry member method true model var = result at first
          cases first with
          | succeeds advances =>
              refine .after advances (ih _ advances.sound (advances.symbols found)
                advances.outline_eq (Outline.symbols_of_declare there noType declared) ?_)
              rw [all, List.map_cons, List.append_assoc]
              rfl

/-- A member is declared with its parameters and local variables. -/
theorem Sound.tracks_declareMember {model : Model} (sound : model.Sound) {entry : TypeEntry}
    {owner : SymbolId} (found : model.symbol? entry.name = some owner) (member : MemberEntry) :
    Tracks model (declareMember entry owner model member)
      ((Outline.memberDeclarations entry member).foldlM Outline.declare model.outline) := by
  unfold declareMember
  rw [Outline.memberDeclarations, List.foldlM_cons]
  simp only [List.foldlM_append]
  by_cases taken : (model.outline.symbols (memberKey entry member)).isSome
  · rw [Outline.declare, if_pos taken, declare_of_taken taken]
    exact .fails _
  · obtain ⟨there, keyed⟩ := sound.symbol?_iff.mp found
    have ownerThere : ∀ id ∈ some owner, id.index < model.symbolCount := by
      rintro _ ⟨rfl⟩
      exact there
    obtain ⟨id, declared, made, described, known⟩ := sound.declare_described
      (Option.not_isSome_iff_eq_none.mp taken) member.name (memberSymbolKind member.kind)
      ownerThere member.type
      (fun type info =>
        { info with
          isStatic := member.isStatic
          isFinal := member.isFinal
          constant := member.constant
          type := type })
      (fun facts =>
        { facts with
          isStatic := member.isStatic
          isFinal := member.isFinal
          constant := member.constant
          type := member.type })
      (fun _ _ => rfl) (by intro type info nameOf keyOf same; rw [← same]; rfl) (fun _ => rfl)
    rw [Option.map_some, keyed] at described
    rw [made, Outline.declare, if_neg taken]
    have noType := Outline.memberFacts_noType entry member
    refine .after described
      ((tracks_params noType member.params [] described.sound known ?_ ?_ rfl).bind
        fun _ params => ?_)
    · rw [described.outline_eq, Outline.withParams, Outline.enter_modifySymbol]
      · rfl
      · rfl
    · rw [Outline.symbols_withNames, Outline.symbols_enter, if_pos rfl]
    · exact tracks_locals member.locals params.sound (params.symbols known)

/-- The members of a type are declared. -/
theorem Sound.tracks_declareMembers {model : Model} (sound : model.Sound) {entry : TypeEntry}
    (declares : model.Declares entry.name) :
    Tracks model (declareMembers model entry)
      ((Outline.declarations entry).foldlM Outline.declare model.outline) := by
  obtain ⟨id, owner, found, owned⟩ := declares
  have key := sound.own id owner owned
  rw [sound.nameOf_of_type? found] at key
  have known := sound.symbol?_keyOf ((sound.types id).symbol owner owned)
  rw [key] at known
  unfold declareMembers Outline.declarations
  rw [intern_of_type? found, foldlM_flatMap]
  simp only [owned]
  refine Tracks.foldlM (fun model => model.symbol? entry.name = some owner)
    (fun found advances => advances.symbols found) entry.members ?_ sound known
  intro member _ model sound known
  exact sound.tracks_declareMember known member

/-! ## Loading a document -/

/-- The types of a description are linked, once all of them are there. -/
theorem tracks_linkTypes {model : Model} (sound : model.Sound) {entries : List TypeEntry}
    (known : ∀ name ∈ entries.map TypeEntry.name, model.Declares name) :
    Tracks model (entries.foldlM (linkType (entries.map TypeEntry.name)) model)
      (entries.foldlM (Outline.link (entries.map TypeEntry.name)) model.outline) := by
  refine Tracks.foldlM (fun model => ∀ name ∈ entries.map TypeEntry.name, model.Declares name)
    (fun known advances name listed => (known name listed).advances advances) entries ?_ sound known
  intro entry listed model sound known
  exact sound.tracks_linkType known (List.mem_map_of_mem listed)

/-- The symbols of a description are declared, once all its types are there. -/
theorem tracks_declareTypes {model : Model} (sound : model.Sound) {entries : List TypeEntry}
    (known : ∀ name ∈ entries.map TypeEntry.name, model.Declares name) :
    Tracks model (entries.foldlM declareMembers model)
      ((entries.flatMap Outline.declarations).foldlM Outline.declare model.outline) := by
  rw [foldlM_flatMap]
  refine Tracks.foldlM (fun model => ∀ name ∈ entries.map TypeEntry.name, model.Declares name)
    (fun known advances name listed => (known name listed).advances advances) entries ?_ sound known
  intro entry listed model sound known
  exact sound.tracks_declareMembers (known entry.name (List.mem_map_of_mem listed))

/-- A document is loaded by name as it is by number. -/
theorem tracks_load (document : ModelDocument) :
    Tracks prelude (load document) (Outline.load document) := by
  have defined := tracks_defineTypes document.types [] sound_prelude onlyTypeSymbols_prelude
  simp only [List.not_mem_nil, not_false_eq_true, implies_true, and_true] at defined
  unfold load Outline.load
  generalize prelude.defineTypes [] document.types = result at defined
  by_cases named : Outline.WellNamed document.types
  · rw [if_pos named] at defined ⊢
    cases defined with
    | @succeeds grown _ advances =>
        have known : ∀ name ∈ document.types.map TypeEntry.name, grown.Declares name := by
          intro name listed
          rw [declares_iff, advances.outline_eq]
          exact (Outline.hasSymbol_defineTypes_iff document.types).mpr (.inr listed)
        have linked := tracks_linkTypes advances.sound known
        rw [advances.outline_eq] at linked
        refine .after advances (linked.bind fun _ later => ?_)
        exact tracks_declareTypes later.sound fun name listed => (known name listed).advances later
  · rw [if_neg named] at defined ⊢
    cases defined with
    | fails cause => exact .fails cause

end Model

end BugPatterns
