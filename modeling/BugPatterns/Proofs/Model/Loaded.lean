import BugPatterns.Proofs.Except
import BugPatterns.Proofs.Model.Loading
import BugPatterns.Proofs.Model.Subtyping
import BugPatterns.Unit.Load

/-!
# Loaded models

A loaded model is sound and has the outline that its document describes (`Model.sound_of_load`);
interning names afterwards adds these names to it and nothing else (`Model.Sound.internAll`). The
root class, which every model has from the prelude, stays a declared type throughout
(`Outline.HasRoot`).

The subtype check of a loaded model decides the declared relation
(`LoadedUnit.isSubtype_iff_declared`).
-/

namespace BugPatterns

namespace Outline

/-- The type of a name is there, with a tag of some sort. -/
def HasTag (outline : Outline) (sort : TypeTag → Prop) (name : String) : Prop :=
  ∃ facts, outline.types name = some facts ∧ sort facts.tag

/-- The root class is there, and it is a declared type. -/
def HasRoot (outline : Outline) : Prop := outline.HasTag (·.isDeclared = true) objectName

variable {outline : Outline} {sort : TypeTag → Prop} {name : String}

theorem HasTag.define (tagged : outline.HasTag sort name) {other : String} {kind : ClassKind}
    (declared : other = name → sort (.declared kind)) :
    (outline.define other (.declared kind)).HasTag sort name := by
  obtain ⟨facts, there, tag⟩ := tagged
  by_cases same : name = other
  · exact ⟨_, by rw [types_define, if_pos same], declared same.symm⟩
  · exact ⟨facts, by rw [types_define, if_neg same, there], tag⟩

theorem HasTag.defineTypes (entries : List TypeEntry)
    (declared : ∀ entry ∈ entries, entry.name = name → sort (.declared entry.kind)) :
    ∀ {outline : Outline}, outline.HasTag sort name →
      (outline.defineTypes entries).HasTag sort name := by
  induction entries with
  | nil => exact fun tagged => tagged
  | cons entry entries ih =>
      rw [List.forall_mem_cons] at declared
      exact fun tagged => ih declared.2 (tagged.define declared.1)

/-- A type is in the end what the one entry of its name says. -/
theorem hasTag_defineTypes_of_mem {entry : TypeEntry} {entries : List TypeEntry}
    (distinct : (entries.map TypeEntry.name).Nodup) (listed : entry ∈ entries) :
    ∀ {outline : Outline},
      (outline.defineTypes entries).HasTag (· = .declared entry.kind) entry.name := by
  induction entries with
  | nil => cases listed
  | cons first entries ih =>
      intro outline
      rw [List.map_cons, List.nodup_cons] at distinct
      rcases List.mem_cons.mp listed with rfl | listed
      · have defined : (outline.define entry.name (.declared entry.kind)).HasTag
            (· = .declared entry.kind) entry.name :=
          ⟨_, by rw [types_define, if_pos rfl], rfl⟩
        exact defined.defineTypes entries fun other also same =>
          absurd (same ▸ List.mem_map_of_mem also) distinct.1
      · exact ih distinct.2 listed

theorem HasTag.withNames (tagged : outline.HasTag sort name) (names : List String) :
    (outline.withNames names).HasTag sort name := by
  obtain ⟨facts, there, tag⟩ := tagged
  exact ⟨facts, types_withNames_of_some there, tag⟩

theorem HasTag.link {declared : List String} {entry : TypeEntry} {next : Outline}
    (tagged : outline.HasTag sort name) (linked : outline.link declared entry = some next) :
    next.HasTag sort name := by
  unfold Outline.link at linked
  by_cases owner : OwnerDeclared declared entry
  · rw [if_pos owner] at linked
    cases linked
    obtain ⟨facts, there, tag⟩ := tagged.withNames (linkedNames entry)
    unfold HasTag
    rw [types_linkOwner, linkSupertypes, types_modifyType, there]
    by_cases same : name = entry.name
    · exact ⟨_, if_pos same, tag⟩
    · exact ⟨facts, if_neg same, tag⟩
  · rw [if_neg owner] at linked
    cases linked

theorem HasTag.declare {declaration : String × SymbolFacts} {next : Outline}
    (tagged : outline.HasTag sort name) (declared : outline.declare declaration = some next) :
    next.HasTag sort name := by
  unfold Outline.declare at declared
  by_cases taken : (outline.symbols declaration.1).isSome
  · rw [if_pos taken] at declared
    cases declared
  · rw [if_neg taken] at declared
    cases declared
    have entered : (outline.enter declaration.1 declaration.2).HasTag sort name := tagged
    exact entered.withNames _

/-- What each step keeps is kept by all steps together. -/
theorem foldlM_keeps {α : Type} {step : Outline → α → Option Outline} {known : Outline → Prop}
    (items : List α)
    (kept : ∀ a ∈ items, ∀ {outline next}, known outline → step outline a = some next →
      known next) :
    ∀ {outline last : Outline}, known outline → items.foldlM step outline = some last →
      known last := by
  induction items with
  | nil =>
      intro outline last start folded
      cases folded
      exact start
  | cons a items ih =>
      intro outline last start folded
      rw [List.foldlM_cons] at folded
      obtain ⟨next, first, rest⟩ := Option.bind_eq_some_iff.mp folded
      exact ih (fun b listed => kept b (List.mem_cons_of_mem _ listed))
        (kept a List.mem_cons_self start first) rest

/-- What is linked and declared keeps its tag. -/
theorem HasTag.linkAndDeclare {document : ModelDocument}
    (defined : (Model.prelude.outline.defineTypes document.types).HasTag sort name)
    (loaded : load document = some outline) : outline.HasTag sort name := by
  unfold load at loaded
  by_cases named : WellNamed document.types
  · rw [if_pos named] at loaded
    obtain ⟨linked, linking, declaring⟩ := Option.bind_eq_some_iff.mp loaded
    have last := foldlM_keeps _ (fun _ _ => HasTag.link) defined linking
    exact foldlM_keeps _ (fun _ _ => HasTag.declare) last declaring
  · rw [if_neg named] at loaded
    cases loaded

/-- A type of the prelude stays what it is, or a document declares it. -/
theorem hasTag_of_load {document : ModelDocument} (declared : ∀ kind, sort (.declared kind))
    (prelude : Model.prelude.outline.HasTag sort name) (loaded : load document = some outline) :
    outline.HasTag sort name :=
  (prelude.defineTypes document.types fun entry _ _ => declared entry.kind).linkAndDeclare loaded

theorem hasRoot_prelude : Model.prelude.outline.HasRoot := by
  have found : Model.prelude.type? objectName = some ⟨10⟩ := by decide +kernel
  have declared : (Model.prelude.type ⟨10⟩).tag.isDeclared = true := by decide +kernel
  exact ⟨_, Model.outline_types found, declared⟩

theorem hasRoot_of_load {document : ModelDocument} (loaded : load document = some outline) :
    outline.HasRoot :=
  hasTag_of_load (fun _ => rfl) hasRoot_prelude loaded

end Outline

namespace Model

/-- Interns names, one after the other. -/
def internAll (model : Model) (names : List String) : Model :=
  names.foldl (fun model name => (model.intern name).2) model

theorem Sound.internAll (names : List String) :
    ∀ {model : Model}, model.Sound →
      Advances model (model.internAll names) (model.outline.withNames names) := by
  induction names with
  | nil =>
      intro model sound
      rw [Outline.withNames_of_isSome (by simp)]
      exact sound.advances
  | cons name names ih =>
      intro model sound
      obtain ⟨first, -⟩ := sound.intern name
      have rest := ih first.sound
      rw [first.outline_eq, Outline.withNames_withNames] at rest
      exact first.trans rest

/-- A loaded model is sound and has the outline that the document describes. -/
theorem sound_of_load {document : ModelDocument} {model : Model}
    (loaded : load document = .ok model) :
    model.Sound ∧ Outline.load document = some model.outline := by
  have tracks := tracks_load document
  rw [loaded] at tracks
  cases described : Outline.load document with
  | none =>
      rw [described] at tracks
      cases tracks
  | some outline =>
      rw [described] at tracks
      cases tracks with
      | succeeds advances => exact ⟨advances.sound, by rw [advances.outline_eq]⟩

/-- What the outline says of the tag of a name holds of the type of that name. -/
theorem Sound.tag_of_hasTag {model : Model} (sound : model.Sound) {sort : TypeTag → Prop}
    {name : String} (tagged : model.outline.HasTag sort name) (nonempty : name ≠ "") {id : TypeId}
    (named : model.isNamed id name = true) : sort (model.tag id) := by
  obtain ⟨facts, there, tag⟩ := tagged
  have same : model.nameOf id = name := of_decide_eq_true named
  have bound : id.index < model.typeCount := by
    by_contra beyond
    rw [nameOf, type_of_le model (Nat.not_lt.mp beyond)] at same
    exact nonempty same.symm
  rw [← same, outline_types (sound.type?_nameOf bound)] at there
  cases there
  exact tag

theorem rootDeclared_of_hasRoot {model : Model} (sound : model.Sound)
    (root : model.outline.HasRoot) : model.RootDeclared :=
  fun _ named => sound.tag_of_hasTag root (by decide) named

/-- A loaded model to which names were added is sound, and the root class is a declared type. -/
theorem sound_internAll_of_load {document : ModelDocument} {model : Model}
    (loaded : load document = .ok model) (names : List String) :
    (model.internAll names).Sound ∧ (model.internAll names).RootDeclared := by
  obtain ⟨sound, described⟩ := sound_of_load loaded
  have extended := sound.internAll names
  have root : (model.outline.withNames names).HasRoot :=
    (Outline.hasRoot_of_load described).withNames names
  rw [← extended.outline_eq] at root
  exact ⟨extended.sound, rootDeclared_of_hasRoot extended.sound root⟩

end Model

namespace LoadedUnit

/-- The model of a loaded unit is the loaded one with the names that the tree mentions. -/
theorem model_ofDocument {document : UnitDocument} {loaded : LoadedUnit}
    (made : ofDocument document = .ok loaded) :
    ∃ model, Model.load document.model = .ok model ∧
      loaded.model = model.internAll (loaded.unit.tree.preorder.filterMap mentionedType) := by
  unfold ofDocument at made
  cases modelled : Model.load document.model with
  | error cause =>
      rw [modelled] at made
      cases made
  | ok model =>
      rw [modelled] at made
      simp only [ofTree] at made
      split at made
      · cases made
      · cases made
        exact ⟨model, rfl, rfl⟩

/-- In a loaded unit the subtype check decides the declared relation for all types, whatever the
    hierarchy: its bound is never reached, and types whose erasures are known are subtypes of
    themselves. -/
theorem isSubtype_iff_declared {document : UnitDocument} {loaded : LoadedUnit}
    (made : ofDocument document = .ok loaded) (a b : TypeId) :
    (∀ levels, loaded.model.typeCount ≤ levels →
        loaded.model.isSubtypeWithin levels a b = loaded.model.isSubtype a b) ∧
      (loaded.model.isSubtype a b = true ↔
        loaded.model.DeclaredSubtype
          (fun element other => loaded.model.isSubtype element other = true) a b) ∧
      (loaded.model.isUnknown (loaded.model.erasure a) = false →
        loaded.model.isSubtype a a = true) := by
  obtain ⟨model, modelled, same⟩ := model_ofDocument made
  obtain ⟨sound, root⟩ := Model.sound_internAll_of_load modelled
    (loaded.unit.tree.preorder.filterMap mentionedType)
  rw [← same] at sound root
  exact ⟨fun levels enough => sound.isSubtypeWithin_of_le root enough a b,
    sound.isSubtype_iff root a b, sound.isSubtype_self root⟩

/-- Two classes that extend each other. -/
def circleDocument : UnitDocument where
  model := ⟨[⟨"p.A", .ordinary, some "p.B", [], none, []⟩,
    ⟨"p.B", .ordinary, some "p.A", [], none, []⟩]⟩
  tree := ⟨"P.java", none, []⟩

theorem isSubtype_iff_declared_circle : ∃ loaded, ofDocument circleDocument = .ok loaded ∧
    loaded.model.type? "p.A" = some ⟨17⟩ ∧ loaded.model.type? "p.B" = some ⟨18⟩ ∧
      loaded.model.DeclaredSubtype
        (fun element other => loaded.model.isSubtype element other = true) ⟨17⟩ ⟨18⟩ ∧
      ¬ loaded.model.DeclaredSubtype
        (fun element other => loaded.model.isSubtype element other = true) ⟨17⟩ ⟨4⟩ := by
  have evaluated : (ofDocument circleDocument).toOption.map (fun loaded =>
      (loaded.model.type? "p.A", loaded.model.type? "p.B", loaded.model.isSubtype ⟨17⟩ ⟨18⟩,
        loaded.model.isSubtype ⟨17⟩ ⟨4⟩)) = some (some ⟨17⟩, some ⟨18⟩, true, false) := by
    decide +kernel
  obtain ⟨loaded, made, found⟩ := exists_ok_of_toOption_map evaluated
  simp only [Prod.mk.injEq] at found
  obtain ⟨first, second, above, apart⟩ := found
  refine ⟨loaded, made, first, second, ?_, ?_⟩
  · exact (isSubtype_iff_declared made ⟨17⟩ ⟨18⟩).2.1.mp above
  · rw [← (isSubtype_iff_declared made ⟨17⟩ ⟨4⟩).2.1, apart]
    exact Bool.false_ne_true

end LoadedUnit

end BugPatterns
