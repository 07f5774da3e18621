import BugPatterns.Proofs.Model.Growth

/-!
# Keys of symbols

Every entry of the list by which symbols are looked up points to a symbol that carries the key of
the entry (`Model.KeysAgree`). All operations keep this, so in a loaded model a symbol that is found
by a key has that key (`Model.key_of_symbol?`), and different keys find different symbols.
-/

namespace BugPatterns.Model

/-- Every entry of the look-up list points to a symbol that carries its key. -/
def KeysAgree (model : Model) : Prop :=
  ∀ key id, (key, id) ∈ model.symbolKeys →
    ∃ info, model.symbols[id.index]? = some info ∧ info.key = key

/-- What is done to types does not touch the look-up of symbols. -/
theorem KeysAgree.of_eq {model other : Model} (agree : model.KeysAgree)
    (symbols : other.symbols = model.symbols) (keys : other.symbolKeys = model.symbolKeys) :
    other.KeysAgree := by
  intro key id member
  rw [symbols]
  exact agree key id (keys ▸ member)

theorem keysAgree_empty : empty.KeysAgree := by
  intro key id member
  simp [empty] at member

theorem KeysAgree.pushSymbol {model : Model} (agree : model.KeysAgree) (info : SymbolInfo) :
    (model.pushSymbol info).2.KeysAgree := by
  intro key id member
  simp only [Model.pushSymbol, List.mem_cons] at member ⊢
  rcases member with equal | member
  · obtain ⟨rfl, rfl⟩ := Prod.mk.inj equal
    exact ⟨info, Array.getElem?_push_size, rfl⟩
  · obtain ⟨found, present, carried⟩ := agree key id member
    have bound : id.index < model.symbols.size := (Array.getElem?_eq_some_iff.mp present).1
    refine ⟨found, ?_, carried⟩
    rw [Array.getElem?_push, if_neg (by omega)]
    exact present

theorem KeysAgree.modifySymbol {model : Model} (agree : model.KeysAgree) (id : SymbolId)
    {f : SymbolInfo → SymbolInfo} (kept : ∀ info, (f info).key = info.key) :
    (model.modifySymbol id f).KeysAgree := by
  intro key other member
  obtain ⟨found, present, carried⟩ := agree key other member
  simp only [Model.modifySymbol, Array.getElem?_modify]
  split
  · exact ⟨f found, by rw [present]; rfl, (kept found).trans carried⟩
  · exact ⟨found, present, carried⟩

theorem KeysAgree.internName (name : TypeName) :
    ∀ {model : Model}, model.KeysAgree → (model.internName name).2.KeysAgree := by
  induction name with
  | plain text =>
      intro model agree
      unfold Model.internName
      split
      · exact agree
      · exact agree.of_eq rfl rfl
  | array text element ih =>
      intro model agree
      unfold Model.internName
      split
      · exact agree
      · exact (ih agree).of_eq rfl rfl
  | parameterized text raw ih =>
      intro model agree
      unfold Model.internName
      split
      · exact agree
      · exact (ih agree).of_eq rfl rfl

theorem KeysAgree.intern {model : Model} (agree : model.KeysAgree) (name : String) :
    (model.intern name).2.KeysAgree :=
  agree.internName _

theorem KeysAgree.giveSymbol {model : Model} (agree : model.KeysAgree) (id : TypeId)
    (name : String) : (model.giveSymbol id name).KeysAgree := by
  unfold Model.giveSymbol
  split
  · exact agree
  · exact (agree.pushSymbol _).of_eq rfl rfl

theorem KeysAgree.define {model : Model} (agree : model.KeysAgree) (name : String) (tag : TypeTag) :
    (model.define name tag).2.KeysAgree := by
  unfold Model.define
  refine KeysAgree.giveSymbol (KeysAgree.of_eq ?_ rfl rfl) _ _
  cases model.type? name with
  | none => exact agree.of_eq rfl rfl
  | some id => exact agree

theorem KeysAgree.setSuperclass {model : Model} (agree : model.KeysAgree) (id : TypeId)
    (superclass : Option TypeId) : (model.setSuperclass id superclass).KeysAgree :=
  agree.of_eq rfl rfl

theorem KeysAgree.addInterface {model : Model} (agree : model.KeysAgree) (id interface : TypeId) :
    (model.addInterface id interface).KeysAgree :=
  agree.of_eq rfl rfl

theorem KeysAgree.nest {model : Model} (agree : model.KeysAgree) (nested outer : SymbolId) :
    (model.nest nested outer).KeysAgree := by
  unfold Model.nest
  refine KeysAgree.modifySymbol (KeysAgree.modifySymbol agree nested ?_) outer ?_
  · intro _
    rfl
  · intro _
    rfl

theorem KeysAgree.declare {model grown : Model} {key name : String} {kind : SymbolKind}
    {owner : Option SymbolId} {id : SymbolId} (agree : model.KeysAgree)
    (declared : model.declare key name kind owner = .ok (id, grown)) : grown.KeysAgree := by
  have pushed := agree.pushSymbol (.bare key name kind owner none)
  unfold Model.declare at declared
  split at declared
  · cases declared
  · simp only at declared
    split at declared
    · cases declared
      exact pushed
    · split at declared
      · cases declared
        exact pushed.modifySymbol _ fun _ => rfl
      · cases declared
        exact pushed

/-- One operation keeps the look-up of symbols intact. -/
theorem KeysAgree.grows {model grown : Model} (agree : model.KeysAgree)
    (step : Grows model grown) : grown.KeysAgree := by
  cases step with
  | intern name => exact agree.intern name
  | define name tag => exact agree.define name tag
  | setSuperclass id superclass => exact agree.setSuperclass id superclass
  | addInterface id interface => exact agree.addInterface id interface
  | nest own outer => exact agree.nest _ outer
  | declare declared => exact agree.declare declared
  | addParam method param => exact agree.modifySymbol method fun _ => rfl
  | amend id type isStatic isFinal constant => exact agree.modifySymbol id fun _ => rfl
  | amendType id type => exact agree.modifySymbol id fun _ => rfl

theorem KeysAgree.growsTo {model grown : Model} (agree : model.KeysAgree)
    (steps : GrowsTo model grown) : grown.KeysAgree := by
  induction steps with
  | refl => exact agree
  | tail _ step ih => exact ih.grows step

theorem KeysAgree.defineClass {model : Model} (agree : model.KeysAgree) (object : TypeId)
    (name : String) (interfaces : List TypeId) :
    (model.defineClass object name interfaces).KeysAgree := by
  have placed := (agree.define name (.declared .ordinary)).setSuperclass
    (model.define name (.declared .ordinary)).1 (some object)
  exact placed.growsTo (growsTo_foldl (fun _ _ => .single (.addInterface ..)) interfaces _)

theorem KeysAgree.defineClasses {object : TypeId} {interfaces : List TypeId} (names : List String) :
    ∀ {model : Model}, model.KeysAgree →
      (names.foldl (fun model name => model.defineClass object name interfaces)
        model).KeysAgree := by
  induction names with
  | nil => exact fun agree => agree
  | cons name names ih => exact fun agree => ih (agree.defineClass object name interfaces)

theorem KeysAgree.pushPrimitives (kinds : List Primitive) :
    ∀ {model : Model}, model.KeysAgree →
      (kinds.foldl (fun model kind =>
        (model.pushType (.bare (Keyword.word kind) (.primitive kind))).2) model).KeysAgree := by
  induction kinds with
  | nil => exact fun agree => agree
  | cons kind kinds ih => exact fun agree => ih (agree.of_eq rfl rfl)

theorem keysAgree_prelude : prelude.KeysAgree := by
  unfold prelude
  have primitives := keysAgree_empty.pushPrimitives Keyword.all
  generalize List.foldl _ empty _ = model at primitives ⊢
  have values : ((model.pushType (.bare nullTypeName .null)).2.pushType
      (.bare voidTypeName .void)).2.KeysAgree := primitives.of_eq rfl rfl
  simp only
  generalize (Model.pushType _ _).2 = model at values ⊢
  have object := values.define objectName (.declared .ordinary)
  generalize model.define _ _ = rooted at object ⊢
  have sequence := object.define charSequenceName (.declared .interface)
  generalize rooted.2.define _ _ = based at sequence ⊢
  exact (sequence.defineClasses textClassNames).defineClasses [className, enumName]

/-- A loaded model looks its symbols up by their keys. -/
theorem keysAgree_of_load {document : ModelDocument} {model : Model}
    (loaded : load document = .ok model) : model.KeysAgree :=
  keysAgree_prelude.growsTo (prelude_grows_of_load loaded)

theorem mem_of_lookup_eq_some {α β : Type} [BEq α] [LawfulBEq α] {key : α} {value : β}
    {entries : List (α × β)} (found : entries.lookup key = some value) :
    (key, value) ∈ entries := by
  obtain ⟨newer, older, rfl, -⟩ := List.lookup_eq_some_iff.mp found
  exact List.mem_append_right _ List.mem_cons_self

/-- A symbol that is found by a key has that key. -/
theorem key_of_symbol? {model : Model} (agree : model.KeysAgree) {key : String} {id : SymbolId}
    (found : model.symbol? key = some id) : (model.symbol id).key = key := by
  obtain ⟨info, present, carried⟩ := agree key id (mem_of_lookup_eq_some found)
  rw [Model.symbol, present, Option.getD_some, carried]

end BugPatterns.Model
