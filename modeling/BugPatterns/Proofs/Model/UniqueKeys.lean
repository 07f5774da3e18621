import BugPatterns.Model.InPlace
import BugPatterns.Proofs.Model.Histories

/-!
# Which symbol a key finds

A key finds the symbol that was added last of those that carry it, whatever the history
(`Model.TracksKeys.perform`). So all symbols are found as long as no two of them carry the same key.
Declaring a symbol keeps it so, since a key that is taken is refused, and then nothing is changed
(`ModelM.start_declare`). Defining a type does not: its symbol is added under the name of the type
without a look at the keys (`Operation.Hides`). The symbols that cannot be found are those whose key
was given again by such a definition (`Model.TracksKeys.lost_iff`).
-/

namespace BugPatterns

/-! ## Declaring in place -/

theorem Model.declare_eq_error_iff {model : Model} {key name : String} {kind : SymbolKind}
    {owner : Option SymbolId} {cause : ModelError} :
    model.declare key name kind owner = .error cause ↔
      (model.symbol? key).isSome ∧ cause = .duplicateSymbol key := by
  unfold Model.declare
  cases found : model.symbol? key with
  | some id => simp [eq_comm]
  | none =>
      refine iff_of_false ?_ fun ⟨absurd, _⟩ => by cases absurd
      cases owner with
      | none => exact nofun
      | some owner =>
          dsimp only
          split <;> exact nofun

namespace ModelM

section Start

variable {α β : Type} (model : Model)

theorem start_get_bind (next : Model → ModelM α) :
    (get >>= next).start model = (next model).start model := rfl

theorem start_modifyGet_bind (step : Model → β × Model) (next : β → ModelM α) :
    (modifyGet step >>= next).start model = (next (step model).1).start (step model).2 := rfl

end Start

/-- A symbol is declared in place as it is in a copy, and a failure leaves the model as it is. -/
theorem start_declare (model : Model) (key name : String) (kind : SymbolKind)
    (owner : Option SymbolId) :
    (declare key name kind owner).start model =
      match model.declare key name kind owner with
      | .error cause => (.error cause, model)
      | .ok (id, grown) => (.ok id, grown) := by
  unfold declare Model.declare
  rw [start_get_bind]
  cases found : model.symbol? key with
  | some id => rfl
  | none =>
      cases owner with
      | none => rfl
      | some owner =>
          simp only [Option.isSome_none, Bool.false_eq_true, if_false, start_modifyGet_bind,
            start_get_bind]
          split <;> rfl

/-- What is left is what the operation of declaring the symbol makes of the model. -/
theorem start_declare_snd (model : Model) (key name : String) (kind : SymbolKind)
    (owner : Option SymbolId) :
    ((declare key name kind owner).start model).2 =
      (Operation.declare key name kind owner).apply model := by
  rw [start_declare, Operation.apply, Model.declareIfFree]
  cases model.declare key name kind owner <;> rfl

/-- Only a key that is taken makes it fail, and then nothing has changed. -/
theorem start_declare_of_error {model : Model} {key name : String} {kind : SymbolKind}
    {owner : Option SymbolId} {cause : ModelError}
    (failed : ((declare key name kind owner).start model).1 = .error cause) :
    cause = .duplicateSymbol key ∧ (model.symbol? key).isSome ∧
      ((declare key name kind owner).start model).2 = model := by
  rw [start_declare] at failed ⊢
  cases declared : model.declare key name kind owner with
  | ok result =>
      rw [declared] at failed
      cases failed
  | error cause =>
      rw [declared] at failed
      cases failed
      obtain ⟨taken, rfl⟩ := Model.declare_eq_error_iff.mp declared
      exact ⟨rfl, taken, rfl⟩

end ModelM

/-! ## Keys and their newest symbols -/

/-- The operation defines a type without a symbol, while another symbol has its name as key. -/
def Operation.Hides (model : Model) : Operation → Prop
  | .define name _ => model.symbolOfType? name = none ∧ (model.symbol? name).isSome
  | _ => False

namespace Model

/-- Of the symbols with a key, this one was added last. -/
structure IsNewest (model : Model) (key : String) (id : SymbolId) : Prop where
  there : id.index < model.symbolCount
  carries : model.keyOf id = key
  last : ∀ other : SymbolId, other.index < model.symbolCount → model.keyOf other = key →
    other.index ≤ id.index

theorem IsNewest.unique {model : Model} {key : String} {id other : SymbolId}
    (newest : model.IsNewest key id) (also : model.IsNewest key other) : id = other := by
  have le := also.last id newest.there newest.carries
  have ge := newest.last other also.there also.carries
  exact congrArg SymbolId.mk (Nat.le_antisymm le ge)

/-- A key that some symbol carries finds one, and that is the newest of them. -/
structure TracksKeys (model : Model) : Prop where
  newest : ∀ {key id}, model.symbol? key = some id → model.IsNewest key id
  found : ∀ {id : SymbolId}, id.index < model.symbolCount →
    (model.symbol? (model.keyOf id)).isSome

/-- Symbols carry different keys. -/
def DistinctKeys (model : Model) : Prop :=
  ∀ id other : SymbolId, id.index < model.symbolCount → other.index < model.symbolCount →
    model.keyOf id = model.keyOf other → id = other

/-- Nothing happened to symbols as far as their keys go. -/
structure KeepsKeys (before after : Model) : Prop where
  count : after.symbolCount = before.symbolCount
  key : ∀ id, after.keyOf id = before.keyOf id
  look : ∀ key, after.symbol? key = before.symbol? key

/-- A symbol was added under a key. -/
structure AddsKey (before after : Model) (key : String) : Prop where
  count : after.symbolCount = before.symbolCount + 1
  old : ∀ {id}, id.index < before.symbolCount → after.keyOf id = before.keyOf id
  new : after.keyOf ⟨before.symbolCount⟩ = key
  look : ∀ other, after.symbol? other =
    if other = key then some ⟨before.symbolCount⟩ else before.symbol? other

/-! ## What an operation does to keys -/

section Step

variable {before after : Model}

theorem keepsKeys_of_symbols (symbols : after.symbols = before.symbols)
    (keys : after.symbolKeys = before.symbolKeys) : KeepsKeys before after where
  count := congrArg Array.size symbols
  key id := by rw [keyOf, symbol, symbols, keyOf, symbol]
  look key := by rw [symbol?, keys, symbol?]

theorem KeepsKeys.trans {last : Model} (first : KeepsKeys before after)
    (next : KeepsKeys after last) : KeepsKeys before last where
  count := next.count.trans first.count
  key id := (next.key id).trans (first.key id)
  look key := (next.look key).trans (first.look key)

theorem AddsKey.trans {last : Model} {key : String} (first : AddsKey before after key)
    (next : KeepsKeys after last) : AddsKey before last key where
  count := next.count.trans first.count
  old there := (next.key _).trans (first.old there)
  new := (next.key _).trans first.new
  look other := (next.look other).trans (first.look other)

theorem keepsKeys_modifySymbol (model : Model) (id : SymbolId) {f : SymbolInfo → SymbolInfo}
    (kept : ∀ info, (f info).key = info.key) : KeepsKeys model (model.modifySymbol id f) where
  count := symbolCount_modifySymbol ..
  key other := apply_symbol_modifySymbol _ SymbolInfo.key kept id other
  look _ := rfl

theorem keepsKeys_nest (model : Model) (nested outer : SymbolId) :
    KeepsKeys model (model.nest nested outer) :=
  (keepsKeys_modifySymbol model nested (f := fun info => { info with owner := some outer })
    fun _ => rfl).trans (keepsKeys_modifySymbol _ outer fun _ => rfl)

theorem addsKey_pushSymbol (model : Model) (info : SymbolInfo) :
    AddsKey model (model.pushSymbol info).2 info.key where
  count := symbolCount_pushSymbol ..
  old there := keyOf_pushSymbol _ _ there
  new := congrArg SymbolInfo.key (symbol_pushSymbol_self model info)
  look := symbol?_pushSymbol model info

/-- A type that has no symbol is given one under its name. -/
theorem addsKey_define {model : Model} {name : String} (tag : TypeTag)
    (unowned : model.symbolOfType? name = none) : AddsKey model (model.define name tag).2 name := by
  obtain ⟨grown, step, symbols, keys⟩ := symbolStep_define model name tag
  cases step with
  | redefine _ owned => cases unowned.symm.trans owned
  | define _ id _ => exact (addsKey_pushSymbol ..).trans (keepsKeys_of_symbols symbols keys)

/-- An operation touches no key, or it adds a symbol under a key. Unless the key is free, it defines
    a type that had no symbol. -/
theorem keys_apply (model : Model) (operation : Operation) :
    KeepsKeys model (operation.apply model) ∨
      ∃ key, AddsKey model (operation.apply model) key ∧
        (model.symbol? key = none ∨
          ∃ tag, operation = .define key tag ∧ model.symbolOfType? key = none) := by
  obtain ⟨grown, step, symbols, keys⟩ := symbolStep_apply model operation
  have rest := keepsKeys_of_symbols symbols keys
  cases step with
  | intern | setSuperclass | addInterface | redefine | refuse => exact .inl rest
  | nest nested outer => exact .inl ((keepsKeys_nest model nested outer).trans rest)
  | addParam method param =>
      refine .inl (KeepsKeys.trans (keepsKeys_modifySymbol model method ?_) rest)
      exact fun _ => rfl
  | define tag id unowned =>
      exact .inr ⟨_, (addsKey_pushSymbol ..).trans rest, .inr ⟨tag, rfl, unowned⟩⟩
  | declare free unlisted => exact .inr ⟨_, (addsKey_pushSymbol ..).trans rest, .inl free⟩
  | enlist free isType =>
      refine .inr ⟨_, (addsKey_pushSymbol ..).trans
        (KeepsKeys.trans (keepsKeys_modifySymbol _ _ ?_) rest), .inl free⟩
      exact fun _ => rfl

/-- Symbols that are there keep their keys. -/
theorem keyOf_apply {model : Model} {id : SymbolId} (there : id.index < model.symbolCount)
    (operation : Operation) :
    id.index < (operation.apply model).symbolCount ∧
      (operation.apply model).keyOf id = model.keyOf id := by
  rcases keys_apply model operation with keeps | ⟨key, adds, -⟩
  · exact ⟨keeps.count.symm ▸ there, keeps.key id⟩
  · exact ⟨adds.count.symm ▸ Nat.lt_succ_of_lt there, adds.old there⟩

theorem keyOf_perform (operations : List Operation) :
    ∀ {model : Model} {id : SymbolId}, id.index < model.symbolCount →
      id.index < (model.perform operations).symbolCount ∧
        (model.perform operations).keyOf id = model.keyOf id := by
  induction operations with
  | nil => exact fun there => ⟨there, rfl⟩
  | cons operation operations ih =>
      intro model id there
      obtain ⟨still, same⟩ := keyOf_apply there operation
      obtain ⟨last, kept⟩ := ih still
      exact ⟨last, kept.trans same⟩

end Step

/-! ## Whole histories -/

namespace TracksKeys

variable {model : Model} (tracks : model.TracksKeys)

include tracks

theorem symbol?_iff {key : String} {id : SymbolId} :
    model.symbol? key = some id ↔ model.IsNewest key id := by
  refine ⟨tracks.newest, fun newest => ?_⟩
  have some := tracks.found newest.there
  rw [newest.carries] at some
  obtain ⟨other, found⟩ := Option.isSome_iff_exists.mp some
  rw [found, newest.unique (tracks.newest found)]

theorem of_keeps {after : Model} (keeps : KeepsKeys model after) : after.TracksKeys where
  newest := by
    intro key id found
    rw [keeps.look] at found
    obtain ⟨there, carries, last⟩ := tracks.newest found
    refine ⟨keeps.count.symm ▸ there, (keeps.key id).trans carries, fun other inside same => ?_⟩
    exact last other (keeps.count ▸ inside) ((keeps.key other).symm.trans same)
  found := by
    intro id there
    rw [keeps.key, keeps.look]
    exact tracks.found (keeps.count ▸ there)

theorem of_adds {after : Model} {key : String} (adds : AddsKey model after key) :
    after.TracksKeys where
  newest := by
    intro other id found
    rw [adds.look] at found
    split at found
    · next same =>
        cases found
        refine ⟨adds.count ▸ Nat.lt_succ_self _, adds.new.trans same.symm, fun later inside _ => ?_⟩
        rw [adds.count] at inside
        exact Nat.le_of_lt_succ inside
    · next apart =>
        obtain ⟨there, carries, last⟩ := tracks.newest found
        refine ⟨adds.count ▸ Nat.lt_succ_of_lt there, (adds.old there).trans carries,
          fun later inside same => ?_⟩
        rcases Nat.lt_succ_iff_lt_or_eq.mp (adds.count ▸ inside) with old | new
        · exact last later old ((adds.old old).symm.trans same)
        · obtain rfl : later = ⟨model.symbolCount⟩ := congrArg SymbolId.mk new
          exact absurd (same.symm.trans adds.new) apart
  found := by
    intro id there
    rw [adds.look]
    split
    · rfl
    · next apart =>
        rcases Nat.lt_succ_iff_lt_or_eq.mp (adds.count ▸ there) with old | new
        · rw [adds.old old]
          exact tracks.found old
        · obtain rfl : id = ⟨model.symbolCount⟩ := congrArg SymbolId.mk new
          exact absurd adds.new apart

theorem apply (operation : Operation) : (operation.apply model).TracksKeys := by
  rcases keys_apply model operation with keeps | ⟨key, adds, -⟩
  · exact tracks.of_keeps keeps
  · exact tracks.of_adds adds

theorem perform (operations : List Operation) : (model.perform operations).TracksKeys := by
  induction operations generalizing model with
  | nil => exact tracks
  | cons operation operations ih => exact ih (tracks.apply operation)

/-- All symbols are found by their keys if and only if these are different. -/
theorem forall_symbol?_iff :
    (∀ id : SymbolId, id.index < model.symbolCount →
      model.symbol? (model.keyOf id) = some id) ↔ model.DistinctKeys := by
  constructor
  · intro found id other there also same
    have first := found id there
    rw [same, found other also] at first
    exact (Option.some.inj first).symm
  · intro distinct id there
    refine tracks.symbol?_iff.mpr ⟨there, rfl, fun other also same => ?_⟩
    rw [distinct other id also there same]

/-- A symbol is lost if and only if a younger one carries its key. -/
theorem lost_iff_younger {id : SymbolId} (there : id.index < model.symbolCount) :
    model.symbol? (model.keyOf id) ≠ some id ↔
      ∃ other : SymbolId, other.index < model.symbolCount ∧
        model.keyOf other = model.keyOf id ∧ id.index < other.index := by
  rw [Ne, tracks.symbol?_iff]
  constructor
  · intro lost
    by_contra none
    push Not at none
    exact lost ⟨there, rfl, none⟩
  · rintro ⟨other, also, same, younger⟩ newest
    exact absurd younger (Nat.not_lt.mpr (newest.last other also same))

/-- A symbol comes to carry the key of an older one by the definition of a type. -/
theorem exists_define_of_younger (distinct : model.DistinctKeys) (operations : List Operation)
    {id other : SymbolId} (also : other.index < (model.perform operations).symbolCount)
    (same : (model.perform operations).keyOf other = (model.perform operations).keyOf id)
    (younger : id.index < other.index) :
    ∃ before tag after,
      operations = before ++ .define ((model.perform operations).keyOf id) tag :: after ∧
      id.index < (model.perform before).symbolCount ∧
      (model.perform before).symbolOfType? ((model.perform operations).keyOf id) = none := by
  have added : model.symbolCount ≤ other.index := by
    by_contra old
    have old := Nat.not_le.mp old
    have older := younger.trans old
    rw [(keyOf_perform operations old).2, (keyOf_perform operations older).2] at same
    obtain rfl := distinct other id old older same
    exact absurd younger (Nat.lt_irrefl _)
  obtain ⟨before, operation, after, rfl, absent, here⟩ :=
    exists_adding symbolCount operations added also
  have whole : model.perform (before ++ operation :: after) =
      (operation.apply (model.perform before)).perform after := perform_append ..
  rw [whole] at same ⊢
  rcases keys_apply (model.perform before) operation with keeps | ⟨key, adds, how⟩
  · exact absurd (keeps.count ▸ here) (Nat.not_lt.mpr absent)
  · have newest : other.index = (model.perform before).symbolCount := by
      have count := adds.count
      omega
    have inside := newest ▸ younger
    obtain ⟨still, carries⟩ := keyOf_apply inside operation
    rw [(keyOf_perform after here).2, (keyOf_perform after still).2, carries] at same
    rw [(keyOf_perform after still).2, carries, ← same]
    obtain rfl : other = ⟨(model.perform before).symbolCount⟩ := congrArg SymbolId.mk newest
    rw [adds.new] at same ⊢
    rcases how with free | ⟨tag, rfl, unowned⟩
    · -- A key that was free is not that of an older symbol.
      have taken := (tracks.perform before).found inside
      rw [← same, free] at taken
      cases taken
    · exact ⟨before, tag, after, rfl, inside, unowned⟩

/-- Keys that are different at first. A symbol is lost if and only if its key was given again, by
    the definition of a type that had no symbol. -/
theorem lost_iff (distinct : model.DistinctKeys) (operations : List Operation) {id : SymbolId}
    (there : id.index < (model.perform operations).symbolCount) :
    (model.perform operations).symbol? ((model.perform operations).keyOf id) ≠ some id ↔
      ∃ before tag after,
        operations = before ++ .define ((model.perform operations).keyOf id) tag :: after ∧
        id.index < (model.perform before).symbolCount ∧
        (model.perform before).symbolOfType? ((model.perform operations).keyOf id) = none := by
  rw [(tracks.perform operations).lost_iff_younger there]
  constructor
  · rintro ⟨other, also, same, younger⟩
    exact tracks.exists_define_of_younger distinct operations also same younger
  · rintro ⟨before, tag, after, split, inside, unowned⟩
    have adds := addsKey_define tag unowned
    have whole : model.perform operations =
        ((model.perform before).define ((model.perform operations).keyOf id) tag).2.perform
          after := by
      conv_lhs => rw [split]
      exact perform_append ..
    have here : (⟨(model.perform before).symbolCount⟩ : SymbolId).index <
        ((model.perform before).define ((model.perform operations).keyOf id) tag).2.symbolCount :=
      adds.count ▸ Nat.lt_succ_self _
    obtain ⟨also, same⟩ := keyOf_perform after here
    rw [← whole] at also
    rw [← whole, adds.new] at same
    exact ⟨_, also, same, inside⟩

/-- Keys that are different at first. All symbols are found by their keys as long as no operation
    gives a key again, and only then. -/
theorem forall_symbol?_iff_throughout (distinct : model.DistinctKeys)
    (operations : List Operation) :
    (∀ id : SymbolId, id.index < (model.perform operations).symbolCount →
      (model.perform operations).symbol? ((model.perform operations).keyOf id) = some id) ↔
      Throughout (fun model operation => ¬ operation.Hides model) model operations := by
  rw [throughout_iff]
  constructor
  · rintro found before operation after rfl hides
    cases operation with
    | define name tag =>
        obtain ⟨unowned, taken⟩ := hides
        obtain ⟨id, known⟩ := Option.isSome_iff_exists.mp taken
        obtain ⟨there, carries, -⟩ := (tracks.perform before).newest known
        obtain ⟨still, kept⟩ := keyOf_perform (.define name tag :: after) there
        rw [← perform_append, carries] at kept
        rw [← perform_append] at still
        refine (tracks.lost_iff distinct _ still).mpr ?_ (found id still)
        rw [kept]
        exact ⟨before, tag, after, rfl, there, unowned⟩
    | _ => exact hides
  · intro unhidden id there
    by_contra lost
    obtain ⟨before, tag, after, split, inside, unowned⟩ :=
      (tracks.lost_iff distinct operations there).mp lost
    refine unhidden before _ after split ⟨unowned, ?_⟩
    have taken := (tracks.perform before).found inside
    have kept := (keyOf_perform (.define ((model.perform operations).keyOf id) tag :: after)
      inside).2
    rw [← perform_append, ← split] at kept
    rwa [kept]

end TracksKeys

theorem distinctKeys_prelude : prelude.DistinctKeys :=
  fun _ _ there also same => sound_prelude.keyOf_inj there also same

theorem tracksKeys_prelude : prelude.TracksKeys where
  newest := by
    intro key id found
    obtain ⟨there, carries⟩ := sound_prelude.symbol?_iff.mp found
    refine ⟨there, carries, fun other also same => ?_⟩
    rw [distinctKeys_prelude other id also there (same.trans carries.symm)]
  found there := by
    rw [sound_prelude.symbol?_keyOf there]
    rfl

/-- Operations are performed on the prelude. A key finds the symbol that was added last of those
    that carry it. All symbols are found by their keys, and their keys are different, if and only if
    no operation defines a type without a symbol while another symbol has its name as key; the
    symbols that are lost are those whose key was given again in that way. Declaring a symbol in
    place is what the operation says; it fails only because the key is taken, and then it changes
    nothing. -/
theorem symbol?_iff_newest (operations : List Operation) :
    (∀ key id, (prelude.perform operations).symbol? key = some id ↔
        (prelude.perform operations).IsNewest key id) ∧
      ((∀ id : SymbolId, id.index < (prelude.perform operations).symbolCount →
          (prelude.perform operations).symbol? ((prelude.perform operations).keyOf id) = some id) ↔
        Throughout (fun model operation => ¬ operation.Hides model) prelude operations) ∧
      ((prelude.perform operations).DistinctKeys ↔
        Throughout (fun model operation => ¬ operation.Hides model) prelude operations) ∧
      (∀ id : SymbolId, id.index < (prelude.perform operations).symbolCount →
        ((prelude.perform operations).symbol? ((prelude.perform operations).keyOf id) ≠ some id ↔
          ∃ before tag after,
            operations = before ++ .define ((prelude.perform operations).keyOf id) tag :: after ∧
            id.index < (prelude.perform before).symbolCount ∧
            (prelude.perform before).symbolOfType? ((prelude.perform operations).keyOf id) =
              none)) ∧
      ∀ key name kind owner,
        ((ModelM.declare key name kind owner).start (prelude.perform operations)).2 =
            prelude.perform (operations ++ [.declare key name kind owner]) ∧
          ∀ cause,
            ((ModelM.declare key name kind owner).start (prelude.perform operations)).1 =
                .error cause →
              cause = .duplicateSymbol key ∧ ((prelude.perform operations).symbol? key).isSome ∧
                ((ModelM.declare key name kind owner).start (prelude.perform operations)).2 =
                  prelude.perform operations := by
  have tracks := tracksKeys_prelude.perform operations
  have unhidden := tracksKeys_prelude.forall_symbol?_iff_throughout distinctKeys_prelude operations
  refine ⟨fun key id => tracks.symbol?_iff, unhidden, tracks.forall_symbol?_iff.symm.trans unhidden,
    fun id there => tracksKeys_prelude.lost_iff distinctKeys_prelude operations there, ?_⟩
  intro key name kind owner
  refine ⟨?_, fun cause failed => ModelM.start_declare_of_error failed⟩
  rw [ModelM.start_declare_snd, perform_append]
  rfl

/-- A variable is declared, and then a type is defined whose name is the key of the variable. -/
theorem not_forall_symbol?_keyOf :
    ¬ ∀ operations : List Operation, ∀ id : SymbolId,
      id.index < (prelude.perform operations).symbolCount →
        (prelude.perform operations).symbol? ((prelude.perform operations).keyOf id) = some id := by
  intro always
  have lost := always [.declare "p.A" "A" .variable none, .define "p.A" (.declared .ordinary)] ⟨7⟩
    (by decide +kernel)
  revert lost
  decide +kernel

end Model

end BugPatterns
