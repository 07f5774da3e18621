import BugPatterns.Proofs.Model.Members
import BugPatterns.Proofs.Model.OwnerChain
import BugPatterns.Proofs.Model.Reached

/-!
# Owners and members

A symbol has one owner, and a type symbol lists its members. Both are written when a symbol is
declared or a type is nested, and members are never taken off a list. So a type symbol lists what it
owns, and in general what it owned at some time (`Model.mem_members_perform`): a type that is nested
in another one stays a member of the first. Owners and members agree as long as no type is moved in
this way, and only then (`Model.ownersAgree_iff`).
-/

namespace BugPatterns

/-- If the operation nests a symbol in another one, both are symbols of types. -/
def Operation.NestsTypes (model : Model) : Operation → Prop
  | .nest nested outer => model.isTypeSymbol nested = true ∧ model.isTypeSymbol outer = true
  | _ => True

instance (model : Model) : DecidablePred (Operation.NestsTypes model)
  | .nest nested outer => inferInstanceAs
      (Decidable (model.isTypeSymbol nested = true ∧ model.isTypeSymbol outer = true))
  | .intern _ | .define _ _ | .setSuperclass _ _ | .addInterface _ _ | .declare _ _ _ _
  | .addParam _ _ => isTrue trivial

/-- The operation nests a symbol in another one than the type symbol that owns it. -/
def Operation.Moves (model : Model) : Operation → Prop
  | .nest nested outer =>
      ∃ owner, model.owner nested = some owner ∧ model.isTypeSymbol owner = true ∧ owner ≠ outer
  | _ => False

namespace Model

/-- Type symbols list all symbols that they own. -/
def ListsOwned (model : Model) : Prop :=
  ∀ ⦃owner member : SymbolId⦄, model.isTypeSymbol owner = true → model.owner member = some owner →
    member ∈ (model.symbol owner).members

/-- Symbols stay what they are; a type symbol keeps its members and lists what it owns. -/
structure Enrolls (before after : Model) : Prop where
  count : before.symbolCount ≤ after.symbolCount
  isType : ∀ {id}, id.index < before.symbolCount → after.isTypeSymbol id = before.isTypeSymbol id
  members : ∀ {owner member}, after.isTypeSymbol owner = true →
    (member ∈ (after.symbol owner).members ↔
      member ∈ (before.symbol owner).members ∨ after.owner member = some owner)

theorem Enrolls.listsOwned {before after : Model} (enrolls : Enrolls before after) :
    after.ListsOwned :=
  fun _ _ isType owned => (enrolls.members isType).mpr (.inr owned)

/-- Only symbols count. -/
theorem Enrolls.of_symbols {before grown after : Model} (enrolls : Enrolls before grown)
    (symbols : after.symbols = grown.symbols) : Enrolls before after := by
  have same (id : SymbolId) : after.symbol id = grown.symbol id := by rw [symbol, symbols, symbol]
  have types (id : SymbolId) : after.isTypeSymbol id = grown.isTypeSymbol id := by
    rw [isTypeSymbol, same, isTypeSymbol]
  refine ⟨enrolls.count.trans (congrArg Array.size symbols).ge,
    fun there => (types _).trans (enrolls.isType there), fun isType => ?_⟩
  rw [Model.owner, same, same]
  exact enrolls.members (types _ ▸ isType)

/-- A number that belongs to no symbol yet lists nothing and owns nothing. -/
theorem Enrolls.mem_members_iff {before after : Model} (enrolls : Enrolls before after)
    (closed : after.Closed) {owner member : SymbolId}
    (isType : owner.index < after.symbolCount → after.isTypeSymbol owner = true) :
    member ∈ (after.symbol owner).members ↔
      member ∈ (before.symbol owner).members ∨ after.owner member = some owner := by
  by_cases there : owner.index < after.symbolCount
  · exact enrolls.members (isType there)
  · have beyond := Nat.not_lt.mp there
    rw [symbol_of_le _ beyond, symbol_of_le _ (enrolls.count.trans beyond)]
    refine iff_of_false (by simp [SymbolInfo.bare]) ?_
    rintro (absurd | owned)
    · simp [SymbolInfo.bare] at absurd
    · exact there ((closed.symbols member).owner owner owned)

/-! ## What an operation does to owners and members -/

section Step

variable (model : Model)

theorem members_pushSymbol {info : SymbolInfo} (none : info.members = []) (id : SymbolId) :
    ((model.pushSymbol info).2.symbol id).members = (model.symbol id).members := by
  rw [symbol_pushSymbol]
  split
  · next new =>
      rw [none, symbol_of_le model new.ge]
      rfl
  · rfl

theorem owner_pushSymbol (info : SymbolInfo) (id : SymbolId) :
    (model.pushSymbol info).2.owner id =
      if id.index = model.symbolCount then info.owner else model.owner id := by
  rw [owner, symbol_pushSymbol]
  split <;> rfl

theorem isTypeSymbol_pushSymbol (info : SymbolInfo) {id : SymbolId}
    (there : id.index < model.symbolCount) :
    (model.pushSymbol info).2.isTypeSymbol id = model.isTypeSymbol id := by
  rw [isTypeSymbol, symbol_pushSymbol, if_neg there.ne, isTypeSymbol]

theorem owner_modifySymbol (id : SymbolId) {f : SymbolInfo → SymbolInfo}
    (kept : ∀ info, (f info).owner = info.owner) (other : SymbolId) :
    (model.modifySymbol id f).owner other = model.owner other :=
  model.apply_symbol_modifySymbol SymbolInfo.owner kept id other

theorem isTypeSymbol_modifySymbol (id : SymbolId) {f : SymbolInfo → SymbolInfo}
    (kept : ∀ info, (f info).kind = info.kind) (other : SymbolId) :
    (model.modifySymbol id f).isTypeSymbol other = model.isTypeSymbol other :=
  congrArg (fun kind : SymbolKind => decide (kind = .type))
    (model.apply_symbol_modifySymbol SymbolInfo.kind kept id other)

section Nest

variable {nested outer : SymbolId}

theorem symbolCount_nest : (model.nest nested outer).symbolCount = model.symbolCount :=
  (symbolCount_modifySymbol ..).trans (symbolCount_modifySymbol ..)

theorem isTypeSymbol_nest (id : SymbolId) :
    (model.nest nested outer).isTypeSymbol id = model.isTypeSymbol id :=
  (isTypeSymbol_modifySymbol _ outer
      (f := fun info => { info with members := appendNew info.members nested }) (fun _ => rfl)
      id).trans
    (model.isTypeSymbol_modifySymbol nested (f := fun info => { info with owner := some outer })
      (fun _ => rfl) id)

theorem owner_nest (there : nested.index < model.symbolCount) (id : SymbolId) :
    (model.nest nested outer).owner id =
      if id = nested then some outer else model.owner id := by
  refine (owner_modifySymbol _ outer
    (f := fun info => { info with members := appendNew info.members nested })
    (fun _ => rfl) id).trans ?_
  rw [Model.owner, symbol_modifySymbol _ there]
  split <;> rfl

theorem members_nest (there : outer.index < model.symbolCount) (id : SymbolId) :
    ((model.nest nested outer).symbol id).members =
      if id = outer then appendNew (model.symbol id).members nested
      else (model.symbol id).members := by
  have kept := model.apply_symbol_modifySymbol SymbolInfo.members
    (f := fun info => { info with owner := some outer }) (fun _ => rfl) nested id
  rw [nest, symbol_modifySymbol _ (by rwa [symbolCount_modifySymbol])]
  split
  · rw [kept]
  · exact kept

end Nest

variable {model} (listed : model.ListsOwned)

include listed

theorem ListsOwned.enrolls : Enrolls model model where
  count := le_rfl
  isType _ := rfl
  members isType := (or_iff_left_of_imp (listed isType)).symm

theorem enrolls_addParam (method param : SymbolId) :
    Enrolls model (model.addParam method param) := by
  have owners := model.owner_modifySymbol method
    (f := fun info => { info with params := info.params ++ [param] }) fun _ => rfl
  have types := model.isTypeSymbol_modifySymbol method
    (f := fun info => { info with params := info.params ++ [param] }) fun _ => rfl
  have members := model.apply_symbol_modifySymbol SymbolInfo.members
    (f := fun info => { info with params := info.params ++ [param] }) (fun _ => rfl) method
  refine ⟨(symbolCount_modifySymbol ..).ge, fun _ => types _, fun isType => ?_⟩
  rw [addParam, members, owners]
  exact (or_iff_left_of_imp (listed (types _ ▸ isType))).symm

theorem enrolls_nest {nested outer : SymbolId} (there : nested.index < model.symbolCount)
    (also : outer.index < model.symbolCount) : Enrolls model (model.nest nested outer) := by
  refine ⟨model.symbolCount_nest.ge, fun _ => model.isTypeSymbol_nest _, ?_⟩
  intro owner member isType
  rw [isTypeSymbol_nest] at isType
  rw [model.owner_nest there, model.members_nest also]
  have lists := @listed owner member isType
  by_cases own : owner = outer
  · subst own
    rw [if_pos rfl, mem_appendNew]
    by_cases same : member = nested
    · simp [same]
    · simpa [same] using lists
  · rw [if_neg own]
    by_cases same : member = nested
    · simp [same, Ne.symm own]
    · simpa [same] using lists

section Push

variable (closed : model.Closed) {info : SymbolInfo} (none : info.members = [])
  (owned : ∀ id ∈ info.owner, id.index < model.symbolCount)

include closed none owned

/-- A symbol that a type does not own is a member of nothing. -/
theorem enrolls_pushSymbol (unlisted : ∀ id ∈ info.owner, model.isTypeSymbol id = false) :
    Enrolls model (model.pushSymbol info).2 := by
  refine ⟨(symbolCount_pushSymbol ..).symm ▸ Nat.le_succ _,
    fun there => isTypeSymbol_pushSymbol _ _ there, ?_⟩
  intro owner member isType
  rw [members_pushSymbol _ none, owner_pushSymbol]
  refine (or_iff_left_of_imp fun has => ?_).symm
  split at has
  · have inside := owned owner has
    rw [isTypeSymbol_pushSymbol _ _ inside, unlisted owner has] at isType
    cases isType
  · have inside := (closed.symbols member).owner owner has
    rw [isTypeSymbol_pushSymbol _ _ inside] at isType
    exact listed isType has

/-- A symbol that a type owns becomes a member of it. -/
theorem enrolls_enlist {owner : SymbolId} (own : info.owner = some owner) :
    Enrolls model ((model.pushSymbol info).2.modifySymbol owner
      fun other => { other with members := other.members ++ [⟨model.symbolCount⟩] }) := by
  have inside := owned owner own
  have there : owner.index < (model.pushSymbol info).2.symbolCount :=
    (symbolCount_pushSymbol ..).symm ▸ Nat.lt_succ_of_lt inside
  have owners := (model.pushSymbol info).2.owner_modifySymbol owner (f := fun other =>
    { other with members := other.members ++ [⟨model.symbolCount⟩] }) fun _ => rfl
  have types := (model.pushSymbol info).2.isTypeSymbol_modifySymbol owner (f := fun other =>
    { other with members := other.members ++ [⟨model.symbolCount⟩] }) fun _ => rfl
  refine ⟨?_, fun there => (types _).trans (isTypeSymbol_pushSymbol _ _ there), ?_⟩
  · rw [symbolCount_modifySymbol, symbolCount_pushSymbol]
    exact Nat.le_succ _
  · intro other member isType
    rw [types] at isType
    have kept : member ∈ ((model.pushSymbol info).2.symbol other).members ↔
        member ∈ (model.symbol other).members ∨
          member.index ≠ model.symbolCount ∧ model.owner member = some other := by
      rw [members_pushSymbol _ none]
      refine (or_iff_left_of_imp fun ⟨_, has⟩ => listed ?_ has).symm
      rwa [← isTypeSymbol_pushSymbol _ info ((closed.symbols member).owner other has)]
    have last : member = ⟨model.symbolCount⟩ ↔ member.index = model.symbolCount :=
      ⟨fun equal => congrArg SymbolId.index equal, fun new => congrArg SymbolId.mk new⟩
    rw [owners, owner_pushSymbol, symbol_modifySymbol _ there]
    by_cases own' : other = owner
    · subst own'
      rw [if_pos rfl, List.mem_append, List.mem_singleton, kept, last]
      by_cases new : member.index = model.symbolCount <;> simp [new, own]
    · rw [if_neg own', kept]
      by_cases new : member.index = model.symbolCount <;> simp [new, own, Ne.symm own']

end Push

/-- An operation on numbers of the model lets type symbols list what they own. -/
theorem enrolls_apply (closed : model.Closed) {operation : Operation}
    (within : operation.Within model) : Enrolls model (operation.apply model) := by
  obtain ⟨grown, step, symbols, -⟩ := symbolStep_apply model operation
  refine Enrolls.of_symbols ?_ symbols
  cases step with
  | intern | setSuperclass | addInterface | redefine | refuse => exact listed.enrolls
  | nest nested outer => exact enrolls_nest listed within.1 within.2
  | addParam method param => exact enrolls_addParam listed method param
  | define tag id unowned =>
      exact enrolls_pushSymbol listed closed rfl (fun _ absurd => by cases absurd)
        fun _ absurd => by cases absurd
  | declare free unlisted =>
      refine enrolls_pushSymbol listed closed rfl within fun id own => ?_
      rw [← isTypeSymbol_pushSymbol _ _ (within id own)]
      exact decide_eq_false (unlisted id own)
  | enlist free isType =>
      refine enrolls_enlist listed closed ?_ ?_ ?_
      · rfl
      · exact within
      · rfl

end Step

/-! ## Whole histories -/

/-- The symbol was owned by another one at some time. -/
def OwnedOnce (model : Model) (operations : List Operation) (member owner : SymbolId) : Prop :=
  ∃ before after, operations = before ++ after ∧
    (model.perform before).owner member = some owner

theorem ownedOnce_nil {model : Model} {member owner : SymbolId} :
    model.OwnedOnce [] member owner ↔ model.owner member = some owner := by
  constructor
  · rintro ⟨before, after, split, owned⟩
    obtain ⟨rfl, -⟩ := List.append_eq_nil_iff.mp split.symm
    exact owned
  · exact fun owned => ⟨[], [], rfl, owned⟩

theorem ownedOnce_cons {model : Model} {operation : Operation} {operations : List Operation}
    {member owner : SymbolId} :
    model.OwnedOnce (operation :: operations) member owner ↔
      model.owner member = some owner ∨
        (operation.apply model).OwnedOnce operations member owner := by
  constructor
  · rintro ⟨before, after, split, owned⟩
    cases before with
    | nil => exact .inl owned
    | cons first before =>
        obtain ⟨rfl, rfl⟩ := List.cons.inj split
        exact .inr ⟨before, after, rfl, owned⟩
  · rintro (owned | ⟨before, after, rfl, owned⟩)
    · exact ⟨[], _, rfl, owned⟩
    · exact ⟨operation :: before, after, rfl, owned⟩

section Run

variable {model : Model} (closed : model.Closed) (listed : model.ListsOwned)
  {operations : List Operation}
  (within : Throughout (fun model operation => operation.Within model) model operations)

include closed listed within

theorem listsOwned_perform : (model.perform operations).ListsOwned := by
  refine (within.keeps (q := fun model => model.Closed ∧ model.ListsOwned) ?_ ⟨closed, listed⟩).2
  rintro model operation ⟨closed, listed⟩ within
  exact ⟨closed.apply within, (enrolls_apply listed closed within).listsOwned⟩

/-- Symbols that are there stay what they are. -/
theorem isTypeSymbol_perform {id : SymbolId} (there : id.index < model.symbolCount) :
    (model.perform operations).isTypeSymbol id = model.isTypeSymbol id := by
  induction operations generalizing model with
  | nil => rfl
  | cons operation operations ih =>
      have enrolls := enrolls_apply listed closed within.1
      exact (ih (closed.apply within.1) enrolls.listsOwned within.2
        (there.trans_le enrolls.count)).trans (enrolls.isType there)

/-- A type symbol lists what it listed at first and what it owned at some time. -/
theorem mem_members_perform {owner member : SymbolId}
    (isType : (model.perform operations).isTypeSymbol owner = true) :
    member ∈ ((model.perform operations).symbol owner).members ↔
      member ∈ (model.symbol owner).members ∨ model.OwnedOnce operations member owner := by
  induction operations generalizing model with
  | nil =>
      rw [ownedOnce_nil]
      exact (or_iff_left_of_imp (listed isType)).symm
  | cons operation operations ih =>
      have enrolls := enrolls_apply listed closed within.1
      have next := closed.apply within.1
      have typed : owner.index < (operation.apply model).symbolCount →
          (operation.apply model).isTypeSymbol owner = true := by
        intro there
        rw [← isTypeSymbol_perform next enrolls.listsOwned within.2 there]
        exact isType
      have old : model.owner member = some owner → member ∈ (model.symbol owner).members := by
        intro owned
        have there := (closed.symbols member).owner owner owned
        exact listed (enrolls.isType there ▸ typed (there.trans_le enrolls.count)) owned
      have later : (operation.apply model).owner member = some owner →
          (operation.apply model).OwnedOnce operations member owner :=
        fun owned => ⟨[], operations, rfl, owned⟩
      rw [perform_cons, ih next enrolls.listsOwned within.2 isType, ownedOnce_cons,
        enrolls.mem_members_iff next typed]
      tauto

end Run

/-! ## When owners and members agree -/

/-- Type symbols list what they own, and nothing else. -/
def OwnersAgree (model : Model) : Prop :=
  ∀ owner member : SymbolId, model.isTypeSymbol owner = true →
    (member ∈ (model.symbol owner).members ↔ model.owner member = some owner)

theorem OwnersAgree.listsOwned {model : Model} (agree : model.OwnersAgree) : model.ListsOwned :=
  fun _ _ isType owned => (agree _ _ isType).mpr owned

/-- An operation that does not nest a symbol leaves it with its owner. -/
theorem owner_apply {model : Model} {operation : Operation} (within : operation.Within model)
    {member : SymbolId} (there : member.index < model.symbolCount)
    (unnested : ∀ outer, operation ≠ .nest member outer) :
    (operation.apply model).owner member = model.owner member := by
  obtain ⟨grown, step, symbols, -⟩ := symbolStep_apply model operation
  have same : (operation.apply model).owner member = grown.owner member := by
    rw [Model.owner, symbol, symbols, Model.owner, symbol]
  rw [same]
  cases step with
  | intern | setSuperclass | addInterface | redefine | refuse => rfl
  | nest nested outer =>
      rw [model.owner_nest within.1, if_neg]
      rintro rfl
      exact unnested outer rfl
  | addParam method param =>
      exact model.owner_modifySymbol method
        (f := fun info => { info with params := info.params ++ [param] }) (fun _ => rfl) member
  | define | declare => rw [owner_pushSymbol, if_neg there.ne]
  | enlist =>
      refine (owner_modifySymbol _ _ ?_ member).trans ?_
      · exact fun _ => rfl
      · rw [owner_pushSymbol, if_neg there.ne]

section Agree

variable {model : Model} (closed : model.Closed) {operations : List Operation}

include closed

/-- A symbol that is not moved stays with the type symbol that owns it. -/
theorem owner_perform (listed : model.ListsOwned)
    (within : Throughout (fun model operation => operation.Within model) model operations)
    (unmoved : Throughout (fun model operation => ¬ operation.Moves model) model operations)
    {owner member : SymbolId} (isType : model.isTypeSymbol owner = true)
    (owned : model.owner member = some owner) :
    (model.perform operations).owner member = some owner := by
  induction operations generalizing model with
  | nil => exact owned
  | cons operation operations ih =>
      have enrolls := enrolls_apply listed closed within.1
      have typed := (enrolls.isType (lt_of_isTypeSymbol isType)).trans isType
      refine ih (closed.apply within.1) enrolls.listsOwned within.2 unmoved.2 typed ?_
      by_cases nests : ∃ outer, operation = .nest member outer
      · obtain ⟨outer, rfl⟩ := nests
        by_cases same : owner = outer
        · subst same
          exact (model.owner_nest within.1.1 member).trans (if_pos rfl)
        · exact absurd ⟨owner, owned, isType, same⟩ unmoved.1
      · rw [owner_apply within.1 (lt_of_owner owned) (not_exists.mp nests), owned]

variable (agree : model.OwnersAgree)
  (within : Throughout (fun model operation => operation.Within model) model operations)

include agree within

/-- What is listed was owned at some time. -/
theorem mem_members_iff_of_agree {owner member : SymbolId}
    (isType : (model.perform operations).isTypeSymbol owner = true) :
    member ∈ ((model.perform operations).symbol owner).members ↔
      model.OwnedOnce operations member owner := by
  rw [mem_members_perform closed agree.listsOwned within isType]
  refine or_iff_right_of_imp fun member => ⟨[], operations, rfl, ?_⟩
  have there : owner.index < model.symbolCount := by
    by_contra beyond
    rw [symbol_of_le _ (Nat.not_lt.mp beyond)] at member
    cases member
  rw [isTypeSymbol_perform closed agree.listsOwned within there] at isType
  exact (agree _ _ isType).mp member

/-- If a symbol of a type were moved, it would be listed by two of them in the end. -/
theorem unmoved_of_ownersAgree
    (nests : Throughout (fun model operation => operation.NestsTypes model) model operations)
    (last : (model.perform operations).OwnersAgree) :
    Throughout (fun model operation => ¬ operation.Moves model) model operations := by
  rw [throughout_iff]
  rintro before operation after rfl moves
  obtain ⟨first, rest⟩ := throughout_append.mp within
  have closedThen := closed.perform first
  have listedThen := listsOwned_perform closed agree.listsOwned first
  have types := throughout_iff.mp nests before operation after rfl
  cases operation with
  | nest nested outer =>
      obtain ⟨owner, owned, isType, apart⟩ := moves
      have still {id : SymbolId} (isType : (model.perform before).isTypeSymbol id = true) :
          (model.perform (before ++ .nest nested outer :: after)).isTypeSymbol id = true := by
        have there := lt_of_isTypeSymbol isType
        rw [perform_append, isTypeSymbol_perform closedThen listedThen rest there]
        exact isType
      have owns {id : SymbolId} (isType : (model.perform before).isTypeSymbol id = true)
          (once : model.OwnedOnce (before ++ .nest nested outer :: after) nested id) :
          (model.perform (before ++ .nest nested outer :: after)).owner nested = some id :=
        (last _ _ (still isType)).mp
          ((mem_members_iff_of_agree closed agree within (still isType)).mpr once)
      have former := owns isType ⟨before, _, rfl, owned⟩
      have latter := owns types.2 (by
        refine ⟨before ++ [.nest nested outer], after, by simp, ?_⟩
        rw [perform_append]
        exact (owner_nest _ rest.1.1 nested).trans (if_pos rfl))
      exact apart (Option.some.inj (former.symm.trans latter))
  | _ => exact moves

/-- What a type symbol owned at some time it owns in the end, if nothing is moved. -/
theorem ownersAgree_of_unmoved
    (unmoved : Throughout (fun model operation => ¬ operation.Moves model) model operations) :
    (model.perform operations).OwnersAgree := by
  have listed := agree.listsOwned
  intro owner member isType
  refine ⟨fun member => ?_, listsOwned_perform closed listed within isType⟩
  obtain ⟨before, after, rfl, owned⟩ :=
    (mem_members_iff_of_agree closed agree within isType).mp member
  obtain ⟨first, rest⟩ := throughout_append.mp within
  have closedThen := closed.perform first
  have listedThen := listsOwned_perform closed listed first
  rw [perform_append] at isType ⊢
  refine owner_perform closedThen listedThen rest (throughout_append.mp unmoved).2 ?_ owned
  have there := (closedThen.symbols _).owner owner owned
  rw [← isTypeSymbol_perform closedThen listedThen rest there]
  exact isType

/-- Only symbols of types are nested. Owners and members agree as long as none of them is moved, and
    only then. -/
theorem ownersAgree_iff
    (nests : Throughout (fun model operation => operation.NestsTypes model) model operations) :
    (model.perform operations).OwnersAgree ↔
      Throughout (fun model operation => ¬ operation.Moves model) model operations :=
  ⟨unmoved_of_ownersAgree closed agree within nests, ownersAgree_of_unmoved closed agree within⟩

end Agree

/-! ## Models that are built from the prelude -/

namespace Tidy

variable {model : Model} (tidy : model.Tidy)

include tidy

theorem apply {operation : Operation} (within : operation.Within model) :
    (operation.apply model).Tidy := by
  cases operation with
  | intern name => exact tidy.internName _
  | define name tag => exact tidy.define name tag
  | setSuperclass id superclass => exact tidy.modifyType id fun _ => rfl
  | addInterface id interface => exact tidy.modifyType id fun _ => rfl
  | nest nested outer => exact tidy.nest within.1 outer
  | declare key name kind owner =>
      rw [Operation.apply, declareIfFree]
      split
      · next declared => exact tidy.declare declared
      · exact tidy
  | addParam method param => exact tidy.modifySymbol method fun _ => rfl

theorem perform {operations : List Operation}
    (within : Throughout (fun model operation => operation.Within model) model operations) :
    (model.perform operations).Tidy :=
  within.keeps (fun tidy within => tidy.apply within) tidy

end Tidy

theorem ownersAgree_prelude : prelude.OwnersAgree := by
  have bare : ∀ info ∈ prelude.symbols.toList, info.members = [] ∧ info.owner = none := by
    decide +kernel
  have alone (id : SymbolId) : (prelude.symbol id).members = [] ∧ prelude.owner id = none := by
    unfold Model.owner symbol
    cases found : prelude.symbols[id.index]? with
    | none => exact ⟨rfl, rfl⟩
    | some info => exact bare info (Array.mem_toList_iff.mpr (Array.mem_of_getElem? found))
  intro owner member _
  rw [(alone owner).1, (alone member).2]
  exact iff_of_false List.not_mem_nil nofun

/-- Operations on numbers of the models that they meet, nesting symbols of types only, are performed
    on the prelude. Then a type symbol lists exactly the symbols that it owned at some time, those
    that it owns among them, and none of them twice; and its members of some name are those on its
    list that have the name, each once. What is listed is what is owned, for all of them, if and
    only if no operation nests a symbol in another one than the type symbol that owns it. -/
theorem mem_members_iff_ownedOnce {operations : List Operation}
    (within : Throughout (fun model operation => operation.Within model) prelude operations)
    (nests : Throughout (fun model operation => operation.NestsTypes model) prelude operations) :
    (∀ owner member : SymbolId, (prelude.perform operations).isTypeSymbol owner = true →
        (member ∈ ((prelude.perform operations).symbol owner).members ↔
          prelude.OwnedOnce operations member owner) ∧
        ((prelude.perform operations).owner member = some owner →
          member ∈ ((prelude.perform operations).symbol owner).members)) ∧
      (∀ id, ((prelude.perform operations).symbol id).members.Nodup) ∧
      (∀ owner name, (prelude.perform operations).isTypeSymbol owner = true →
        ((prelude.perform operations).membersNamed owner name).Nodup ∧
          ∀ member, member ∈ (prelude.perform operations).membersNamed owner name ↔
            prelude.OwnedOnce operations member owner ∧
              ((prelude.perform operations).symbol member).name = name) ∧
      ((prelude.perform operations).OwnersAgree ↔
        Throughout (fun model operation => ¬ operation.Moves model) prelude operations) ∧
      ((prelude.perform operations).OwnersAgree →
        ∀ owner name, (prelude.perform operations).isTypeSymbol owner = true →
          ∀ member, member ∈ (prelude.perform operations).membersNamed owner name ↔
            (prelude.perform operations).owner member = some owner ∧
              ((prelude.perform operations).symbol member).name = name) := by
  have listed := ownersAgree_prelude.listsOwned
  have members {owner member : SymbolId}
      (isType : (prelude.perform operations).isTypeSymbol owner = true) :
      member ∈ ((prelude.perform operations).symbol owner).members ↔
        prelude.OwnedOnce operations member owner :=
    mem_members_iff_of_agree closed_prelude ownersAgree_prelude within isType
  have distinct := (tidy_prelude.perform within).nodup
  have named {owner member : SymbolId} {name : String} :
      member ∈ (prelude.perform operations).membersNamed owner name ↔
        member ∈ ((prelude.perform operations).symbol owner).members ∧
          ((prelude.perform operations).symbol member).name = name := by
    rw [membersNamed, List.mem_filter, decide_eq_true_eq]
  refine ⟨fun owner member isType => ⟨members isType, fun owned =>
      listsOwned_perform closed_prelude listed within isType owned⟩, distinct,
    fun owner name isType => ⟨(distinct owner).filter _, fun member => ?_⟩,
    ownersAgree_iff closed_prelude ownersAgree_prelude within nests,
    fun agree owner name isType member => ?_⟩
  · rw [named, members isType]
  · rw [named, agree owner member isType]

/-- A type is nested in one type and then in another one. -/
def nestedTwice : List Operation :=
  [.define "p.A" (.declared .ordinary), .define "p.B" (.declared .ordinary),
    .define "p.C" (.declared .ordinary), .nest ⟨7⟩ ⟨8⟩, .nest ⟨7⟩ ⟨9⟩]

/-- It is a member of both. -/
theorem mem_members_iff_ownedOnce_nestedTwice : ∃ model,
    prelude.perform nestedTwice = model ∧ model.owner ⟨7⟩ = some ⟨9⟩ ∧
      ⟨7⟩ ∈ (model.symbol ⟨8⟩).members ∧ ⟨7⟩ ∈ (model.symbol ⟨9⟩).members ∧
      ¬ Throughout (fun model operation => ¬ operation.Moves model) prelude nestedTwice := by
  have owned : (prelude.perform nestedTwice).owner ⟨7⟩ = some ⟨9⟩ := by decide +kernel
  have types : (prelude.perform nestedTwice).isTypeSymbol ⟨8⟩ = true ∧
      (prelude.perform nestedTwice).isTypeSymbol ⟨9⟩ = true := by decide +kernel
  have before : (prelude.perform (nestedTwice.take 4)).owner ⟨7⟩ = some ⟨8⟩ := by decide +kernel
  obtain ⟨members, -, -, agree, -⟩ :=
    @mem_members_iff_ownedOnce nestedTwice (by decide +kernel) (by decide +kernel)
  have former := (members ⟨8⟩ ⟨7⟩ types.1).1.mpr ⟨nestedTwice.take 4, _, rfl, before⟩
  refine ⟨_, rfl, owned, former, (members ⟨9⟩ ⟨7⟩ types.2).2 owned, fun unmoved => ?_⟩
  have current := (agree.mpr unmoved ⟨8⟩ ⟨7⟩ types.1).mp former
  cases current.symm.trans owned

/-- So a type symbol may list what it does not own. -/
theorem not_forall_ownersAgree :
    ¬ ∀ operations : List Operation,
      Throughout (fun model operation => operation.Within model) prelude operations →
        Throughout (fun model operation => operation.NestsTypes model) prelude operations →
          (prelude.perform operations).OwnersAgree := by
  intro always
  have agree := (always nestedTwice (by decide +kernel) (by decide +kernel) ⟨8⟩ ⟨7⟩
    (by decide +kernel)).mp (by decide +kernel)
  revert agree
  decide +kernel

end Model

end BugPatterns
