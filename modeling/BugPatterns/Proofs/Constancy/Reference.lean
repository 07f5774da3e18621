import BugPatterns.Catalog.Builtin
import BugPatterns.Proofs.Constancy.Forward
import Mathlib.Data.List.Nodup

/-!
# Definitions by reference

Which definitions reach a use can be told without a scan. A tour of the method body completes some
nodes before it enters the use; those of them that lie in no type declaration define the variable
one after the other (`LoadedUnit.Collects`); the last value given to it counts, and all that was
added since (`Settles`). Both searches find what this reference comes to
(`LoadedUnit.definitions_eq_reference`).
-/

namespace BugPatterns

/-- The expression is the variable, possibly in parentheses. -/
inductive Names (key : String) : Expr Site → Prop
  | ident {label : Site} {name : String} {type : Option String} :
      Names key (.ident label name (some key) type)
  | paren {label : Site} {inner : Expr Site} {type : Option String} (names : Names key inner) :
      Names key (.paren label inner type)

section Defines

variable (loaded : LoadedUnit) (catalog : Catalog) (key : String)

/-- A chain of calls that add to what they are made on, with the variable at its root. -/
inductive Chain : Expr Site → Prop
  | root {e : Expr Site} (names : Names key e) : Chain e
  | paren {label : Site} {inner : Expr Site} {type : Option String} (chain : Chain inner) :
      Chain (.paren label inner type)
  | call {label select : Site} {target : Expr Site} {method : String} {args : List (Expr Site)}
      {member memberType symbol type : Option String}
      (adds : catalog.effect? loaded.model (loaded.callCandidates
        (.call label (.select select target method member memberType) args symbol type)) method =
          some .mutate)
      (chain : Chain target) :
      Chain (.call label (.select select target method member memberType) args symbol type)

/-- What a node does to the variable: it gives it a value, or it adds values to it. -/
inductive Defines : Node Site → DefinitionEvent → Prop
  | initializer {decl : VarDecl Site} {value : Expr Site} (named : decl.symbol = some key)
      (initialized : decl.init = some value) : Defines (.varDecl decl) (.replace value)
  | assign {label : Site} {target value : Expr Site} {type : Option String}
      (names : Names key target) :
      Defines (.expr (.assign label .assign target value type)) (.replace value)
  | compound {label : Site} {op : AssignOp} {target value : Expr Site} {type : Option String}
      (other : op ≠ .assign) (names : Names key target) :
      Defines (.expr (.assign label op target value type)) (.extend [value])
  | call {label : Site} {callee : Expr Site} {args : List (Expr Site)}
      {symbol type : Option String}
      (chain : Chain loaded catalog key (.call label callee args symbol type)) :
      Defines (.expr (.call label callee args symbol type)) (.extend args)

/-- What completed nodes do to the variable, one after the other; what lies in a type declaration
    does nothing. -/
inductive Collects : List (Bool × Node Site) → List DefinitionEvent → Prop
  | nil : Collects [] []
  | inType {n : Node Site} {done : List (Bool × Node Site)} {events : List DefinitionEvent}
      (rest : Collects done events) : Collects ((true, n) :: done) events
  | other {n : Node Site} {done : List (Bool × Node Site)} {events : List DefinitionEvent}
      (none : ∀ event, ¬ Defines loaded catalog key n event) (rest : Collects done events) :
      Collects ((false, n) :: done) events
  | event {n : Node Site} {event : DefinitionEvent} {done : List (Bool × Node Site)}
      {events : List DefinitionEvent} (defines : Defines loaded catalog key n event)
      (rest : Collects done events) : Collects ((false, n) :: done) (event :: events)

end Defines

/-- The event adds to what was known. -/
def DefinitionEvent.IsUpdate : DefinitionEvent → Prop
  | .replace _ => False
  | .extend _ => True

/-- What some events come to: the last value given, and the values added after it. -/
inductive Settles : List DefinitionEvent → Definitions → Prop
  | never {events : List DefinitionEvent} (updates : ∀ event ∈ events, event.IsUpdate) :
      Settles events ⟨none, events.flatMap DefinitionEvent.values⟩
  | last {before after : List DefinitionEvent} {value : Expr Site}
      (updates : ∀ event ∈ after, event.IsUpdate) :
      Settles (before ++ .replace value :: after)
        ⟨some value, after.flatMap DefinitionEvent.values⟩

/-- Updates leave the latest value and add theirs. -/
theorem foldl_apply_updates {events : List DefinitionEvent}
    (updates : ∀ event ∈ events, event.IsUpdate) : ∀ found : Definitions,
      events.foldl Definitions.apply found =
        ⟨found.latest, found.updates ++ events.flatMap DefinitionEvent.values⟩ := by
  induction events with
  | nil => simp
  | cons event events ih =>
      intro found
      obtain ⟨update, rest⟩ := List.forall_mem_cons.mp updates
      cases event with
      | replace value => cases update
      | extend values =>
          rw [List.foldl_cons, ih rest, List.flatMap_cons]
          simp [Definitions.apply, DefinitionEvent.values]

/-- Either all events are updates, or one of them is the last that gives a value. -/
theorem updates_or_last (events : List DefinitionEvent) :
    (∀ event ∈ events, event.IsUpdate) ∨
      ∃ before value after, events = before ++ .replace value :: after ∧
        ∀ event ∈ after, DefinitionEvent.IsUpdate event := by
  induction events with
  | nil => simp
  | cons event events ih =>
      rcases ih with updates | ⟨before, value, after, rfl, updates⟩
      · cases event with
        | replace value => exact .inr ⟨[], value, events, rfl, updates⟩
        | extend values => exact .inl (List.forall_mem_cons.mpr ⟨trivial, updates⟩)
      · exact .inr ⟨event :: before, value, after, rfl, updates⟩

/-- What events come to is what applying them in turn comes to. -/
theorem settles_iff {events : List DefinitionEvent} {found : Definitions} :
    Settles events found ↔ found = events.foldl Definitions.apply .empty := by
  constructor
  · rintro (updates | updates)
    · rw [foldl_apply_updates updates]
      rfl
    · rw [List.foldl_append, List.foldl_cons, foldl_apply_updates updates]
      rfl
  · rintro rfl
    rcases updates_or_last events with updates | ⟨before, value, after, rfl, updates⟩
    · rw [foldl_apply_updates updates]
      exact .never updates
    · rw [List.foldl_append, List.foldl_cons, foldl_apply_updates updates]
      exact .last updates

namespace DefinitionSearch

variable {search : DefinitionSearch}

theorem namesVariable_iff {e : Expr Site} : search.namesVariable e ↔ Names search.key e := by
  induction e using Expr.stripParens.induct with
  | case1 label inner type ih =>
      have stripped : search.namesVariable (.paren label inner type) =
          search.namesVariable inner := rfl
      rw [stripped, ih]
      exact ⟨.paren, fun | .paren names => names⟩
  | case2 e notParen =>
      constructor
      · intro named
        cases e with
        | ident label name symbol type =>
            cases symbol with
            | none => cases named
            | some symbol =>
                obtain rfl : symbol = search.key := of_decide_eq_true named
                exact .ident
        | paren label inner type => exact absurd rfl (notParen label inner type)
        | _ => cases named
      · intro names
        cases names with
        | ident => exact decide_eq_true rfl
        | paren names => exact absurd rfl (notParen _ _ _)

theorem isRooted_iff {e : Expr Site} :
    search.isRooted e ↔ Chain search.loaded search.catalog search.key e := by
  induction e using isRooted.induct with
  | case1 label inner type ih =>
      rw [isRooted, ih]
      constructor
      · exact .paren
      · intro chain
        cases chain with
        | root names =>
            cases names with
            | paren names => exact .root names
        | paren chain => exact chain
  | case2 label select target method member memberType args symbol type ih =>
      rw [isRooted, Bool.and_eq_true, ih, mutates, decide_eq_true_iff]
      constructor
      · rintro ⟨adds, chain⟩
        exact .call adds chain
      · intro chain
        cases chain with
        | root names => cases names
        | call adds chain => exact ⟨adds, chain⟩
  | case3 label callee args symbol type direct =>
      rw [isRooted]
      · constructor
        · simp
        · intro chain
          cases chain with
          | root names => cases names
          | call adds chain => exact absurd rfl (direct _ _ _ _ _)
      · exact direct
  | case4 e notParen notSelected notCall =>
      have same : search.isRooted e = search.namesVariable e := by
        cases e with
        | paren => exact absurd rfl (notParen _ _ _)
        | call => exact absurd rfl (notCall _ _ _ _ _)
        | _ => rfl
      rw [same, namesVariable_iff]
      constructor
      · exact .root
      · intro chain
        cases chain with
        | root names => exact names
        | paren chain => exact absurd rfl (notParen _ _ _)
        | call adds chain => exact absurd rfl (notCall _ _ _ _ _)

theorem event?_eq_some_iff {n : Node Site} {event : DefinitionEvent} :
    search.event? n = some event ↔ Defines search.loaded search.catalog search.key n event := by
  constructor
  · intro found
    cases n with
    | varDecl decl =>
        simp only [event?] at found
        split at found
        · next named =>
            obtain ⟨value, initialized, rfl⟩ := Option.map_eq_some_iff.mp found
            exact .initializer named initialized
        · cases found
    | expr e =>
        cases e with
        | assign label op target value type =>
            simp only [event?] at found
            split at found
            · next named =>
                have names := namesVariable_iff.mp named
                obtain rfl := Option.some.inj found
                split
                · next plain =>
                    obtain rfl := plain
                    exact .assign names
                · next compound => exact .compound compound names
            · cases found
        | call label callee args symbol type =>
            simp only [event?] at found
            split at found
            · next rooted =>
                obtain rfl := Option.some.inj found
                exact .call (isRooted_iff.mp rooted)
            · cases found
        | _ => cases found
    | _ => cases found
  · intro defines
    cases defines with
    | initializer named initialized => simp [event?, named, initialized]
    | assign names => simp [event?, namesVariable_iff.mpr names]
    | compound other names => simp [event?, namesVariable_iff.mpr names, other]
    | call chain => simp [event?, isRooted_iff.mpr chain]

/-- The events of some nodes, but for those in type declarations. -/
def collected (search : DefinitionSearch) (done : List (Bool × Node Site)) :
    List DefinitionEvent :=
  done.filterMap fun (inType, n) => if inType then none else search.event? n

theorem collected_own (n : Node Site) (done : List (Bool × Node Site)) :
    search.collected ((false, n) :: done) =
      (search.event? n).toList ++ search.collected done := by
  rw [collected, List.filterMap_cons]
  simp only [Bool.false_eq_true, if_false]
  cases search.event? n <;> rfl

theorem collects_iff {done : List (Bool × Node Site)} {events : List DefinitionEvent} :
    Collects search.loaded search.catalog search.key done events ↔
      events = search.collected done := by
  constructor
  · intro collects
    induction collects with
    | nil => rfl
    | inType rest ih => exact ih
    | @other n done events none rest ih =>
        have silent : search.event? n = Option.none :=
          Option.eq_none_iff_forall_ne_some.mpr fun event found =>
            none event (event?_eq_some_iff.mp found)
        rw [collected_own, silent, ih]
        rfl
    | @event n event done events defines rest ih =>
        rw [collected_own, event?_eq_some_iff.mpr defines, ih]
        rfl
  · rintro rfl
    induction done with
    | nil => exact .nil
    | cons placed done ih =>
        obtain ⟨inType, n⟩ := placed
        cases inType with
        | true => exact .inType ih
        | false =>
            rw [collected_own]
            cases found : search.event? n with
            | none =>
                refine .other (fun event defines => ?_) ih
                rw [event?_eq_some_iff.mpr defines] at found
                cases found
            | some event => exact .event (event?_eq_some_iff.mp found) ih

/-- What a walk leaves does to the variable what is collected from the tour. -/
theorem events_walked (captured : Bool) (steps : List (Bool × WalkStep)) :
    search.events (steps.filterMap (Node.walked? captured)) =
      search.collected (completed steps) := by
  induction steps with
  | nil => rfl
  | cons placed steps ih =>
      obtain ⟨inType, step⟩ := placed
      cases step with
      | enter n =>
          have entered : search.events (((inType, .enter n) :: steps).filterMap
              (Node.walked? captured)) =
                search.events (steps.filterMap (Node.walked? captured)) := by
            rw [List.filterMap_cons, Node.walked?]
            cases (if inType then captured else !n.isClassDecl) <;> rfl
          exact entered.trans ih
      | leave n =>
          have done : completed ((inType, .leave n) :: steps) =
              (inType, n) :: completed steps := rfl
          cases inType with
          | true => exact ih
          | false =>
              rw [done, collected_own, ← ih]
              cases n with
              | classDecl decl => rfl
              | _ => exact events_leave _ _

end DefinitionSearch

/-- What reaches a use by reference: of the nodes that a tour of the body completes before it enters
    the use, the events are collected, and what they come to has reached it. -/
inductive Reference (loaded : LoadedUnit) (catalog : Catalog) (key : String) (body : Block Site)
    (use : Expr Site) (found : Definitions) : Prop
  | of {before after : List (Bool × WalkStep)} {inType : Bool} {events : List DefinitionEvent}
      (toured : (Node.block body).tour false = before ++ (inType, .enter (.expr use)) :: after)
      (collects : Collects loaded catalog key (completed before) events)
      (settles : Settles events found) : Reference loaded catalog key body use found

namespace LoadedUnit

namespace Coherent

variable {loaded : LoadedUnit} {root n : Node Site} {inType inner : Bool}
  {before after other rest : List (Bool × WalkStep)}

/-- A tour of a part of a unit enters a node once. -/
theorem not_entered_before (coherent : loaded.Coherent) (listed : root ∈ loaded.nodes)
    (toured : root.tour inType = before ++ (inner, .enter n) :: after) :
    n ∉ before.filterMap (·.2.entered?) := by
  have once : ((root.tour inType).filterMap (·.2.entered?)).Nodup := by
    rw [Node.entered_tour]
    exact (coherent.nodup_numbers_below listed).of_map _
  rw [toured, List.filterMap_append, List.nodup_append] at once
  intro entered
  exact once.2.2 n entered n (by simp [WalkStep.entered?]) rfl

/-- A tour of a part of a unit enters a node at one place. -/
theorem tour_split_unique (coherent : loaded.Coherent) (listed : root ∈ loaded.nodes)
    {outer : Bool} (toured : root.tour inType = before ++ (inner, .enter n) :: after)
    (again : root.tour inType = other ++ (outer, .enter n) :: rest) : before = other := by
  have first := coherent.not_entered_before listed toured
  have second := coherent.not_entered_before listed again
  rw [toured] at again
  rcases List.append_eq_append_iff.mp again with ⟨mid, rfl, same⟩ | ⟨mid, rfl, same⟩
  · cases mid with
    | nil => simp
    | cons step mid =>
        obtain ⟨rfl, -⟩ := List.cons.inj same
        simp [WalkStep.entered?] at second
  · cases mid with
    | nil => simp
    | cons step mid =>
        obtain ⟨rfl, -⟩ := List.cons.inj same
        simp [WalkStep.entered?] at first

/-- No node is completed twice. -/
theorem nodup_completed (coherent : loaded.Coherent) (listed : root ∈ loaded.nodes)
    (toured : root.tour inType = before ++ after) :
    ((completed before).map fun done => done.2.number).Nodup := by
  have left : ((root.tour inType).filterMap (·.2.left?)).map Node.number =
      (completed (root.tour inType)).map fun done => done.2.number := by
    unfold completed
    rw [List.map_filterMap, List.map_filterMap]
    congr 1
    funext ⟨_, step⟩
    cases step <;> rfl
  have once := ((Node.left_perm root inType).map Node.number).nodup_iff.mpr
    (coherent.nodup_numbers_below listed)
  rw [left, toured, completed, List.filterMap_append, List.map_append] at once
  exact (List.nodup_append.mp once).1

/-- What lies around a node is not completed before the node is entered. -/
theorem not_completed_around (coherent : loaded.Coherent) (listed : root ∈ loaded.nodes)
    (toured : root.tour inType = before ++ (inner, .enter n) :: after) {done : Bool × Node Site}
    (member : done ∈ completed before) : n ∉ done.2.tree.preorder := by
  intro around
  obtain ⟨⟨placed, step⟩, listedStep, left⟩ := List.mem_filterMap.mp member
  obtain ⟨m, leaves, rfl⟩ := Option.map_eq_some_iff.mp left
  cases step with
  | enter _ => cases leaves
  | leave k =>
      obtain rfl := Option.some.inj leaves
      obtain ⟨earlier, later, rfl⟩ := List.append_of_mem listedStep
      have entered : n ∈ earlier.filterMap (·.2.entered?) := by
        rw [List.append_assoc, List.cons_append] at toured
        exact Node.mem_entered_before_leave toured around
      refine coherent.not_entered_before listed toured ?_
      rw [List.filterMap_append]
      exact List.mem_append_left _ entered

end Coherent

variable {loaded : LoadedUnit} {catalog : Catalog} {key : String} {method : MethodDecl Site}
  {body : Block Site} {use : Expr Site}

/-- One thing reaches a use by reference. -/
theorem Coherent.reference_unique (coherent : loaded.Coherent) (listed : .block body ∈ loaded.nodes)
    {found other : Definitions} (one : Reference loaded catalog key body use found)
    (two : Reference loaded catalog key body use other) : found = other := by
  let search : DefinitionSearch := ⟨loaded, catalog, key, 0, false⟩
  obtain @⟨before, _, _, events, toured, collects, settles⟩ := one
  obtain @⟨_, _, _, others, again, collectsAgain, settlesAgain⟩ := two
  obtain rfl := coherent.tour_split_unique listed toured again
  have first : events = search.collected (completed before) :=
    DefinitionSearch.collects_iff.mp collects
  have second : others = search.collected (completed before) :=
    DefinitionSearch.collects_iff.mp collectsAgain
  rw [settles_iff.mp settles, settles_iff.mp settlesAgain, first, second]

/-- A search that finds something comes to the use, and replays what is left before. -/
theorem Coherent.walk_of_run (coherent : loaded.Coherent) (listed : .block body ∈ loaded.nodes)
    (present : method.body = some body) (inUnit : .expr use ∈ loaded.nodes) {captured : Bool}
    {found : Definitions}
    (ran : DefinitionSearch.run ⟨loaded, catalog, key, use.label.number, captured⟩ method =
      some found) : ∃ pre post,
      (Node.block body).walk captured = pre ++ .enter (.expr use) :: post ∧
        found = DefinitionSearch.replay ⟨loaded, catalog, key, use.label.number, captured⟩ pre := by
  obtain ⟨same, pre, s, post, here, split, ⟨e, rfl, number⟩, replayed⟩ :=
    DefinitionSearch.replay_of_run ran
  obtain rfl := Option.some.inj (present.symm.trans here)
  have entered : Node.expr e ∈ ((Node.block body).walk captured).filterMap WalkStep.entered? := by
    rw [split]
    simp [WalkStep.entered?]
  have below := (Node.entered_sublist captured (.block body)).subset entered
  obtain rfl : e = use :=
    Node.expr.inj (coherent.eq_of_number (mem_nodes_trans listed below) inUnit number)
  exact ⟨pre, post, split, replayed⟩

/-- A search that comes to the use finds something. -/
theorem exists_run {captured : Bool} (present : method.body = some body)
    (entered : .enter (.expr use) ∈ (Node.block body).walk captured) :
    ∃ found, DefinitionSearch.run ⟨loaded, catalog, key, use.label.number, captured⟩ method =
      some found := by
  let search : DefinitionSearch := ⟨loaded, catalog, key, use.label.number, captured⟩
  rcases search.use_split ((Node.block body).walk captured) with
    unmet | ⟨pre, s, post, split, isUse, unmet⟩
  · exact absurd ⟨use, rfl, rfl⟩ (unmet _ entered)
  · have ran : search.run method = some (search.replay pre) :=
      DefinitionSearch.run_eq_replay present split isUse unmet
    exact ⟨_, ran⟩

/-- What a search finds has reached the use by reference. -/
theorem Coherent.reference_of_run (coherent : loaded.Coherent)
    (listed : .block body ∈ loaded.nodes) (present : method.body = some body)
    (inUnit : .expr use ∈ loaded.nodes) {captured : Bool} {found : Definitions}
    (ran : DefinitionSearch.run ⟨loaded, catalog, key, use.label.number, captured⟩ method =
      some found) : Reference loaded catalog key body use found := by
  obtain ⟨pre, post, split, rfl⟩ := coherent.walk_of_run listed present inUnit ran
  obtain ⟨before, inType, after, toured, -, rfl⟩ := Node.tour_split split
  let search : DefinitionSearch := ⟨loaded, catalog, key, use.label.number, captured⟩
  have collects : Collects search.loaded search.catalog search.key (completed before) _ :=
    DefinitionSearch.collects_iff.mpr rfl
  refine .of toured collects (settles_iff.mpr ?_)
  rw [DefinitionSearch.replay, DefinitionSearch.events_walked]

theorem mem_preorder_of_reference {found : Definitions}
    (reference : Reference loaded catalog key body use found) :
    .expr use ∈ (Node.block body).tree.preorder := by
  obtain ⟨toured, -, -⟩ := reference
  rw [← Node.entered_tour _ false, toured]
  simp [WalkStep.entered?]

theorem mem_walk_of_mem_preorder {root : Node Site}
    (below : .expr use ∈ root.tree.preorder) : .enter (.expr use) ∈ root.walk true := by
  rw [← Node.entered_tour root false] at below
  obtain ⟨⟨inType, step⟩, toured, entered⟩ := List.mem_filterMap.mp below
  cases step with
  | enter n =>
      obtain rfl := Option.some.inj entered
      rw [Node.walk_eq_tour]
      exact List.mem_filterMap.mpr ⟨_, toured, by simp [Node.walked?, Node.isClassDecl]⟩
  | leave n => cases entered

section Searches

variable (coherent : loaded.Coherent) (listed : .block body ∈ loaded.nodes)
  (present : method.body = some body) (inUnit : .expr use ∈ loaded.nodes)
include coherent listed present inUnit

/-- A search directly in a body comes to what the body holds itself. -/
theorem Coherent.isSome_reachingDefinitions :
    (loaded.reachingDefinitions catalog method key use).isSome ↔ .expr use ∈ method.bodyNodes := by
  have held : method.bodyNodes = (Node.block body).ownNodes := by
    unfold MethodDecl.bodyNodes
    rw [present]
  rw [held, Option.isSome_iff_exists]
  constructor
  · rintro ⟨found, ran⟩
    obtain ⟨pre, post, split, -⟩ := coherent.walk_of_run listed present inUnit ran
    refine Node.mem_ownNodes_of_enter ?_
    rw [split]
    exact List.mem_append_right _ List.mem_cons_self
  · intro own
    exact exists_run present (Node.mem_walk_of_own rfl own).1

/-- A search that enters type declarations finds what has reached the use by reference. -/
theorem Coherent.capturedDefinitions_eq_some_iff {found : Definitions} :
    loaded.capturedDefinitions catalog method key use = some found ↔
      Reference loaded catalog key body use found := by
  constructor
  · exact coherent.reference_of_run listed present inUnit
  · intro reference
    obtain ⟨other, ran⟩ : ∃ other, loaded.capturedDefinitions catalog method key use = some other :=
      exists_run present (mem_walk_of_mem_preorder (mem_preorder_of_reference reference))
    obtain rfl := coherent.reference_unique listed reference
      (coherent.reference_of_run listed present inUnit ran)
    exact ran

/-- A search that enters type declarations comes to all that lies in the body. -/
theorem Coherent.isSome_capturedDefinitions :
    (loaded.capturedDefinitions catalog method key use).isSome ↔
      .expr use ∈ (Node.block body).tree.preorder := by
  rw [Option.isSome_iff_exists]
  constructor
  · rintro ⟨found, ran⟩
    exact mem_preorder_of_reference (coherent.reference_of_run listed present inUnit ran)
  · intro below
    exact exists_run present (mem_walk_of_mem_preorder below)

end Searches

/-- Definitions reach a use as the reference has it. A search directly in the body of a method finds
    something just for what the body holds itself, and one that enters type declarations for all
    that lies in the body; what either finds is what the events come to that a tour of the body has
    completed, outside of type declarations, before it enters the use. On the way no node is
    completed twice, and none around the use is. -/
theorem definitions_eq_reference {document : UnitDocument} (made : ofDocument document = .ok loaded)
    (listed : .method method ∈ loaded.nodes) (present : method.body = some body)
    (inUnit : .expr use ∈ loaded.nodes) (catalog : Catalog) (key : String) :
    ((loaded.reachingDefinitions catalog method key use).isSome ↔
      .expr use ∈ method.bodyNodes) ∧
    ((loaded.capturedDefinitions catalog method key use).isSome ↔
      .expr use ∈ (Node.block body).tree.preorder) ∧
    (∀ found, loaded.reachingDefinitions catalog method key use = some found →
      Reference loaded catalog key body use found) ∧
    (∀ found, loaded.capturedDefinitions catalog method key use = some found ↔
      Reference loaded catalog key body use found) ∧
    (.expr use ∈ method.bodyNodes → loaded.reachingDefinitions catalog method key use =
      loaded.capturedDefinitions catalog method key use) ∧
    (∀ before inType after,
      (Node.block body).tour false = before ++ (inType, .enter (.expr use)) :: after →
      ((completed before).map fun done => done.2.number).Nodup ∧
        ∀ done ∈ completed before, .expr use ∉ done.2.tree.preorder) := by
  have coherent := coherent_ofDocument made
  have bodyListed : .block body ∈ loaded.nodes :=
    mem_nodes_of_child listed (method.mem_children_of_body present)
  have direct : (loaded.reachingDefinitions catalog method key use).isSome ↔ _ :=
    coherent.isSome_reachingDefinitions bodyListed present inUnit
  have anywhere {found} : loaded.capturedDefinitions catalog method key use = some found ↔ _ :=
    coherent.capturedDefinitions_eq_some_iff bodyListed present inUnit
  have reached {found} (ran : loaded.reachingDefinitions catalog method key use = some found) :
      Reference loaded catalog key body use found :=
    coherent.reference_of_run bodyListed present inUnit ran
  refine ⟨direct, coherent.isSome_capturedDefinitions bodyListed present inUnit,
    fun _ => reached, fun _ => anywhere, ?_, ?_⟩
  · intro own
    obtain ⟨found, ran⟩ := Option.isSome_iff_exists.mp (direct.mpr own)
    rw [ran, anywhere.mpr (reached ran)]
  · intro before inType after toured
    exact ⟨coherent.nodup_completed bodyListed toured,
      fun done => coherent.not_completed_around bodyListed toured⟩

end LoadedUnit

/-- Text from the parameter is extended, and then extended and read in a type declaration. -/
def UnitDocument.capturing : UnitDocument := .ofBody [
  .varDecl ⟨.unknown, "s", some "p.Q#m.s", none, some (.variable 1 "p")⟩,
  .expression .unknown
    (.assign .unknown .plus (.variable 2 "s") (.literal .unknown .string "x" none) none),
  .classDecl ⟨.unknown, .ordinary, some "L", none, [.initBlock ⟨.unknown, [
    .expression .unknown
      (.assign .unknown .plus (.variable 3 "s") (.literal .unknown .string "y" none) none),
    .expression .unknown (.variable 4 "s")]⟩]⟩]

/-- Inside the declaration the variable is found extended once, and by its method only. -/
theorem LoadedUnit.definitions_eq_reference_capturing : ∃ loaded method body use found,
    ofDocument .capturing = .ok loaded ∧ .method method ∈ loaded.nodes ∧
      method.body = some body ∧ .expr use ∈ loaded.nodes ∧
      loaded.reachingDefinitions .builtin method "p.Q#m.s" use = none ∧
      loaded.capturedDefinitions .builtin method "p.Q#m.s" use = some found ∧
      found.updates.length = 1 ∧ Reference loaded .builtin "p.Q#m.s" body use found := by
  have evaluated : ((ofDocument .capturing).toOption.bind fun loaded =>
      (loaded.declarations.method? "p.Q#m").bind fun method =>
        (loaded.nodes[18]?.bind Node.expr?).bind fun use =>
          (method.body).bind fun _ =>
            (loaded.capturedDefinitions .builtin method "p.Q#m.s" use).map fun found =>
              (loaded.reachingDefinitions .builtin method "p.Q#m.s" use).isNone &&
                found.updates.length = 1) = some true := by
    decide +kernel
  obtain ⟨loaded, made, evaluated⟩ := exists_ok_of_toOption_bind evaluated
  obtain ⟨method, indexed, evaluated⟩ := Option.bind_eq_some_iff.mp evaluated
  obtain ⟨use, looked, evaluated⟩ := Option.bind_eq_some_iff.mp evaluated
  obtain ⟨body, present, evaluated⟩ := Option.bind_eq_some_iff.mp evaluated
  obtain ⟨found, ran, checked⟩ := Option.map_eq_some_iff.mp evaluated
  rw [Bool.and_eq_true, decide_eq_true_iff, Option.isNone_iff_eq_none] at checked
  have listed := (coherent_ofDocument made).mem_nodes_of_method? indexed
  have inUnit : .expr use ∈ loaded.nodes := by
    obtain ⟨n, placed, isUse⟩ := Option.bind_eq_some_iff.mp looked
    cases n with
    | expr e =>
        obtain rfl := Option.some.inj isUse
        exact List.mem_of_getElem? placed
    | _ => cases isUse
  obtain ⟨-, -, -, reference, -, -⟩ :=
    definitions_eq_reference made listed present inUnit .builtin "p.Q#m.s"
  exact ⟨loaded, method, body, use, found, made, listed, present, inUnit, checked.1, ran, checked.2,
    (reference found).mp ran⟩

end BugPatterns
