import BugPatterns.Proofs.Constancy.Walk

/-!
# Scans as replays

Scanning a body is folding over the steps of its walk, and what a scan finds is the replay of the
nodes that are left before the use is entered (`DefinitionSearch.run_eq_replay` and, the other way
round, `DefinitionSearch.replay_of_run`). The values it finds are held by the body itself and end
before the use (`DefinitionSearch.values_before_use`).
-/

namespace BugPatterns

/-- The values that an event brings in. -/
def DefinitionEvent.values : DefinitionEvent → List (Expr Site)
  | .replace value => [value]
  | .extend values => values

/-- The values that definitions hold, from the latest one on. -/
def Definitions.values (found : Definitions) : List (Expr Site) :=
  found.latest.toList ++ found.updates

theorem Definitions.mem_values (found : Definitions) {e : Expr Site}
    (part : found.latest = some e ∨ e ∈ found.updates) : e ∈ found.values := by
  rcases part with latest | update
  · exact List.mem_append_left _ (by simp [latest])
  · exact List.mem_append_right _ update

theorem Definitions.mem_values_foldl {e : Expr Site} (events : List DefinitionEvent) :
    ∀ {found : Definitions}, e ∈ (events.foldl Definitions.apply found).values →
      e ∈ found.values ∨ ∃ event ∈ events, e ∈ event.values := by
  induction events with
  | nil => exact fun member => Or.inl member
  | cons event events ih =>
      intro found member
      rcases ih member with member | ⟨other, listed, held⟩
      · cases event with
        | replace value =>
            exact Or.inr ⟨_, List.mem_cons_self, by
              simpa [apply, values, DefinitionEvent.values] using member⟩
        | extend added =>
            simp only [apply, values, ← List.append_assoc] at member
            rcases List.mem_append.mp member with member | member
            · exact Or.inl member
            · exact Or.inr ⟨_, List.mem_cons_self, member⟩
      · exact Or.inr ⟨other, List.mem_cons_of_mem _ listed, held⟩

namespace DefinitionSearch

variable {search : DefinitionSearch}

/-- What an event brings in lies right below the node. -/
theorem mem_children_of_event {n : Node Site} {event : DefinitionEvent}
    (found : search.event? n = some event) {e : Expr Site} (held : e ∈ event.values) :
    .expr e ∈ n.children := by
  cases n with
  | varDecl decl =>
      simp only [event?] at found
      split at found
      · obtain ⟨init, present, rfl⟩ := Option.map_eq_some_iff.mp found
        obtain rfl := List.mem_singleton.mp held
        simp [Node.children, present]
      · cases found
  | expr x =>
      cases x with
      | assign label op target value type =>
          simp only [event?] at found
          split at found
          · obtain rfl := Option.some.inj found
            have same : e = value := by
              split at held <;> exact List.mem_singleton.mp held
            simp [Node.children, Node.exprChildren, same]
          · cases found
      | call label callee args symbol type =>
          simp only [event?] at found
          split at found
          · obtain rfl := Option.some.inj found
            exact List.mem_cons_of_mem _ (List.mem_map_of_mem held)
          · cases found
      | _ => simp [event?] at found
  | _ => simp [event?] at found

/-- Takes one step of a walk into account. -/
def step (search : DefinitionSearch) (scan : DefinitionScan) : WalkStep → DefinitionScan
  | .enter (.expr e) => if e.label.number = search.use then { scan with reached := true } else scan
  | .enter _ => scan
  | .leave n => search.leave false n scan

theorem step_of_reached {scan : DefinitionScan} (reached : scan.reached = true) (s : WalkStep) :
    search.step scan s = scan := by
  cases s with
  | enter n =>
      cases n with
      | expr e =>
          simp only [step]
          split
          · rw [← reached]
          · rfl
      | _ => rfl
  | leave n => simp [step, leave, reached]

theorem foldl_step_of_reached {scan : DefinitionScan} (reached : scan.reached = true)
    (steps : List WalkStep) : steps.foldl search.step scan = scan := by
  induction steps with
  | nil => rfl
  | cons s steps ih => rw [List.foldl_cons, step_of_reached reached, ih]

theorem scanTrees_eq_foldl (inType : Bool) (ts : List (Tree (Node Site))) :
    ∀ scan, search.scanTrees inType ts scan =
      ts.foldl (fun scan t => search.scanTree inType t scan) scan := by
  induction ts with
  | nil => exact fun _ => rfl
  | cons t ts ih => exact fun scan => ih _

theorem scanTree_of_reached {scan : DefinitionScan} (reached : scan.reached = true)
    (inType : Bool) (t : Tree (Node Site)) : search.scanTree inType t scan = scan := by
  obtain ⟨n, below⟩ := t
  cases n <;> simp only [scanTree, reached, if_true]

theorem scanTrees_of_reached {scan : DefinitionScan} (reached : scan.reached = true)
    (inType : Bool) (ts : List (Tree (Node Site))) : search.scanTrees inType ts scan = scan := by
  induction ts with
  | nil => rfl
  | cons t ts ih => rw [scanTrees, scanTree_of_reached reached, ih]

theorem scanTree_classDecl {scan : DefinitionScan} (unreached : scan.reached = false)
    (inType : Bool) (decl : ClassDecl Site) (below : List (Tree (Node Site))) :
    search.scanTree inType (.node (.classDecl decl) below) scan =
      if search.captured then search.scanTrees true below scan else scan := by
  simp [scanTree, unreached]

/-- A scan enters a node, scans what is below it and leaves it. -/
theorem scanTree_eq {scan : DefinitionScan} (unreached : scan.reached = false) {n : Node Site}
    (entered : n.isClassDecl = false) (inType : Bool) (below : List (Tree (Node Site))) :
    search.scanTree inType (.node n below) scan =
      search.leave inType n (search.scanTrees inType below (search.step scan (.enter n))) := by
  cases n with
  | classDecl decl => cases entered
  | expr e =>
      simp only [scanTree, unreached, Bool.false_eq_true, if_false, step]
      split
      · rw [scanTrees_of_reached rfl]
        rfl
      · rfl
  | _ => simp [scanTree, unreached, step]

theorem leave_inType (n : Node Site) (scan : DefinitionScan) : search.leave true n scan = scan := by
  simp [leave]

theorem foldl_flatMap_steps {walk : Node Site → List WalkStep} {inType : Bool}
    {children : List (Node Site)}
    (same : ∀ c ∈ children, ∀ scan, search.scanTree inType c.tree scan =
      (walk c).foldl search.step scan) :
    ∀ scan, (children.map Node.tree).foldl (fun scan t => search.scanTree inType t scan) scan =
      (children.flatMap walk).foldl search.step scan := by
  induction children with
  | nil => exact fun _ => rfl
  | cons c cs ih =>
      intro scan
      rw [List.map_cons, List.foldl_cons, List.flatMap_cons, List.foldl_append,
        same c List.mem_cons_self]
      exact ih (fun d member => same d (List.mem_cons_of_mem _ member)) _

/-- In a type declaration a scan only looks for the use. -/
theorem scanTree_inType (captured : search.captured = true) (n : Node Site) :
    ∀ scan, search.scanTree true n.tree scan =
      (n.tree.preorder.map .enter).foldl search.step scan := by
  induction n using Node.induct with
  | node n ih =>
      intro scan
      have below : ∀ scan, search.scanTrees true (n.children.map Node.tree) scan =
          ((n.children.flatMap fun c => c.tree.preorder).map .enter).foldl search.step scan := by
        intro scan
        rw [scanTrees_eq_foldl, List.map_flatMap]
        exact foldl_flatMap_steps ih scan
      cases reached : scan.reached with
      | true => rw [foldl_step_of_reached reached, scanTree_of_reached reached]
      | false =>
          rw [Node.preorder_tree, List.map_cons, List.foldl_cons, ← below, Node.tree_eq]
          cases n with
          | classDecl decl => rw [scanTree_classDecl reached, if_pos captured, step]; simp
          | _ => rw [scanTree_eq reached rfl, leave_inType]

/-- A scan folds over the steps of the walk. -/
theorem scanTree_eq_foldl (n : Node Site) :
    ∀ scan, search.scanTree false n.tree scan =
      (n.walk search.captured).foldl search.step scan := by
  induction n using Node.induct with
  | node n ih =>
      intro scan
      have below : ∀ scan, search.scanTrees false (n.children.map Node.tree) scan =
          (n.children.flatMap (Node.walk search.captured)).foldl search.step scan := by
        intro scan
        rw [scanTrees_eq_foldl]
        exact foldl_flatMap_steps ih scan
      cases reached : scan.reached with
      | true => rw [foldl_step_of_reached reached, scanTree_of_reached reached]
      | false =>
          cases isClass : n.isClassDecl with
          | false =>
              rw [Node.walk_eq _ isClass, List.cons_append, List.foldl_cons, List.foldl_append,
                ← below, Node.tree_eq, scanTree_eq reached isClass]
              rfl
          | true =>
              cases n with
              | classDecl decl =>
                  rw [Node.tree_eq, scanTree_classDecl reached, Node.walk_classDecl]
                  by_cases captured : search.captured
                  · rw [if_pos captured, if_pos captured, scanTrees_eq_foldl, List.map_flatMap]
                    exact foldl_flatMap_steps (fun c _ => scanTree_inType captured c) scan
                  · rw [if_neg captured, if_neg captured]
                    rfl
              | _ => cases isClass

/-- The events of the nodes that are left in some steps. -/
def events (search : DefinitionSearch) (steps : List WalkStep) : List DefinitionEvent :=
  (steps.filterMap WalkStep.left?).filterMap search.event?

/-- What is known of the variable after some steps. -/
def replay (search : DefinitionSearch) (steps : List WalkStep) : Definitions :=
  (search.events steps).foldl Definitions.apply .empty

@[simp] theorem events_nil : search.events [] = [] := rfl

@[simp] theorem events_enter (n : Node Site) (steps : List WalkStep) :
    search.events (.enter n :: steps) = search.events steps := rfl

theorem events_leave (n : Node Site) (steps : List WalkStep) :
    search.events (.leave n :: steps) = (search.event? n).toList ++ search.events steps := by
  unfold events
  rw [List.filterMap_cons]
  simp only [WalkStep.left?, List.filterMap_cons]
  cases search.event? n <;> rfl

theorem events_append (steps others : List WalkStep) :
    search.events (steps ++ others) = search.events steps ++ search.events others := by
  simp only [events, List.filterMap_append]

theorem replay_append (steps others : List WalkStep) :
    search.replay (steps ++ others) =
      (search.events others).foldl Definitions.apply (search.replay steps) := by
  rw [replay, events_append, List.foldl_append]
  rfl

theorem replay_enter (steps : List WalkStep) (n : Node Site) :
    search.replay (steps ++ [.enter n]) = search.replay steps := by
  rw [replay_append, events_enter]
  rfl

theorem replay_leave (steps : List WalkStep) (n : Node Site) :
    search.replay (steps ++ [.leave n]) =
      match search.event? n with
      | some event => (search.replay steps).apply event
      | none => search.replay steps := by
  rw [replay_append, events_leave, events_nil]
  cases search.event? n <;> rfl

/-- The step enters the use. -/
def IsUse (search : DefinitionSearch) (s : WalkStep) : Prop :=
  ∃ e, s = .enter (.expr e) ∧ e.label.number = search.use

/-- Until the use is entered, a scan collects the events of what is left. -/
theorem foldl_step_eq {steps : List WalkStep} (unmet : ∀ s ∈ steps, ¬ search.IsUse s) :
    ∀ found, steps.foldl search.step ⟨false, found⟩ =
      ⟨false, (search.events steps).foldl Definitions.apply found⟩ := by
  induction steps with
  | nil => exact fun _ => rfl
  | cons s steps ih =>
      intro found
      have rest := ih fun x member => unmet x (List.mem_cons_of_mem _ member)
      have other := unmet s List.mem_cons_self
      rw [List.foldl_cons]
      cases s with
      | enter n =>
          rw [events_enter, ← rest]
          congr 1
          cases n with
          | expr e =>
              rw [step, if_neg fun same => other ⟨e, rfl, same⟩]
          | _ => rfl
      | leave n =>
          rw [events_leave, List.foldl_append]
          simp only [step, leave]
          cases search.event? n with
          | none => exact rest found
          | some event => exact rest (found.apply event)

/-- Either no step enters the use, or one of them is the first to do so. -/
theorem use_split (search : DefinitionSearch) (steps : List WalkStep) :
    (∀ s ∈ steps, ¬ search.IsUse s) ∨
      ∃ pre s post, steps = pre ++ s :: post ∧ search.IsUse s ∧ ∀ x ∈ pre, ¬ search.IsUse x := by
  induction steps with
  | nil => simp
  | cons s steps ih =>
      by_cases use : search.IsUse s
      · exact Or.inr ⟨[], s, steps, rfl, use, by simp⟩
      · rcases ih with unmet | ⟨pre, x, post, rfl, isUse, unmet⟩
        · exact Or.inl (List.forall_mem_cons.mpr ⟨use, unmet⟩)
        · exact Or.inr ⟨s :: pre, x, post, rfl, isUse, List.forall_mem_cons.mpr ⟨use, unmet⟩⟩

variable {method : MethodDecl Site}

/-- A search finds the replay of the steps before the use is entered. -/
theorem run_eq_replay {body : Block Site} (present : method.body = some body)
    {pre post : List WalkStep} {s : WalkStep}
    (split : (Node.block body).walk search.captured = pre ++ s :: post) (use : search.IsUse s)
    (unmet : ∀ x ∈ pre, ¬ search.IsUse x) : search.run method = some (search.replay pre) := by
  have scanned : search.scanTree false body.tree ⟨false, .empty⟩ = ⟨true, search.replay pre⟩ := by
    rw [show body.tree = (Node.block body).tree from rfl, scanTree_eq_foldl, split,
      List.foldl_append, foldl_step_eq unmet, List.foldl_cons]
    obtain ⟨e, rfl, same⟩ := use
    rw [step, if_pos same, foldl_step_of_reached rfl]
    rfl
  simp only [run, present, scanned, if_true]

/-- A search that finds something has replayed the steps before the use. -/
theorem replay_of_run {found : Definitions} (ran : search.run method = some found) :
    ∃ body pre s post, method.body = some body ∧
      (Node.block body).walk search.captured = pre ++ s :: post ∧ search.IsUse s ∧
        found = search.replay pre := by
  cases present : method.body with
  | none => simp [run, present] at ran
  | some body =>
      rcases search.use_split ((Node.block body).walk search.captured) with
        unmet | ⟨pre, s, post, split, use, unmet⟩
      · have scanned : (search.scanTree false body.tree ⟨false, .empty⟩).reached = false := by
          rw [show body.tree = (Node.block body).tree from rfl, scanTree_eq_foldl,
            foldl_step_eq unmet]
        simp [run, present, scanned] at ran
      · rw [run_eq_replay present split use unmet] at ran
        exact ⟨body, pre, s, post, rfl, split, use, (Option.some.inj ran).symm⟩

/-- What is known after some steps was brought in by a node that they leave. -/
theorem event_of_mem_replay {steps : List WalkStep} {e : Expr Site}
    (held : e ∈ (search.replay steps).values) :
    ∃ n event, .leave n ∈ steps ∧ search.event? n = some event ∧ e ∈ event.values := by
  rcases Definitions.mem_values_foldl _ held with held | ⟨event, listed, held⟩
  · simp [Definitions.empty, Definitions.values] at held
  · obtain ⟨n, left, found⟩ := List.mem_filterMap.mp listed
    obtain ⟨s, member, same⟩ := List.mem_filterMap.mp left
    cases s with
    | enter _ => cases same
    | leave m =>
        obtain rfl := Option.some.inj same
        exact ⟨m, event, member, found, held⟩

/-- The values that reach a use are held by the method body itself and end before the use. -/
theorem values_before_use {found : Definitions} {e : Expr Site}
    (coherent : search.loaded.Coherent) (listed : .method method ∈ search.loaded.nodes)
    (ran : search.run method = some found) (held : e ∈ found.values) :
    .expr e ∈ method.bodyNodes ∧ ∀ n ∈ (Node.expr e).ownNodes, n.number < search.use := by
  obtain ⟨body, pre, s, post, present, split, ⟨use, rfl, number⟩, rfl⟩ := replay_of_run ran
  obtain ⟨n, event, left, found, brought⟩ := event_of_mem_replay held
  have child := mem_children_of_event found brought
  have bodyListed : .block body ∈ search.loaded.nodes :=
    LoadedUnit.mem_nodes_of_child listed (method.mem_children_of_body present)
  refine ⟨?_, fun m own => ?_⟩
  · have leaves : .leave n ∈ (Node.block body).walk search.captured := by
      rw [split]
      exact List.mem_append_left _ left
    unfold MethodDecl.bodyNodes
    rw [present]
    exact Node.ownNodes_trans (Node.mem_ownNodes_of_child child rfl)
      (Node.mem_ownNodes_of_leave leaves)
  · obtain ⟨before, after, rfl⟩ := List.append_of_mem left
    have atLeave : (Node.block body).walk search.captured =
        before ++ .leave n :: (after ++ .enter (.expr use) :: post) := by
      rw [split, List.append_assoc, List.cons_append]
    have entered := (Node.mem_before_leave atLeave child rfl own).1
    rw [← number]
    exact coherent.number_lt_of_walk bodyListed split (List.mem_append_left _ entered)

end DefinitionSearch

end BugPatterns
