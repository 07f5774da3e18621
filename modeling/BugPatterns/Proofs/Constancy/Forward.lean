import BugPatterns.Catalog.Builtin
import BugPatterns.Proofs.Constancy.Reaching

/-!
# Tracing as one forward pass

The values in a method body can also be judged in a single pass that walks the body in source order
and keeps, for every local variable, the verdict on its current value (`Tracer.forwardPass`). The
invariant that ties the pass to the traces is `Tracer.ForwardCorrect`: what the pass knows of a
variable is what the definitions that it has passed settle, and each value it has given is the
verdict of a trace from there.
-/

namespace BugPatterns

/-- Every local variable that is used in the body of the method, type declarations in it apart, is
    owned by the method. -/
def LoadedUnit.OwnsLocals (loaded : LoadedUnit) (method : MethodDecl Site) : Prop :=
  ∀ use symbol, .expr use ∈ method.bodyNodes → loaded.localUse? use = some symbol →
    loaded.Owns method symbol

instance (loaded : LoadedUnit) (method : MethodDecl Site) :
    Decidable (loaded.OwnsLocals method) :=
  decidable_of_iff
    (∀ use ∈ method.bodyNodes.filterMap Node.expr?, ∀ symbol ∈ loaded.localUse? use,
      loaded.Owns method symbol) (by
      constructor
      · intro all use symbol held isUse
        exact all use (List.mem_filterMap.mpr ⟨_, held, rfl⟩) symbol isUse
      · intro owned use member symbol isUse
        obtain ⟨n, held, same⟩ := List.mem_filterMap.mp member
        cases n with
        | expr e =>
            obtain rfl := Option.some.inj same
            exact owned e symbol held isUse
        | _ => cases same)

/-- What a forward pass knows: the verdict on the current value of each variable that has one, and
    the verdicts on the expressions it has met, by node number. -/
structure ForwardState where
  current : String → Option Verdict
  values : Nat → Option Verdict

namespace ForwardState

/-- Nothing is known. -/
def start : ForwardState := ⟨fun _ => none, fun _ => none⟩

/-- The verdict that was given to an expression. -/
def valueOf (state : ForwardState) (e : Expr Site) : Verdict :=
  (state.values e.label.number).getD .constant

/-- Gives a verdict to an expression. -/
def record (state : ForwardState) (e : Expr Site) (verdict : Verdict) : ForwardState :=
  { state with
    values := fun number => if number = e.label.number then some verdict else state.values number }

end ForwardState

/-- What is known of a variable after an event, from what was known before. -/
def DefinitionEvent.update (value : Expr Site → Verdict) (known : Option Verdict) :
    DefinitionEvent → Option Verdict
  | .replace latest => some (value latest)
  | .extend added => known.map fun verdict => Verdict.joinAll value verdict added

namespace Tracer

variable (tracer : Tracer)

/-- Gives an expression its verdict when it is left; a use of a local variable has got it when it
    was entered. -/
def judgeLeft (state : ForwardState) : Node Site → ForwardState
  | .expr e =>
      if (tracer.loaded.localUse? e).isSome then state
      else state.record e
        (tracer.compose (fun use _ => tracer.classify none use) state.valueOf e)
  | _ => state

/-- Lets a node that is left take effect on every variable. -/
def takeEffect (state : ForwardState) (n : Node Site) : ForwardState :=
  { state with
    current := fun key =>
      match (tracer.effects key).event? n with
      | some event => event.update state.valueOf (state.current key)
      | none => state.current key }

/-- Takes one step of a walk. A use of a local variable reads what is current when it is entered. -/
def forwardStep (state : ForwardState) : WalkStep → ForwardState
  | .enter (.expr e) =>
      match tracer.loaded.localUse? e with
      | some symbol =>
          state.record e
            ((state.current (tracer.keyOf symbol)).getD (tracer.undefinedUse e symbol))
      | none => state
  | .enter _ => state
  | .leave n => tracer.takeEffect (tracer.judgeLeft state n) n

/-- Walks the body of a method once, type declarations in it apart. -/
def forwardPass (method : MethodDecl Site) : ForwardState :=
  match method.body with
  | none => .start
  | some body => ((Node.block body).walk false).foldl tracer.forwardStep .start

end Tracer

namespace Tracer

variable {tracer : Tracer}

theorem settle_apply (value : Expr Site → Verdict) (found : Definitions)
    (event : DefinitionEvent) :
    settle value (found.apply event) = event.update value (settle value found) := by
  cases event with
  | replace latest => rfl
  | extend added =>
      obtain ⟨latest, updates⟩ := found
      cases latest with
      | none => rfl
      | some latest =>
          simp only [settle, Definitions.apply, Option.map_some, DefinitionEvent.update,
            Verdict.joinAll_append]

theorem update_congr {value other : Expr Site → Verdict} {event : DefinitionEvent}
    (same : ∀ e ∈ event.values, value e = other e) (known : Option Verdict) :
    event.update value known = event.update other known := by
  cases event with
  | replace latest => rw [DefinitionEvent.update, same latest List.mem_cons_self]; rfl
  | extend added =>
      cases known with
      | none => rfl
      | some verdict => exact congrArg some (Verdict.joinAll_congr same verdict)

variable {method : MethodDecl Site}

/-- What a pass knows after some steps of the walk is what traces find. -/
structure ForwardCorrect (tracer : Tracer) (method : MethodDecl Site) (steps : List WalkStep)
    (state : ForwardState) : Prop where
  current : ∀ key, state.current key =
    settle (tracer.classify (some method)) ((tracer.effects key).replay steps)
  uses : ∀ e, .enter (.expr e) ∈ steps → (tracer.loaded.localUse? e).isSome →
    state.values e.label.number = some (tracer.classify (some method) e)
  left : ∀ e, .leave (.expr e) ∈ steps →
    state.values e.label.number = some (tracer.classify (some method) e)

theorem forwardCorrect_start : ForwardCorrect tracer method [] .start where
  current _ := rfl
  uses _ absurd := by cases absurd
  left _ absurd := by cases absurd

/-- Giving an expression the verdict of a trace gives no wrong verdict to another one. -/
theorem values_record (coherent : tracer.loaded.Coherent) {state : ForwardState}
    {d e : Expr Site} (first : .expr d ∈ tracer.loaded.nodes)
    (second : .expr e ∈ tracer.loaded.nodes)
    (known : d = e ∨ state.values d.label.number = some (tracer.classify (some method) d)) :
    (state.record e (tracer.classify (some method) e)).values d.label.number =
      some (tracer.classify (some method) d) := by
  simp only [ForwardState.record]
  split
  · next same =>
      obtain rfl := Node.expr.inj (coherent.eq_of_number first second same)
      rfl
  · next different =>
      rcases known with rfl | known
      · exact absurd rfl different
      · exact known

/-- What a walk of a method body enters or leaves is a node of the unit. -/
theorem mem_nodes_of_walk (listed : .method method ∈ tracer.loaded.nodes)
    {body : Block Site} (present : method.body = some body) {n : Node Site}
    (met : .enter n ∈ (Node.block body).walk false ∨ .leave n ∈ (Node.block body).walk false) :
    n ∈ tracer.loaded.nodes := by
  have bodyListed : .block body ∈ tracer.loaded.nodes :=
    LoadedUnit.mem_nodes_of_child listed (method.mem_children_of_body present)
  rcases met with entered | left
  · exact LoadedUnit.mem_nodes_of_own bodyListed (Node.mem_ownNodes_of_enter entered)
  · exact LoadedUnit.mem_nodes_of_own bodyListed (Node.mem_ownNodes_of_leave left)

/-- Recording the verdict of a trace keeps the pass correct. -/
theorem ForwardCorrect.record (coherent : tracer.loaded.Coherent)
    (listed : .method method ∈ tracer.loaded.nodes) {body : Block Site}
    (present : method.body = some body) {steps rest : List WalkStep}
    (split : (Node.block body).walk false = steps ++ rest) {state : ForwardState}
    (correct : ForwardCorrect tracer method steps state) {e : Expr Site}
    (met : .expr e ∈ tracer.loaded.nodes) :
    ForwardCorrect tracer method steps (state.record e (tracer.classify (some method) e)) where
  current := correct.current
  uses d entered isUse := by
    refine values_record coherent (mem_nodes_of_walk listed present (Or.inl ?_)) met
      (Or.inr (correct.uses d entered isUse))
    rw [split]
    exact List.mem_append_left _ entered
  left d left := by
    refine values_record coherent (mem_nodes_of_walk listed present (Or.inr ?_)) met
      (Or.inr (correct.left d left))
    rw [split]
    exact List.mem_append_left _ left

/-- Entering a node keeps the pass correct: a use reads what is current. -/
theorem ForwardCorrect.enter (coherent : tracer.loaded.Coherent)
    (deep : tracer.loaded.nodes.length < tracer.maxDepth)
    (listed : .method method ∈ tracer.loaded.nodes) (owned : tracer.loaded.OwnsLocals method)
    {body : Block Site} (present : method.body = some body) {pre post : List WalkStep}
    {n : Node Site} (split : (Node.block body).walk false = pre ++ .enter n :: post)
    {state : ForwardState} (correct : ForwardCorrect tracer method pre state) :
    ForwardCorrect tracer method (pre ++ [.enter n]) (tracer.forwardStep state (.enter n)) := by
  have entered : .enter n ∈ (Node.block body).walk false := by
    rw [split]
    exact List.mem_append_right _ List.mem_cons_self
  have extend {next : ForwardState} (same : ForwardCorrect tracer method pre next)
      (given : ∀ e, n = .expr e → (tracer.loaded.localUse? e).isSome →
        next.values e.label.number = some (tracer.classify (some method) e)) :
      ForwardCorrect tracer method (pre ++ [.enter n]) next := {
    current := fun key => by rw [DefinitionSearch.replay_enter, same.current]
    uses := fun e member isUse => by
      rcases List.mem_append.mp member with member | member
      · exact same.uses e member isUse
      · exact given e (WalkStep.enter.inj (List.mem_singleton.mp member)).symm isUse
    left := fun e member => same.left e (by simpa using member) }
  cases n with
  | expr e =>
      simp only [forwardStep]
      cases use : tracer.loaded.localUse? e with
      | none =>
          refine extend correct ?_
          intro d same isUse
          obtain rfl := Node.expr.inj same
          simp [use] at isUse
      | some symbol =>
          have held : .expr e ∈ method.bodyNodes := by
            unfold MethodDecl.bodyNodes
            rw [present]
            exact Node.mem_ownNodes_of_enter entered
          have verdict : (state.current (tracer.keyOf symbol)).getD
              (tracer.undefinedUse e symbol) = tracer.classify (some method) e := by
            rw [classify_owned coherent deep listed (owned e symbol held use) present use split,
              correct.current]
          simp only [verdict]
          have met := mem_nodes_of_walk listed present (Or.inl entered)
          refine extend (correct.record coherent listed present split met) ?_
          intro d same _
          obtain rfl := Node.expr.inj same
          exact values_record coherent met met (Or.inl rfl)
  | _ => exact extend correct fun _ absurd => by cases absurd

/-- An expression that is left is composed from verdicts that have been given. -/
theorem ForwardCorrect.compose_left {root : Node Site} {pre post : List WalkStep} {e : Expr Site}
    (split : root.walk false = pre ++ .leave (.expr e) :: post) {state : ForwardState}
    (correct : ForwardCorrect tracer method pre state)
    (noUse : tracer.loaded.localUse? e = none) :
    tracer.compose (fun use _ => tracer.classify none use) state.valueOf e =
      tracer.classify (some method) e := by
  rw [classify_eq_compose]
  refine compose_congr (fun s named => ?_) fun p part => ?_
  · have noLocal : tracer.loaded.model.isLocalVariable s = false := by
      unfold LoadedUnit.localUse? at noUse
      rw [named] at noUse
      simpa using noUse
    rw [classify_named named, traceSymbol_of_not_local noLocal (some method)]
  · obtain ⟨c, child, own⟩ := mem_child_of_part part
    obtain ⟨-, left⟩ := Node.mem_before_leave split child rfl own
    rw [ForwardState.valueOf, correct.left p left]
    rfl

/-- An expression has its verdict once it is left. -/
theorem ForwardCorrect.judgeLeft (coherent : tracer.loaded.Coherent)
    (listed : .method method ∈ tracer.loaded.nodes)
    {body : Block Site} (present : method.body = some body) {pre post : List WalkStep}
    {n : Node Site} (split : (Node.block body).walk false = pre ++ .leave n :: post)
    {state : ForwardState} (correct : ForwardCorrect tracer method pre state) :
    ForwardCorrect tracer method pre (tracer.judgeLeft state n) ∧
      ∀ e, n = .expr e → (tracer.judgeLeft state n).values e.label.number =
        some (tracer.classify (some method) e) := by
  have left : .leave n ∈ (Node.block body).walk false := by
    rw [split]
    exact List.mem_append_right _ List.mem_cons_self
  cases n with
  | expr e =>
      simp only [Tracer.judgeLeft]
      cases use : tracer.loaded.localUse? e with
      | none =>
          simp only [Option.isSome_none, Bool.false_eq_true, if_false,
            correct.compose_left split use]
          have met := mem_nodes_of_walk listed present (Or.inr left)
          refine ⟨correct.record coherent listed present split met, fun d same => ?_⟩
          obtain rfl := Node.expr.inj same
          exact values_record coherent met met (Or.inl rfl)
      | some symbol =>
          simp only [Option.isSome_some, if_true]
          refine ⟨correct, fun d same => ?_⟩
          obtain rfl := Node.expr.inj same
          obtain ⟨before, passed⟩ := Node.walk_before_leave split
          refine correct.uses e ?_ (by simp [use])
          rw [passed]
          exact List.mem_append_right _ List.mem_cons_self
  | _ => exact ⟨correct, fun _ absurd => by cases absurd⟩

/-- Leaving a node keeps the pass correct: all below it has got its verdict, and it takes effect. -/
theorem ForwardCorrect.leave (coherent : tracer.loaded.Coherent)
    (listed : .method method ∈ tracer.loaded.nodes)
    {body : Block Site} (present : method.body = some body) {pre post : List WalkStep}
    {n : Node Site} (split : (Node.block body).walk false = pre ++ .leave n :: post)
    {state : ForwardState} (correct : ForwardCorrect tracer method pre state) :
    ForwardCorrect tracer method (pre ++ [.leave n]) (tracer.forwardStep state (.leave n)) := by
  obtain ⟨judged, given⟩ := correct.judgeLeft coherent listed present split
  simp only [forwardStep]
  generalize tracer.judgeLeft state n = next at judged given ⊢
  exact {
    current := fun key => by
      rw [DefinitionSearch.replay_leave]
      simp only [takeEffect]
      cases found : (tracer.effects key).event? n with
      | none => exact judged.current key
      | some event =>
          simp only
          rw [settle_apply, judged.current]
          refine update_congr (fun e held => ?_) _
          have child := DefinitionSearch.mem_children_of_event found held
          have earlier := Node.mem_before_leave split child rfl (Node.mem_ownNodes_self _)
          rw [ForwardState.valueOf, judged.left e earlier.2]
          rfl
    uses := fun e member isUse => judged.uses e (by simpa using member) isUse
    left := fun e member => by
      rcases List.mem_append.mp member with member | member
      · exact judged.left e member
      · exact given e (WalkStep.leave.inj (List.mem_singleton.mp member)).symm }

/-- The pass is correct after every number of steps. -/
theorem forwardCorrect_foldl (coherent : tracer.loaded.Coherent)
    (deep : tracer.loaded.nodes.length < tracer.maxDepth)
    (listed : .method method ∈ tracer.loaded.nodes) (owned : tracer.loaded.OwnsLocals method)
    {body : Block Site} (present : method.body = some body) (post : List WalkStep) :
    ∀ {pre : List WalkStep} {state : ForwardState}, (Node.block body).walk false = pre ++ post →
      ForwardCorrect tracer method pre state →
        ForwardCorrect tracer method (pre ++ post) (post.foldl tracer.forwardStep state) := by
  induction post with
  | nil =>
      intro pre state _ correct
      rwa [List.append_nil]
  | cons s post ih =>
      intro pre state split correct
      have next : ForwardCorrect tracer method (pre ++ [s]) (tracer.forwardStep state s) := by
        cases s with
        | enter n => exact correct.enter coherent deep listed owned present split
        | leave n => exact correct.leave coherent listed present split
      have whole : (Node.block body).walk false = (pre ++ [s]) ++ post := by
        rw [split, List.append_assoc, List.singleton_append]
      have rest := ih whole next
      rwa [List.append_assoc, List.singleton_append] at rest

/-- Tracing the values in a method body backwards gives the verdicts of one forward pass, where the
    method owns the locals that are used in its body and there is more depth than the unit has
    nodes. -/
theorem forwardPass_eq_classify {document : UnitDocument}
    (made : LoadedUnit.ofDocument document = .ok tracer.loaded)
    (deep : tracer.loaded.nodes.length < tracer.maxDepth)
    (listed : .method method ∈ tracer.loaded.nodes) (owned : tracer.loaded.OwnsLocals method)
    {e : Expr Site} (held : .expr e ∈ method.bodyNodes) :
    (tracer.forwardPass method).values e.label.number =
      some (tracer.classify (some method) e) := by
  have coherent := LoadedUnit.coherent_ofDocument made
  cases present : method.body with
  | none =>
      rw [MethodDecl.bodyNodes, present] at held
      cases held
  | some body =>
      rw [MethodDecl.bodyNodes, present] at held
      have correct : ForwardCorrect tracer method _ _ :=
        forwardCorrect_foldl coherent deep listed owned present ((Node.block body).walk false) rfl
          forwardCorrect_start
      rw [forwardPass, present]
      exact correct.left e (Node.mem_walk_of_own rfl held).2

end Tracer

/-- A unit whose only method has the parameter `p`, the local variable `s` and some body. -/
def UnitDocument.ofBody (body : List (Stmt Span)) : UnitDocument where
  model := ⟨[⟨"p.Q", .ordinary, none, [], none,
    [⟨"m", none, .method, false, false, none, none, [⟨"p", none, none⟩], [⟨"s", none, none⟩]⟩]⟩]⟩
  tree := ⟨"Q.java", none, [⟨.unknown, .ordinary, some "Q", some "p.Q",
    [.method ⟨.unknown, "m", some "p.Q#m", [⟨.unknown, "p", some "p.Q#m.p", none, none⟩],
      some ⟨.unknown, body⟩⟩]⟩]⟩

/-- A variable of that method, in some line. -/
def Expr.variable (line : UInt32) (name : String) : Expr Span :=
  .ident ⟨line, 1, line, 2⟩ name (some ("p.Q#m." ++ name)) none

/-- Text is taken over from the parameter, extended, and put into a longer text. -/
def UnitDocument.extending : UnitDocument := .ofBody [
  .varDecl ⟨.unknown, "s", some "p.Q#m.s", none, some (.variable 1 "p")⟩,
  .expression .unknown
    (.assign .unknown .plus (.variable 2 "s") (.literal .unknown .string "x" none) none),
  .expression .unknown (.assign .unknown .assign (.variable 3 "s")
    (.binary .unknown .plus (.variable 3 "s") (.literal .unknown .string "y" none) none) none),
  .ret .unknown (some (.variable 4 "s"))]

theorem Tracer.forwardPass_eq_classify_extending : ∃ loaded method e,
    LoadedUnit.ofDocument .extending = .ok loaded ∧ loaded.nodes.length < 32 ∧
      .method method ∈ loaded.nodes ∧ loaded.OwnsLocals method ∧ .expr e ∈ method.bodyNodes ∧
      ((Tracer.mk loaded .builtin 32).forwardPass method).values e.label.number =
        some ((Tracer.mk loaded .builtin 32).classify (some method) e) ∧
      (Tracer.mk loaded .builtin 32).classify (some method) e =
        .blame "p" ⟨1, 1, 1, 2⟩ .parameter := by
  have evaluated : ((LoadedUnit.ofDocument .extending).toOption.bind fun loaded =>
      (loaded.declarations.method? "p.Q#m").bind fun method =>
        (LoadedUnit.heldExpr? method 18).map fun e =>
          loaded.nodes.length < 32 && loaded.OwnsLocals method &&
            (Tracer.mk loaded .builtin 32).classify (some method) e =
              .blame "p" ⟨1, 1, 1, 2⟩ .parameter) = some true := by
    decide +kernel
  obtain ⟨loaded, method, e, made, listed, held, checked⟩ :=
    LoadedUnit.exists_of_evaluated evaluated
  simp only [Bool.and_eq_true, decide_eq_true_eq] at checked
  obtain ⟨⟨deep, owned⟩, verdict⟩ := checked
  have agrees := @Tracer.forwardPass_eq_classify ⟨loaded, .builtin, 32⟩ method .extending made deep
    listed owned e held
  exact ⟨loaded, method, e, made, deep, listed, owned, held, agrees, verdict⟩

end BugPatterns
