import BugPatterns.Proofs.Constancy.Forward

/-!
# The values of definitions

An expression that gives a variable a value, or adds to it, has a value of its own. It is as far to
be trusted as the variable right after it, with one exception (`Tracer.Understates`): a compound
assignment is judged by what it adds alone, so where the variable is less to be trusted than that,
the assignment passes for better than the variable.
-/

namespace BugPatterns

namespace DefinitionSearch

variable {search : DefinitionSearch}

/-- What an expression gives to the variable or adds to it: an assigned value, or the arguments of a
    chain of calls. -/
def operands : Expr Site → List (Expr Site)
  | .paren _ inner _ => operands inner
  | .assign _ _ _ value _ => [value]
  | .call _ (.select _ target _ _ _) args _ _ => operands target ++ args
  | _ => []

/-- Nothing below the operands defines the variable or adds to it. -/
def QuietOperands (search : DefinitionSearch) (e : Expr Site) : Prop :=
  ∀ operand ∈ operands e, ∀ n ∈ (Node.expr operand).ownNodes, search.event? n = none

theorem events_eq_nil {steps : List WalkStep}
    (quiet : ∀ n, .leave n ∈ steps → search.event? n = none) : search.events steps = [] := by
  refine List.filterMap_eq_nil_iff.mpr ?_
  intro n left
  obtain ⟨s, member, same⟩ := List.mem_filterMap.mp left
  cases s with
  | enter _ => cases same
  | leave m =>
      obtain rfl := Option.some.inj same
      exact quiet m member

theorem events_walk_eq_nil {n : Node Site} (quiet : ∀ m ∈ n.ownNodes, search.event? m = none) :
    search.events (n.walk false) = [] :=
  events_eq_nil fun m left => quiet m (Node.mem_ownNodes_of_leave left)

theorem isRooted_of_namesVariable {e : Expr Site} (names : search.namesVariable e = true) :
    search.isRooted e = true := by
  induction e using isRooted.induct with
  | case1 _ inner _ ih => exact ih names
  | case2 => cases names
  | case3 => cases names
  | case4 e noParen _ noCall =>
      cases e with
      | paren => exact (noParen _ _ _ rfl).elim
      | call => exact (noCall _ _ _ _ _ rfl).elim
      | _ => exact names

theorem operands_of_namesVariable {e : Expr Site} (names : search.namesVariable e = true) :
    operands e = [] := by
  induction e using operands.induct with
  | case1 _ inner _ ih => exact ih names
  | case2 => cases names
  | case3 => cases names
  | case4 => simp [operands]

end DefinitionSearch

namespace Tracer

variable {tracer : Tracer} {method : MethodDecl Site} {symbol : SymbolId}

theorem walk_expr (captured : Bool) (e : Expr Site) :
    (Node.expr e).walk captured =
      .enter (.expr e) :: (Node.expr e).children.flatMap (Node.walk captured) ++
        [.leave (.expr e)] :=
  Node.walk_eq captured rfl

/-- How a chain of calls that starts at a variable is walked and judged: the walk comes to a use of
    the variable before anything has effect, and adds the operands from there; the verdict joins
    those on the operands to the one on that use. -/
structure ChainFrom (tracer : Tracer) (symbol : SymbolId) (e root : Expr Site)
    (enters rest : List WalkStep) : Prop where
  walk : (Node.expr e).walk false = enters ++ .enter (.expr root) :: rest
  isUse : tracer.loaded.localUse? root = some symbol
  before : (tracer.effects (tracer.keyOf symbol)).events enters = []
  after : ∀ found, ((tracer.effects (tracer.keyOf symbol)).events rest).foldl Definitions.apply
    found = { found with updates := found.updates ++ DefinitionSearch.operands e }
  verdict : ∀ context, tracer.classify context e =
    Verdict.joinAll (tracer.classify context) (tracer.classify context root)
      (DefinitionSearch.operands e)

/-- The variable itself is the shortest chain. -/
theorem chainFrom_variable (bound : tracer.loaded.model.symbol? (tracer.keyOf symbol) = some symbol)
    (isLocal : tracer.loaded.model.isLocalVariable symbol = true) (label : Site) (name : String)
    (type : Option String) :
    ChainFrom tracer symbol (.ident label name (some (tracer.keyOf symbol)) type)
      (.ident label name (some (tracer.keyOf symbol)) type) []
      [.leave (.expr (.ident label name (some (tracer.keyOf symbol)) type))] where
  walk := walk_expr false _
  isUse := by
    have named : tracer.loaded.namedSymbol? (.ident label name (some (tracer.keyOf symbol)) type) =
        some symbol := bound
    rw [LoadedUnit.localUse?, named, Option.filter_some, if_pos isLocal]
  before := rfl
  after found := by simp [DefinitionSearch.events_leave, DefinitionSearch.event?,
    DefinitionSearch.operands]
  verdict _ := rfl

theorem ChainFrom.paren {e root : Expr Site} {enters rest : List WalkStep}
    (chain : ChainFrom tracer symbol e root enters rest) (label : Site) (type : Option String) :
    ChainFrom tracer symbol (.paren label e type) root
      (.enter (.expr (.paren label e type)) :: enters)
      (rest ++ [.leave (.expr (.paren label e type))]) where
  walk := by
    rw [walk_expr]
    simp [Node.children, Node.exprChildren, chain.walk]
  isUse := chain.isUse
  before := chain.before
  after found := by
    rw [DefinitionSearch.events_append, List.foldl_append, chain.after]
    rfl
  verdict context := by
    rw [classify_eq_compose]
    exact chain.verdict context

theorem ChainFrom.call {target root : Expr Site} {enters rest : List WalkStep}
    (chain : ChainFrom tracer symbol target root enters rest) {label place : Site} {name : String}
    {selected member type result : Option String} {args : List (Expr Site)}
    (rooted : (tracer.effects (tracer.keyOf symbol)).isRooted
      (.call label (.select place target name selected type) args member result) = true)
    (quiet : ∀ arg ∈ args, ∀ n ∈ (Node.expr arg).ownNodes,
      (tracer.effects (tracer.keyOf symbol)).event? n = none) :
    ChainFrom tracer symbol
      (.call label (.select place target name selected type) args member result) root
      (.enter (.expr (.call label (.select place target name selected type) args member result)) ::
        .enter (.expr (.select place target name selected type)) :: enters)
      (rest ++ .leave (.expr (.select place target name selected type)) ::
        args.flatMap (fun arg => (Node.expr arg).walk false) ++
          [.leave (.expr
            (.call label (.select place target name selected type) args member result))]) where
  walk := by
    rw [walk_expr]
    simp [Node.children, Node.exprChildren,
      walk_expr false (.select place target name selected type), chain.walk, List.flatMap_map]
  isUse := chain.isUse
  before := chain.before
  after found := by
    have silent : (tracer.effects (tracer.keyOf symbol)).events
        (args.flatMap fun arg => (Node.expr arg).walk false) = [] := by
      refine DefinitionSearch.events_eq_nil ?_
      intro n left
      obtain ⟨arg, listed, left⟩ := List.mem_flatMap.mp left
      exact quiet arg listed n (Node.mem_ownNodes_of_leave left)
    have final : (tracer.effects (tracer.keyOf symbol)).event? (.expr
        (.call label (.select place target name selected type) args member result)) =
          some (.extend args) := by
      rw [DefinitionSearch.event?, if_pos rooted]
    rw [List.append_assoc, List.cons_append, DefinitionSearch.events_append, List.foldl_append,
      chain.after, DefinitionSearch.events_leave, DefinitionSearch.events_append, silent,
      DefinitionSearch.events_leave, final]
    simp [DefinitionSearch.event?, Definitions.apply, DefinitionSearch.operands]
  verdict context := by
    have effect : tracer.callEffect?
        (.call label (.select place target name selected type) args member result)
        (.select place target name selected type) = some .mutate := by
      rw [DefinitionSearch.isRooted, Bool.and_eq_true] at rooted
      exact of_decide_eq_true rooted.1
    rw [classify_eq_compose]
    simp only [compose, effect]
    rw [receiverValue, chain.verdict context, DefinitionSearch.operands, Verdict.joinAll_append]

/-- Every expression that is rooted at a variable is such a chain. -/
theorem exists_chainFrom (bound : tracer.loaded.model.symbol? (tracer.keyOf symbol) = some symbol)
    (isLocal : tracer.loaded.model.isLocalVariable symbol = true) {e : Expr Site}
    (rooted : (tracer.effects (tracer.keyOf symbol)).isRooted e = true)
    (quiet : (tracer.effects (tracer.keyOf symbol)).QuietOperands e) :
    ∃ root enters rest, ChainFrom tracer symbol e root enters rest := by
  induction e using DefinitionSearch.isRooted.induct with
  | case1 _ inner _ ih =>
      obtain ⟨root, enters, rest, chain⟩ := ih rooted quiet
      exact ⟨root, _, _, chain.paren _ _⟩
  | case2 _ _ target _ _ _ args _ _ ih =>
      have inner := rooted
      rw [DefinitionSearch.isRooted, Bool.and_eq_true] at inner
      obtain ⟨root, enters, rest, chain⟩ := ih inner.2 fun operand member =>
        quiet operand (List.mem_append_left _ member)
      exact ⟨root, _, _, chain.call rooted fun arg member =>
        quiet arg (List.mem_append_right _ member)⟩
  | case3 _ callee _ _ _ unqualified =>
      cases callee with
      | select => exact (unqualified _ _ _ _ _ rfl).elim
      | _ => cases rooted
  | case4 e noParen _ noCall =>
      cases e with
      | paren => exact (noParen _ _ _ rfl).elim
      | call => exact (noCall _ _ _ _ _ rfl).elim
      | ident label name key type =>
          cases key with
          | none => cases rooted
          | some key =>
              have same : key = tracer.keyOf symbol := of_decide_eq_true rooted
              rw [same]
              exact ⟨_, _, _, chainFrom_variable bound isLocal label name type⟩
      | _ => cases rooted

/-- The use reads the variable after the expression, and nothing defines the variable or adds to it
    in between. -/
def ReadsAfter (tracer : Tracer) (method : MethodDecl Site) (symbol : SymbolId)
    (e use : Expr Site) : Prop :=
  tracer.loaded.localUse? use = some symbol ∧
    ∃ body pre between post, method.body = some body ∧
      (Node.block body).walk false =
        pre ++ .leave (.expr e) :: between ++ .enter (.expr use) :: post ∧
      ∀ n, .leave n ∈ between → (tracer.effects (tracer.keyOf symbol)).event? n = none

/-- The expression is a compound assignment to a variable that is less to be trusted than what is
    added to it. -/
def Understates (tracer : Tracer) (context : TraceContext) : Expr Site → Prop
  | .assign _ op target value _ => op ≠ .assign ∧
      (tracer.classify context value).constancy.rank <
        (tracer.classify context target).constancy.rank
  | _ => False

/-- What a method body, a variable it owns and a place in the walk have to be for a use of the
    variable to be judged by what is left before. -/
structure Judged (tracer : Tracer) (method : MethodDecl Site) (symbol : SymbolId)
    (body : Block Site) : Prop where
  coherent : tracer.loaded.Coherent
  deep : tracer.loaded.nodes.length < tracer.maxDepth
  listed : .method method ∈ tracer.loaded.nodes
  owned : tracer.loaded.Owns method symbol
  present : method.body = some body

namespace Judged

variable {body : Block Site} {e use root : Expr Site} {pre post enters rest : List WalkStep}

theorem classify_use (judged : Judged tracer method symbol body)
    (isUse : tracer.loaded.localUse? use = some symbol)
    (split : (Node.block body).walk false = pre ++ .enter (.expr use) :: post) :
    tracer.classify (some method) use =
      (settle (tracer.classify (some method))
        ((tracer.effects (tracer.keyOf symbol)).replay pre)).getD
          (tracer.undefinedUse use symbol) :=
  classify_owned judged.coherent judged.deep judged.listed judged.owned judged.present isUse split

/-- A use after something is added has the verdict on an earlier use, joined with those on what is
    added; where the variable had no value both are unsafe. -/
theorem classify_after_extend (judged : Judged tracer method symbol body)
    (isUse : tracer.loaded.localUse? use = some symbol)
    (split : (Node.block body).walk false = pre ++ .enter (.expr use) :: post)
    (earlierUse : tracer.loaded.localUse? root = some symbol)
    (earlier : (Node.block body).walk false = enters ++ .enter (.expr root) :: rest)
    {added : List (Expr Site)} (replayed : (tracer.effects (tracer.keyOf symbol)).replay pre =
      { (tracer.effects (tracer.keyOf symbol)).replay enters with
        updates := ((tracer.effects (tracer.keyOf symbol)).replay enters).updates ++ added }) :
    (tracer.classify (some method) use).constancy =
      (Verdict.joinAll (tracer.classify (some method)) (tracer.classify (some method) root)
        added).constancy := by
  rw [judged.classify_use isUse split, judged.classify_use earlierUse earlier, replayed]
  obtain ⟨latest, updates⟩ := (tracer.effects (tracer.keyOf symbol)).replay enters
  cases latest with
  | none => exact (Verdict.constancy_joinAll _ added rfl).symm
  | some latest =>
      simp only [settle, Option.map_some, Option.getD_some, Verdict.joinAll_append]

variable {between : List WalkStep}

theorem replay_between (quiet : ∀ n, .leave n ∈ between →
    (tracer.effects (tracer.keyOf symbol)).event? n = none) :
    (tracer.effects (tracer.keyOf symbol)).replay (pre ++ .leave (.expr e) :: between) =
      (tracer.effects (tracer.keyOf symbol)).replay (pre ++ [.leave (.expr e)]) := by
  have same : pre ++ .leave (.expr e) :: between = (pre ++ [.leave (.expr e)]) ++ between := by simp
  rw [same, DefinitionSearch.replay_append, DefinitionSearch.events_eq_nil quiet]
  rfl

theorem bound_of_use (judged : Judged tracer method symbol body)
    (isUse : tracer.loaded.localUse? use = some symbol) :
    tracer.loaded.model.symbol? (tracer.keyOf symbol) = some symbol := by
  have named := LoadedUnit.namedSymbol?_of_localUse? isUse
  have looked : ∃ key, tracer.loaded.model.symbol? key = some symbol := by
    cases use with
    | ident | select =>
        obtain ⟨key, -, found⟩ := Option.bind_eq_some_iff.mp named
        exact ⟨key, found⟩
    | _ => cases named
  obtain ⟨key, found⟩ := looked
  rw [keyOf, Model.key_of_symbol? judged.coherent.keys found, found]

/-- A use after a plain assignment has the verdict on the assigned value. -/
theorem classify_plain (judged : Judged tracer method symbol body)
    (isUse : tracer.loaded.localUse? use = some symbol) {label : Site} {target value : Expr Site}
    {type : Option String}
    (names : (tracer.effects (tracer.keyOf symbol)).namesVariable target = true)
    (split : (Node.block body).walk false =
      pre ++ .leave (.expr (.assign label .assign target value type)) :: between ++
        .enter (.expr use) :: post)
    (undisturbed : ∀ n, .leave n ∈ between →
      (tracer.effects (tracer.keyOf symbol)).event? n = none) :
    tracer.classify (some method) use = tracer.classify (some method) value := by
  have event : (tracer.effects (tracer.keyOf symbol)).event?
      (.expr (.assign label .assign target value type)) = some (.replace value) := by
    rw [DefinitionSearch.event?, if_pos names, if_pos rfl]
  rw [judged.classify_use isUse split, replay_between undisturbed, DefinitionSearch.replay_leave,
    event]
  rfl

/-- A use after an expression that only adds to the variable, from an earlier use on. -/
theorem constancy_of_added (judged : Judged tracer method symbol body)
    (isUse : tracer.loaded.localUse? use = some symbol)
    (split : (Node.block body).walk false =
      pre ++ .leave (.expr e) :: between ++ .enter (.expr use) :: post)
    (undisturbed : ∀ n, .leave n ∈ between →
      (tracer.effects (tracer.keyOf symbol)).event? n = none)
    (earlierUse : tracer.loaded.localUse? root = some symbol)
    (walked : pre ++ [.leave (.expr e)] = enters ++ .enter (.expr root) :: rest)
    {added : List (Expr Site)}
    (adds : ∀ found, ((tracer.effects (tracer.keyOf symbol)).events rest).foldl Definitions.apply
      found = { found with updates := found.updates ++ added }) :
    (tracer.classify (some method) use).constancy =
      (Verdict.joinAll (tracer.classify (some method)) (tracer.classify (some method) root)
        added).constancy := by
  have earlier : (Node.block body).walk false =
      enters ++ .enter (.expr root) :: (rest ++ between ++ .enter (.expr use) :: post) := by
    have same : pre ++ .leave (.expr e) :: between ++ .enter (.expr use) :: post =
        (pre ++ [.leave (.expr e)]) ++ between ++ .enter (.expr use) :: post := by simp
    rw [split, same, walked]
    simp
  refine judged.classify_after_extend isUse split earlierUse earlier ?_
  rw [replay_between undisturbed, walked, DefinitionSearch.replay_append,
    DefinitionSearch.events_enter, adds]

/-- A chain of calls is as far to be trusted as the variable after it. -/
theorem constancy_chain (judged : Judged tracer method symbol body)
    (isUse : tracer.loaded.localUse? use = some symbol)
    (rooted : (tracer.effects (tracer.keyOf symbol)).isRooted e = true)
    (quiet : (tracer.effects (tracer.keyOf symbol)).QuietOperands e)
    (split : (Node.block body).walk false =
      pre ++ .leave (.expr e) :: between ++ .enter (.expr use) :: post)
    (undisturbed : ∀ n, .leave n ∈ between →
      (tracer.effects (tracer.keyOf symbol)).event? n = none) :
    (tracer.classify (some method) e).constancy =
      (tracer.classify (some method) use).constancy := by
  obtain ⟨root, enters, rest, chain⟩ := exists_chainFrom (judged.bound_of_use isUse)
    (LoadedUnit.isLocalVariable_of_localUse? isUse) rooted quiet
  have atLeave := split
  rw [List.append_assoc, List.cons_append] at atLeave
  obtain ⟨before, passed⟩ := Node.walk_before_leave atLeave
  have walked : pre ++ [.leave (.expr e)] =
      (before ++ enters) ++ .enter (.expr root) :: rest := by
    rw [passed, List.append_assoc, List.append_assoc, ← chain.walk, walk_expr]
  rw [chain.verdict]
  exact (judged.constancy_of_added isUse split undisturbed chain.isUse walked chain.after).symm

/-- A variable is as far to be trusted after a compound assignment as the worse of what it was and
    what is added to it. -/
theorem rank_compound (judged : Judged tracer method symbol body)
    (isUse : tracer.loaded.localUse? use = some symbol) {label : Site} {op : AssignOp}
    {target value : Expr Site} {type : Option String} (compound : op ≠ .assign)
    (names : (tracer.effects (tracer.keyOf symbol)).namesVariable target = true)
    (quiet : (tracer.effects (tracer.keyOf symbol)).QuietOperands
      (.assign label op target value type))
    (split : (Node.block body).walk false =
      pre ++ .leave (.expr (.assign label op target value type)) :: between ++
        .enter (.expr use) :: post)
    (undisturbed : ∀ n, .leave n ∈ between →
      (tracer.effects (tracer.keyOf symbol)).event? n = none) :
    (tracer.classify (some method) use).constancy.rank =
      max (tracer.classify (some method) target).constancy.rank
        (tracer.classify (some method) value).constancy.rank := by
  have noOperands := DefinitionSearch.operands_of_namesVariable names
  have silent : (tracer.effects (tracer.keyOf symbol)).QuietOperands target := by
    rw [DefinitionSearch.QuietOperands, noOperands]
    simp
  obtain ⟨root, enters, rest, chain⟩ := exists_chainFrom (judged.bound_of_use isUse)
    (LoadedUnit.isLocalVariable_of_localUse? isUse)
    (DefinitionSearch.isRooted_of_namesVariable names) silent
  have atLeave := split
  rw [List.append_assoc, List.cons_append] at atLeave
  obtain ⟨before, passed⟩ := Node.walk_before_leave atLeave
  have walked : pre ++ [.leave (.expr (.assign label op target value type))] =
      (before ++ .enter (.expr (.assign label op target value type)) :: enters) ++
        .enter (.expr root) :: (rest ++ (Node.expr value).walk false ++
          [.leave (.expr (.assign label op target value type))]) := by
    rw [passed]
    simp [Node.children, Node.exprChildren, chain.walk]
  -- the target has no effect of its own, nor has anything in the value
  have adds (found : Definitions) : ((tracer.effects (tracer.keyOf symbol)).events
      (rest ++ (Node.expr value).walk false ++
        [.leave (.expr (.assign label op target value type))])).foldl Definitions.apply found =
          { found with updates := found.updates ++ [value] } := by
    have event : (tracer.effects (tracer.keyOf symbol)).event?
        (.expr (.assign label op target value type)) = some (.extend [value]) := by
      rw [DefinitionSearch.event?, if_pos names, if_neg compound]
    rw [DefinitionSearch.events_append, DefinitionSearch.events_append,
      DefinitionSearch.events_walk_eq_nil (quiet value List.mem_cons_self),
      DefinitionSearch.events_leave, event, List.append_nil, List.foldl_append, chain.after,
      noOperands, List.append_nil]
    rfl
  have verdict := judged.constancy_of_added isUse split undisturbed chain.isUse walked adds
  rw [verdict, Verdict.joinAll_cons, Verdict.joinAll_nil, Verdict.rank_join, chain.verdict,
    noOperands, Verdict.joinAll_nil]

end Judged

/-- An expression that defines a variable or adds to it is as far to be trusted as a use of the
    variable after it, unless it is a compound assignment that understates: that one is judged
    better than the variable. -/
theorem constancy_eq_iff_not_understates {document : UnitDocument}
    (made : LoadedUnit.ofDocument document = .ok tracer.loaded)
    (deep : tracer.loaded.nodes.length < tracer.maxDepth)
    (listed : .method method ∈ tracer.loaded.nodes)
    (owned : tracer.loaded.Owns method symbol) {e use : Expr Site}
    (defines : ((tracer.effects (tracer.keyOf symbol)).event? (.expr e)).isSome)
    (quiet : (tracer.effects (tracer.keyOf symbol)).QuietOperands e)
    (reads : tracer.ReadsAfter method symbol e use) :
    ((tracer.classify (some method) e).constancy =
        (tracer.classify (some method) use).constancy ↔
      ¬ tracer.Understates (some method) e) ∧
    (tracer.Understates (some method) e →
      (tracer.classify (some method) e).constancy.rank <
        (tracer.classify (some method) use).constancy.rank) := by
  obtain ⟨isUse, body, pre, between, post, present, split, undisturbed⟩ := reads
  have judged : Judged tracer method symbol body :=
    ⟨LoadedUnit.coherent_ofDocument made, deep, listed, owned, present⟩
  cases e with
  | assign label op target value type =>
      have names : (tracer.effects (tracer.keyOf symbol)).namesVariable target = true := by
        by_contra other
        simp [DefinitionSearch.event?, other] at defines
      have own : tracer.classify (some method) (.assign label op target value type) =
          tracer.classify (some method) value := by
        rw [classify_eq_compose]
        rfl
      rw [own]
      by_cases plain : op = .assign
      · obtain rfl := plain
        have same := judged.classify_plain isUse names split undisturbed
        simp [Understates, same]
      · have worse := judged.rank_compound isUse plain names quiet split undisturbed
        have ranks : (tracer.classify (some method) value).constancy =
            (tracer.classify (some method) use).constancy ↔
              (tracer.classify (some method) value).constancy.rank =
                (tracer.classify (some method) use).constancy.rank :=
          ⟨congrArg _, Verdict.constancy_eq_of_rank⟩
        rw [ranks, worse]
        simp only [Understates, ne_eq, plain, not_false_eq_true, true_and]
        omega
  | call label callee args member type =>
      have rooted : (tracer.effects (tracer.keyOf symbol)).isRooted
          (.call label callee args member type) = true := by
        by_contra other
        simp [DefinitionSearch.event?, other] at defines
      have same := judged.constancy_chain isUse rooted quiet split undisturbed
      exact ⟨⟨fun _ absurd => absurd, fun _ => same⟩, fun absurd => absurd.elim⟩
  | _ => simp [DefinitionSearch.event?] at defines

end Tracer

/-- Text from the parameter is extended by a constant, and returned. -/
def UnitDocument.understating : UnitDocument := .ofBody [
  .varDecl ⟨.unknown, "s", some "p.Q#m.s", none, some (.variable 1 "p")⟩,
  .expression .unknown
    (.assign .unknown .plus (.variable 2 "s") (.literal .unknown .string "x" none) none),
  .ret .unknown (some (.variable 3 "s"))]

namespace Understating

/-- The use that reads the variable in the end. -/
def use : Expr Site := .ident ⟨12, 3, 1, 3, 2⟩ "s" (some "p.Q#m.s") none

/-- The variable as it is before. -/
def extended : Expr Site := .ident ⟨9, 2, 1, 2, 2⟩ "s" (some "p.Q#m.s") none

/-- What is added to it. -/
def added : Expr Site := .literal ⟨10, .unknown⟩ .string "x" none

/-- The compound assignment. -/
def assignment : Expr Site := .assign ⟨8, .unknown⟩ .plus extended added none

/-- The body of the method. -/
def body : Block Site :=
  ⟨⟨4, .unknown⟩, [
    .varDecl ⟨⟨5, .unknown⟩, "s", some "p.Q#m.s", none,
      some (.ident ⟨6, 1, 1, 1, 2⟩ "p" (some "p.Q#m.p") none)⟩,
    .expression ⟨7, .unknown⟩ assignment,
    .ret ⟨11, .unknown⟩ (some use)]⟩

/-- The method. -/
def method : MethodDecl Site :=
  ⟨⟨2, .unknown⟩, "m", some "p.Q#m", [⟨⟨3, .unknown⟩, "p", some "p.Q#m.p", none, none⟩], some body⟩

/-- Of the returned use it can be asked how the assignment compares with it. -/
theorem reads_after : ∃ tracer : Tracer, ∃ symbol,
    LoadedUnit.ofDocument .understating = .ok tracer.loaded ∧
      tracer.loaded.nodes.length < tracer.maxDepth ∧ .method method ∈ tracer.loaded.nodes ∧
      tracer.loaded.Owns method symbol ∧
      ((tracer.effects (tracer.keyOf symbol)).event? (.expr assignment)).isSome ∧
      (tracer.effects (tracer.keyOf symbol)).QuietOperands assignment ∧
      tracer.ReadsAfter method symbol assignment use ∧
      tracer.Understates (some method) assignment ∧
      tracer.classify (some method) assignment = .constant ∧
      tracer.classify (some method) use = .blame "p" ⟨1, 1, 1, 2⟩ .parameter := by
  have evaluated : ((LoadedUnit.ofDocument .understating).toOption.bind fun loaded =>
      (loaded.localUse? use).map fun symbol =>
        loaded.Owns method symbol &&
          (Tracer.mk loaded .builtin 32).keyOf symbol = "p.Q#m.s" &&
          (Tracer.mk loaded .builtin 32).classify (some method) assignment = .constant &&
          (Tracer.mk loaded .builtin 32).classify (some method) use =
            .blame "p" ⟨1, 1, 1, 2⟩ .parameter &&
          (Tracer.mk loaded .builtin 32).classify (some method) added = .constant &&
          (Tracer.mk loaded .builtin 32).classify (some method) extended =
            .blame "p" ⟨1, 1, 1, 2⟩ .parameter) = some true := by
    decide +kernel
  obtain ⟨loaded, made, looked⟩ := exists_ok_of_toOption_bind evaluated
  obtain ⟨symbol, isUse, facts⟩ := Option.map_eq_some_iff.mp looked
  simp only [Bool.and_eq_true, decide_eq_true_eq] at facts
  obtain ⟨⟨⟨⟨⟨owned, key⟩, constant⟩, blamed⟩, addedConstant⟩, extendedBlamed⟩ := facts
  have understates : (Tracer.mk loaded .builtin 32).Understates (some method) assignment := by
    refine ⟨by decide, ?_⟩
    rw [addedConstant, extendedBlamed]
    decide
  have nodes : loaded.nodes = (UnitDocument.understating.tree.numbered).tree.preorder := by
    rw [LoadedUnit.nodes, LoadedUnit.unit_ofDocument made]
  have deep : loaded.nodes.length < 32 := by
    rw [nodes]
    decide
  have listed : .method method ∈ loaded.nodes := by
    rw [nodes]
    exact List.mem_of_getElem? (i := 2) rfl
  have defines : ((Tracer.mk loaded .builtin 32).effects
      ((Tracer.mk loaded .builtin 32).keyOf symbol)).event? (.expr assignment) |>.isSome := by
    rw [key]
    rfl
  have quiet : ((Tracer.mk loaded .builtin 32).effects
      ((Tracer.mk loaded .builtin 32).keyOf symbol)).QuietOperands assignment := by
    intro operand member n own
    obtain rfl := List.mem_singleton.mp member
    obtain rfl := List.mem_singleton.mp own
    rfl
  have reads : (Tracer.mk loaded .builtin 32).ReadsAfter method symbol assignment use := by
    refine ⟨isUse, body, ((Node.block body).walk false).take 11,
      (((Node.block body).walk false).drop 12).take 2,
      ((Node.block body).walk false).drop 15, rfl, rfl, fun n left => ?_⟩
    have steps : (((Node.block body).walk false).drop 12).take 2 =
        [.leave (.stmt (.expression ⟨7, .unknown⟩ assignment)),
          .enter (.stmt (.ret ⟨11, .unknown⟩ (some use)))] := rfl
    rw [steps] at left
    simp only [List.mem_cons, WalkStep.leave.injEq, reduceCtorEq, List.not_mem_nil, or_false]
      at left
    rw [left]
    rfl
  exact ⟨⟨loaded, .builtin, 32⟩, symbol, made, deep, listed, owned, defines, quiet, reads,
    understates, constant, blamed⟩

/-- The assignment is judged constant, although the variable then holds the parameter. -/
theorem constancy_ne : ∃ tracer : Tracer, ∃ symbol,
    LoadedUnit.ofDocument .understating = .ok tracer.loaded ∧
      tracer.loaded.nodes.length < tracer.maxDepth ∧ .method method ∈ tracer.loaded.nodes ∧
      tracer.loaded.Owns method symbol ∧
      ((tracer.effects (tracer.keyOf symbol)).event? (.expr assignment)).isSome ∧
      (tracer.effects (tracer.keyOf symbol)).QuietOperands assignment ∧
      tracer.ReadsAfter method symbol assignment use ∧
      (tracer.classify (some method) assignment).constancy ≠
        (tracer.classify (some method) use).constancy := by
  obtain ⟨tracer, symbol, made, deep, listed, owned, defines, quiet, reads, -, constant, blamed⟩ :=
    reads_after
  refine ⟨tracer, symbol, made, deep, listed, owned, defines, quiet, reads, ?_⟩
  rw [constant, blamed]
  decide

theorem constancy_lt : ∃ tracer : Tracer, ∃ symbol,
    LoadedUnit.ofDocument .understating = .ok tracer.loaded ∧
      tracer.ReadsAfter method symbol assignment use ∧
      tracer.Understates (some method) assignment ∧
      (tracer.classify (some method) assignment).constancy.rank <
        (tracer.classify (some method) use).constancy.rank := by
  obtain ⟨tracer, symbol, made, deep, listed, owned, defines, quiet, reads, understates, -, -⟩ :=
    reads_after
  exact ⟨tracer, symbol, made, reads, understates,
    (Tracer.constancy_eq_iff_not_understates made deep listed owned defines quiet reads).2
      understates⟩

end Understating

end BugPatterns
