import BugPatterns.Proofs.Constancy.Reference
import BugPatterns.Proofs.Constancy.UnwrappedDefinitions
import BugPatterns.Proofs.Unit.AddedCasts

/-!
# Definitions under added casts

A search for definitions looks through parentheses but not through casts. So a call that adds to a
variable is recognized under added casts just if none of them stands on the way from the call to the
variable (`DefinitionSearch.isRooted_asParens`). As long as no assigned variable is cast, a search
finds the value that was last given to the variable, and of what was added to it since then all but
what was added by calls of that kind (`DefinitionSearch.run_asParens`).
-/

namespace BugPatterns

variable {added : Site → Bool} {loaded : LoadedUnit}

namespace LoadedUnit

theorem symbolOf_asParens (e : Expr Site) :
    (loaded.asParens added).symbolOf (e.asParens added) = loaded.symbolOf e := by
  rw [symbolOf, Expr.symbol_asParens]
  rfl

theorem typeOf_asParens (e : Expr Site) :
    (loaded.asParens added).typeOf (e.asParens added) = loaded.typeOf e := by
  rw [typeOf, Expr.type_asParens]
  rfl

/-- A call is looked up through the same types. -/
theorem callCandidates_asParens (e : Expr Site) :
    (loaded.asParens added).callCandidates (e.asParens added) = loaded.callCandidates e := by
  unfold callCandidates
  rw [symbolOf_asParens]
  cases e with
  | call label callee args symbol type =>
      cases callee with
      | select _ target _ _ _ =>
          simp only [Expr.asParens, typeOf_asParens]
          rfl
      | cast inside operand _ =>
          cases here : added inside <;> simp only [Expr.asParens, here] <;> rfl
      | _ => rfl
  | cast label operand type =>
      rcases Expr.asParens_cast label operand type with same | same <;> rw [same] <;> rfl
  | _ => rfl

end LoadedUnit

/-- The event with the added casts as parentheses. -/
def DefinitionEvent.asParens (added : Site → Bool) : DefinitionEvent → DefinitionEvent
  | .replace value => .replace (value.asParens added)
  | .extend values => .extend (values.map (Expr.asParens added))

/-- The definitions with the added casts as parentheses. -/
def Definitions.asParens (added : Site → Bool) (found : Definitions) : Definitions :=
  ⟨found.latest.map (Expr.asParens added), found.updates.map (Expr.asParens added)⟩

theorem Definitions.apply_asParens (found : Definitions) (event : DefinitionEvent) :
    (found.asParens added).apply (event.asParens added) = (found.apply event).asParens added := by
  cases event with
  | replace value => rfl
  | extend values => simp only [apply, DefinitionEvent.asParens, asParens, List.map_append]

namespace DefinitionSearch

/-- The search with the added casts as parentheses. -/
def asParens (added : Site → Bool) (search : DefinitionSearch) : DefinitionSearch :=
  { search with loaded := search.loaded.asParens added }

variable {search : DefinitionSearch}

/-- The variable is recognized as before if it is not cast. -/
theorem namesVariable_asParens {e : Expr Site} (kept : e.stripParens.isMarkedCast added = false) :
    (search.asParens added).namesVariable (e.asParens added) = search.namesVariable e := by
  induction e using Expr.stripParens.induct with
  | case1 label inner type ih => exact ih kept
  | case2 e notParen =>
      cases e with
      | paren => exact absurd rfl (notParen _ _ _)
      | ident label name symbol type => cases symbol <;> rfl
      | cast label operand type =>
          have kept : added label = false := kept
          rw [Expr.asParens_of_kept kept]
          rfl
      | _ => rfl

/-- What is recognized as the variable under casts is not cast. -/
theorem isMarkedCast_of_namesVariable {e : Expr Site} (names : search.namesVariable e = true) :
    e.stripParens.isMarkedCast added = false := by
  unfold namesVariable at names
  split at names
  · next plain => rw [plain]; rfl
  · cases names

/-- A chain of calls is recognized as before just if no cast stands on the way to its root. -/
theorem isRooted_asParens (e : Expr Site) : search.isRooted e =
    ((search.asParens added).isRooted (e.asParens added) && !e.castsRoot added) := by
  induction e using isRooted.induct with
  | case1 label inner type ih => exact ih
  | case2 label select target name member memberType args symbol type ih =>
      have candidates := @LoadedUnit.callCandidates_asParens added search.loaded
        (.call label (.select select target name member memberType) args symbol type)
      simp only [Expr.asParens] at candidates ⊢
      rw [isRooted, isRooted, mutates, mutates, ih, Bool.and_assoc]
      simp only [asParens, candidates]
      rfl
  | case3 label callee args symbol type direct =>
      cases callee with
      | select => exact absurd rfl (direct _ _ _ _ _)
      | cast inside operand _ =>
          cases here : added inside <;> simp only [Expr.asParens, here] <;> rfl
      | _ => rfl
  | case4 e notParen notSelected notCall =>
      cases e with
      | paren => exact absurd rfl (notParen _ _ _)
      | call => exact absurd rfl (notCall _ _ _ _ _)
      | ident label name symbol type =>
          cases symbol with
          | none => rfl
          | some symbol => exact (Bool.and_true _).symm
      | cast label operand type =>
          have unseen : search.isRooted (.cast label operand type) = false := rfl
          rw [unseen]
          cases here : added label with
          | true => simp [Expr.castsRoot, here]
          | false =>
              rw [Expr.asParens_of_kept here]
              rfl
      | _ => rfl

end DefinitionSearch

namespace LoadedUnit

/-- What is assigned to is recognized as a variable under the added casts, if it is with these as
    parentheses. -/
def KeepsTargets (loaded : LoadedUnit) (added : Site → Bool) : Prop :=
  ∀ key label op target value type, .expr (.assign label op target value type) ∈ loaded.nodes →
    Names key (target.asParens added) → Names key target

/-- A call is recognized as one that adds to a variable under the added casts, if it is with these
    as parentheses. -/
def KeepsCalls (loaded : LoadedUnit) (catalog : Catalog) (added : Site → Bool) : Prop :=
  ∀ key label callee args symbol type,
    .expr (.call label callee args symbol type) ∈ loaded.nodes →
      Chain (loaded.asParens added) catalog key
        ((Expr.call label callee args symbol type).asParens added) →
      Chain loaded catalog key (.call label callee args symbol type)

/-- Under the added casts all assignments to variables are recognized and, if the casts are `clear`,
    so are all calls that add to them. -/
structure Recognizes (loaded : LoadedUnit) (catalog : Catalog) (added : Site → Bool)
    (clear : Prop) : Prop where
  targets : loaded.KeepsTargets added
  calls : clear → loaded.KeepsCalls catalog added

end LoadedUnit

namespace DefinitionSearch

variable {search : DefinitionSearch} {clear : Prop}

/-- A node does the same to the variable, or it is a call that is not recognized under the casts. -/
theorem event?_asParens (recognizes : search.loaded.Recognizes search.catalog added clear)
    {n : Node Site} (inUnit : n ∈ search.loaded.nodes) :
    (search.asParens added).event? (n.asParens added) =
        (search.event? n).map (DefinitionEvent.asParens added) ∨
      ¬ clear ∧ search.event? n = none ∧
        ∃ values, (search.asParens added).event? (n.asParens added) = some (.extend values) := by
  cases n with
  | varDecl decl =>
      refine .inl ?_
      show (search.asParens added).event? (.varDecl (decl.asParens added)) = _
      rw [VarDecl.asParens_eq]
      simp only [event?]
      split
      · next named =>
          rw [if_pos (show decl.symbol = some search.key from named), Option.map_map,
            Option.map_map]
          rfl
      · next other => rw [if_neg (show ¬ decl.symbol = some search.key from other)]; rfl
  | expr e =>
      cases e with
      | assign label op target value type =>
          have names : (search.asParens added).namesVariable (target.asParens added) =
              search.namesVariable target := by
            cases named : search.namesVariable target with
            | true =>
                rw [namesVariable_asParens (isMarkedCast_of_namesVariable named), named]
            | false =>
                refine Bool.eq_false_iff.mpr fun seen => Bool.eq_false_iff.mp named ?_
                exact namesVariable_iff.mpr
                  (recognizes.targets _ _ _ _ _ _ inUnit (namesVariable_iff.mp seen))
          refine .inl ?_
          simp only [Node.asParens_expr, Expr.asParens, event?, names]
          split
          · split <;> rfl
          · rfl
      | call label callee args symbol type =>
          have recognized := @isRooted_asParens added search (.call label callee args symbol type)
          rw [Expr.asParens_call] at recognized
          rw [Node.asParens_expr, Expr.asParens_call]
          cases seen : (search.asParens added).isRooted
              (.call label (callee.asParens added) (args.map (Expr.asParens added)) symbol
                type) with
          | false =>
              rw [seen, Bool.false_and] at recognized
              refine .inl ?_
              simp only [event?, seen, recognized]
              rfl
          | true =>
              cases rooted : search.isRooted (.call label callee args symbol type) with
              | true =>
                  refine .inl ?_
                  simp only [event?, seen, rooted]
                  rfl
              | false =>
                  refine .inr ⟨fun isClear => Bool.eq_false_iff.mp rooted ?_, ?_,
                    args.map (Expr.asParens added), ?_⟩
                  · refine isRooted_iff.mpr (recognizes.calls isClear _ _ _ _ _ _ inUnit ?_)
                    rw [Expr.asParens_call]
                    exact isRooted_iff.mp seen
                  · simp only [event?, rooted]
                    rfl
                  · simp only [event?, seen]
                    rfl
      | cast label operand type =>
          rcases Expr.asParens_cast label operand type with same | same <;>
            exact .inl (by rw [Node.asParens_expr, same]; rfl)
      | _ => exact .inl rfl
  | _ => exact .inl rfl

end DefinitionSearch

/-- With the marked casts as parentheses the walk is the same. -/
theorem Node.walk_asParens (captured : Bool) (n : Node Site) :
    (n.asParens added).walk captured =
      (n.walk captured).map (WalkStep.mapNode (Node.asParens added)) := by
  induction n using Node.induct with
  | node n ih =>
      cases isClass : n.isClassDecl with
      | false =>
          have same : (n.asParens added).isClassDecl = false := by
            rw [isClassDecl_asParens, isClass]
          rw [walk_eq captured same, walk_eq captured isClass, children_asParens,
            List.flatMap_map, List.flatMap_congr ih]
          simp [WalkStep.mapNode, List.map_flatMap]
      | true =>
          cases n with
          | classDecl decl =>
              have children := @children_asParens _ added (.classDecl decl)
              have parens : (classDecl decl).asParens added = .classDecl (decl.asParens added) :=
                rfl
              rw [parens, walk_classDecl, ← parens, children, walk_classDecl]
              cases captured with
              | false => rfl
              | true =>
                  simp [preorder_asParens, List.flatMap_map, List.map_flatMap, WalkStep.mapNode,
                    Function.comp_def]
          | _ => cases isClass

/-- `other` is what is found where `found` is under the added casts: the same value, and all that
    was added to it. Nothing of that is missed under the casts if they are `clear`. -/
structure Definitions.Misses (added : Site → Bool) (clear : Prop) (found other : Definitions) :
    Prop where
  latest : other.latest = found.latest.map (Expr.asParens added)
  updates : (found.updates.map (Expr.asParens added)).Sublist other.updates
  all : clear → other = found.asParens added

/-- The scans have come equally far. -/
structure DefinitionScan.Misses (added : Site → Bool) (clear : Prop) (scan other : DefinitionScan) :
    Prop where
  reached : other.reached = scan.reached
  found : scan.found.Misses added clear other.found

section Misses

variable {clear : Prop}

theorem Definitions.Misses.empty : Misses added clear .empty .empty where
  latest := rfl
  updates := List.Sublist.refl _
  all _ := rfl

/-- Both take the same event into account. -/
theorem Definitions.Misses.apply {found other : Definitions}
    (misses : Misses added clear found other) (event : DefinitionEvent) :
    Misses added clear (found.apply event) (other.apply (event.asParens added)) := by
  cases event with
  | replace value =>
      exact { latest := rfl, updates := List.Sublist.refl _, all := fun _ => rfl }
  | extend values =>
      refine { latest := misses.latest, updates := ?_, all := fun isClear => ?_ }
      · simp only [Definitions.apply, DefinitionEvent.asParens, List.map_append]
        exact misses.updates.append_right _
      · rw [misses.all isClear, Definitions.apply_asParens]

/-- Something was added that the casts hide, so they are not clear. -/
theorem Definitions.Misses.extend {found other : Definitions}
    (misses : Misses added clear found other) (hidden : ¬ clear) (values : List (Expr Site)) :
    Misses added clear found (other.apply (.extend values)) where
  latest := misses.latest
  updates := misses.updates.trans (List.sublist_append_left _ _)
  all isClear := absurd isClear hidden

namespace DefinitionSearch

variable {search : DefinitionSearch}
  (recognizes : search.loaded.Recognizes search.catalog added clear)
include recognizes

theorem leave_asParens {n : Node Site} (inUnit : n ∈ search.loaded.nodes)
    {scan other : DefinitionScan} (misses : scan.Misses added clear other) :
    (search.leave false n scan).Misses added clear
      ((search.asParens added).leave false (n.asParens added) other) := by
  unfold leave
  rw [misses.reached]
  split
  · exact misses
  rcases event?_asParens recognizes inUnit with same | ⟨hidden, unseen, values, seen⟩
  · rw [same]
    cases search.event? n with
    | none => exact misses
    | some event => exact ⟨rfl, misses.found.apply event⟩
  · rw [unseen, seen]
    exact ⟨rfl, misses.found.extend hidden values⟩

theorem step_asParens {s : WalkStep} (inUnit : s.node ∈ search.loaded.nodes)
    {scan other : DefinitionScan} (misses : scan.Misses added clear other) :
    (search.step scan s).Misses added clear
      ((search.asParens added).step other (s.mapNode (Node.asParens added))) := by
  cases s with
  | enter n =>
      cases n with
      | expr e =>
          have number : (e.asParens added).label.number = e.label.number := by
            rw [Expr.label_asParens]
          have use : (search.asParens added).use = search.use := rfl
          simp only [WalkStep.mapNode, Node.asParens_expr, step, number, use]
          split
          · exact ⟨rfl, misses.found⟩
          · exact misses
      | _ => exact misses
  | leave n => exact leave_asParens recognizes inUnit misses

/-- A search under added casts comes to the use if it does with these as parentheses, and has then
    found the same value and, if the casts are clear, all that was added to it. -/
theorem run_asParens {method : MethodDecl Site} (listed : .method method ∈ search.loaded.nodes) :
    Option.Rel (Definitions.Misses added clear) (search.run method)
      ((search.asParens added).run (method.asParens added)) := by
  have folded (steps : List WalkStep) (inUnit : ∀ s ∈ steps, s.node ∈ search.loaded.nodes) :
      ∀ {scan other : DefinitionScan}, scan.Misses added clear other →
        (steps.foldl search.step scan).Misses added clear
          ((steps.map (WalkStep.mapNode (Node.asParens added))).foldl (search.asParens added).step
            other) := by
    induction steps with
    | nil => exact fun misses => misses
    | cons s steps ih =>
        intro scan other misses
        obtain ⟨here, rest⟩ := List.forall_mem_cons.mp inUnit
        exact ih rest (step_asParens recognizes here misses)
  have body : (method.asParens added).body = method.body.map (Block.asParens added) :=
    congrArg MethodDecl.body method.asParens_eq
  unfold run
  rw [body]
  cases present : method.body with
  | none => exact .none
  | some b =>
      have bodyListed : .block b ∈ search.loaded.nodes :=
        LoadedUnit.mem_nodes_of_child listed (method.mem_children_of_body present)
      have scanned : (search.scanTree false b.tree ⟨false, .empty⟩).Misses added clear
          ((search.asParens added).scanTree false (b.asParens added).tree ⟨false, .empty⟩) := by
        have here := @scanTree_eq_foldl search (.block b) ⟨false, .empty⟩
        have there := @scanTree_eq_foldl (search.asParens added) (.block (b.asParens added))
          ⟨false, .empty⟩
        have parens : Node.block (b.asParens added) = (Node.block b).asParens added := rfl
        rw [parens, Node.walk_asParens] at there
        have inUnit : ∀ s ∈ (Node.block b).walk search.captured, s.node ∈ search.loaded.nodes :=
          fun s taken => LoadedUnit.mem_nodes_trans bodyListed (Node.mem_preorder_of_walk taken)
        exact here ▸ there ▸ folded _ inUnit ⟨rfl, .empty⟩
      simp only [Option.map_some, scanned.reached]
      split
      · exact .some scanned.found
      · exact .none

end DefinitionSearch

namespace LoadedUnit

variable {catalog : Catalog} (recognizes : loaded.Recognizes catalog added clear)
  {method : MethodDecl Site} (listed : .method method ∈ loaded.nodes) (key : String)
  (use : Expr Site)
include recognizes listed

theorem reachingDefinitions_asParens :
    Option.Rel (Definitions.Misses added clear) (loaded.reachingDefinitions catalog method key use)
      ((loaded.asParens added).reachingDefinitions catalog (method.asParens added) key
        (use.asParens added)) := by
  unfold reachingDefinitions
  rw [Expr.label_asParens]
  exact @DefinitionSearch.run_asParens added clear ⟨loaded, catalog, key, use.label.number, false⟩
    recognizes method listed

theorem capturedDefinitions_asParens :
    Option.Rel (Definitions.Misses added clear) (loaded.capturedDefinitions catalog method key use)
      ((loaded.asParens added).capturedDefinitions catalog (method.asParens added) key
        (use.asParens added)) := by
  unfold capturedDefinitions
  rw [Expr.label_asParens]
  exact @DefinitionSearch.run_asParens added clear ⟨loaded, catalog, key, use.label.number, true⟩
    recognizes method listed

end LoadedUnit

end Misses

end BugPatterns
