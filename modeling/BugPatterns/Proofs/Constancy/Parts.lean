import BugPatterns.Proofs.Constancy.Judge
import BugPatterns.Proofs.NodeTree

/-!
# Parts of expressions

The verdict on an expression is composed from the verdicts on its parts and, where it is a name,
from the one on the symbol (`Tracer.compose_congr`). The parts and the leaves of an expression are
nodes that it holds itself: none of them lies in the body of an anonymous class.
-/

namespace BugPatterns

namespace LoadedUnit

/-- The symbol that an expression names, if it is a name. -/
def namedSymbol? (loaded : LoadedUnit) : Expr Site → Option SymbolId
  | e@(.ident ..) => loaded.symbolOf e
  | e@(.select ..) => loaded.symbolOf e
  | _ => none

/-- The local variable that an expression is a use of. -/
def localUse? (loaded : LoadedUnit) (e : Expr Site) : Option SymbolId :=
  (loaded.namedSymbol? e).filter loaded.model.isLocalVariable

theorem namedSymbol?_of_localUse? {loaded : LoadedUnit} {e : Expr Site} {symbol : SymbolId}
    (isUse : loaded.localUse? e = some symbol) : loaded.namedSymbol? e = some symbol :=
  (Option.filter_eq_some_iff.mp isUse).1

theorem isLocalVariable_of_localUse? {loaded : LoadedUnit} {e : Expr Site} {symbol : SymbolId}
    (isUse : loaded.localUse? e = some symbol) : loaded.model.isLocalVariable symbol = true :=
  (Option.filter_eq_some_iff.mp isUse).2

end LoadedUnit

namespace Tracer

variable {tracer : Tracer}

/-- The verdict on a name that is bound is the one on the symbol. -/
theorem compose_named {leaf : Expr Site → SymbolId → Verdict} {value : Expr Site → Verdict}
    {e : Expr Site} {symbol : SymbolId} (named : tracer.loaded.namedSymbol? e = some symbol) :
    tracer.compose leaf value e = leaf e symbol := by
  cases e with
  | ident =>
      have bound : tracer.loaded.symbolOf _ = some symbol := named
      simp only [compose, bound]
  | select =>
      have bound : tracer.loaded.symbolOf _ = some symbol := named
      simp only [compose, bound]
  | _ => cases named

/-- The parts whose verdicts the one on an expression is composed from. -/
def parts : Expr Site → List (Expr Site)
  | .paren _ inner _ => [inner]
  | .cast _ operand _ => [operand]
  | .unary _ _ operand _ => [operand]
  | .binary _ _ lhs rhs _ => [lhs, rhs]
  | .conditional _ _ whenTrue whenFalse _ => [whenTrue, whenFalse]
  | .assign _ _ _ value _ => [value]
  | .call _ (.select _ target _ _ _) args _ _ => target :: args
  | .call _ _ args _ _ => args
  | .creation _ args _ _ _ => args
  | _ => []

/-- A part is held by an expression right below. -/
theorem mem_child_of_part {e p : Expr Site} (part : p ∈ parts e) :
    ∃ c, .expr c ∈ (Node.expr e).children ∧ .expr p ∈ (Node.expr c).ownNodes := by
  have direct (child : .expr p ∈ (Node.expr e).children) :
      ∃ c, .expr c ∈ (Node.expr e).children ∧ .expr p ∈ (Node.expr c).ownNodes :=
    ⟨p, child, Node.mem_ownNodes_self _⟩
  cases e with
  | call label callee args symbol type =>
      have inArgs (listed : p ∈ args) : ∃ c, .expr c ∈
          (Node.expr (.call label callee args symbol type)).children ∧
            .expr p ∈ (Node.expr c).ownNodes :=
        direct (List.mem_cons_of_mem _ (List.mem_map_of_mem listed))
      cases callee with
      | select _ target _ _ _ =>
          rcases List.mem_cons.mp part with rfl | listed
          · refine ⟨_, List.mem_cons_self, Node.mem_ownNodes_of_child ?_ rfl⟩
            simp [Node.children, Node.exprChildren]
          · exact inArgs listed
      | _ => exact inArgs part
  | creation label args body symbol type =>
      exact direct (List.mem_append_left _ (List.mem_map_of_mem part))
  | binary => exact direct (by simpa [parts, Node.children, Node.exprChildren] using part)
  | conditional =>
      simp only [parts, List.mem_cons, List.not_mem_nil, or_false] at part
      exact direct (by rcases part with rfl | rfl <;> simp [Node.children, Node.exprChildren])
  | assign =>
      exact direct (by simp [List.mem_singleton.mp part, Node.children, Node.exprChildren])
  | paren => exact direct (by simp [List.mem_singleton.mp part, Node.children, Node.exprChildren])
  | cast => exact direct (by simp [List.mem_singleton.mp part, Node.children, Node.exprChildren])
  | unary => exact direct (by simp [List.mem_singleton.mp part, Node.children, Node.exprChildren])
  | literal | ident | select | index => cases part

/-- The composition reads nothing but the verdicts on the parts and the one on the named symbol. -/
theorem compose_congr {leaf other : Expr Site → SymbolId → Verdict}
    {value second : Expr Site → Verdict} {e : Expr Site}
    (named : ∀ s, tracer.loaded.namedSymbol? e = some s → leaf e s = other e s)
    (same : ∀ p ∈ parts e, value p = second p) :
    tracer.compose leaf value e = tracer.compose other second e := by
  cases e with
  | literal | index => rfl
  | paren => exact same _ List.mem_cons_self
  | cast => exact same _ List.mem_cons_self
  | unary => exact same _ List.mem_cons_self
  | assign => exact same _ List.mem_cons_self
  | binary _ _ lhs rhs _ =>
      rw [compose, compose, same lhs (by simp [parts]), same rhs (by simp [parts])]
  | conditional _ _ whenTrue whenFalse _ =>
      rw [compose, compose, same whenTrue (by simp [parts]), same whenFalse (by simp [parts])]
  | ident label name symbol type =>
      simp only [compose]
      split
      · next s bound => exact named s bound
      · rfl
  | select label target name symbol type =>
      simp only [compose]
      split
      · next s bound => exact named s bound
      · rfl
  | creation label args body symbol type =>
      have listed : ∀ p ∈ args, value p = second p := same
      rw [compose, compose, Verdict.joinAll_congr listed]
  | call label callee args symbol type =>
      have listed : ∀ p ∈ args, value p = second p := fun p member =>
        same p (by cases callee <;> simp [parts, member])
      have receiver : receiverValue value callee = receiverValue second callee := by
        cases callee with
        | select _ target _ _ _ => exact same target (by simp [parts])
        | _ => rfl
      rw [compose, compose, receiver, Verdict.joinAll_congr listed]

mutual

/-- The leaves of an expression are held by it. -/
theorem mem_ownNodes_of_leaf (e : Expr Site) :
    ∀ u ∈ tracer.leaves e, .expr u ∈ (Node.expr e).ownNodes := by
  intro u leaf
  have direct {c : Expr Site} (child : .expr c ∈ (Node.expr e).children)
      (held : .expr u ∈ (Node.expr c).ownNodes) : .expr u ∈ (Node.expr e).ownNodes :=
    Node.mem_ownNodes.mpr (Or.inr ⟨.expr c, child, rfl, held⟩)
  have itself (single : u ∈ [e]) : .expr u ∈ (Node.expr e).ownNodes := by
    rw [List.mem_singleton.mp single]
    exact Node.mem_ownNodes_self _
  cases e with
  | literal | ident | select | index => exact itself leaf
  | paren _ inner _ =>
      exact direct List.mem_cons_self (mem_ownNodes_of_leaf inner u leaf)
  | cast _ operand _ =>
      exact direct List.mem_cons_self (mem_ownNodes_of_leaf operand u leaf)
  | unary _ _ operand _ =>
      exact direct List.mem_cons_self (mem_ownNodes_of_leaf operand u leaf)
  | assign _ _ _ value _ =>
      exact direct (by simp [Node.children, Node.exprChildren]) (mem_ownNodes_of_leaf value u leaf)
  | binary _ _ lhs rhs _ =>
      rcases List.mem_append.mp leaf with leaf | leaf
      · exact direct (by simp [Node.children, Node.exprChildren]) (mem_ownNodes_of_leaf lhs u leaf)
      · exact direct (by simp [Node.children, Node.exprChildren]) (mem_ownNodes_of_leaf rhs u leaf)
  | conditional _ _ whenTrue whenFalse _ =>
      rcases List.mem_append.mp leaf with leaf | leaf
      · exact direct (by simp [Node.children, Node.exprChildren])
          (mem_ownNodes_of_leaf whenTrue u leaf)
      · exact direct (by simp [Node.children, Node.exprChildren])
          (mem_ownNodes_of_leaf whenFalse u leaf)
  | call label callee args symbol type =>
      have composed (leaf : u ∈ tracer.receiverLeaves callee ++ tracer.allLeaves args) :
          .expr u ∈ (Node.expr (.call label callee args symbol type)).ownNodes := by
        rcases List.mem_append.mp leaf with leaf | leaf
        · exact direct List.mem_cons_self (mem_ownNodes_of_receiverLeaf callee u leaf)
        · obtain ⟨arg, listed, held⟩ := mem_ownNodes_of_allLeaves args u leaf
          exact direct (List.mem_cons_of_mem _ (List.mem_map_of_mem listed)) held
      simp only [leaves] at leaf
      split at leaf
      · exact itself leaf
      · exact composed leaf
      · exact itself leaf
  | creation label args body symbol type =>
      simp only [leaves] at leaf
      split at leaf
      · obtain ⟨arg, listed, held⟩ := mem_ownNodes_of_allLeaves args u leaf
        exact direct (List.mem_append_left _ (List.mem_map_of_mem listed)) held
      · exact itself leaf

theorem mem_ownNodes_of_receiverLeaf (callee : Expr Site) :
    ∀ u ∈ tracer.receiverLeaves callee, .expr u ∈ (Node.expr callee).ownNodes := by
  intro u leaf
  cases callee with
  | select _ target _ _ _ =>
      refine Node.mem_ownNodes.mpr (Or.inr ⟨.expr target, ?_, rfl, ?_⟩)
      · simp [Node.children, Node.exprChildren]
      · exact mem_ownNodes_of_leaf target u leaf
  | _ => cases leaf

theorem mem_ownNodes_of_allLeaves (es : List (Expr Site)) :
    ∀ u ∈ tracer.allLeaves es, ∃ e ∈ es, .expr u ∈ (Node.expr e).ownNodes := by
  intro u leaf
  cases es with
  | nil => cases leaf
  | cons e es =>
      rcases List.mem_append.mp leaf with leaf | leaf
      · exact ⟨e, List.mem_cons_self, mem_ownNodes_of_leaf e u leaf⟩
      · obtain ⟨x, listed, held⟩ := mem_ownNodes_of_allLeaves es u leaf
        exact ⟨x, List.mem_cons_of_mem _ listed, held⟩

end

end Tracer

end BugPatterns
