import BugPatterns.Check.Basic
import BugPatterns.Proofs.Except
import BugPatterns.Proofs.Unit.Coherence

/-!
# Scopes around nodes

In a loaded unit every node lies under one list of scopes. The nodes that a method body holds itself
have the method as their innermost scope, those of a field initializer the type declaration. So no
node is both in a method body and in a field initializer, type declarations in between apart
(`LoadedUnit.Coherent.not_initializerNumber`).
-/

namespace BugPatterns

namespace Node

variable {α : Type}

/-- The node opens no scope and is no unit: it is part of a body or of an initializer. -/
def isInner : Node α → Bool
  | .varDecl _ | .block _ | .stmt _ | .expr _ => true
  | .unit _ | .classDecl _ | .method _ => false

theorem isInner_ofStmt (s : Stmt α) : (ofStmt s).isInner || (ofStmt s).isClassDecl := by
  cases s <;> rfl

/-- Right below an inner node there are inner nodes and type declarations. -/
theorem isInner_of_child {c n : Node α} (inner : n.isInner) (child : c ∈ n.children)
    (entered : c.isClassDecl = false) : c.isInner := by
  have placed : c.isInner || c.isClassDecl := by
    cases n with
    | unit _ => simp [isInner] at inner
    | classDecl _ => simp [isInner] at inner
    | method _ => simp [isInner] at inner
    | varDecl decl =>
        simp only [children, Option.toList_map, List.mem_map] at child
        obtain ⟨e, -, rfl⟩ := child
        rfl
    | block b =>
        obtain ⟨s, -, rfl⟩ := List.mem_map.mp child
        exact isInner_ofStmt s
    | stmt s =>
        cases s <;> simp [children, stmtChildren] at child
        case ifElse =>
          rcases child with rfl | rfl | ⟨s, -, rfl⟩
          · rfl
          · exact isInner_ofStmt _
          · exact isInner_ofStmt _
        case whileLoop =>
          rcases child with rfl | rfl
          · rfl
          · exact isInner_ofStmt _
        case ret => obtain ⟨e, -, rfl⟩ := child; rfl
        all_goals subst child; rfl
    | expr e =>
        cases e <;> simp [children, exprChildren] at child
        case call => rcases child with rfl | ⟨e, -, rfl⟩ <;> rfl
        case creation => rcases child with ⟨e, -, rfl⟩ | ⟨decl, -, rfl⟩ <;> rfl
        case assign => rcases child with rfl | rfl <;> rfl
        case binary => rcases child with rfl | rfl <;> rfl
        case index => rcases child with rfl | rfl <;> rfl
        case conditional => rcases child with rfl | rfl | rfl <;> rfl
        all_goals subst child; rfl
  simpa [entered] using placed

end Node

theorem Scope.ofNode?_of_isInner {n : Node Site} (inner : n.isInner) : Scope.ofNode? n = none := by
  cases n <;> simp_all [Node.isInner, Scope.ofNode?]

namespace Node

/-- The own nodes of an inner node lie under the scopes that it lies under. -/
theorem mem_underScopes_of_own {m n : Node Site} (inner : n.isInner) (own : m ∈ n.ownNodes)
    (scopes : List Scope) : (scopes, m) ∈ n.tree.underScopes Scope.ofNode? scopes := by
  induction n using Node.induct with
  | node n ih =>
      rw [underScopes_tree, Scope.ofNode?_of_isInner inner]
      rcases mem_ownNodes.mp own with rfl | ⟨c, child, entered, below⟩
      · exact List.mem_cons_self
      · refine List.mem_cons_of_mem _ (List.mem_flatMap.mpr ⟨c, child, ?_⟩)
        exact ih c child (isInner_of_child inner child entered) below

/-- What lies under scopes below a node lies under them in every tree the node is met in under its
    own scopes. -/
theorem mem_underScopes_trans {n root : Node Site} {scopes outer : List Scope}
    {inner : List Scope × Node Site} (met : (scopes, n) ∈ root.tree.underScopes Scope.ofNode? outer)
    (below : inner ∈ n.tree.underScopes Scope.ofNode? scopes) :
    inner ∈ root.tree.underScopes Scope.ofNode? outer := by
  induction root using Node.induct generalizing outer with
  | node root ih =>
      rw [underScopes_tree] at met
      rcases List.mem_cons.mp met with equal | met
      · obtain ⟨rfl, rfl⟩ := Prod.mk.inj equal
        exact below
      · obtain ⟨c, child, met⟩ := List.mem_flatMap.mp met
        rw [underScopes_tree]
        exact List.mem_cons_of_mem _ (List.mem_flatMap.mpr ⟨c, child, ih c child met⟩)

/-- The scopes around what is met in a tree are opened by nodes of the tree, or are around it. -/
theorem exists_of_scope {root : Node Site} :
    ∀ {outer : List Scope}, ∀ placed ∈ root.tree.underScopes Scope.ofNode? outer,
      ∀ scope ∈ placed.1, scope ∈ outer ∨
        ∃ n ∈ root.tree.preorder, Scope.ofNode? n = some scope := by
  induction root using Node.induct with
  | node root ih =>
      intro outer placed met scope around
      rw [underScopes_tree] at met
      rcases List.mem_cons.mp met with rfl | met
      · exact Or.inl around
      · obtain ⟨c, child, met⟩ := List.mem_flatMap.mp met
        rcases ih c child placed met scope around with around | ⟨n, below, opens⟩
        · rcases List.mem_append.mp around with opened | around
          · exact Or.inr ⟨root, root.mem_preorder_self, Option.mem_toList.mp opened⟩
          · exact Or.inl around
        · exact Or.inr ⟨n, mem_preorder_of_child child below, opens⟩

/-- What is met below a node is met under a scope that a node of the tree opens, or it is one of
    the own nodes of the root and under what is around the root. -/
theorem opened_or_own {root n : Node Site} (entered : n.isClassDecl = false) :
    ∀ {outer scopes : List Scope}, (scopes, n) ∈ root.tree.underScopes Scope.ofNode? outer →
      (∃ opener ∈ root.tree.preorder, ∃ scope, Scope.ofNode? opener = some scope ∧
        scopes.head? = some scope) ∨
      (scopes = outer ∧ n ∈ root.ownNodes ∧ (n = root ∨ Scope.ofNode? root = none)) := by
  induction root using Node.induct with
  | node root ih =>
      intro outer scopes met
      rw [underScopes_tree] at met
      rcases List.mem_cons.mp met with equal | met
      · obtain ⟨rfl, rfl⟩ := Prod.mk.inj equal
        exact Or.inr ⟨rfl, n.mem_ownNodes_self, Or.inl rfl⟩
      · obtain ⟨c, child, met⟩ := List.mem_flatMap.mp met
        rcases ih c child met with ⟨opener, below, opened⟩ | ⟨rfl, own, silent⟩
        · exact Or.inl ⟨opener, mem_preorder_of_child child below, opened⟩
        · cases opens : Scope.ofNode? root with
          | some scope => exact Or.inl ⟨root, root.mem_preorder_self, scope, opens, rfl⟩
          | none =>
              -- The child is entered: it is the node at hand, or it opens no scope.
              have plain : c.isClassDecl = false := by
                rcases silent with rfl | silent
                · exact entered
                · cases c <;> first | rfl | cases silent
              exact Or.inr ⟨rfl, mem_ownNodes.mpr (Or.inr ⟨c, child, plain, own⟩), Or.inr rfl⟩

end Node

/-- The nodes that a method body holds itself, type declarations in it apart. -/
def MethodDecl.bodyNodes (method : MethodDecl Site) : List (Node Site) :=
  match method.body with
  | none => []
  | some body => (Node.block body).ownNodes

theorem MethodDecl.mem_children_of_body {method : MethodDecl Site} {body : Block Site}
    (present : method.body = some body) :
    Node.block body ∈ (Node.method method).children := by
  refine List.mem_append_right _ ?_
  rw [present]
  exact List.mem_singleton.mpr rfl

/-- Own nodes of what a method body holds itself are held by it too. -/
theorem MethodDecl.mem_bodyNodes_trans {method : MethodDecl Site} {m n : Node Site}
    (held : n ∈ method.bodyNodes) (own : m ∈ n.ownNodes) : m ∈ method.bodyNodes := by
  unfold bodyNodes at held ⊢
  split at held
  · cases held
  · exact Node.ownNodes_trans own held

namespace LoadedUnit

variable {loaded : LoadedUnit}

/-- All nodes of a unit with the scopes around them. -/
def scopedNodes (loaded : LoadedUnit) : List (List Scope × Node Site) :=
  loaded.unit.tree.underScopes Scope.ofNode? []

theorem map_snd_scopedNodes (loaded : LoadedUnit) :
    loaded.scopedNodes.map Prod.snd = loaded.nodes :=
  Tree.map_snd_underScopes _ _ _

theorem mem_nodes_of_scoped {scopes : List Scope} {n : Node Site}
    (met : (scopes, n) ∈ loaded.scopedNodes) : n ∈ loaded.nodes := by
  rw [← map_snd_scopedNodes]
  exact List.mem_map_of_mem met

theorem exists_scopes {n : Node Site} (member : n ∈ loaded.nodes) :
    ∃ scopes, (scopes, n) ∈ loaded.scopedNodes := by
  rw [← map_snd_scopedNodes] at member
  obtain ⟨⟨scopes, m⟩, met, rfl⟩ := List.mem_map.mp member
  exact ⟨scopes, met⟩

/-- The methods around a node are nodes of the unit. -/
theorem mem_nodes_of_scope {scopes : List Scope} {n : Node Site} {method : MethodDecl Site}
    (met : (scopes, n) ∈ loaded.scopedNodes) (around : .method method ∈ scopes) :
    .method method ∈ loaded.nodes := by
  rcases @Node.exists_of_scope (.unit loaded.unit) [] _ met _ around with absurd |
    ⟨m, listed, opens⟩
  · cases absurd
  · cases m with
    | method decl =>
        obtain rfl := Scope.method.inj (Option.some.inj opens)
        exact listed
    | _ => cases opens

/-- A node lies under one list of scopes. -/
theorem Coherent.scopes_unique (coherent : loaded.Coherent) {scopes others : List Scope}
    {n : Node Site} (here : (scopes, n) ∈ loaded.scopedNodes)
    (there : (others, n) ∈ loaded.scopedNodes) :
    scopes = others := by
  have nodup : (loaded.scopedNodes.map Prod.snd).Nodup := by
    rw [map_snd_scopedNodes]
    exact coherent.nodup_numbers.of_map _
  exact congrArg Prod.fst (List.inj_on_of_nodup_map nodup here there rfl)

/-- What an inner node holds itself lies under the scopes that it lies under. -/
theorem mem_scopedNodes_of_own {scopes : List Scope} {m n : Node Site}
    (met : (scopes, n) ∈ loaded.scopedNodes) (inner : n.isInner) (own : m ∈ n.ownNodes) :
    (scopes, m) ∈ loaded.scopedNodes :=
  @Node.mem_underScopes_trans n (.unit loaded.unit) scopes [] _ met
    (Node.mem_underScopes_of_own inner own scopes)

theorem mem_scopedNodes_of_child {scopes : List Scope} {c m n : Node Site}
    (met : (scopes, n) ∈ loaded.scopedNodes) (child : c ∈ n.children) (inner : c.isInner)
    (own : m ∈ c.ownNodes) : ((Scope.ofNode? n).toList ++ scopes, m) ∈ loaded.scopedNodes := by
  have below : ((Scope.ofNode? n).toList ++ scopes, m) ∈
      n.tree.underScopes Scope.ofNode? scopes := by
    rw [Node.underScopes_tree]
    refine List.mem_cons_of_mem _ (List.mem_flatMap.mpr ⟨c, child, ?_⟩)
    exact Node.mem_underScopes_of_own inner own _
  have met' : (scopes, n) ∈ (Node.unit loaded.unit).tree.underScopes Scope.ofNode? [] := met
  exact Node.mem_underScopes_trans met' below

/-- The innermost scope of what a method body holds itself is the method. -/
theorem mem_scopedNodes_of_bodyNode {method : MethodDecl Site} {m : Node Site}
    (listed : .method method ∈ loaded.nodes) (held : m ∈ method.bodyNodes) :
    ∃ scopes, (.method method :: scopes, m) ∈ loaded.scopedNodes := by
  obtain ⟨scopes, met⟩ := exists_scopes listed
  unfold MethodDecl.bodyNodes at held
  split at held
  · cases held
  · next body present =>
      exact ⟨scopes, mem_scopedNodes_of_child met (method.mem_children_of_body present) rfl held⟩

theorem mem_nodes_of_bodyNode {method : MethodDecl Site} {m : Node Site}
    (listed : .method method ∈ loaded.nodes) (held : m ∈ method.bodyNodes) :
    m ∈ loaded.nodes := by
  obtain ⟨scopes, met⟩ := mem_scopedNodes_of_bodyNode listed held
  exact mem_nodes_of_scoped met

/-- A method is no part of its own body. -/
theorem Coherent.method_notMem_body (coherent : loaded.Coherent) {method : MethodDecl Site}
    {body : Block Site} (listed : .method method ∈ loaded.nodes)
    (present : method.body = some body) : .method method ∉ (Node.block body).tree.preorder := by
  have once := coherent.nodup_numbers_below listed
  rw [Node.preorder_tree, List.map_cons, List.nodup_cons] at once
  intro within
  refine once.1 (List.mem_map_of_mem (List.mem_flatMap.mpr ⟨_, ?_, within⟩))
  exact method.mem_children_of_body present

/-- What lies in the body of a method and has it as its innermost scope is held by the body
    itself. -/
theorem Coherent.mem_bodyNodes_of_scope (coherent : loaded.Coherent) {method : MethodDecl Site}
    {body : Block Site} {scopes : List Scope} {n : Node Site} (entered : n.isClassDecl = false)
    (listed : .method method ∈ loaded.nodes) (present : method.body = some body)
    (within : n ∈ (Node.block body).tree.preorder)
    (placed : (.method method :: scopes, n) ∈ loaded.scopedNodes) : n ∈ method.bodyNodes := by
  obtain ⟨around, met⟩ := exists_scopes listed
  rw [← Tree.map_snd_underScopes Scope.ofNode? _ (.method method :: around)] at within
  obtain ⟨⟨found, m⟩, inBody, same⟩ := List.mem_map.mp within
  obtain rfl : m = n := same
  have below : (found, m) ∈ (Node.method method).tree.underScopes Scope.ofNode? around := by
    rw [Node.underScopes_tree]
    exact List.mem_cons_of_mem _
      (List.mem_flatMap.mpr ⟨_, method.mem_children_of_body present, inBody⟩)
  have met' : (around, .method method) ∈
      (Node.unit loaded.unit).tree.underScopes Scope.ofNode? [] := met
  obtain rfl := coherent.scopes_unique placed (Node.mem_underScopes_trans met' below)
  rcases Node.opened_or_own entered inBody with ⟨opener, inside, scope, opens, head⟩ | ⟨-, own, -⟩
  · -- A method whose scope is opened inside its own body is a part of itself.
    obtain rfl := Option.some.inj head
    cases opener with
    | method decl =>
        obtain rfl := Scope.method.inj (Option.some.inj opens)
        exact absurd inside (coherent.method_notMem_body listed present)
    | _ => cases opens
  · unfold MethodDecl.bodyNodes
    rw [present]
    exact own

/-- The number is that of a node which the initializer of an indexed field holds itself. -/
def InitializerNumber (loaded : LoadedUnit) (number : Nat) : Prop :=
  ∃ key decl n, loaded.declarations.field? key = some decl ∧ n ∈ (Node.varDecl decl).ownNodes ∧
    n.number = number

/-- What has a method as its innermost scope lies in no initializer of a field. -/
theorem Coherent.not_initializerNumber_of_scope (coherent : loaded.Coherent)
    {method : MethodDecl Site} {scopes : List Scope} {m : Node Site}
    (inMethod : (.method method :: scopes, m) ∈ loaded.scopedNodes) :
    ¬ loaded.InitializerNumber m.number := by
  rintro ⟨key, decl, n, found, own, same⟩
  obtain ⟨c, classListed, field, -⟩ := coherent.field_of_field? found
  obtain ⟨others, met⟩ := exists_scopes classListed
  have inField := mem_scopedNodes_of_child met (c.mem_children_of_mem_fields field) rfl own
  obtain rfl := coherent.eq_of_number (mem_nodes_of_scoped inField) (mem_nodes_of_scoped inMethod)
    same
  have clash := coherent.scopes_unique inField inMethod
  simp [Scope.ofNode?] at clash

/-- What a method body holds itself lies in no initializer of a field. -/
theorem Coherent.not_initializerNumber (coherent : loaded.Coherent) {method : MethodDecl Site}
    {m : Node Site} (listed : .method method ∈ loaded.nodes) (held : m ∈ method.bodyNodes) :
    ¬ loaded.InitializerNumber m.number := by
  obtain ⟨scopes, inMethod⟩ := mem_scopedNodes_of_bodyNode listed held
  exact coherent.not_initializerNumber_of_scope inMethod

/-- The expression with a number that a method body holds itself. -/
def heldExpr? (method : MethodDecl Site) (number : Nat) : Option (Expr Site) :=
  (method.bodyNodes.filterMap Node.expr?).find? fun e => e.label.number = number

/-- What is found by evaluating a document, an indexed method and an expression in its body. -/
theorem exists_of_evaluated {document : UnitDocument} {key : String} {number : Nat}
    {check : LoadedUnit → MethodDecl Site → Expr Site → Bool}
    (evaluated : ((ofDocument document).toOption.bind fun loaded =>
      (loaded.declarations.method? key).bind fun method =>
        (heldExpr? method number).map (check loaded method)) = some true) :
    ∃ loaded method e, ofDocument document = .ok loaded ∧ .method method ∈ loaded.nodes ∧
      .expr e ∈ method.bodyNodes ∧ check loaded method e = true := by
  obtain ⟨loaded, made, indexed⟩ := exists_ok_of_toOption_bind evaluated
  obtain ⟨method, found, held⟩ := Option.bind_eq_some_iff.mp indexed
  obtain ⟨e, looked, checked⟩ := Option.map_eq_some_iff.mp held
  obtain ⟨n, inBody, same⟩ := List.mem_filterMap.mp (List.mem_of_find?_eq_some looked)
  refine ⟨loaded, method, e, made, (coherent_ofDocument made).mem_nodes_of_method? found, ?_,
    checked⟩
  cases n with
  | expr d =>
      obtain rfl := Option.some.inj same
      exact inBody
  | _ => cases same

end LoadedUnit

end BugPatterns
