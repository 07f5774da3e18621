import BugPatterns.Proofs.Ast.AsParens
import BugPatterns.Proofs.Unit.Unwrap

/-!
# Loaded units with added casts

Casts that were added to the tree of a document are taken out in two steps: they become parentheses,
and these are taken out. The first step changes no label, so it leads to a coherent unit
(`LoadedUnit.Coherent.asParens`); the second one leads to the unit that is loaded from the document
without the casts (`LoadedUnit.ofDocument_asParens`).
-/

namespace BugPatterns

variable {added : Site → Bool} {loaded : LoadedUnit}

/-- The unit without the marked casts: as parentheses they are taken out. -/
def CompilationUnit.uncast {α β : Type} (marked : α → Bool) (f : α → β) (unit : CompilationUnit α) :
    CompilationUnit β :=
  (unit.asParens marked).unwrap marked f

/-- The expression without the marked casts. -/
def Expr.uncast {α β : Type} (marked : α → Bool) (f : α → β) (e : Expr α) : Expr β :=
  (e.asParens marked).unwrap marked f

/-- The method without the marked casts. -/
def MethodDecl.uncast {α β : Type} (marked : α → Bool) (f : α → β) (decl : MethodDecl α) :
    MethodDecl β :=
  (decl.asParens marked).unwrap marked f

/-- Added casts carry the type of what they are applied to. Neither a callee nor the target of an
    assignment is an added cast, and nothing else is marked as one. -/
def Node.castsWell {α : Type} (added : α → Bool) : Node α → Bool
  | .expr (.cast label operand type) => !added label || operand.type = type
  | .expr (.paren label _ _) => !added label
  | .expr (.call _ callee _ _ _) => !callee.isMarkedCast added
  | .expr (.assign _ _ target _ _) => !target.isMarkedCast added
  | _ => true

/-- The marked casts can have been added to a unit. -/
def CompilationUnit.Casts {α : Type} (unit : CompilationUnit α) (added : α → Bool) : Prop :=
  ∀ n ∈ unit.tree.preorder, n.castsWell added = true

instance {α : Type} (unit : CompilationUnit α) (added : α → Bool) : Decidable (unit.Casts added) :=
  inferInstanceAs (Decidable (∀ n ∈ unit.tree.preorder, n.castsWell added = true))

/-- Some casts of `wrapped` were added to the tree of `document`; otherwise the documents are the
    same. A cast is known by its place in the tree. -/
structure UnitDocument.AddsCasts (document wrapped : UnitDocument) (added : Site → Bool) :
    Prop where
  casts : wrapped.tree.numbered.Casts added
  tree : document.tree = wrapped.tree.numbered.uncast added Site.span
  model : document.model = wrapped.model

namespace CompilationUnit.Casts

variable {unit : CompilationUnit Site} {e : Expr Site}

/-- Only casts are marked. -/
theorem isAdded_asParens (casts : unit.Casts added) (inUnit : .expr e ∈ unit.tree.preorder) :
    (e.asParens added).isAdded added = e.isMarkedCast added := by
  cases e with
  | paren label inner type =>
      have kept : added label = false := by simpa [Node.castsWell] using casts _ inUnit
      exact kept
  | cast label operand type =>
      cases here : added label with
      | true => rw [Expr.asParens_of_marked here]; rfl
      | false =>
          rw [Expr.asParens_of_kept here]
          exact here.symm
  | _ => rfl

/-- As parentheses the added casts can have been added. -/
theorem wraps (casts : unit.Casts added) : (unit.asParens added).Wraps added := by
  intro n member
  rw [CompilationUnit.preorder_asParens] at member
  obtain ⟨m, inUnit, rfl⟩ := List.mem_map.mp member
  have well := casts m inUnit
  cases m with
  | expr e =>
      cases e with
      | paren label inner type =>
          have kept : added label = false := by simpa [Node.castsWell] using well
          simp [Expr.asParens, Node.wrapsWell, kept]
      | cast label operand type =>
          cases here : added label with
          | true =>
              have same : operand.type = type := by simpa [Node.castsWell, here] using well
              simp [Expr.asParens_of_marked here, Node.wrapsWell, same]
          | false => rw [Node.asParens_expr, Expr.asParens_of_kept here]; rfl
      | call label callee args symbol type =>
          have direct : callee.isMarkedCast added = false := by simpa [Node.castsWell] using well
          have calleeInUnit : .expr callee ∈ unit.tree.preorder :=
            Node.mem_preorder_trans (n := .unit unit)
              (Node.mem_preorder_of_child List.mem_cons_self (Node.mem_preorder_self _)) inUnit
          simp [Expr.asParens, Node.wrapsWell, casts.isAdded_asParens calleeInUnit, direct]
      | _ => rfl
  | _ => rfl

end CompilationUnit.Casts

/-- The declarations with the added casts as parentheses. -/
def Declarations.asParens (added : Site → Bool) (found : Declarations) : Declarations where
  fields := found.fields.map fun (key, decl) => (key, decl.asParens added)
  methods := found.methods.map fun (key, decl) => (key, decl.asParens added)
  classes := found.classes.map fun (key, decl) => (key, decl.asParens added)

/-- The unit with the added casts as parentheses. -/
def LoadedUnit.asParens (added : Site → Bool) (loaded : LoadedUnit) : LoadedUnit where
  unit := loaded.unit.asParens added
  model := loaded.model
  declarations := loaded.declarations.asParens added

/-- The unit without the added casts. -/
def LoadedUnit.uncast (added : Site → Bool) (r : Nat → Nat) (loaded : LoadedUnit) : LoadedUnit :=
  (loaded.asParens added).unwrap added r

namespace Declarations

theorem init_field?_asParens (found : Declarations) (key : String) :
    ((found.asParens added).field? key).bind (·.init) =
      ((found.field? key).bind (·.init)).map (Expr.asParens added) := by
  have looked : (found.asParens added).field? key =
      (found.field? key).map (VarDecl.asParens added) := lookup_map _ key found.fields
  rw [looked]
  cases found.field? key with
  | none => rfl
  | some decl => exact congrArg VarDecl.init decl.asParens_eq

theorem method?_asParens (found : Declarations) (key : String) :
    (found.asParens added).method? key = (found.method? key).map (MethodDecl.asParens added) :=
  lookup_map _ key found.methods

theorem addNode_asParens (found : Declarations) (n : Node Site) :
    (found.asParens added).addNode (n.asParens added) = (found.addNode n).asParens added := by
  cases n with
  | classDecl decl =>
      have fields := foldl_insert_map (VarDecl.asParens added) VarDecl.symbol_asParens decl.fields
        found.fields
      have methods := foldl_insert_map (MethodDecl.asParens added) MethodDecl.symbol_asParens
        decl.methods found.methods
      have classes := insert_map (ClassDecl.asParens added) found.classes decl.symbol decl
      simp only [Node.asParens, addNode, addClass, asParens, ClassDecl.fields_asParens,
        ClassDecl.methods_asParens, fields, methods, classes, ClassDecl.symbol_asParens]
  | _ => rfl

/-- The declarations are those of the tree. -/
theorem ofUnit_asParens (unit : CompilationUnit Site) :
    ofUnit (unit.asParens added) = (ofUnit unit).asParens added := by
  have all (nodes : List (Node Site)) : ∀ found : Declarations,
      (nodes.map (Node.asParens added)).foldl addNode (found.asParens added) =
        (nodes.foldl addNode found).asParens added := by
    induction nodes with
    | nil => exact fun _ => rfl
    | cons n nodes ih =>
        intro found
        rw [List.map_cons, List.foldl_cons, List.foldl_cons, addNode_asParens, ih]
  rw [ofUnit, CompilationUnit.preorder_asParens]
  exact all unit.tree.preorder empty

end Declarations

/-- The scope with the added casts as parentheses. -/
def Scope.asParens (added : Site → Bool) : Scope → Scope
  | .classDecl decl => .classDecl (decl.asParens added)
  | .method decl => .method (decl.asParens added)

theorem Scope.ofNode?_asParens (n : Node Site) :
    ofNode? (n.asParens added) = (ofNode? n).map (asParens added) := by
  cases n <;> rfl

/-- The node and the scopes around it without the added casts. -/
def uncastPlaced (added : Site → Bool) (r : Nat → Nat) (placed : List Scope × Node Site) :
    List Scope × Node Site :=
  unwrapPlaced added r (placed.1.map (Scope.asParens added), placed.2.asParens added)

/-- The nodes lie under the same scopes. -/
theorem Node.underScopes_asParens (n : Node Site) : ∀ scopes : List Scope,
    (n.asParens added).tree.underScopes Scope.ofNode? (scopes.map (Scope.asParens added)) =
      (n.tree.underScopes Scope.ofNode? scopes).map fun placed =>
        (placed.1.map (Scope.asParens added), placed.2.asParens added) := by
  induction n using Node.induct with
  | node n ih =>
      intro scopes
      have opened : (Scope.ofNode? (n.asParens added)).toList ++
          scopes.map (Scope.asParens added) =
            ((Scope.ofNode? n).toList ++ scopes).map (Scope.asParens added) := by
        rw [Scope.ofNode?_asParens, Option.toList_map, List.map_append]
      rw [underScopes_tree, underScopes_tree, children_asParens, List.flatMap_map, opened,
        List.map_cons, List.map_flatMap]
      exact congrArg _ (List.flatMap_congr fun c child => ih c child _)

namespace LoadedUnit

theorem nodes_asParens (loaded : LoadedUnit) :
    (loaded.asParens added).nodes = loaded.nodes.map (Node.asParens added) :=
  loaded.unit.preorder_asParens

theorem scopedNodes_asParens (loaded : LoadedUnit) :
    (loaded.asParens added).scopedNodes = loaded.scopedNodes.map fun placed =>
      (placed.1.map (Scope.asParens added), placed.2.asParens added) :=
  Node.underScopes_asParens (.unit loaded.unit) []

theorem mentionedType_asParens (n : Node Site) :
    mentionedType (n.asParens added) = mentionedType n := by
  cases n with
  | expr e => exact e.type_asParens
  | varDecl decl =>
      show (decl.asParens added).type = decl.type
      rw [VarDecl.asParens_eq]
  | _ => rfl

/-- The model is the same with the casts as parentheses. -/
theorem internMentioned_asParens (model : Model) (unit : CompilationUnit Site) :
    internMentioned model (unit.asParens added) = internMentioned model unit := by
  unfold internMentioned
  rw [CompilationUnit.preorder_asParens, List.filterMap_map]
  simp only [Function.comp_def, mentionedType_asParens]

/-- With the casts as parentheses a unit is still coherent. -/
theorem Coherent.asParens (coherent : loaded.Coherent) : (loaded.asParens added).Coherent where
  numbers := by
    have number (n : Node Site) : (n.asParens added).number = n.number := by
      rw [Node.number, Node.number, Node.label?_asParens]
    rw [nodes_asParens, List.map_map, List.length_map, ← coherent.numbers]
    exact List.map_congr_left fun n _ => number n
  keys := coherent.keys
  declarations := by
    show loaded.declarations.asParens added = .ofUnit (loaded.unit.asParens added)
    rw [Declarations.ofUnit_asParens, coherent.declarations]

/-- Without the added casts the unit is loaded that has the same nodes apart from them, and new
    numbers. -/
theorem ofDocument_asParens {document wrapped : UnitDocument} {loaded loadedWrapped : LoadedUnit}
    (adds : document.AddsCasts wrapped added) (made : ofDocument document = .ok loaded)
    (madeWrapped : ofDocument wrapped = .ok loadedWrapped) :
    loadedWrapped.unit.Casts added ∧
      ∃ r : Nat → Nat, Function.Injective r ∧
        loaded = loadedWrapped.uncast added r := by
  have unit := unit_ofDocument made
  have unitWrapped := unit_ofDocument madeWrapped
  obtain ⟨model, modelled, interned⟩ := model_ofDocument made
  obtain ⟨modelWrapped, modelledWrapped, internedWrapped⟩ := model_ofDocument madeWrapped
  have coherent : (loadedWrapped.asParens added).Coherent :=
    (coherent_ofDocument madeWrapped).asParens
  obtain ⟨r, injective, numbered⟩ :=
    (loadedWrapped.asParens added).unit.exists_renumbering_of_places coherent.numbers added
  have unitParens : (loadedWrapped.asParens added).unit =
      wrapped.tree.numbered.asParens added := by
    rw [← unitWrapped]
    rfl
  rw [adds.tree, CompilationUnit.uncast, ← unitParens, numbered] at unit
  rw [adds.model, modelledWrapped] at modelled
  obtain rfl := Except.ok.inj modelled
  have casts : loadedWrapped.unit.Casts added := unitWrapped ▸ adds.casts
  have same : loaded.model = loadedWrapped.model := by
    have unwrapped := internMentioned_unwrap (r := r) (Model.sound_of_load modelledWrapped).1
      casts.wraps
    rw [internMentioned_asParens] at unwrapped
    rw [interned, internedWrapped, unit]
    exact unwrapped
  have declared : loaded.declarations =
      (loadedWrapped.asParens added).declarations.unwrap added r := by
    rw [(coherent_ofDocument made).declarations, coherent.declarations, unit,
      Declarations.ofUnit_unwrap]
  refine ⟨casts, r, injective, ?_⟩
  obtain ⟨loadedUnit, loadedModel, declarations⟩ := loaded
  simp only at unit same declared
  rw [unit, same, declared]
  rfl

/-- The nodes that are no added casts lie under the same scopes. -/
theorem scopedNodes_uncast (casts : loaded.unit.Casts added) {r : Nat → Nat} :
    (loaded.uncast added r).scopedNodes =
      (loaded.scopedNodes.filter fun placed => !placed.2.isMarkedCast added).map
        (uncastPlaced added r) := by
  have kept : ∀ placed ∈ loaded.scopedNodes,
      (!(placed.2.asParens added).isAdded added) = !placed.2.isMarkedCast added := by
    intro placed met
    cases inner : placed.2 with
    | expr e =>
        have inUnit : .expr e ∈ loaded.nodes := inner ▸ mem_nodes_of_scoped met
        exact congrArg not (casts.isAdded_asParens inUnit)
    | _ => rfl
  rw [uncast, scopedNodes_unwrap, scopedNodes_asParens, List.filter_map, List.map_map]
  simp only [Function.comp_def]
  rw [List.filter_congr kept]
  rfl

end LoadedUnit

end BugPatterns
