import BugPatterns.Proofs.Ast.Renumber
import BugPatterns.Proofs.Model.Loaded
import BugPatterns.Proofs.Unit.Respan
import BugPatterns.Proofs.Unit.Scopes

/-!
# Loaded units without added parentheses

When parentheses were added to the tree of a document, taking them out of the unit that is loaded
from it gives the unit that is loaded from the document without them, up to the numbers of its
nodes (`LoadedUnit.ofDocument_unwrap`). The model is the same: added parentheses mention a type
right before what they enclose mentions it again. The nodes that were not added lie under the same
scopes (`LoadedUnit.scopedNodes_unwrap`).
-/

namespace BugPatterns

variable {added : Site → Bool} {r : Nat → Nat}

/-- The declarations without added parentheses. -/
def Declarations.unwrap (added : Site → Bool) (r : Nat → Nat) (found : Declarations) :
    Declarations where
  fields := found.fields.map fun (key, decl) => (key, decl.unwrap added (Site.renumber r))
  methods := found.methods.map fun (key, decl) => (key, decl.unwrap added (Site.renumber r))
  classes := found.classes.map fun (key, decl) => (key, decl.unwrap added (Site.renumber r))

/-- The unit without added parentheses, its other nodes with new numbers. -/
def LoadedUnit.unwrap (added : Site → Bool) (r : Nat → Nat) (loaded : LoadedUnit) : LoadedUnit where
  unit := loaded.unit.unwrap added (Site.renumber r)
  model := loaded.model
  declarations := loaded.declarations.unwrap added r

/-- Some parentheses of `wrapped` were added to the tree of `document`; otherwise the documents are
    the same. A pair of parentheses is known by its place in the tree. -/
structure UnitDocument.AddsParens (document wrapped : UnitDocument) (added : Site → Bool) :
    Prop where
  wraps : wrapped.tree.numbered.Wraps added
  tree : document.tree = wrapped.tree.numbered.unwrap added Site.span
  model : document.model = wrapped.model

namespace Declarations

theorem field?_unwrap (found : Declarations) (key : String) :
    (found.unwrap added r).field? key =
      (found.field? key).map (VarDecl.unwrap added (Site.renumber r)) :=
  lookup_map _ key found.fields

theorem init_field?_unwrap (found : Declarations) (key : String) :
    ((found.unwrap added r).field? key).bind (·.init) =
      ((found.field? key).bind (·.init)).map (Expr.unwrap added (Site.renumber r)) := by
  rw [field?_unwrap]
  cases found.field? key with
  | none => rfl
  | some decl =>
      obtain ⟨label, name, symbol, type, init⟩ := decl
      exact Expr.unwrapOption_eq_map init

theorem method?_unwrap (found : Declarations) (key : String) :
    (found.unwrap added r).method? key =
      (found.method? key).map (MethodDecl.unwrap added (Site.renumber r)) :=
  lookup_map _ key found.methods

theorem addNode_unwrap (found : Declarations) (n : Node Site) :
    (found.unwrap added r).addNode (n.unwrap added (Site.renumber r)) =
      (found.addNode n).unwrap added r := by
  cases n with
  | classDecl decl =>
      have fields := foldl_insert_map (VarDecl.unwrap added (Site.renumber r))
        VarDecl.symbol_unwrap decl.fields found.fields
      have methods := foldl_insert_map (MethodDecl.unwrap added (Site.renumber r))
        MethodDecl.symbol_unwrap decl.methods found.methods
      have classes := insert_map (ClassDecl.unwrap added (Site.renumber r)) found.classes
        decl.symbol decl
      simp only [Node.unwrap, addNode, addClass, unwrap, ClassDecl.fields_unwrap,
        ClassDecl.methods_unwrap, fields, methods, classes, ClassDecl.symbol_unwrap]
  | _ => rfl

/-- The declarations are those of the tree: parentheses declare nothing. -/
theorem ofUnit_unwrap (unit : CompilationUnit Site) :
    ofUnit (unit.unwrap added (Site.renumber r)) = (ofUnit unit).unwrap added r := by
  have all (nodes : List (Node Site)) : ∀ found : Declarations,
      ((nodes.filter fun n => !n.isAdded added).map (Node.unwrap added (Site.renumber r))).foldl
          addNode (found.unwrap added r) = (nodes.foldl addNode found).unwrap added r := by
    induction nodes with
    | nil => exact fun _ => rfl
    | cons n nodes ih =>
        intro found
        cases marked : n.isAdded added with
        | true =>
            obtain ⟨label, inner, type, rfl, -⟩ := Node.exists_of_isAdded marked
            rw [List.filter_cons_of_neg (by simp [marked])]
            exact ih found
        | false =>
            rw [List.filter_cons_of_pos (by simp [marked]), List.map_cons, List.foldl_cons,
              List.foldl_cons, addNode_unwrap, ih]
  rw [ofUnit, CompilationUnit.preorder_unwrap]
  exact all unit.tree.preorder empty

end Declarations

namespace Model

theorem internAll_append (model : Model) (names others : List String) :
    model.internAll (names ++ others) = (model.internAll names).internAll others :=
  List.foldl_append

/-- A name that has just been interned is there. -/
theorem Sound.internAll_cons_cons {model : Model} (sound : model.Sound) (name : String)
    (names : List String) :
    model.internAll (name :: name :: names) = model.internAll (name :: names) := by
  have again := intern_of_type? (sound.intern name).2
  simp only [Model.internAll, List.foldl_cons, again]

end Model

namespace LoadedUnit

open Model

theorem mentionedType_unwrap {n : Node Site} (kept : n.isAdded added = false) :
    mentionedType (n.unwrap added (Site.renumber r)) = mentionedType n := by
  cases n with
  | expr e =>
      cases e with
      | paren label inner type =>
          have here : added label = false := kept
          rw [Node.unwrap_expr, Expr.unwrap_of_kept here]
          rfl
      | _ => rfl
  | varDecl decl =>
      show (decl.unwrap added _).type = decl.type
      rw [VarDecl.unwrap_eq]
  | _ => rfl

/-- The types that the nodes at and below a node mention, in the order of the walk. -/
def mentionedBelow (n : Node Site) : List String := n.tree.preorder.filterMap mentionedType

theorem mentionedBelow_eq (n : Node Site) :
    mentionedBelow n = (mentionedType n).toList ++ n.children.flatMap mentionedBelow := by
  unfold mentionedBelow
  rw [Node.preorder_tree, List.filterMap_cons, List.filterMap_flatMap]
  cases mentionedType n <;> rfl

theorem internAll_flatMap {model : Model} (sound : model.Sound) {α β : Type} {items : List α}
    {names : α → List String} {others : β → List String} {f : α → β}
    (same : ∀ a ∈ items, ∀ {model : Model}, model.Sound →
      model.internAll (others (f a)) = model.internAll (names a)) :
    model.internAll ((items.map f).flatMap others) = model.internAll (items.flatMap names) := by
  induction items generalizing model with
  | nil => rfl
  | cons a items ih =>
      rw [List.map_cons, List.flatMap_cons, List.flatMap_cons, internAll_append, internAll_append,
        same a List.mem_cons_self sound]
      exact ih (sound.internAll _).sound fun b member => same b (List.mem_cons_of_mem _ member)

/-- Added parentheses mention the type that what they enclose mentions next. -/
theorem internAll_unwrap {n : Node Site}
    (typed : ∀ label inner type, .expr (.paren label inner type) ∈ n.tree.preorder →
      added label = true → inner.type = type) : ∀ {model : Model}, model.Sound →
    model.internAll (mentionedBelow (n.unwrap added (Site.renumber r))) =
      model.internAll (mentionedBelow n) := by
  induction n using Node.induct with
  | node n ih =>
      intro model sound
      have below (c : Node Site) (child : c ∈ n.children) {model : Model} (sound : model.Sound) :=
        ih c child (fun label inner type inside =>
          typed label inner type (Node.mem_preorder_of_child child inside)) sound
      cases marked : n.isAdded added with
      | true =>
          obtain ⟨label, inner, type, rfl, here⟩ := Node.exists_of_isAdded marked
          have same : inner.type = type := typed label inner type (Node.mem_preorder_self _) here
          have enclosed := below (.expr inner) List.mem_cons_self sound
          rw [Node.unwrap_expr, Expr.unwrap_of_added here, ← Node.unwrap_expr, enclosed,
            mentionedBelow_eq (.expr (.paren label inner type))]
          have only : (Node.expr (.paren label inner type)).children = [.expr inner] := rfl
          have mentioned : mentionedType (.expr (.paren label inner type)) = inner.type := same.symm
          rw [only, mentioned, List.flatMap_singleton, mentionedBelow_eq (.expr inner)]
          have mentioned : mentionedType (.expr inner) = inner.type := rfl
          rw [mentioned]
          cases inner.type with
          | none => rfl
          | some name => exact (sound.internAll_cons_cons name _).symm
      | false =>
          rw [mentionedBelow_eq, mentionedBelow_eq n, mentionedType_unwrap marked,
            Node.children_unwrap marked, internAll_append, internAll_append]
          exact internAll_flatMap (sound.internAll _).sound below

/-- The model is the same with and without added parentheses. -/
theorem internMentioned_unwrap {model : Model} (sound : model.Sound)
    {unit : CompilationUnit Site} (wraps : unit.Wraps added) :
    internMentioned model (unit.unwrap added (Site.renumber r)) = internMentioned model unit :=
  @internAll_unwrap added r (.unit unit) wraps.type model sound

/-- Without the added parentheses the unit is loaded that has the same nodes apart from them, and
    new numbers. -/
theorem ofDocument_unwrap {document wrapped : UnitDocument} {loaded loadedWrapped : LoadedUnit}
    (adds : document.AddsParens wrapped added) (made : ofDocument document = .ok loaded)
    (madeWrapped : ofDocument wrapped = .ok loadedWrapped) :
    loadedWrapped.unit.Wraps added ∧
      ∃ r : Nat → Nat, Function.Injective r ∧ loaded = loadedWrapped.unwrap added r := by
  have unit := unit_ofDocument made
  have unitWrapped := unit_ofDocument madeWrapped
  obtain ⟨model, modelled, interned⟩ := model_ofDocument made
  obtain ⟨modelWrapped, modelledWrapped, internedWrapped⟩ := model_ofDocument madeWrapped
  obtain ⟨r, injective, numbered⟩ := wrapped.tree.exists_renumbering added
  rw [adds.tree, numbered, ← unitWrapped] at unit
  rw [adds.model, modelledWrapped] at modelled
  obtain rfl := Except.ok.inj modelled
  have wraps : loadedWrapped.unit.Wraps added := unitWrapped ▸ adds.wraps
  have same : loaded.model = loadedWrapped.model := by
    rw [interned, internedWrapped, unit]
    exact internMentioned_unwrap (sound_of_load modelledWrapped).1 wraps
  have declared : loaded.declarations = loadedWrapped.declarations.unwrap added r := by
    rw [(coherent_ofDocument made).declarations, (coherent_ofDocument madeWrapped).declarations,
      unit, Declarations.ofUnit_unwrap]
  refine ⟨wraps, r, injective, ?_⟩
  obtain ⟨loadedUnit, loadedModel, declarations⟩ := loaded
  simp only at unit same declared
  rw [unit, same, declared]
  rfl

end LoadedUnit

/-- The scope without added parentheses. -/
def Scope.unwrap (added : Site → Bool) (r : Nat → Nat) : Scope → Scope
  | .classDecl decl => .classDecl (decl.unwrap added (Site.renumber r))
  | .method decl => .method (decl.unwrap added (Site.renumber r))

theorem Scope.ofNode?_unwrap (n : Node Site) :
    ofNode? (n.unwrap added (Site.renumber r)) = (ofNode? n).map (unwrap added r) := by
  cases n <;> rfl

theorem Scope.method?_unwrap (scope : Scope) :
    (scope.unwrap added r).method? =
      scope.method?.map (MethodDecl.unwrap added (Site.renumber r)) := by
  cases scope <;> rfl

/-- The node and the scopes around it without added parentheses. -/
def unwrapPlaced (added : Site → Bool) (r : Nat → Nat) (placed : List Scope × Node Site) :
    List Scope × Node Site :=
  (placed.1.map (Scope.unwrap added r), placed.2.unwrap added (Site.renumber r))

/-- The nodes that were not added lie under the same scopes. -/
theorem Node.underScopes_unwrap (n : Node Site) : ∀ scopes : List Scope,
    (n.unwrap added (Site.renumber r)).tree.underScopes Scope.ofNode?
        (scopes.map (Scope.unwrap added r)) =
      ((n.tree.underScopes Scope.ofNode? scopes).filter fun placed =>
        !placed.2.isAdded added).map (unwrapPlaced added r) := by
  induction n using Node.induct with
  | node n ih =>
      intro scopes
      cases marked : n.isAdded added with
      | true =>
          obtain ⟨label, inner, type, rfl, here⟩ := exists_of_isAdded marked
          have below := ih (.expr inner) List.mem_cons_self scopes
          rw [underScopes_tree _ _ (.expr (.paren label inner type)),
            List.filter_cons_of_neg (by simp [marked])]
          simpa [unwrap_expr, Expr.unwrap_of_added here, children, exprChildren, Scope.ofNode?]
            using below
      | false =>
          have opened : (Scope.ofNode? (n.unwrap added (Site.renumber r))).toList ++
              scopes.map (Scope.unwrap added r) =
                ((Scope.ofNode? n).toList ++ scopes).map (Scope.unwrap added r) := by
            rw [Scope.ofNode?_unwrap, Option.toList_map, List.map_append]
          rw [underScopes_tree, underScopes_tree, children_unwrap marked, List.flatMap_map, opened,
            List.filter_cons_of_pos (by simp [marked]), List.map_cons, List.filter_flatMap,
            List.map_flatMap]
          exact congrArg _ (List.flatMap_congr fun c child => ih c child _)

theorem LoadedUnit.scopedNodes_unwrap (loaded : LoadedUnit) :
    (loaded.unwrap added r).scopedNodes =
      (loaded.scopedNodes.filter fun placed => !placed.2.isAdded added).map
        (unwrapPlaced added r) :=
  Node.underScopes_unwrap (.unit loaded.unit) []

end BugPatterns
