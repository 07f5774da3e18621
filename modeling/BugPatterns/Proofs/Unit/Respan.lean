import BugPatterns.Proofs.Ast.Relabel
import BugPatterns.Proofs.Unit.Coherence

/-!
# Units with other spans

When the spans of a document are changed, so are those of the unit that is loaded from it, and
nothing else (`LoadedUnit.ofDocument_respan`): nodes keep their numbers, and the model takes no
notice of spans.
-/

namespace BugPatterns

/-- The site with another span. -/
def Site.respan (g : Span → Span) (site : Site) : Site := ⟨site.number, g site.span⟩

variable (g : Span → Span)

/-- The document with other spans. -/
def UnitDocument.respan (document : UnitDocument) : UnitDocument :=
  { document with tree := document.tree.relabel g }

/-- The declarations with other spans. -/
def Declarations.respan (found : Declarations) : Declarations where
  fields := found.fields.map fun (key, decl) => (key, decl.relabel (Site.respan g))
  methods := found.methods.map fun (key, decl) => (key, decl.relabel (Site.respan g))
  classes := found.classes.map fun (key, decl) => (key, decl.relabel (Site.respan g))

/-- The unit with other spans. -/
def LoadedUnit.respan (loaded : LoadedUnit) : LoadedUnit where
  unit := loaded.unit.relabel (Site.respan g)
  model := loaded.model
  declarations := loaded.declarations.respan g

variable {g}

/-- Numbers are given without a look at spans. -/
theorem CompilationUnit.numbered_relabel (unit : CompilationUnit Span) :
    (unit.relabel g).numbered = unit.numbered.relabel (Site.respan g) := by
  have natural (span : Span) : nextSite (g span) = Site.respan g <$> nextSite span := rfl
  rw [numbered, CompilationUnit.mapLabels_relabel natural]
  rfl

namespace Node

/-- The first node with so many nodes above it is found without a look at labels. -/
theorem firstBelow?_relabel {α β : Type} {f : α → β} (n : Node α) :
    ∀ levels, (n.relabel f).tree.firstBelow? levels =
      (n.tree.firstBelow? levels).map (relabel f) := by
  have all (levels : Nat) (ns : List (Node α))
      (each : ∀ n ∈ ns, (n.relabel f).tree.firstBelow? levels =
        (n.tree.firstBelow? levels).map (relabel f)) :
      Tree.firstBelowAll? levels ((ns.map (relabel f)).map Node.tree) =
        (Tree.firstBelowAll? levels (ns.map Node.tree)).map (relabel f) := by
    induction ns with
    | nil => rfl
    | cons n ns ih =>
        obtain ⟨here, rest⟩ := List.forall_mem_cons.mp each
        simp only [List.map_cons, Tree.firstBelowAll?, here, ih rest]
        cases n.tree.firstBelow? levels <;> rfl
  induction n using Node.induct with
  | node n ih =>
      intro levels
      rw [tree_eq (n.relabel f), tree_eq n, children_relabel]
      cases levels with
      | zero => rfl
      | succ levels => exact all levels n.children fun c child => ih c child levels

end Node

namespace Declarations

theorem insert_map {α β : Type} (f : α → β) (found : List (String × α)) (key : Option String)
    (decl : α) : insert (found.map fun (key, decl) => (key, f decl)) key (f decl) =
      (insert found key decl).map fun (key, decl) => (key, f decl) := by
  cases key <;> rfl

theorem lookup_map {α β : Type} (f : α → β) (key : String) (found : List (String × α)) :
    (found.map fun (key, decl) => (key, f decl)).lookup key = (found.lookup key).map f := by
  induction found with
  | nil => rfl
  | cons entry found ih =>
      obtain ⟨k, decl⟩ := entry
      simp only [List.map_cons, List.lookup_cons, ih]
      split <;> rfl

theorem field?_respan (found : Declarations) (key : String) :
    (found.respan g).field? key = (found.field? key).map (VarDecl.relabel (Site.respan g)) :=
  lookup_map _ key found.fields

theorem init_field?_respan (found : Declarations) (key : String) :
    ((found.respan g).field? key).bind (·.init) =
      ((found.field? key).bind (·.init)).map (Expr.relabel (Site.respan g)) := by
  rw [field?_respan]
  cases found.field? key with
  | none => rfl
  | some decl => exact congrArg VarDecl.init (VarDecl.relabel_eq _ decl)

theorem method?_respan (found : Declarations) (key : String) :
    (found.respan g).method? key = (found.method? key).map (MethodDecl.relabel (Site.respan g)) :=
  lookup_map _ key found.methods

theorem foldl_insert_map {α β : Type} (f : α → β) {symbol : α → Option String}
    {named : β → Option String} (same : ∀ decl, named (f decl) = symbol decl) (decls : List α) :
    ∀ found : List (String × α),
      (decls.map f).foldl (fun found decl => insert found (named decl) decl)
          (found.map fun (key, decl) => (key, f decl)) =
        (decls.foldl (fun found decl => insert found (symbol decl) decl) found).map
          fun (key, decl) => (key, f decl) := by
  induction decls with
  | nil => exact fun _ => rfl
  | cons decl decls ih =>
      intro found
      rw [List.map_cons, List.foldl_cons, List.foldl_cons, same, insert_map, ih]

theorem addNode_respan (found : Declarations) (n : Node Site) :
    (found.respan g).addNode (n.relabel (Site.respan g)) = (found.addNode n).respan g := by
  cases n with
  | classDecl decl =>
      have fields := foldl_insert_map (VarDecl.relabel (Site.respan g))
        (fun decl => congrArg VarDecl.symbol (VarDecl.relabel_eq _ decl)) decl.fields found.fields
      have methods := foldl_insert_map (MethodDecl.relabel (Site.respan g))
        (fun decl => congrArg MethodDecl.symbol (MethodDecl.relabel_eq _ decl)) decl.methods
        found.methods
      have classes := insert_map (ClassDecl.relabel (Site.respan g)) found.classes decl.symbol decl
      have symbol := congrArg ClassDecl.symbol (ClassDecl.relabel_eq (Site.respan g) decl)
      simp only [Node.relabel_classDecl, addNode, addClass, respan, ClassDecl.fields_relabel,
        ClassDecl.methods_relabel, fields, methods, classes, symbol]
  | _ => rfl

theorem ofUnit_respan (unit : CompilationUnit Site) :
    ofUnit (unit.relabel (Site.respan g)) = (ofUnit unit).respan g := by
  have all (nodes : List (Node Site)) : ∀ found : Declarations,
      (nodes.map (Node.relabel (Site.respan g))).foldl addNode (found.respan g) =
        (nodes.foldl addNode found).respan g := by
    induction nodes with
    | nil => exact fun _ => rfl
    | cons n nodes ih =>
        intro found
        rw [List.map_cons, List.foldl_cons, List.foldl_cons, addNode_respan, ih]
  rw [ofUnit, CompilationUnit.preorder_relabel]
  exact all unit.tree.preorder empty

end Declarations

namespace LoadedUnit

variable {loaded : LoadedUnit}

@[simp] theorem model_respan : (loaded.respan g).model = loaded.model := rfl

theorem file_respan : (loaded.respan g).file = loaded.file := by
  rw [file, respan, CompilationUnit.relabel_eq]
  rfl

theorem nodes_respan :
    (loaded.respan g).nodes = loaded.nodes.map (Node.relabel (Site.respan g)) :=
  loaded.unit.preorder_relabel _

@[simp] theorem typeOf_respan (e : Expr Site) :
    (loaded.respan g).typeOf (e.relabel (Site.respan g)) = loaded.typeOf e := by
  rw [typeOf, Expr.type_relabel]
  rfl

@[simp] theorem symbolOf_respan (e : Expr Site) :
    (loaded.respan g).symbolOf (e.relabel (Site.respan g)) = loaded.symbolOf e := by
  rw [symbolOf, Expr.symbol_relabel]
  rfl

theorem classSymbol_respan (decl : ClassDecl Site) :
    (loaded.respan g).classSymbol (decl.relabel (Site.respan g)) = loaded.classSymbol decl := by
  rw [classSymbol, ClassDecl.relabel_eq]
  rfl

theorem mentionedType_respan (n : Node Site) :
    mentionedType (n.relabel (Site.respan g)) = mentionedType n := by
  cases n with
  | expr e => exact e.type_relabel
  | varDecl decl =>
      rw [Node.relabel_varDecl, VarDecl.relabel_eq]
      rfl
  | _ => rfl

theorem internMentioned_respan (model : Model) (unit : CompilationUnit Site) :
    internMentioned model (unit.relabel (Site.respan g)) = internMentioned model unit := by
  rw [internMentioned, CompilationUnit.preorder_relabel, List.filterMap_map, internMentioned]
  congr 2
  funext n
  exact mentionedType_respan n

/-- From a document with other spans the unit with other spans is loaded. -/
theorem ofDocument_respan {document : UnitDocument} (made : ofDocument document = .ok loaded) :
    ofDocument (document.respan g) = .ok (loaded.respan g) := by
  unfold ofDocument at made ⊢
  simp only [UnitDocument.respan]
  cases modelled : Model.load document.model with
  | error cause =>
      rw [modelled] at made
      cases made
  | ok model =>
      rw [modelled] at made
      have shallow : (document.tree.relabel g).numbered.tree.firstBelow? maxNesting =
          (document.tree.numbered.tree.firstBelow? maxNesting).map
            (Node.relabel (Site.respan g)) := by
        rw [CompilationUnit.numbered_relabel]
        exact Node.firstBelow?_relabel (.unit document.tree.numbered) maxNesting
      simp only [ofTree] at made ⊢
      rw [shallow]
      cases nested : document.tree.numbered.tree.firstBelow? maxNesting with
      | some n =>
          rw [nested] at made
          cases made
      | none =>
          rw [nested] at made
          obtain rfl := Except.ok.inj made
          simp only [Option.map_none, CompilationUnit.numbered_relabel, internMentioned_respan,
            Declarations.ofUnit_respan]
          rfl

end LoadedUnit

end BugPatterns
