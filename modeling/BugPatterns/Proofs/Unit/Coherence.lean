import BugPatterns.Proofs.Model.Keys
import BugPatterns.Proofs.Numbering
import BugPatterns.Proofs.Unit.Declared
import BugPatterns.Unit.Load
import Mathlib.Data.List.Nodup

/-!
# Loaded units are coherent

What loading establishes is kept in one place (`LoadedUnit.Coherent`): the nodes are numbered by
their positions, the model looks symbols up by their keys, and the declarations are those of the
tree. Everything that is proved about loaded units starts from these facts.
-/

namespace BugPatterns

namespace ClassDecl

variable {α : Type}

theorem mem_children_of_mem_fields {decl : ClassDecl α} {field : VarDecl α}
    (member : field ∈ decl.fields) : Node.varDecl field ∈ (Node.classDecl decl).children := by
  exact List.mem_map_of_mem (f := Node.ofMember) (mem_fields.mp member)

theorem mem_children_of_mem_methods {decl : ClassDecl α} {method : MethodDecl α}
    (member : method ∈ decl.methods) : Node.method method ∈ (Node.classDecl decl).children := by
  exact List.mem_map_of_mem (f := Node.ofMember) (mem_methods.mp member)

end ClassDecl

namespace LoadedUnit

/-- What holds of a unit once it is loaded. -/
structure Coherent (loaded : LoadedUnit) : Prop where
  numbers : loaded.nodes.map Node.number = List.range loaded.nodes.length
  keys : loaded.model.KeysAgree
  declarations : loaded.declarations = .ofUnit loaded.unit

theorem growsTo_internMentioned (model : Model) (unit : CompilationUnit Site) :
    Model.GrowsTo model (internMentioned model unit) :=
  Model.growsTo_foldl (fun model name => .single (.intern model name)) _ model

/-- What is made ready is the tree with its nodes numbered, and the model with the types that these
    mention. -/
theorem eq_of_ofTree {tree : CompilationUnit Span} {model : Model} {loaded : LoadedUnit}
    (made : ofTree tree model = .ok loaded) :
    loaded = ⟨tree.numbered, internMentioned model tree.numbered, .ofUnit tree.numbered⟩ := by
  unfold ofTree at made
  simp only at made
  split at made
  · cases made
  · cases made
    rfl

theorem coherent_ofTree {tree : CompilationUnit Span} {model : Model} {loaded : LoadedUnit}
    (keys : model.KeysAgree) (made : ofTree tree model = .ok loaded) : loaded.Coherent := by
  obtain rfl := eq_of_ofTree made
  exact {
    numbers := CompilationUnit.map_number_numbered tree
    keys := keys.growsTo (growsTo_internMentioned _ _)
    declarations := rfl }

/-- The unit that is loaded is the tree of the document with its nodes numbered. -/
theorem unit_ofDocument {document : UnitDocument} {loaded : LoadedUnit}
    (made : ofDocument document = .ok loaded) : loaded.unit = document.tree.numbered := by
  unfold ofDocument at made
  split at made
  · cases made
  · rw [eq_of_ofTree made]

/-- Loading establishes coherence. -/
theorem coherent_ofDocument {document : UnitDocument} {loaded : LoadedUnit}
    (made : ofDocument document = .ok loaded) : loaded.Coherent := by
  unfold ofDocument at made
  split at made
  · cases made
  · next model modelled => exact coherent_ofTree (Model.keysAgree_of_load modelled) made

namespace Coherent

variable {loaded : LoadedUnit}

theorem pairwise_numbers (coherent : loaded.Coherent) :
    (loaded.nodes.map Node.number).Pairwise (· < ·) := by
  rw [coherent.numbers]
  exact List.pairwise_lt_range

theorem nodup_numbers (coherent : loaded.Coherent) : (loaded.nodes.map Node.number).Nodup := by
  rw [coherent.numbers]
  exact List.nodup_range

theorem nodup_numbers_below (coherent : loaded.Coherent) {root : Node Site}
    (listed : root ∈ loaded.nodes) : (root.tree.preorder.map Node.number).Nodup :=
  coherent.nodup_numbers.sublist
    ((Node.preorder_sublist_of_mem (n := .unit loaded.unit) listed).map _)

/-- A node is known by its number. -/
theorem eq_of_number (coherent : loaded.Coherent) {m n : Node Site} (hm : m ∈ loaded.nodes)
    (hn : n ∈ loaded.nodes) (same : m.number = n.number) : m = n :=
  List.inj_on_of_nodup_map coherent.nodup_numbers hm hn same

theorem number_lt (coherent : loaded.Coherent) {n : Node Site} (hn : n ∈ loaded.nodes) :
    n.number < loaded.nodes.length := by
  have member : n.number ∈ loaded.nodes.map Node.number := List.mem_map_of_mem hn
  rw [coherent.numbers] at member
  exact List.mem_range.mp member

/-- The field that is found by a key is one that a type declaration of the unit holds. -/
theorem field_of_field? (coherent : loaded.Coherent) {key : String} {decl : VarDecl Site}
    (found : loaded.declarations.field? key = some decl) :
    ∃ c, Node.classDecl c ∈ loaded.nodes ∧ decl ∈ c.fields ∧ decl.symbol = some key := by
  rw [coherent.declarations, Declarations.field?_ofUnit_eq_some_iff] at found
  obtain ⟨c, declared, held⟩ := List.mem_flatMap.mp found.mem
  exact ⟨c, CompilationUnit.mem_typeDecls_iff_mem.mp declared, held, found.named⟩

/-- The method that is found by a key is one that a type declaration of the unit holds. -/
theorem method_of_method? (coherent : loaded.Coherent) {key : String} {decl : MethodDecl Site}
    (found : loaded.declarations.method? key = some decl) :
    ∃ c, Node.classDecl c ∈ loaded.nodes ∧ decl ∈ c.methods ∧ decl.symbol = some key := by
  rw [coherent.declarations, Declarations.method?_ofUnit_eq_some_iff] at found
  obtain ⟨c, declared, held⟩ := List.mem_flatMap.mp found.mem
  exact ⟨c, CompilationUnit.mem_typeDecls_iff_mem.mp declared, held, found.named⟩

end Coherent

/-- What lies below a node of a unit is a node of the unit. -/
theorem mem_nodes_trans {loaded : LoadedUnit} {m n : Node Site} (hn : n ∈ loaded.nodes)
    (below : m ∈ n.tree.preorder) : m ∈ loaded.nodes :=
  Node.mem_preorder_trans (n := .unit loaded.unit) below hn

theorem mem_nodes_of_child {loaded : LoadedUnit} {c n : Node Site} (hn : n ∈ loaded.nodes)
    (child : c ∈ n.children) : c ∈ loaded.nodes :=
  mem_nodes_trans hn (Node.mem_preorder_of_child child c.mem_preorder_self)

theorem mem_nodes_of_own {loaded : LoadedUnit} {m n : Node Site} (hn : n ∈ loaded.nodes)
    (own : m ∈ n.ownNodes) : m ∈ loaded.nodes :=
  mem_nodes_trans hn (Node.mem_preorder_of_mem_ownNodes own)

theorem Coherent.mem_nodes_of_method? {loaded : LoadedUnit} (coherent : loaded.Coherent)
    {key : String} {decl : MethodDecl Site}
    (found : loaded.declarations.method? key = some decl) : Node.method decl ∈ loaded.nodes := by
  obtain ⟨c, listed, member, -⟩ := coherent.method_of_method? found
  exact mem_nodes_of_child listed (c.mem_children_of_mem_methods member)

end LoadedUnit

end BugPatterns
