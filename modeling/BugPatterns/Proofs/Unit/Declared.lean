import BugPatterns.Proofs.Ast.Parts
import BugPatterns.Proofs.Model.Closed
import BugPatterns.Unit.Declarations

/-!
# Every declaration is found, the last one of a symbol first

The declarations of a unit are collected in one walk, which takes the members of a type declaration
before what stands inside them. A look-up finds the last declaration of a symbol in the order in
which a reader would list them: type declarations as the walk meets them, members as they are listed
(`Declarations.finds_last`). It finds one whenever a type declaration stands anywhere in the syntax
that introduces the symbol, or that has a member which does.
-/

namespace BugPatterns

namespace ClassDecl

variable {α : Type} {decl : ClassDecl α}

theorem mem_methods {method : MethodDecl α} :
    method ∈ decl.methods ↔ .method method ∈ decl.members := by
  rw [methods, List.mem_filterMap]
  constructor
  · rintro ⟨m, member, same⟩
    cases m <;> cases same
    exact member
  · exact fun member => ⟨_, member, rfl⟩

theorem mem_fields {field : VarDecl α} : field ∈ decl.fields ↔ .field field ∈ decl.members := by
  rw [fields, List.mem_filterMap]
  constructor
  · rintro ⟨m, member, same⟩
    cases m <;> cases same
    exact member
  · exact fun member => ⟨_, member, rfl⟩

end ClassDecl

/-- The type declarations of a unit, wherever they stand, in the order of the walk. -/
def CompilationUnit.typeDecls {α : Type} (unit : CompilationUnit α) : List (ClassDecl α) :=
  unit.tree.preorder.filterMap Node.classDecl?

theorem CompilationUnit.mem_typeDecls_iff_mem {α : Type} {unit : CompilationUnit α}
    {decl : ClassDecl α} :
    decl ∈ unit.typeDecls ↔ Node.classDecl decl ∈ unit.tree.preorder := by
  rw [typeDecls, List.mem_filterMap]
  constructor
  · rintro ⟨n, listed, same⟩
    cases n <;> cases same
    exact listed
  · exact fun listed => ⟨_, listed, rfl⟩

theorem CompilationUnit.mem_typeDecls {α : Type} {unit : CompilationUnit α} {decl : ClassDecl α} :
    decl ∈ unit.typeDecls ↔ (Node.unit unit).Encloses (.classDecl decl) := by
  rw [Node.encloses_iff_contains rfl rfl, Node.contains_iff, mem_typeDecls_iff_mem]
  rfl

namespace Declarations

section Last

variable {α : Type} (symbol : α → Option String) (key : String)

/-- A declaration is the last of some that introduces a symbol. -/
def IsLast (decls : List α) (decl : α) : Prop :=
  ∃ before after, decls = before ++ decl :: after ∧ symbol decl = some key ∧
    ∀ later ∈ after, symbol later ≠ some key

variable {symbol key}

theorem IsLast.mem {decls : List α} {decl : α} (last : IsLast symbol key decls decl) :
    decl ∈ decls := by
  obtain ⟨before, after, rfl, -⟩ := last
  exact List.mem_append_right before List.mem_cons_self

theorem IsLast.named {decls : List α} {decl : α} (last : IsLast symbol key decls decl) :
    symbol decl = some key := by
  obtain ⟨before, after, -, named, -⟩ := last
  exact named

theorem not_isLast_nil {decl : α} : ¬ IsLast symbol key [] decl := by
  exact fun last => List.not_mem_nil last.mem

theorem isLast_cons {first decl : α} {decls : List α} :
    IsLast symbol key (first :: decls) decl ↔ IsLast symbol key decls decl ∨
      (∀ later ∈ decls, symbol later ≠ some key) ∧ symbol first = some key ∧ first = decl := by
  constructor
  · rintro ⟨before, after, split, named, none⟩
    rcases List.cons_eq_append_iff.mp split with ⟨-, same⟩ | ⟨rest, -, rfl⟩
    · obtain ⟨rfl, rfl⟩ := List.cons.inj same
      exact .inr ⟨none, named, rfl⟩
    · exact .inl ⟨rest, after, rfl, named, none⟩
  · rintro (⟨before, after, rfl, named, none⟩ | ⟨none, named, rfl⟩)
    · exact ⟨first :: before, after, rfl, named, none⟩
    · exact ⟨[], decls, rfl, named, none⟩

theorem lookup_insert (found : List (String × α)) (first : α) :
    (insert found (symbol first) first).lookup key =
      if symbol first = some key then some first else found.lookup key := by
  unfold insert
  cases symbol first with
  | none => rw [if_neg (by simp)]
  | some other =>
      rw [Model.lookup_cons_eq_ite]
      simp only [Option.some.injEq, eq_comm]

/-- What is inserted last under a key is found. -/
theorem lookup_foldl_insert_eq_some_iff {decl : α} (decls : List α) :
    ∀ found : List (String × α),
      (decls.foldl (fun found decl => insert found (symbol decl) decl) found).lookup key =
          some decl ↔
        IsLast symbol key decls decl ∨
          (∀ later ∈ decls, symbol later ≠ some key) ∧ found.lookup key = some decl := by
  induction decls with
  | nil => simp [not_isLast_nil]
  | cons first decls ih =>
      intro found
      rw [List.foldl_cons, ih, lookup_insert, isLast_cons, List.forall_mem_cons, or_assoc]
      by_cases named : symbol first = some key
      · simp [named]
      · simp [named]

theorem exists_isLast {decls : List α} :
    (∃ decl, IsLast symbol key decls decl) ↔ ∃ decl ∈ decls, symbol decl = some key := by
  induction decls with
  | nil => simp [not_isLast_nil]
  | cons first decls ih =>
      simp only [isLast_cons, exists_or, ih, List.exists_mem_cons_iff]
      by_cases later : ∃ decl ∈ decls, symbol decl = some key
      · simp [later]
      · have none : ∀ decl ∈ decls, symbol decl ≠ some key := by simpa using later
        simp only [later, false_or, or_false, exists_and_left, exists_eq', and_true]
        exact ⟨fun first => first.2, fun named => ⟨none, named⟩⟩

end Last

/-- The walk collects the type declarations that it meets, and with each its fields and methods. -/
theorem foldl_addNode_eq (nodes : List (Node Site)) :
    ∀ found : Declarations, nodes.foldl addNode found = {
      fields := ((nodes.filterMap Node.classDecl?).flatMap ClassDecl.fields).foldl
        (fun found decl => insert found decl.symbol decl) found.fields
      methods := ((nodes.filterMap Node.classDecl?).flatMap ClassDecl.methods).foldl
        (fun found decl => insert found decl.symbol decl) found.methods
      classes := (nodes.filterMap Node.classDecl?).foldl
        (fun found decl => insert found decl.symbol decl) found.classes } := by
  induction nodes with
  | nil => exact fun _ => rfl
  | cons n nodes ih =>
      intro found
      rw [List.foldl_cons, ih]
      cases n with
      | classDecl decl =>
          rw [List.filterMap_cons_some (f := Node.classDecl?) (b := decl) rfl, List.flatMap_cons,
            List.flatMap_cons, List.foldl_append, List.foldl_append, List.foldl_cons]
          rfl
      | _ => rfl

section OfUnit

variable (unit : CompilationUnit Site) (key : String)

theorem class?_ofUnit_eq_some_iff {decl : ClassDecl Site} :
    (ofUnit unit).class? key = some decl ↔
      IsLast ClassDecl.symbol key unit.typeDecls decl := by
  rw [class?, ofUnit, foldl_addNode_eq, lookup_foldl_insert_eq_some_iff]
  simp [empty, CompilationUnit.typeDecls]

theorem method?_ofUnit_eq_some_iff {method : MethodDecl Site} :
    (ofUnit unit).method? key = some method ↔
      IsLast MethodDecl.symbol key (unit.typeDecls.flatMap ClassDecl.methods) method := by
  rw [method?, ofUnit, foldl_addNode_eq, lookup_foldl_insert_eq_some_iff]
  simp [empty, CompilationUnit.typeDecls]

theorem field?_ofUnit_eq_some_iff {field : VarDecl Site} :
    (ofUnit unit).field? key = some field ↔
      IsLast VarDecl.symbol key (unit.typeDecls.flatMap ClassDecl.fields) field := by
  rw [field?, ofUnit, foldl_addNode_eq, lookup_foldl_insert_eq_some_iff]
  simp [empty, CompilationUnit.typeDecls]

/-- A key finds a type declaration, a method or a field if and only if a type declaration stands
    somewhere in the syntax of the unit that introduces it as its symbol, or that has a method or a
    field as a member which does. What is found is the last one that introduces the symbol, type
    declarations being taken in the order of the walk and members as they are listed. -/
theorem finds_last :
    (((ofUnit unit).class? key).isSome ↔ ∃ decl,
      (Node.unit unit).Encloses (.classDecl decl) ∧ decl.symbol = some key) ∧
    (((ofUnit unit).method? key).isSome ↔ ∃ decl,
      (Node.unit unit).Encloses (.classDecl decl) ∧
        ∃ method, .method method ∈ decl.members ∧ method.symbol = some key) ∧
    (((ofUnit unit).field? key).isSome ↔ ∃ decl,
      (Node.unit unit).Encloses (.classDecl decl) ∧
        ∃ field, .field field ∈ decl.members ∧ field.symbol = some key) ∧
    (∀ decl, (ofUnit unit).class? key = some decl ↔
      IsLast ClassDecl.symbol key unit.typeDecls decl) ∧
    (∀ method, (ofUnit unit).method? key = some method ↔
      IsLast MethodDecl.symbol key (unit.typeDecls.flatMap ClassDecl.methods) method) ∧
    ∀ field, (ofUnit unit).field? key = some field ↔
      IsLast VarDecl.symbol key (unit.typeDecls.flatMap ClassDecl.fields) field := by
  refine ⟨?_, ?_, ?_, fun _ => class?_ofUnit_eq_some_iff unit key,
    fun _ => method?_ofUnit_eq_some_iff unit key, fun _ => field?_ofUnit_eq_some_iff unit key⟩
  · simp only [Option.isSome_iff_exists, class?_ofUnit_eq_some_iff, exists_isLast,
      CompilationUnit.mem_typeDecls]
  · simp only [Option.isSome_iff_exists, method?_ofUnit_eq_some_iff, exists_isLast,
      List.mem_flatMap, CompilationUnit.mem_typeDecls, ClassDecl.mem_methods]
    constructor
    · exact fun ⟨method, ⟨decl, stands, member⟩, named⟩ => ⟨decl, stands, method, member, named⟩
    · exact fun ⟨decl, stands, method, member, named⟩ => ⟨method, ⟨decl, stands, member⟩, named⟩
  · simp only [Option.isSome_iff_exists, field?_ofUnit_eq_some_iff, exists_isLast,
      List.mem_flatMap, CompilationUnit.mem_typeDecls, ClassDecl.mem_fields]
    constructor
    · exact fun ⟨field, ⟨decl, stands, member⟩, named⟩ => ⟨decl, stands, field, member, named⟩
    · exact fun ⟨decl, stands, field, member, named⟩ => ⟨field, ⟨decl, stands, member⟩, named⟩

end OfUnit

end Declarations

end BugPatterns
