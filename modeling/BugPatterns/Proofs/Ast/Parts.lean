import BugPatterns.Proofs.NodeTree

/-!
# Parts of the syntax

`Node.Holds` says what a node is written with, one rule for each place of the syntax; here a
declaration or a block that stands as a statement is first of all a statement. `Node.children` is a
function that lists what a walk goes to next. The two lead to the same nodes from a unit, once every
statement is taken as the node it is met as (`Node.encloses_iff_contains`): a walk leaves no place
of the syntax out.
-/

namespace BugPatterns.Node

variable {α : Type}

/-- A node is written with another one, which stands right below it. -/
inductive Holds : Node α → Node α → Prop where
  | typeDecl {unit decl} : decl ∈ unit.types → Holds (.unit unit) (.classDecl decl)
  | field {decl field} : .field field ∈ decl.members → Holds (.classDecl decl) (.varDecl field)
  | method {decl method} : .method method ∈ decl.members → Holds (.classDecl decl) (.method method)
  | memberType {decl inner} :
      .classDecl inner ∈ decl.members → Holds (.classDecl decl) (.classDecl inner)
  | initializer {decl block} :
      .initBlock block ∈ decl.members → Holds (.classDecl decl) (.block block)
  | param {decl param} : param ∈ decl.params → Holds (.method decl) (.varDecl param)
  | body {decl block} : decl.body = some block → Holds (.method decl) (.block block)
  | init {decl value} : decl.init = some value → Holds (.varDecl decl) (.expr value)
  | stmt {block stmt} : stmt ∈ block.stmts → Holds (.block block) (.stmt stmt)
  | expression {label expr} : Holds (.stmt (.expression label expr)) (.expr expr)
  | localVar {decl} : Holds (.stmt (.varDecl decl)) (.varDecl decl)
  | result {label value} : Holds (.stmt (.ret label (some value))) (.expr value)
  | ifCond {label cond whenTrue whenFalse} :
      Holds (.stmt (.ifElse label cond whenTrue whenFalse)) (.expr cond)
  | ifTrue {label cond whenTrue whenFalse} :
      Holds (.stmt (.ifElse label cond whenTrue whenFalse)) (.stmt whenTrue)
  | ifFalse {label cond whenTrue whenFalse} :
      Holds (.stmt (.ifElse label cond whenTrue (some whenFalse))) (.stmt whenFalse)
  | whileCond {label cond body} : Holds (.stmt (.whileLoop label cond body)) (.expr cond)
  | whileBody {label cond body} : Holds (.stmt (.whileLoop label cond body)) (.stmt body)
  | innerBlock {block} : Holds (.stmt (.block block)) (.block block)
  | localType {decl} : Holds (.stmt (.classDecl decl)) (.classDecl decl)
  | raised {label value} : Holds (.stmt (.raise label value)) (.expr value)
  | selectTarget {label target name symbol type} :
      Holds (.expr (.select label target name symbol type)) (.expr target)
  | callee {label callee args symbol type} :
      Holds (.expr (.call label callee args symbol type)) (.expr callee)
  | arg {label callee args symbol type arg} :
      arg ∈ args → Holds (.expr (.call label callee args symbol type)) (.expr arg)
  | creationArg {label args body symbol type arg} :
      arg ∈ args → Holds (.expr (.creation label args body symbol type)) (.expr arg)
  | anonymousBody {label args decl symbol type} :
      Holds (.expr (.creation label args (some decl) symbol type)) (.classDecl decl)
  | assignTarget {label op target value type} :
      Holds (.expr (.assign label op target value type)) (.expr target)
  | assignValue {label op target value type} :
      Holds (.expr (.assign label op target value type)) (.expr value)
  | lhs {label op lhs rhs type} : Holds (.expr (.binary label op lhs rhs type)) (.expr lhs)
  | rhs {label op lhs rhs type} : Holds (.expr (.binary label op lhs rhs type)) (.expr rhs)
  | operand {label op operand type} : Holds (.expr (.unary label op operand type)) (.expr operand)
  | inner {label inner type} : Holds (.expr (.paren label inner type)) (.expr inner)
  | castOperand {label operand type} : Holds (.expr (.cast label operand type)) (.expr operand)
  | cond {label cond whenTrue whenFalse type} :
      Holds (.expr (.conditional label cond whenTrue whenFalse type)) (.expr cond)
  | whenTrue {label cond whenTrue whenFalse type} :
      Holds (.expr (.conditional label cond whenTrue whenFalse type)) (.expr whenTrue)
  | whenFalse {label cond whenTrue whenFalse type} :
      Holds (.expr (.conditional label cond whenTrue whenFalse type)) (.expr whenFalse)
  | indexTarget {label target position type} :
      Holds (.expr (.index label target position type)) (.expr target)
  | indexPosition {label target position type} :
      Holds (.expr (.index label target position type)) (.expr position)

/-- A node stands somewhere in another one, or is that one. -/
def Encloses : Node α → Node α → Prop := Relation.ReflTransGen Holds

/-- The node that a walk meets a node as. -/
def met : Node α → Node α
  | .stmt s => ofStmt s
  | n => n

@[simp] theorem met_classDecl (decl : ClassDecl α) : (Node.classDecl decl).met = .classDecl decl :=
  rfl

@[simp] theorem met_varDecl (decl : VarDecl α) : (Node.varDecl decl).met = .varDecl decl := rfl

@[simp] theorem met_block (b : Block α) : (Node.block b).met = .block b := rfl

@[simp] theorem met_expr (e : Expr α) : (Node.expr e).met = .expr e := rfl

@[simp] theorem met_ofStmt (s : Stmt α) : (ofStmt s).met = ofStmt s := by
  cases s <;> rfl

@[simp] theorem met_ofMember (m : Member α) : (ofMember m).met = ofMember m := by
  cases m <;> rfl

/-- What a node holds is met as the node itself or as one of its children. -/
theorem met_of_holds {n part : Node α} (holds : n.Holds part) :
    part.met = n.met ∨ part.met ∈ n.met.children := by
  cases holds with
  | localVar => exact .inl rfl
  | innerBlock => exact .inl rfl
  | localType => exact .inl rfl
  | typeDecl member => exact .inr (List.mem_map_of_mem member)
  | field member => exact .inr (List.mem_map_of_mem (f := ofMember) member)
  | method member => exact .inr (List.mem_map_of_mem (f := ofMember) member)
  | memberType member => exact .inr (List.mem_map_of_mem (f := ofMember) member)
  | initializer member => exact .inr (List.mem_map_of_mem (f := ofMember) member)
  | stmt member => exact .inr (List.mem_map_of_mem (f := ofStmt) member)
  | _ => right; simp_all [met, ofStmt, children, stmtChildren, exprChildren]

theorem encloses_ofStmt (s : Stmt α) : (Node.stmt s).Encloses (ofStmt s) := by
  cases s with
  | varDecl decl => exact .single .localVar
  | block b => exact .single .innerBlock
  | classDecl decl => exact .single .localType
  | _ => exact .refl

theorem encloses_ofMember {decl : ClassDecl α} {m : Member α} (member : m ∈ decl.members) :
    (Node.classDecl decl).Encloses (ofMember m) := by
  cases m with
  | field field => exact .single (.field member)
  | method method => exact .single (.method member)
  | classDecl inner => exact .single (.memberType member)
  | initBlock b => exact .single (.initializer member)

theorem encloses_of_stmtChildren {s : Stmt α} {c : Node α} (child : c ∈ stmtChildren s) :
    (Node.stmt s).Encloses c := by
  cases s with
  | expression label e =>
      obtain rfl := List.mem_singleton.mp child
      exact .single .expression
  | varDecl decl =>
      obtain rfl := List.mem_singleton.mp child
      exact .single .localVar
  | ret label value =>
      obtain ⟨value, rfl, rfl⟩ := Option.map_eq_some_iff.mp (Option.mem_toList.mp child)
      exact .single .result
  | ifElse label cond whenTrue whenFalse =>
      rcases List.mem_cons.mp child with rfl | child
      · exact .single .ifCond
      rcases List.mem_cons.mp child with rfl | child
      · exact .head .ifTrue (encloses_ofStmt whenTrue)
      · obtain ⟨whenFalse, rfl, rfl⟩ := Option.map_eq_some_iff.mp (Option.mem_toList.mp child)
        exact .head .ifFalse (encloses_ofStmt whenFalse)
  | whileLoop label cond body =>
      rcases List.mem_pair.mp child with rfl | rfl
      · exact .single .whileCond
      · exact .head .whileBody (encloses_ofStmt body)
  | block b =>
      obtain rfl := List.mem_singleton.mp child
      exact .single .innerBlock
  | classDecl decl =>
      obtain rfl := List.mem_singleton.mp child
      exact .single .localType
  | raise label value =>
      obtain rfl := List.mem_singleton.mp child
      exact .single .raised

theorem holds_of_exprChildren {e : Expr α} {c : Node α} (child : c ∈ exprChildren e) :
    (Node.expr e).Holds c := by
  cases e with
  | literal => cases child
  | ident => cases child
  | select =>
      obtain rfl := List.mem_singleton.mp child
      exact .selectTarget
  | call label callee args =>
      rcases List.mem_cons.mp child with rfl | child
      · exact .callee
      · obtain ⟨arg, member, rfl⟩ := List.mem_map.mp child
        exact .arg member
  | creation label args body =>
      rcases List.mem_append.mp child with child | child
      · obtain ⟨arg, member, rfl⟩ := List.mem_map.mp child
        exact .creationArg member
      · obtain ⟨decl, rfl, rfl⟩ := Option.map_eq_some_iff.mp (Option.mem_toList.mp child)
        exact .anonymousBody
  | assign =>
      rcases List.mem_pair.mp child with rfl | rfl
      · exact .assignTarget
      · exact .assignValue
  | binary =>
      rcases List.mem_pair.mp child with rfl | rfl
      · exact .lhs
      · exact .rhs
  | unary =>
      obtain rfl := List.mem_singleton.mp child
      exact .operand
  | paren =>
      obtain rfl := List.mem_singleton.mp child
      exact .inner
  | cast =>
      obtain rfl := List.mem_singleton.mp child
      exact .castOperand
  | conditional =>
      rcases List.mem_cons.mp child with rfl | child
      · exact .cond
      rcases List.mem_pair.mp child with rfl | rfl
      · exact .whenTrue
      · exact .whenFalse
  | index =>
      rcases List.mem_pair.mp child with rfl | rfl
      · exact .indexTarget
      · exact .indexPosition

/-- A child stands in the node. -/
theorem encloses_of_child {n c : Node α} (child : c ∈ n.children) : n.Encloses c := by
  cases n with
  | unit u =>
      obtain ⟨decl, member, rfl⟩ := List.mem_map.mp child
      exact .single (.typeDecl member)
  | classDecl decl =>
      obtain ⟨m, member, rfl⟩ := List.mem_map.mp child
      exact encloses_ofMember member
  | method decl =>
      rcases List.mem_append.mp child with child | child
      · obtain ⟨param, member, rfl⟩ := List.mem_map.mp child
        exact .single (.param member)
      · obtain ⟨body, has, rfl⟩ := Option.map_eq_some_iff.mp (Option.mem_toList.mp child)
        exact .single (.body has)
  | varDecl decl =>
      obtain ⟨init, has, rfl⟩ := Option.map_eq_some_iff.mp (Option.mem_toList.mp child)
      exact .single (.init has)
  | block b =>
      obtain ⟨s, member, rfl⟩ := List.mem_map.mp child
      exact .head (.stmt member) (encloses_ofStmt s)
  | stmt s => exact encloses_of_stmtChildren child
  | expr e => exact .single (holds_of_exprChildren child)

theorem contains_met_of_encloses {n part : Node α} (path : n.Encloses part) :
    n.met.Contains part.met := by
  induction path with
  | refl => exact .refl
  | tail _ holds ih =>
      rcases met_of_holds holds with same | child
      · rwa [same]
      · exact ih.tail child

theorem encloses_of_contains {n part : Node α} (path : n.Contains part) : n.Encloses part := by
  induction path with
  | refl => exact .refl
  | tail _ child ih => exact ih.trans (encloses_of_child child)

/-- What stands in a node is what children lead to, as far as both are met as themselves. -/
theorem encloses_iff_contains {n part : Node α} (root : n.met = n) (target : part.met = part) :
    n.Encloses part ↔ n.Contains part := by
  refine ⟨fun path => ?_, encloses_of_contains⟩
  have led := contains_met_of_encloses path
  rwa [root, target] at led

end BugPatterns.Node
