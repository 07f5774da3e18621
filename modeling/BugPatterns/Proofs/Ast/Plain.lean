import BugPatterns.Ast.Writer
import BugPatterns.Proofs.Json.Plain

/-!
# Written trees are plain

Spans hold numbers of 32 bits, and all else that a node is written with is a string or a part.
-/

namespace BugPatterns

theorem Json.isPlain_nat_toNat (n : UInt32) : isPlain (.nat n.toNat) :=
  decide_eq_true (Nat.lt_trans n.toNat_lt (by decide))

@[simp] theorem Span.isPlain_toJson (span : Span) : span.toJson.isPlain := by
  simp [toJson, Json.isPlain_nat_toNat]

@[simp] theorem fieldsArePlain_keyFields (symbol type : Option String) :
    Json.fieldsArePlain (keyFields symbol type) := by
  simp [keyFields]

mutual

/-- An expression is written as a plain value. -/
theorem Expr.isPlain_toJson (e : Expr Span) : e.toJson.isPlain := by
  cases e with
  | literal | ident => simp [Expr.toJson]
  | select _ target => simp [Expr.toJson, target.isPlain_toJson]
  | call _ callee args => simp [Expr.toJson, callee.isPlain_toJson, Expr.arePlain_allToJson args]
  | creation _ args body =>
      simp [Expr.toJson, Expr.arePlain_allToJson args, ClassDecl.plain_bodyField body]
  | assign _ _ target value => simp [Expr.toJson, target.isPlain_toJson, value.isPlain_toJson]
  | binary _ _ lhs rhs => simp [Expr.toJson, lhs.isPlain_toJson, rhs.isPlain_toJson]
  | unary _ _ operand => simp [Expr.toJson, operand.isPlain_toJson]
  | paren _ inner => simp [Expr.toJson, inner.isPlain_toJson]
  | cast _ operand => simp [Expr.toJson, operand.isPlain_toJson]
  | conditional _ cond whenTrue whenFalse =>
      simp [Expr.toJson, cond.isPlain_toJson, whenTrue.isPlain_toJson, whenFalse.isPlain_toJson]
  | index _ target position => simp [Expr.toJson, target.isPlain_toJson, position.isPlain_toJson]

theorem Expr.arePlain_allToJson (es : List (Expr Span)) : Json.arePlain (Expr.allToJson es) := by
  match es with
  | [] => rfl
  | e :: es => simp [Expr.allToJson, e.isPlain_toJson, Expr.arePlain_allToJson es]

theorem Expr.plain_optionalField (name : String) (e : Option (Expr Span)) :
    Json.fieldsArePlain (Expr.optionalField name e) := by
  match e with
  | none => rfl
  | some e => simp [Expr.optionalField, e.isPlain_toJson]

/-- A statement is written as a plain value. -/
theorem Stmt.isPlain_toJson (s : Stmt Span) : s.toJson.isPlain := by
  cases s with
  | expression _ expr => simp [Stmt.toJson, expr.isPlain_toJson]
  | varDecl decl => simp [Stmt.toJson, decl.plain_toFields]
  | ret _ value => simp [Stmt.toJson, Expr.plain_optionalField "value" value]
  | ifElse _ cond whenTrue whenFalse =>
      simp [Stmt.toJson, cond.isPlain_toJson, whenTrue.isPlain_toJson,
        Stmt.plain_otherwiseField whenFalse]
  | whileLoop _ cond body => simp [Stmt.toJson, cond.isPlain_toJson, body.isPlain_toJson]
  | block block => simp [Stmt.toJson, block.plain_toFields]
  | classDecl decl => simp [Stmt.toJson, decl.plain_toFields]
  | raise _ value => simp [Stmt.toJson, value.isPlain_toJson]

theorem Stmt.arePlain_allToJson (ss : List (Stmt Span)) : Json.arePlain (Stmt.allToJson ss) := by
  match ss with
  | [] => rfl
  | s :: ss => simp [Stmt.allToJson, s.isPlain_toJson, Stmt.arePlain_allToJson ss]

theorem Stmt.plain_otherwiseField (s : Option (Stmt Span)) :
    Json.fieldsArePlain (Stmt.otherwiseField s) := by
  match s with
  | none => rfl
  | some s => simp [Stmt.otherwiseField, s.isPlain_toJson]

theorem Block.plain_toFields (b : Block Span) : Json.fieldsArePlain b.toFields := by
  match b with
  | ⟨_, stmts⟩ => simp [Block.toFields, Stmt.arePlain_allToJson stmts]

theorem Block.plain_bodyField (b : Option (Block Span)) :
    Json.fieldsArePlain (Block.bodyField b) := by
  match b with
  | none => rfl
  | some b => simp [Block.bodyField, b.plain_toFields]

theorem VarDecl.plain_toFields (v : VarDecl Span) : Json.fieldsArePlain v.toFields := by
  match v with
  | ⟨_, _, _, _, init⟩ => simp [VarDecl.toFields, Expr.plain_optionalField "init" init]

theorem VarDecl.arePlain_allToJson (vs : List (VarDecl Span)) :
    Json.arePlain (VarDecl.allToJson vs) := by
  match vs with
  | [] => rfl
  | v :: vs => simp [VarDecl.allToJson, v.plain_toFields, VarDecl.arePlain_allToJson vs]

theorem MethodDecl.plain_toFields (m : MethodDecl Span) : Json.fieldsArePlain m.toFields := by
  match m with
  | ⟨_, _, _, params, body⟩ =>
      simp [MethodDecl.toFields, VarDecl.arePlain_allToJson params, Block.plain_bodyField body]

theorem ClassDecl.plain_toFields (decl : ClassDecl Span) : Json.fieldsArePlain decl.toFields := by
  match decl with
  | ⟨_, _, _, _, members⟩ => simp [ClassDecl.toFields, Member.arePlain_allToJson members]

theorem ClassDecl.plain_bodyField (decl : Option (ClassDecl Span)) :
    Json.fieldsArePlain (ClassDecl.bodyField decl) := by
  match decl with
  | none => rfl
  | some decl => simp [ClassDecl.bodyField, decl.plain_toFields]

/-- A member is written as a plain value. -/
theorem Member.isPlain_toJson (m : Member Span) : m.toJson.isPlain := by
  match m with
  | .field decl => simp [Member.toJson, decl.plain_toFields]
  | .method decl => simp [Member.toJson, decl.plain_toFields]
  | .classDecl decl => simp [Member.toJson, decl.plain_toFields]
  | .initBlock block => simp [Member.toJson, block.plain_toFields]

theorem Member.arePlain_allToJson (ms : List (Member Span)) :
    Json.arePlain (Member.allToJson ms) := by
  match ms with
  | [] => rfl
  | m :: ms => simp [Member.allToJson, m.isPlain_toJson, Member.arePlain_allToJson ms]

end

end BugPatterns
