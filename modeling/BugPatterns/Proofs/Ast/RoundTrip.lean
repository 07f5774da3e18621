import BugPatterns.Ast.Reader
import BugPatterns.Ast.Writer
import BugPatterns.Proofs.Ast.Plain
import BugPatterns.Proofs.Json.Record

/-!
# Trees are read back

The readers of one more level of nesting read back what is written with that depth, if those of one
level less do for theirs (`NodeReaders.ReadsBack.next`). So a tree of any depth is read back as it
was written (`CompilationUnit.read_toJson`).
-/

namespace BugPatterns

open Record (Distinct Within)

instance : Keyword.Lawful ClassKind := ⟨fun a => by cases a <;> decide⟩
instance : Keyword.Lawful LiteralKind := ⟨fun a => by cases a <;> decide⟩
instance : Keyword.Lawful AssignOp := ⟨fun a => by cases a <;> decide⟩
instance : Keyword.Lawful BinaryOp := ⟨fun a => by cases a <;> decide⟩
instance : Keyword.Lawful UnaryOp := ⟨fun a => by cases a <;> decide⟩
instance : Keyword.Lawful MemberShape := ⟨fun a => by cases a <;> decide⟩
instance : Keyword.Lawful StmtShape := ⟨fun a => by cases a <;> decide⟩
instance : Keyword.Lawful ExprShape := ⟨fun a => by cases a <;> decide⟩

theorem Json.readUInt32_nat (n : UInt32) : readUInt32 (.nat n.toNat) = .ok n := by
  have below : readNatBelow UInt32.size (.nat n.toNat) = .ok n.toNat := if_pos n.toNat_lt
  rw [readUInt32, below]
  exact congrArg Except.ok UInt32.ofNat_toNat

/-- A span is read back. -/
theorem Span.read_toJson (span : Span) : read span.toJson = .ok span := by
  have distinct : Distinct [("line", some (.nat span.line.toNat)),
      ("col", some (.nat span.col.toNat)), ("end_line", some (.nat span.endLine.toNat)),
      ("end_col", some (.nat span.endCol.toNat))] := by simp [Distinct]
  refine bind_ok distinct.ofJson? ?_
  refine bind_ok (distinct.withDefault rfl (Json.readUInt32_nat span.line)) ?_
  refine bind_ok (distinct.withDefault rfl (Json.readUInt32_nat span.col)) ?_
  refine bind_ok (distinct.withDefault rfl (Json.readUInt32_nat span.endLine)) ?_
  refine bind_ok (distinct.withDefault rfl (Json.readUInt32_nat span.endCol)) ?_
  rfl

/-- The record of a node is taken as it is written, and its span first. -/
theorem Record.Distinct.node_ok {entries : List (String × Option Json)}
    (distinct : Distinct entries) {span : Span}
    (found : entries.lookup "span" = some (some span.toJson)) {α : Type}
    {rest : Record → Span → Except ReadError α} {result : Except ReadError α}
    (reads : rest ⟨Json.present entries, false⟩ span = result) :
    (do
      let record ← Record.ofJson? (entries.map Prod.fst) (.obj (Json.present entries))
      let label ← record.span
      rest record label) = result := by
  refine bind_ok distinct.ofJson? ?_
  exact bind_ok (distinct.withDefault found span.read_toJson) reads

section Lists

theorem Expr.allToJson_eq_map (es : List (Expr Span)) : allToJson es = es.map Expr.toJson := by
  induction es with
  | nil => rfl
  | cons e es ih => rw [allToJson, ih, List.map_cons]

theorem Stmt.allToJson_eq_map (ss : List (Stmt Span)) : allToJson ss = ss.map Stmt.toJson := by
  induction ss with
  | nil => rfl
  | cons s ss ih => rw [allToJson, ih, List.map_cons]

theorem Member.allToJson_eq_map (ms : List (Member Span)) :
    allToJson ms = ms.map Member.toJson := by
  induction ms with
  | nil => rfl
  | cons m ms ih => rw [allToJson, ih, List.map_cons]

theorem VarDecl.allToJson_eq_map (vs : List (VarDecl Span)) :
    allToJson vs = vs.map fun v => .obj v.toFields := by
  induction vs with
  | nil => rfl
  | cons v vs ih => rw [allToJson, ih, List.map_cons]

end Lists

/-! ### Declared fields

For each kind of node, the fields that its record declares, with the values of those that are
present. -/

section Entries

/-- The declared fields of a variable declaration. -/
def VarDecl.entries (v : VarDecl Span) : List (String × Option Json) :=
  [("span", some v.label.toJson), ("name", some (.str v.name)), ("symbol", v.symbol.map .str),
    ("type", v.type.map .str), ("init", v.init.map Expr.toJson)]

/-- The declared fields of a block. -/
def Block.entries (b : Block Span) : List (String × Option Json) :=
  [("span", some b.label.toJson), ("stmts", some (.arr (b.stmts.map Stmt.toJson)))]

/-- The declared fields of a method. -/
def MethodDecl.entries (m : MethodDecl Span) : List (String × Option Json) :=
  [("span", some m.label.toJson), ("name", some (.str m.name)), ("symbol", m.symbol.map .str),
    ("params", some (.arr (m.params.map fun v => .obj v.toFields))),
    ("body", m.body.map fun b => .obj b.toFields)]

/-- The declared fields of a type declaration. -/
def ClassDecl.entries (decl : ClassDecl Span) : List (String × Option Json) :=
  [("span", some decl.label.toJson), ("kind", some (Keyword.toJson decl.kind)),
    ("name", decl.name.map .str), ("symbol", decl.symbol.map .str),
    ("members", some (.arr (decl.members.map Member.toJson)))]

/-- The declared fields of an expression. -/
def Expr.entries : Expr Span → List (String × Option Json)
  | .literal span kind text type =>
      [("span", some span.toJson), ("literal", some (Keyword.toJson kind)),
        ("value", some (.str text)), ("type", type.map .str)]
  | .ident span name symbol type =>
      [("span", some span.toJson), ("name", some (.str name)), ("symbol", symbol.map .str),
        ("type", type.map .str)]
  | .select span target name symbol type =>
      [("span", some span.toJson), ("target", some target.toJson), ("name", some (.str name)),
        ("symbol", symbol.map .str), ("type", type.map .str)]
  | .call span callee args symbol type =>
      [("span", some span.toJson), ("callee", some callee.toJson),
        ("args", some (.arr (args.map toJson))), ("symbol", symbol.map .str),
        ("type", type.map .str)]
  | .creation span args body symbol type =>
      [("span", some span.toJson), ("args", some (.arr (args.map toJson))),
        ("body", body.map fun decl => .obj decl.toFields), ("symbol", symbol.map .str),
        ("type", type.map .str)]
  | .assign span op target value type =>
      [("span", some span.toJson), ("op", some (Keyword.toJson op)),
        ("target", some target.toJson), ("value", some value.toJson), ("type", type.map .str)]
  | .binary span op lhs rhs type =>
      [("span", some span.toJson), ("op", some (Keyword.toJson op)), ("lhs", some lhs.toJson),
        ("rhs", some rhs.toJson), ("type", type.map .str)]
  | .unary span op operand type =>
      [("span", some span.toJson), ("op", some (Keyword.toJson op)),
        ("operand", some operand.toJson), ("type", type.map .str)]
  | .paren span inner type =>
      [("span", some span.toJson), ("inner", some inner.toJson), ("type", type.map .str)]
  | .cast span operand type =>
      [("span", some span.toJson), ("operand", some operand.toJson), ("type", type.map .str)]
  | .conditional span cond whenTrue whenFalse type =>
      [("span", some span.toJson), ("cond", some cond.toJson), ("then", some whenTrue.toJson),
        ("otherwise", some whenFalse.toJson), ("type", type.map .str)]
  | .index span target position type =>
      [("span", some span.toJson), ("target", some target.toJson),
        ("index", some position.toJson), ("type", type.map .str)]

/-- The shape of an expression. -/
def Expr.shape : Expr Span → ExprShape
  | .literal .. => .literal
  | .ident .. => .ident
  | .select .. => .select
  | .call .. => .call
  | .creation .. => .creation
  | .assign .. => .assign
  | .binary .. => .binary
  | .unary .. => .unary
  | .paren .. => .paren
  | .cast .. => .cast
  | .conditional .. => .conditional
  | .index .. => .index

/-- The declared fields of a statement, which are those of what it wraps where it wraps a node. -/
def Stmt.entries : Stmt Span → List (String × Option Json)
  | .expression span expr => [("span", some span.toJson), ("expr", some expr.toJson)]
  | .varDecl decl => decl.entries
  | .ret span value => [("span", some span.toJson), ("value", value.map Expr.toJson)]
  | .ifElse span cond whenTrue whenFalse =>
      [("span", some span.toJson), ("cond", some cond.toJson), ("then", some whenTrue.toJson),
        ("otherwise", whenFalse.map toJson)]
  | .whileLoop span cond body =>
      [("span", some span.toJson), ("cond", some cond.toJson), ("body", some body.toJson)]
  | .block b => b.entries
  | .classDecl decl => decl.entries
  | .raise span value => [("span", some span.toJson), ("value", some value.toJson)]

/-- The shape of a statement. -/
def Stmt.shape : Stmt Span → StmtShape
  | .expression .. => .expression
  | .varDecl _ => .varDecl
  | .ret .. => .ret
  | .ifElse .. => .ifElse
  | .whileLoop .. => .whileLoop
  | .block _ => .block
  | .classDecl _ => .classDecl
  | .raise .. => .raise

/-- The declared fields of a member, which are those of what it wraps. -/
def Member.entries : Member Span → List (String × Option Json)
  | .field decl => decl.entries
  | .method decl => decl.entries
  | .classDecl decl => decl.entries
  | .initBlock b => b.entries

/-- The shape of a member. -/
def Member.shape : Member Span → MemberShape
  | .field _ => .field
  | .method _ => .method
  | .classDecl _ => .classDecl
  | .initBlock _ => .initBlock

end Entries

/-! ### What is written

Every node is written with those of its declared fields that are present, behind its tag if it has
one. -/

section Written

theorem VarDecl.toFields_eq (v : VarDecl Span) : v.toFields = Json.present v.entries := by
  obtain ⟨span, name, symbol, type, init⟩ := v
  cases symbol <;> cases type <;> cases init <;> rfl

theorem Block.toFields_eq (b : Block Span) : b.toFields = Json.present b.entries := by
  obtain ⟨span, stmts⟩ := b
  rw [toFields, Stmt.allToJson_eq_map]
  rfl

theorem MethodDecl.toFields_eq (m : MethodDecl Span) : m.toFields = Json.present m.entries := by
  obtain ⟨span, name, symbol, params, body⟩ := m
  rw [toFields, VarDecl.allToJson_eq_map]
  cases symbol <;> cases body <;> rfl

theorem ClassDecl.toFields_eq (decl : ClassDecl Span) :
    decl.toFields = Json.present decl.entries := by
  obtain ⟨span, kind, name, symbol, members⟩ := decl
  rw [toFields, Member.allToJson_eq_map]
  cases name <;> cases symbol <;> rfl

theorem Expr.toJson_eq (e : Expr Span) :
    e.toJson = .obj (("expr", .str (Keyword.word e.shape)) :: Json.present e.entries) := by
  cases e with
  | ident _ _ symbol type | select _ _ _ symbol type => cases symbol <;> cases type <;> rfl
  | call _ _ _ symbol type =>
      rw [toJson, allToJson_eq_map]
      cases symbol <;> cases type <;> rfl
  | creation _ _ body symbol type =>
      rw [toJson, allToJson_eq_map]
      cases body <;> cases symbol <;> cases type <;> rfl
  | literal _ _ _ type | assign _ _ _ _ type | binary _ _ _ _ type | unary _ _ _ type
  | paren _ _ type | cast _ _ type | conditional _ _ _ _ type | index _ _ _ type =>
      cases type <;> rfl

theorem Stmt.toJson_eq (s : Stmt Span) :
    s.toJson = .obj (("stmt", .str (Keyword.word s.shape)) :: Json.present s.entries) := by
  cases s with
  | varDecl decl => rw [toJson, decl.toFields_eq]; rfl
  | block b => rw [toJson, b.toFields_eq]; rfl
  | classDecl decl => rw [toJson, decl.toFields_eq]; rfl
  | ret _ value => cases value <;> rfl
  | ifElse _ _ _ whenFalse => cases whenFalse <;> rfl
  | expression | whileLoop | raise => rfl

theorem Member.toJson_eq (m : Member Span) :
    m.toJson = .obj (("member", .str (Keyword.word m.shape)) :: Json.present m.entries) := by
  cases m with
  | field decl => rw [toJson, decl.toFields_eq]; rfl
  | method decl => rw [toJson, decl.toFields_eq]; rfl
  | classDecl decl => rw [toJson, decl.toFields_eq]; rfl
  | initBlock b => rw [toJson, b.toFields_eq]; rfl

theorem Expr.toJson_ne_null (e : Expr Span) : e.toJson ≠ .null := by
  rw [e.toJson_eq]
  nofun

theorem Stmt.toJson_ne_null (s : Stmt Span) : s.toJson ≠ .null := by
  rw [s.toJson_eq]
  nofun

end Written

section Distinct

theorem VarDecl.distinct (v : VarDecl Span) : Distinct v.entries := by simp [Distinct, entries]

theorem Block.distinct (b : Block Span) : Distinct b.entries := by simp [Distinct, entries]

theorem MethodDecl.distinct (m : MethodDecl Span) : Distinct m.entries := by
  simp [Distinct, entries]

theorem ClassDecl.distinct (decl : ClassDecl Span) : Distinct decl.entries := by
  simp [Distinct, entries]

/-- The tag of an expression is none of its fields. -/
theorem Expr.distinct (e : Expr Span) :
    "expr" ∉ e.entries.map Prod.fst ∧ Distinct e.entries := by
  cases e <;> simp [Distinct, entries]

/-- The tag of a statement is none of its fields. -/
theorem Stmt.distinct (s : Stmt Span) :
    "stmt" ∉ s.entries.map Prod.fst ∧ Distinct s.entries := by
  cases s <;> simp [Distinct, entries, VarDecl.entries, Block.entries, ClassDecl.entries]

/-- The tag of a member is none of its fields. -/
theorem Member.distinct (m : Member Span) :
    "member" ∉ m.entries.map Prod.fst ∧ Distinct m.entries := by
  cases m <;> simp [Distinct, entries, VarDecl.entries, Block.entries, MethodDecl.entries,
    ClassDecl.entries]

end Distinct

/-! ### What is read -/

namespace NodeReaders

/-- The readers read back what is written with a depth up to a bound. -/
structure ReadsBack (readers : NodeReaders) (bound : Nat) : Prop where
  expr : ∀ e : Expr Span, e.toJson.depth ≤ bound → readers.expr e.toJson = .ok e
  stmt : ∀ s : Stmt Span, s.toJson.depth ≤ bound → readers.stmt s.toJson = .ok s
  member : ∀ m : Member Span, m.toJson.depth ≤ bound → readers.member m.toJson = .ok m

/-- A tagged object is read as the shape that its tag names. -/
theorem tagged_eq {σ α : Type} [Keyword σ] [Keyword.Lawful σ] {tag : String} {place : Place}
    {read : σ → Reader α} {entries : List (String × Option Json)}
    (fresh : tag ∉ entries.map Prod.fst) (shape : σ) :
    tagged tag place read (.obj ((tag, .str (Keyword.word shape)) :: Json.present entries)) =
      read shape (.obj (Json.present entries)) := by
  refine bind_ok (Json.splitTag_present fresh _) ?_
  exact bind_ok (Keyword.readTag_word place shape) rfl

/-- A type declaration is read back if members of its depth are. -/
theorem classDecl_of_members {readers : NodeReaders} {bound : Nat}
    (members : ∀ m : Member Span, m.toJson.depth ≤ bound → readers.member m.toJson = .ok m)
    (place : Place) (decl : ClassDecl Span)
    (nested : Json.depthOfFields (Json.present decl.entries) ≤ bound) :
    readers.classDecl place (.obj (Json.present decl.entries)) = .ok decl := by
  refine decl.distinct.node_ok rfl ?_
  refine bind_ok (decl.distinct.withDefault rfl (Keyword.read_toJson place decl.kind)) ?_
  refine bind_ok (decl.distinct.text rfl) ?_
  refine bind_ok (decl.distinct.text rfl) ?_
  refine bind_ok (Within.listed ⟨decl.distinct, nested⟩ members rfl) ?_
  cases decl
  rfl

namespace ReadsBack

variable {readers : NodeReaders} {bound : Nat} (reads : readers.ReadsBack bound)

include reads

theorem varDecl (v : VarDecl Span) (nested : Json.depthOfFields (Json.present v.entries) ≤ bound) :
    readers.varDecl (.obj (Json.present v.entries)) = .ok v := by
  refine v.distinct.node_ok rfl ?_
  refine bind_ok (v.distinct.required rfl rfl) ?_
  refine bind_ok (v.distinct.text rfl) ?_
  refine bind_ok (v.distinct.text rfl) ?_
  refine bind_ok (Within.optional ⟨v.distinct, nested⟩ reads.expr Expr.toJson_ne_null rfl) ?_
  cases v
  rfl

theorem block (b : Block Span) (nested : Json.depthOfFields (Json.present b.entries) ≤ bound) :
    readers.block (.obj (Json.present b.entries)) = .ok b := by
  refine b.distinct.node_ok rfl ?_
  refine bind_ok (Within.listed ⟨b.distinct, nested⟩ reads.stmt rfl) ?_
  cases b
  rfl

theorem method (m : MethodDecl Span)
    (nested : Json.depthOfFields (Json.present m.entries) ≤ bound) :
    readers.method (.obj (Json.present m.entries)) = .ok m := by
  have params (v : VarDecl Span) (below : (Json.obj v.toFields).depth ≤ bound) :
      readers.varDecl (.obj v.toFields) = .ok v := by
    rw [v.toFields_eq] at below ⊢
    exact reads.varDecl v (Nat.le_of_succ_le below)
  have bodies (b : Block Span) (below : (Json.obj b.toFields).depth ≤ bound) :
      readers.block (.obj b.toFields) = .ok b := by
    rw [b.toFields_eq] at below ⊢
    exact reads.block b (Nat.le_of_succ_le below)
  refine m.distinct.node_ok rfl ?_
  refine bind_ok (m.distinct.required rfl rfl) ?_
  refine bind_ok (m.distinct.text rfl) ?_
  refine bind_ok (Within.listed ⟨m.distinct, nested⟩ params rfl) ?_
  refine bind_ok (Within.optional ⟨m.distinct, nested⟩ bodies (fun _ => nofun) rfl) ?_
  cases m
  rfl

theorem classDecl (place : Place) (decl : ClassDecl Span)
    (nested : Json.depthOfFields (Json.present decl.entries) ≤ bound) :
    readers.classDecl place (.obj (Json.present decl.entries)) = .ok decl :=
  classDecl_of_members reads.member place decl nested

/-- Expressions are read back from the fields behind their tag. -/
theorem exprOf (e : Expr Span) (nested : Json.depthOfFields (Json.present e.entries) ≤ bound) :
    readers.exprOf e.shape (.obj (Json.present e.entries)) = .ok e := by
  have distinct := e.distinct.2
  have fields : Within bound e.entries := ⟨distinct, nested⟩
  have bodies (decl : ClassDecl Span) (below : (Json.obj decl.toFields).depth ≤ bound) :
      readers.classDecl .inTagged (.obj decl.toFields) = .ok decl := by
    rw [decl.toFields_eq] at below ⊢
    exact reads.classDecl .inTagged decl (Nat.le_of_succ_le below)
  cases e with
  | literal span kind text type =>
      refine distinct.node_ok rfl ?_
      refine bind_ok (distinct.required rfl (Keyword.read_toJson .inTagged kind)) ?_
      refine bind_ok (distinct.withDefault rfl rfl) ?_
      exact bind_ok (distinct.text rfl) rfl
  | ident span name symbol type =>
      refine distinct.node_ok rfl ?_
      refine bind_ok (distinct.required rfl rfl) ?_
      refine bind_ok (distinct.text rfl) ?_
      exact bind_ok (distinct.text rfl) rfl
  | select span target name symbol type =>
      refine distinct.node_ok rfl ?_
      refine bind_ok (fields.required reads.expr rfl) ?_
      refine bind_ok (distinct.required rfl rfl) ?_
      refine bind_ok (distinct.text rfl) ?_
      exact bind_ok (distinct.text rfl) rfl
  | call span callee args symbol type =>
      refine distinct.node_ok rfl ?_
      refine bind_ok (fields.required reads.expr rfl) ?_
      refine bind_ok (fields.listed reads.expr rfl) ?_
      refine bind_ok (distinct.text rfl) ?_
      exact bind_ok (distinct.text rfl) rfl
  | creation span args body symbol type =>
      refine distinct.node_ok rfl ?_
      refine bind_ok (fields.listed reads.expr rfl) ?_
      refine bind_ok (fields.optional bodies (fun _ => nofun) rfl) ?_
      refine bind_ok (distinct.text rfl) ?_
      exact bind_ok (distinct.text rfl) rfl
  | assign span op target value type =>
      refine distinct.node_ok rfl ?_
      refine bind_ok (distinct.withDefault rfl (Keyword.read_toJson .inTagged op)) ?_
      refine bind_ok (fields.required reads.expr rfl) ?_
      refine bind_ok (fields.required reads.expr rfl) ?_
      exact bind_ok (distinct.text rfl) rfl
  | binary span op lhs rhs type =>
      refine distinct.node_ok rfl ?_
      refine bind_ok (distinct.required rfl (Keyword.read_toJson .inTagged op)) ?_
      refine bind_ok (fields.required reads.expr rfl) ?_
      refine bind_ok (fields.required reads.expr rfl) ?_
      exact bind_ok (distinct.text rfl) rfl
  | unary span op operand type =>
      refine distinct.node_ok rfl ?_
      refine bind_ok (distinct.required rfl (Keyword.read_toJson .inTagged op)) ?_
      refine bind_ok (fields.required reads.expr rfl) ?_
      exact bind_ok (distinct.text rfl) rfl
  | paren span inner type =>
      refine distinct.node_ok rfl ?_
      refine bind_ok (fields.required reads.expr rfl) ?_
      exact bind_ok (distinct.text rfl) rfl
  | cast span operand type =>
      refine distinct.node_ok rfl ?_
      refine bind_ok (fields.required reads.expr rfl) ?_
      exact bind_ok (distinct.text rfl) rfl
  | conditional span cond whenTrue whenFalse type =>
      refine distinct.node_ok rfl ?_
      refine bind_ok (fields.required reads.expr rfl) ?_
      refine bind_ok (fields.required reads.expr rfl) ?_
      refine bind_ok (fields.required reads.expr rfl) ?_
      exact bind_ok (distinct.text rfl) rfl
  | index span target position type =>
      refine distinct.node_ok rfl ?_
      refine bind_ok (fields.required reads.expr rfl) ?_
      refine bind_ok (fields.required reads.expr rfl) ?_
      exact bind_ok (distinct.text rfl) rfl

/-- Statements are read back from the fields behind their tag. -/
theorem stmtOf (s : Stmt Span) (nested : Json.depthOfFields (Json.present s.entries) ≤ bound) :
    readers.stmtOf s.shape (.obj (Json.present s.entries)) = .ok s := by
  have distinct := s.distinct.2
  have fields : Within bound s.entries := ⟨distinct, nested⟩
  cases s with
  | expression span expr =>
      refine distinct.node_ok rfl ?_
      exact bind_ok (fields.required reads.expr rfl) rfl
  | varDecl decl => exact congrArg (Stmt.varDecl <$> ·) (reads.varDecl decl nested)
  | ret span value =>
      refine distinct.node_ok rfl ?_
      exact bind_ok (fields.optional reads.expr Expr.toJson_ne_null rfl) rfl
  | ifElse span cond whenTrue whenFalse =>
      refine distinct.node_ok rfl ?_
      refine bind_ok (fields.required reads.expr rfl) ?_
      refine bind_ok (fields.required reads.stmt rfl) ?_
      exact bind_ok (fields.optional reads.stmt Stmt.toJson_ne_null rfl) rfl
  | whileLoop span cond body =>
      refine distinct.node_ok rfl ?_
      refine bind_ok (fields.required reads.expr rfl) ?_
      exact bind_ok (fields.required reads.stmt rfl) rfl
  | block b => exact congrArg (Stmt.block <$> ·) (reads.block b nested)
  | classDecl decl => exact congrArg (Stmt.classDecl <$> ·) (reads.classDecl .inTagged decl nested)
  | raise span value =>
      refine distinct.node_ok rfl ?_
      exact bind_ok (fields.required reads.expr rfl) rfl

/-- Members are read back from the fields behind their tag. -/
theorem memberOf (m : Member Span)
    (nested : Json.depthOfFields (Json.present m.entries) ≤ bound) :
    readers.memberOf m.shape (.obj (Json.present m.entries)) = .ok m := by
  cases m with
  | field decl => exact congrArg (Member.field <$> ·) (reads.varDecl decl nested)
  | method decl => exact congrArg (Member.method <$> ·) (reads.method decl nested)
  | classDecl decl =>
      exact congrArg (Member.classDecl <$> ·) (reads.classDecl .inTagged decl nested)
  | initBlock b => exact congrArg (Member.initBlock <$> ·) (reads.block b nested)

/-- What is written with one more level is read back by the readers for one more level. -/
theorem next : readers.next.ReadsBack (bound + 1) where
  expr e nested := by
    rw [e.toJson_eq] at nested ⊢
    exact (tagged_eq e.distinct.1 e.shape).trans (reads.exprOf e (Json.depth_le_of_tagged nested))
  stmt s nested := by
    rw [s.toJson_eq] at nested ⊢
    exact (tagged_eq s.distinct.1 s.shape).trans (reads.stmtOf s (Json.depth_le_of_tagged nested))
  member m nested := by
    rw [m.toJson_eq] at nested ⊢
    exact (tagged_eq m.distinct.1 m.shape).trans
      (reads.memberOf m (Json.depth_le_of_tagged nested))

end ReadsBack

/-- The readers for some depth read back all that is written with that depth. -/
theorem readsBack_ofDepth (depth : Nat) : (ofDepth depth).ReadsBack depth := by
  induction depth with
  | zero =>
      exact {
        expr := fun e flat => by rw [e.toJson_eq] at flat; cases flat
        stmt := fun s flat => by rw [s.toJson_eq] at flat; cases flat
        member := fun m flat => by rw [m.toJson_eq] at flat; cases flat }
  | succ depth ih => exact ih.next

end NodeReaders

/-! ### Nodes that no other node contains -/

/-- A member is read back. -/
theorem Member.read_toJson (m : Member Span) : read m.toJson = .ok m := by
  have readable : m.toJson.isReadable := Json.isReadable_of_isPlain _ m.isPlain_toJson
  have reads := NodeReaders.readsBack_ofDepth m.toJson.depth
  have nested : m.toJson.depth ≤ m.toJson.depth := Nat.le_refl _
  unfold read
  rw [readable]
  rw [m.toJson_eq] at nested reads ⊢
  refine (NodeReaders.tagged_eq m.distinct.1 m.shape).trans (reads.memberOf m ?_)
  exact Nat.le_of_succ_le nested

/-- A type declaration is read back. -/
theorem ClassDecl.read_toFields (decl : ClassDecl Span) : read (.obj decl.toFields) = .ok decl := by
  rw [decl.toFields_eq]
  exact NodeReaders.classDecl_of_members (fun m _ => m.read_toJson) .outside decl (Nat.le_refl _)

/-- The declared fields of a unit. -/
def CompilationUnit.entries (unit : CompilationUnit Span) : List (String × Option Json) :=
  [("file", some (.str unit.file)), ("package", unit.package.map .str),
    ("types", some (.arr (unit.types.map fun decl => .obj decl.toFields)))]

theorem CompilationUnit.toJson_eq (unit : CompilationUnit Span) :
    unit.toJson = .obj (Json.present unit.entries) := by
  obtain ⟨file, package, types⟩ := unit
  cases package <;> rfl

/-- A unit is read back. -/
theorem CompilationUnit.read_toJson (unit : CompilationUnit Span) :
    read unit.toJson = .ok unit := by
  have distinct : Distinct unit.entries := by simp [Distinct, entries]
  rw [unit.toJson_eq]
  refine bind_ok distinct.ofJson? ?_
  refine bind_ok (distinct.withDefault rfl rfl) ?_
  refine bind_ok (distinct.text rfl) ?_
  exact bind_ok (distinct.listed rfl fun decl _ => decl.read_toFields) rfl

end BugPatterns
