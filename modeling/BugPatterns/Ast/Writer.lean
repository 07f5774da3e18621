import BugPatterns.Ast.Basic
import BugPatterns.Ast.Span

/-!
# Writing trees

Each node is written as an object. Members, statements and expressions carry a tag, `member`,
`stmt` or `expr`, that says which shape they have; what a member or statement wraps is written
into the same object. Absent optional fields are left out, all others are written.
-/

namespace BugPatterns

/-- The fields that expressions may end with: the keys of their symbol and type. -/
def keyFields (symbol type : Option String) : List (String × Json) :=
  Json.optionalField "symbol" .str symbol ++ Json.optionalField "type" .str type

mutual

/-- Writes an expression. -/
def Expr.toJson : Expr Span → Json
  | .literal span kind text type => .obj <|
      [("expr", .str "literal"), ("span", span.toJson), ("literal", Keyword.toJson kind),
        ("value", .str text)] ++ keyFields none type
  | .ident span name symbol type => .obj <|
      [("expr", .str "ident"), ("span", span.toJson), ("name", .str name)] ++
        keyFields symbol type
  | .select span target name symbol type => .obj <|
      [("expr", .str "select"), ("span", span.toJson), ("target", target.toJson),
        ("name", .str name)] ++ keyFields symbol type
  | .call span callee args symbol type => .obj <|
      [("expr", .str "call"), ("span", span.toJson), ("callee", callee.toJson),
        ("args", .arr (Expr.allToJson args))] ++ keyFields symbol type
  | .creation span args body symbol type => .obj <|
      [("expr", .str "new"), ("span", span.toJson), ("args", .arr (Expr.allToJson args))] ++
        ClassDecl.bodyField body ++ keyFields symbol type
  | .assign span op target value type => .obj <|
      [("expr", .str "assign"), ("span", span.toJson), ("op", Keyword.toJson op),
        ("target", target.toJson), ("value", value.toJson)] ++ keyFields none type
  | .binary span op lhs rhs type => .obj <|
      [("expr", .str "binary"), ("span", span.toJson), ("op", Keyword.toJson op),
        ("lhs", lhs.toJson), ("rhs", rhs.toJson)] ++ keyFields none type
  | .unary span op operand type => .obj <|
      [("expr", .str "unary"), ("span", span.toJson), ("op", Keyword.toJson op),
        ("operand", operand.toJson)] ++ keyFields none type
  | .paren span inner type => .obj <|
      [("expr", .str "paren"), ("span", span.toJson), ("inner", inner.toJson)] ++
        keyFields none type
  | .cast span operand type => .obj <|
      [("expr", .str "cast"), ("span", span.toJson), ("operand", operand.toJson)] ++
        keyFields none type
  | .conditional span cond whenTrue whenFalse type => .obj <|
      [("expr", .str "conditional"), ("span", span.toJson), ("cond", cond.toJson),
        ("then", whenTrue.toJson), ("otherwise", whenFalse.toJson)] ++ keyFields none type
  | .index span target position type => .obj <|
      [("expr", .str "index"), ("span", span.toJson), ("target", target.toJson),
        ("index", position.toJson)] ++ keyFields none type

/-- Writes some expressions. -/
def Expr.allToJson : List (Expr Span) → List Json
  | [] => []
  | e :: es => e.toJson :: Expr.allToJson es

/-- A field that holds an expression, if there is one. -/
def Expr.optionalField (name : String) : Option (Expr Span) → List (String × Json)
  | none => []
  | some e => [(name, e.toJson)]

/-- Writes a statement. -/
def Stmt.toJson : Stmt Span → Json
  | .expression span expr => .obj
      [("stmt", .str "expr"), ("span", span.toJson), ("expr", expr.toJson)]
  | .varDecl decl => .obj (("stmt", .str "local") :: decl.toFields)
  | .ret span value => .obj <|
      [("stmt", .str "return"), ("span", span.toJson)] ++ Expr.optionalField "value" value
  | .ifElse span cond whenTrue whenFalse => .obj <|
      [("stmt", .str "if"), ("span", span.toJson), ("cond", cond.toJson),
        ("then", whenTrue.toJson)] ++ Stmt.otherwiseField whenFalse
  | .whileLoop span cond body => .obj
      [("stmt", .str "while"), ("span", span.toJson), ("cond", cond.toJson),
        ("body", body.toJson)]
  | .block block => .obj (("stmt", .str "block") :: block.toFields)
  | .classDecl decl => .obj (("stmt", .str "class") :: decl.toFields)
  | .raise span value => .obj
      [("stmt", .str "throw"), ("span", span.toJson), ("value", value.toJson)]

/-- Writes some statements. -/
def Stmt.allToJson : List (Stmt Span) → List Json
  | [] => []
  | s :: ss => s.toJson :: Stmt.allToJson ss

/-- The field of the second branch, if there is one. -/
def Stmt.otherwiseField : Option (Stmt Span) → List (String × Json)
  | none => []
  | some s => [("otherwise", s.toJson)]

/-- The fields of a block. -/
def Block.toFields : Block Span → List (String × Json)
  | ⟨span, stmts⟩ => [("span", span.toJson), ("stmts", .arr (Stmt.allToJson stmts))]

/-- The field of a method body, if there is one. -/
def Block.bodyField : Option (Block Span) → List (String × Json)
  | none => []
  | some b => [("body", .obj b.toFields)]

/-- The fields of a variable declaration. -/
def VarDecl.toFields : VarDecl Span → List (String × Json)
  | ⟨span, name, symbol, type, init⟩ =>
      [("span", span.toJson), ("name", .str name)] ++ keyFields symbol type ++
        Expr.optionalField "init" init

/-- Writes some variable declarations. -/
def VarDecl.allToJson : List (VarDecl Span) → List Json
  | [] => []
  | v :: vs => .obj v.toFields :: VarDecl.allToJson vs

/-- The fields of a method. -/
def MethodDecl.toFields : MethodDecl Span → List (String × Json)
  | ⟨span, name, symbol, params, body⟩ =>
      [("span", span.toJson), ("name", .str name)] ++ keyFields symbol none ++
        [("params", .arr (VarDecl.allToJson params))] ++ Block.bodyField body

/-- The fields of a type declaration. -/
def ClassDecl.toFields : ClassDecl Span → List (String × Json)
  | ⟨span, kind, name, symbol, members⟩ =>
      [("span", span.toJson), ("kind", Keyword.toJson kind)] ++
        Json.optionalField "name" .str name ++ keyFields symbol none ++
        [("members", .arr (Member.allToJson members))]

/-- The field of an anonymous class body, if there is one. -/
def ClassDecl.bodyField : Option (ClassDecl Span) → List (String × Json)
  | none => []
  | some d => [("body", .obj d.toFields)]

/-- Writes a member. -/
def Member.toJson : Member Span → Json
  | .field decl => .obj (("member", .str "field") :: decl.toFields)
  | .method decl => .obj (("member", .str "method") :: decl.toFields)
  | .classDecl decl => .obj (("member", .str "class") :: decl.toFields)
  | .initBlock block => .obj (("member", .str "initializer") :: block.toFields)

/-- Writes some members. -/
def Member.allToJson : List (Member Span) → List Json
  | [] => []
  | d :: ds => d.toJson :: Member.allToJson ds

end

/-- Writes a unit. -/
def CompilationUnit.toJson (unit : CompilationUnit Span) : Json :=
  .obj <| [("file", .str unit.file)] ++ Json.optionalField "package" .str unit.package ++
    [("types", .arr (unit.types.map fun decl => .obj decl.toFields))]

end BugPatterns
