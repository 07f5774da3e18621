import BugPatterns.Ast.Basic
import BugPatterns.Ast.Span

/-!
# Reading trees

The three tagged kinds of nodes refer to each other, so their readers are built together, for
values of bounded depth: the readers for one more level of nesting are made from those for one
level less. The depth of the value itself is always enough.
-/

namespace BugPatterns

/-- The shapes of a tagged member. -/
inductive MemberShape where
  | field
  | method
  | classDecl
  | initBlock
  deriving DecidableEq, Repr

instance : Keyword MemberShape where
  all := [.field, .method, .classDecl, .initBlock]
  word
    | .field => "field"
    | .method => "method"
    | .classDecl => "class"
    | .initBlock => "initializer"

/-- The shapes of a tagged statement. -/
inductive StmtShape where
  | expression
  | varDecl
  | ret
  | ifElse
  | whileLoop
  | block
  | classDecl
  | raise
  deriving DecidableEq, Repr

instance : Keyword StmtShape where
  all := [.expression, .varDecl, .ret, .ifElse, .whileLoop, .block, .classDecl, .raise]
  word
    | .expression => "expr"
    | .varDecl => "local"
    | .ret => "return"
    | .ifElse => "if"
    | .whileLoop => "while"
    | .block => "block"
    | .classDecl => "class"
    | .raise => "throw"

/-- The shapes of a tagged expression. -/
inductive ExprShape where
  | literal
  | ident
  | select
  | call
  | creation
  | assign
  | binary
  | unary
  | paren
  | cast
  | conditional
  | index
  deriving DecidableEq, Repr

instance : Keyword ExprShape where
  all := [.literal, .ident, .select, .call, .creation, .assign, .binary, .unary, .paren, .cast,
    .conditional, .index]
  word
    | .literal => "literal"
    | .ident => "ident"
    | .select => "select"
    | .call => "call"
    | .creation => "new"
    | .assign => "assign"
    | .binary => "binary"
    | .unary => "unary"
    | .paren => "paren"
    | .cast => "cast"
    | .conditional => "conditional"
    | .index => "index"

/-- The span of a node, which may be left out. -/
def Record.span (record : Record) : Except ReadError Span :=
  record.withDefault "span" .unknown Span.read

/-- A field that holds a string and may be absent. -/
def Record.text? (record : Record) (name : String) : Except ReadError (Option String) :=
  record.optional name Json.readString

/-- Readers for the three tagged kinds of nodes. -/
structure NodeReaders where
  expr : Reader (Expr Span)
  stmt : Reader (Stmt Span)
  member : Reader (Member Span)

namespace NodeReaders

/-- Reads a variable declaration. -/
def varDecl (readers : NodeReaders) : Reader (VarDecl Span) := fun json => do
  let record ← Record.ofJson? ["span", "name", "symbol", "type", "init"] json
  return {
    label := ← record.span
    name := ← record.required "name" Json.readString
    symbol := ← record.text? "symbol"
    type := ← record.text? "type"
    init := ← record.optional "init" readers.expr }

/-- Reads a block. -/
def block (readers : NodeReaders) : Reader (Block Span) := fun json => do
  let record ← Record.ofJson? ["span", "stmts"] json
  return {
    label := ← record.span
    stmts := ← record.withDefault "stmts" [] (Json.readList readers.stmt) }

/-- Reads a method. -/
def method (readers : NodeReaders) : Reader (MethodDecl Span) := fun json => do
  let record ← Record.ofJson? ["span", "name", "symbol", "params", "body"] json
  return {
    label := ← record.span
    name := ← record.required "name" Json.readString
    symbol := ← record.text? "symbol"
    params := ← record.withDefault "params" [] (Json.readList readers.varDecl)
    body := ← record.optional "body" readers.block }

/-- Reads a type declaration. -/
def classDecl (readers : NodeReaders) (place : Place) : Reader (ClassDecl Span) := fun json => do
  let record ← Record.ofJson? ["span", "kind", "name", "symbol", "members"] json
  return {
    label := ← record.span
    kind := ← record.withDefault "kind" .ordinary (Keyword.read place)
    name := ← record.text? "name"
    symbol := ← record.text? "symbol"
    members := ← record.withDefault "members" [] (Json.readList readers.member) }

/-- Reads a member of a known shape. -/
def memberOf (readers : NodeReaders) : MemberShape → Reader (Member Span)
  | .field => fun json => .field <$> readers.varDecl json
  | .method => fun json => .method <$> readers.method json
  | .classDecl => fun json => .classDecl <$> readers.classDecl .inTagged json
  | .initBlock => fun json => .initBlock <$> readers.block json

/-- Reads a statement of a known shape. -/
def stmtOf (readers : NodeReaders) : StmtShape → Reader (Stmt Span)
  | .expression => fun json => do
      let record ← Record.ofJson? ["span", "expr"] json
      return .expression (← record.span) (← record.required "expr" readers.expr)
  | .varDecl => fun json => .varDecl <$> readers.varDecl json
  | .ret => fun json => do
      let record ← Record.ofJson? ["span", "value"] json
      return .ret (← record.span) (← record.optional "value" readers.expr)
  | .ifElse => fun json => do
      let record ← Record.ofJson? ["span", "cond", "then", "otherwise"] json
      return .ifElse (← record.span) (← record.required "cond" readers.expr)
        (← record.required "then" readers.stmt) (← record.optional "otherwise" readers.stmt)
  | .whileLoop => fun json => do
      let record ← Record.ofJson? ["span", "cond", "body"] json
      return .whileLoop (← record.span) (← record.required "cond" readers.expr)
        (← record.required "body" readers.stmt)
  | .block => fun json => .block <$> readers.block json
  | .classDecl => fun json => .classDecl <$> readers.classDecl .inTagged json
  | .raise => fun json => do
      let record ← Record.ofJson? ["span", "value"] json
      return .raise (← record.span) (← record.required "value" readers.expr)

/-- Reads an expression of a known shape. -/
def exprOf (readers : NodeReaders) : ExprShape → Reader (Expr Span)
  | .literal => fun json => do
      let record ← Record.ofJson? ["span", "literal", "value", "type"] json
      return .literal (← record.span) (← record.required "literal" (Keyword.read .inTagged))
        (← record.withDefault "value" "" Json.readString) (← record.text? "type")
  | .ident => fun json => do
      let record ← Record.ofJson? ["span", "name", "symbol", "type"] json
      return .ident (← record.span) (← record.required "name" Json.readString)
        (← record.text? "symbol") (← record.text? "type")
  | .select => fun json => do
      let record ← Record.ofJson? ["span", "target", "name", "symbol", "type"] json
      return .select (← record.span) (← record.required "target" readers.expr)
        (← record.required "name" Json.readString) (← record.text? "symbol")
        (← record.text? "type")
  | .call => fun json => do
      let record ← Record.ofJson? ["span", "callee", "args", "symbol", "type"] json
      return .call (← record.span) (← record.required "callee" readers.expr)
        (← record.withDefault "args" [] (Json.readList readers.expr)) (← record.text? "symbol")
        (← record.text? "type")
  | .creation => fun json => do
      let record ← Record.ofJson? ["span", "args", "body", "symbol", "type"] json
      return .creation (← record.span)
        (← record.withDefault "args" [] (Json.readList readers.expr))
        (← record.optional "body" (readers.classDecl .inTagged)) (← record.text? "symbol")
        (← record.text? "type")
  | .assign => fun json => do
      let record ← Record.ofJson? ["span", "op", "target", "value", "type"] json
      return .assign (← record.span) (← record.withDefault "op" .assign (Keyword.read .inTagged))
        (← record.required "target" readers.expr) (← record.required "value" readers.expr)
        (← record.text? "type")
  | .binary => fun json => do
      let record ← Record.ofJson? ["span", "op", "lhs", "rhs", "type"] json
      return .binary (← record.span) (← record.required "op" (Keyword.read .inTagged))
        (← record.required "lhs" readers.expr) (← record.required "rhs" readers.expr)
        (← record.text? "type")
  | .unary => fun json => do
      let record ← Record.ofJson? ["span", "op", "operand", "type"] json
      return .unary (← record.span) (← record.required "op" (Keyword.read .inTagged))
        (← record.required "operand" readers.expr) (← record.text? "type")
  | .paren => fun json => do
      let record ← Record.ofJson? ["span", "inner", "type"] json
      return .paren (← record.span) (← record.required "inner" readers.expr)
        (← record.text? "type")
  | .cast => fun json => do
      let record ← Record.ofJson? ["span", "operand", "type"] json
      return .cast (← record.span) (← record.required "operand" readers.expr)
        (← record.text? "type")
  | .conditional => fun json => do
      let record ← Record.ofJson? ["span", "cond", "then", "otherwise", "type"] json
      return .conditional (← record.span) (← record.required "cond" readers.expr)
        (← record.required "then" readers.expr) (← record.required "otherwise" readers.expr)
        (← record.text? "type")
  | .index => fun json => do
      let record ← Record.ofJson? ["span", "target", "index", "type"] json
      return .index (← record.span) (← record.required "target" readers.expr)
        (← record.required "index" readers.expr) (← record.text? "type")

/-- Reads a tagged object: first its tag, then the shape that the tag names. -/
def tagged {σ α : Type} [Keyword σ] (tag : String) (place : Place) (read : σ → Reader α) :
    Reader α := fun json => do
  let (value, rest) ← Json.splitTag tag json
  read (← Keyword.readTag place value) rest

/-- Readers that are made from those for one level of nesting less. -/
def next (readers : NodeReaders) : NodeReaders where
  expr := tagged "expr" .inTagged readers.exprOf
  stmt := tagged "stmt" .inTagged readers.stmtOf
  member := tagged "member" .inTagged readers.memberOf

/-- Readers for values nested to some depth inside a tagged object. Nothing tagged has depth
    zero. -/
def ofDepth : Nat → NodeReaders
  | 0 => ⟨fun _ => .error .invalid, fun _ => .error .invalid, fun _ => .error .invalid⟩
  | depth + 1 => next (ofDepth depth)

end NodeReaders

/-- Reads an outermost member. Everything in it has to be readable, even what no field takes. -/
def Member.read : Reader (Member Span) := fun json => do
  if !json.isReadable then throw .invalid
  NodeReaders.tagged "member" .outside (NodeReaders.ofDepth json.depth).memberOf json

/-- Reads a type declaration that no other node contains. -/
def ClassDecl.read : Reader (ClassDecl Span) :=
  NodeReaders.classDecl { NodeReaders.ofDepth 0 with member := Member.read } .outside

/-- Reads a unit; all its fields may be left out. -/
def CompilationUnit.read : Reader (CompilationUnit Span) := fun json => do
  let record ← Record.ofJson? ["file", "package", "types"] json
  return {
    file := ← record.withDefault "file" "" Json.readString
    package := ← record.text? "package"
    types := ← record.withDefault "types" [] (Json.readList ClassDecl.read) }

end BugPatterns
