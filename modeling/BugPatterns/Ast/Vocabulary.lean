import BugPatterns.Json.Record

/-!
# The closed vocabularies of syntax trees

Kinds of declarations, literals and operators, and the kinds of nodes that checks subscribe to.
-/

namespace BugPatterns

/-- The kind of a type declaration. -/
inductive ClassKind where
  | ordinary
  | interface
  | enum
  | annotationType
  deriving DecidableEq, Repr, Inhabited

instance : Keyword ClassKind where
  all := [.ordinary, .interface, .enum, .annotationType]
  word
    | .ordinary => "class"
    | .interface => "interface"
    | .enum => "enum"
    | .annotationType => "annotation"

/-- The kind of a literal. -/
inductive LiteralKind where
  | string
  | char
  | int
  | long
  | float
  | double
  | boolean
  | null
  deriving DecidableEq, Repr

instance : Keyword LiteralKind where
  all := [.string, .char, .int, .long, .float, .double, .boolean, .null]
  word
    | .string => "string"
    | .char => "char"
    | .int => "int"
    | .long => "long"
    | .float => "float"
    | .double => "double"
    | .boolean => "boolean"
    | .null => "null"

/-- The operator of an assignment: the plain one or one that combines old and new value. -/
inductive AssignOp where
  | assign
  | plus
  | minus
  | multiply
  | divide
  | remainder
  | and
  | or
  | xor
  | shiftLeft
  | shiftRight
  deriving DecidableEq, Repr, Inhabited

instance : Keyword AssignOp where
  all := [.assign, .plus, .minus, .multiply, .divide, .remainder, .and, .or, .xor, .shiftLeft,
    .shiftRight]
  word
    | .assign => "assign"
    | .plus => "plus_assign"
    | .minus => "minus_assign"
    | .multiply => "multiply_assign"
    | .divide => "divide_assign"
    | .remainder => "remainder_assign"
    | .and => "and_assign"
    | .or => "or_assign"
    | .xor => "xor_assign"
    | .shiftLeft => "shift_left_assign"
    | .shiftRight => "shift_right_assign"

/-- An operator between two operands. -/
inductive BinaryOp where
  | equalTo
  | notEqualTo
  | plus
  | minus
  | multiply
  | divide
  | remainder
  | lessThan
  | lessEqual
  | greaterThan
  | greaterEqual
  | and
  | or
  | bitAnd
  | bitOr
  | xor
  | shiftLeft
  | shiftRight
  deriving DecidableEq, Repr

instance : Keyword BinaryOp where
  all := [.equalTo, .notEqualTo, .plus, .minus, .multiply, .divide, .remainder, .lessThan,
    .lessEqual, .greaterThan, .greaterEqual, .and, .or, .bitAnd, .bitOr, .xor, .shiftLeft,
    .shiftRight]
  word
    | .equalTo => "equal_to"
    | .notEqualTo => "not_equal_to"
    | .plus => "plus"
    | .minus => "minus"
    | .multiply => "multiply"
    | .divide => "divide"
    | .remainder => "remainder"
    | .lessThan => "less_than"
    | .lessEqual => "less_equal"
    | .greaterThan => "greater_than"
    | .greaterEqual => "greater_equal"
    | .and => "and"
    | .or => "or"
    | .bitAnd => "bit_and"
    | .bitOr => "bit_or"
    | .xor => "xor"
    | .shiftLeft => "shift_left"
    | .shiftRight => "shift_right"

/-- An operator on one operand. -/
inductive UnaryOp where
  | plus
  | minus
  | not
  | complement
  | preIncrement
  | preDecrement
  | postIncrement
  | postDecrement
  deriving DecidableEq, Repr

instance : Keyword UnaryOp where
  all := [.plus, .minus, .not, .complement, .preIncrement, .preDecrement, .postIncrement,
    .postDecrement]
  word
    | .plus => "plus"
    | .minus => "minus"
    | .not => "not"
    | .complement => "complement"
    | .preIncrement => "pre_increment"
    | .preDecrement => "pre_decrement"
    | .postIncrement => "post_increment"
    | .postDecrement => "post_decrement"

/-- The kind of a node, by which checks choose the nodes they see. Three binary operators and the
    `null` literal have kinds of their own. -/
inductive NodeKind where
  | compilationUnit
  | ordinaryClass
  | interface
  | enum
  | annotationType
  | method
  | varDecl
  | block
  | expressionStatement
  | returnStatement
  | ifStatement
  | whileStatement
  | throwStatement
  | literal
  | nullLiteral
  | identifier
  | memberSelect
  | methodInvocation
  | newClass
  | assignment
  | equalTo
  | notEqualTo
  | plus
  | binary
  | unary
  | parenthesized
  | typeCast
  | conditional
  | arrayAccess
  deriving DecidableEq, Repr

instance : Keyword NodeKind where
  all := [.compilationUnit, .ordinaryClass, .interface, .enum, .annotationType, .method, .varDecl,
    .block, .expressionStatement, .returnStatement, .ifStatement, .whileStatement,
    .throwStatement, .literal, .nullLiteral, .identifier, .memberSelect, .methodInvocation,
    .newClass, .assignment, .equalTo, .notEqualTo, .plus, .binary, .unary, .parenthesized,
    .typeCast, .conditional, .arrayAccess]
  word
    | .compilationUnit => "compilation_unit"
    | .ordinaryClass => "class"
    | .interface => "interface"
    | .enum => "enum"
    | .annotationType => "annotation"
    | .method => "method"
    | .varDecl => "variable"
    | .block => "block"
    | .expressionStatement => "expression_statement"
    | .returnStatement => "return"
    | .ifStatement => "if"
    | .whileStatement => "while"
    | .throwStatement => "throw"
    | .literal => "literal"
    | .nullLiteral => "null_literal"
    | .identifier => "identifier"
    | .memberSelect => "member_select"
    | .methodInvocation => "method_invocation"
    | .newClass => "new_class"
    | .assignment => "assignment"
    | .equalTo => "equal_to"
    | .notEqualTo => "not_equal_to"
    | .plus => "plus"
    | .binary => "binary"
    | .unary => "unary"
    | .parenthesized => "parenthesized"
    | .typeCast => "type_cast"
    | .conditional => "conditional"
    | .arrayAccess => "array_access"

namespace NodeKind

/-- The node kind of a type declaration. -/
def ofClassKind : ClassKind → NodeKind
  | .ordinary => .ordinaryClass
  | .interface => .interface
  | .enum => .enum
  | .annotationType => .annotationType

/-- The node kind of a binary expression. -/
def ofBinaryOp : BinaryOp → NodeKind
  | .equalTo => .equalTo
  | .notEqualTo => .notEqualTo
  | .plus => .plus
  | _ => .binary

/-- The kind is one of the four kinds of type declarations. -/
def isTypeDeclaration : NodeKind → Bool
  | .ordinaryClass | .interface | .enum | .annotationType => true
  | _ => false

end NodeKind

end BugPatterns
