import BugPatterns.Ast.Span

/-!
# Verdicts on values

A value is a static constant, or dynamic but free of outside input, or of unknown origin. The last
verdict names a witness, the expression that is to blame for it. The verdict on a value that is
built from two others is the worse of theirs, and on a tie the left one, so that the witness of a
concatenation is its leftmost part that is to blame.
-/

namespace BugPatterns

/-- How far a value can be trusted. -/
inductive Constancy where
  | staticConstant
  | dynamicSafe
  | dynamicUnsafe
  deriving DecidableEq, Repr

instance : Keyword Constancy where
  all := [.staticConstant, .dynamicSafe, .dynamicUnsafe]
  word
    | .staticConstant => "STATIC_CONSTANT"
    | .dynamicSafe => "DYNAMIC_SAFE"
    | .dynamicUnsafe => "DYNAMIC_UNSAFE"

namespace Constancy

/-- The place in the order from most to least trustworthy. -/
def rank : Constancy → Nat
  | .staticConstant => 0
  | .dynamicSafe => 1
  | .dynamicUnsafe => 2

end Constancy

/-- What kind of expression is to blame. -/
inductive WitnessOrigin where
  | parameter
  | field
  | call
  | localVariable
  | unresolved
  | expression
  deriving DecidableEq, Repr

instance : Keyword WitnessOrigin where
  all := [.parameter, .field, .call, .localVariable, .unresolved, .expression]
  word
    | .parameter => "parameter"
    | .field => "field"
    | .call => "call"
    | .localVariable => "local"
    | .unresolved => "unresolved"
    | .expression => "expression"

/-- The expression that is to blame for an unsafe verdict. -/
structure Witness where
  name : String
  span : Span
  origin : WitnessOrigin
  deriving DecidableEq, Repr

/-- Writes a witness. -/
def Witness.toJson (witness : Witness) : Json :=
  .obj [("name", .str witness.name), ("span", witness.span.toJson),
    ("origin", Keyword.toJson witness.origin)]

/-- The verdict on a value, with a witness where one is known. -/
structure Verdict where
  constancy : Constancy
  witness : Option Witness
  deriving DecidableEq, Repr

namespace Verdict

/-- The verdict on a constant. -/
def constant : Verdict := ⟨.staticConstant, none⟩

/-- The verdict on a dynamic value without outside input. -/
def safe : Verdict := ⟨.dynamicSafe, none⟩

/-- The verdict on a value for which an expression is to blame. -/
def blame (name : String) (span : Span) (origin : WitnessOrigin) : Verdict :=
  ⟨.dynamicUnsafe, some ⟨name, span, origin⟩⟩

/-- The value may carry outside input. -/
def isUnsafe (verdict : Verdict) : Bool := verdict.constancy = .dynamicUnsafe

/-- The worse of two verdicts, the first one where they are equally bad. -/
def join (a b : Verdict) : Verdict := if a.constancy.rank < b.constancy.rank then b else a

/-- Writes a verdict. -/
def toJson (verdict : Verdict) : Json :=
  .obj <| [("constancy", Keyword.toJson verdict.constancy)] ++
    Json.optionalField "witness" Witness.toJson verdict.witness

end Verdict

end BugPatterns
