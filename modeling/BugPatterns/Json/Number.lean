import BugPatterns.Json.Basic

/-!
# Number literals

A literal is an optional minus sign, a whole part without leading zeros, an optional fraction and
an optional exponent. A literal of digits only is a natural number. One whose size rounds to no
finite binary64 number is unreadable.
-/

namespace BugPatterns

/-- The parts of a number literal; the whole part and the fraction are digits as written. -/
structure NumberLiteral where
  negative : Bool
  whole : List Char
  fraction : Option (List Char)
  exponent : Option Int
  deriving DecidableEq, Repr

namespace NumberLiteral

/-- The number a list of decimal digits denotes. -/
def digitsValue (digits : List Char) : Nat :=
  digits.foldl (fun value c => 10 * value + (c.toNat - '0'.toNat)) 0

/-- Splits off the leading digits. -/
def spanDigits (chars : List Char) : List Char × List Char :=
  (chars.takeWhile Char.isDigit, chars.dropWhile Char.isDigit)

/-- Whether digits may form a whole part: there is one, and a leading zero stands alone. -/
def isWhole : List Char → Bool
  | [] => false
  | '0' :: rest => rest.isEmpty
  | _ => true

/-- Reads the fraction, if a point follows, and gives back the rest. -/
def fraction? : List Char → Option (Option (List Char) × List Char)
  | '.' :: chars =>
      match spanDigits chars with
      | ([], _) => none
      | (digits, rest) => some (some digits, rest)
  | chars => some (none, chars)

/-- Reads the digits of an exponent, which end the literal. -/
def exponentDigits? (chars : List Char) : Option Nat :=
  if chars.isEmpty || chars.any (fun c => !c.isDigit) then none else some (digitsValue chars)

/-- Reads an exponent, if there is one, up to the end of the literal. -/
def exponent? : List Char → Option (Option Int)
  | [] => some none
  | e :: chars =>
      if e = 'e' || e = 'E' then
        match chars with
        | '+' :: digits => (exponentDigits? digits).map fun n => some (n : Int)
        | '-' :: digits => (exponentDigits? digits).map fun n => some (-(n : Int))
        | digits => (exponentDigits? digits).map fun n => some (n : Int)
      else none

/-- Reads an unsigned literal. -/
def unsigned? (negative : Bool) (chars : List Char) : Option NumberLiteral := do
  let (whole, rest) := spanDigits chars
  guard (isWhole whole)
  let (fraction, rest) ← fraction? rest
  let exponent ← exponent? rest
  return ⟨negative, whole, fraction, exponent⟩

/-- Reads a whole literal, or nothing if the characters do not form one. -/
def parse? : List Char → Option NumberLiteral
  | '-' :: chars => unsigned? true chars
  | chars => unsigned? false chars

/-- The least size that rounds to no finite binary64 number. -/
def firstInfinite : Nat := Nat.pow 2 1024 - Nat.pow 2 970

/-- The size of the literal, its digits times a power of ten, reaches `firstInfinite`. Only sizes
    of 309 digits before the point are compared exactly, so no large power is ever formed. -/
def isBeyondFinite (literal : NumberLiteral) : Bool :=
  let fraction := literal.fraction.getD []
  let digits := (literal.whole ++ fraction).dropWhile (· = '0')
  let exponent := literal.exponent.getD 0 - fraction.length
  let magnitude := digits.length + exponent
  if digits.isEmpty || magnitude < 309 then false
  else if magnitude > 309 then true
  else if 0 ≤ exponent then firstInfinite ≤ digitsValue digits * Nat.pow 10 exponent.toNat
  else firstInfinite * Nat.pow 10 (-exponent).toNat ≤ digitsValue digits

/-- The value of a literal that was written as `text`. -/
def value (literal : NumberLiteral) (text : List Char) : Json :=
  if literal.isBeyondFinite then .unreadable
  else if literal.negative || literal.fraction.isSome || literal.exponent.isSome then
    .num (.other (String.ofList text))
  else .nat (digitsValue literal.whole)

end NumberLiteral

end BugPatterns
