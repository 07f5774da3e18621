import BugPatterns.Json.Basic

/-!
# Text of values

Values are written on one line without space. Inside strings the quote, the backslash and the
control characters are escaped, and every other character stands for itself.

Each part is written in front of what comes after it, so a text is built in one go however deeply
its values are nested.
-/

namespace BugPatterns.Json

/-- The hexadecimal digit of a number below sixteen. -/
def hexDigit (n : Nat) : Char :=
  if n < 10 then Char.ofNat ('0'.toNat + n) else Char.ofNat ('a'.toNat + (n - 10))

/-- A character as it stands inside a string literal. -/
def escapeChar (c : Char) : List Char :=
  if c = '"' then ['\\', '"']
  else if c = '\\' then ['\\', '\\']
  else if c = '\n' then ['\\', 'n']
  else if c = '\r' then ['\\', 'r']
  else if c = '\t' then ['\\', 't']
  else if c = '\x08' then ['\\', 'b']
  else if c = '\x0c' then ['\\', 'f']
  else if c.toNat < 0x20 then
    ['\\', 'u', '0', '0', hexDigit (c.toNat / 16), hexDigit (c.toNat % 16)]
  else [c]

/-- The literal of a string, in front of `rest`. -/
def quote (text : String) (rest : List Char) : List Char :=
  '"' :: text.toList.flatMap escapeChar ++ '"' :: rest

mutual

/-- The text of a value, in front of `rest`. What is unreadable has no text of its own and is
    written as `null`. -/
def write : Json → List Char → List Char
  | .null, rest => "null".toList ++ rest
  | .bool true, rest => "true".toList ++ rest
  | .bool false, rest => "false".toList ++ rest
  | .num (.natural n), rest => Nat.toDigits 10 n ++ rest
  | .num (.other text), rest => text.toList ++ rest
  | .str text, rest => quote text rest
  | .arr items, rest => '[' :: writeItems items (']' :: rest)
  | .obj fields, rest => '\x7b' :: writeFields fields ('\x7d' :: rest)
  | .unreadable, rest => "null".toList ++ rest

/-- The items of an array with commas between them, in front of `rest`. -/
def writeItems : List Json → List Char → List Char
  | [], rest => rest
  | [item], rest => item.write rest
  | item :: items, rest => item.write (',' :: writeItems items rest)

/-- The fields of an object with commas between them, in front of `rest`. -/
def writeFields : List (String × Json) → List Char → List Char
  | [], rest => rest
  | [(name, value)], rest => quote name (':' :: value.write rest)
  | (name, value) :: fields, rest =>
      quote name (':' :: value.write (',' :: writeFields fields rest))

end

/-- The text of a value. -/
def render (value : Json) : String := String.ofList (value.write [])

end BugPatterns.Json
