import BugPatterns.Json.Number

/-!
# Tokens of JSON text

The text is read one character at a time by a machine whose whole memory is `Lexer`: the tokens
found so far and the token under way. So reading needs no look-ahead, and what a text means can be
told from what its parts mean.
-/

namespace BugPatterns

/-- The six marks that hold containers together. -/
inductive JsonMark where
  | leftBracket
  | rightBracket
  | leftBrace
  | rightBrace
  | comma
  | colon
  deriving DecidableEq, Repr

/-- The mark a character stands for. -/
def JsonMark.ofChar? : Char → Option JsonMark
  | '[' => some .leftBracket
  | ']' => some .rightBracket
  | '\x7b' => some .leftBrace
  | '\x7d' => some .rightBrace
  | ',' => some .comma
  | ':' => some .colon
  | _ => none

/-- A token. A string whose escapes leave a surrogate unpaired has no text. -/
inductive JsonToken where
  | mark (mark : JsonMark)
  | scalar (value : Json)
  | text (text : Option String)
  deriving Repr

/-- The part of a string literal read so far: its characters, newest first, a high surrogate that
    waits for its partner, and whether every earlier surrogate had one. -/
structure TextDraft where
  chars : List Char
  high : Option Nat
  paired : Bool
  deriving Repr

namespace TextDraft

/-- Nothing read yet. -/
def empty : TextDraft := ⟨[], none, true⟩

/-- Adds a character; a waiting surrogate stays alone. -/
def push (draft : TextDraft) (c : Char) : TextDraft :=
  ⟨c :: draft.chars, none, draft.paired && draft.high.isNone⟩

/-- The code point of a surrogate pair. -/
def combine (high low : Nat) : Nat := 0x10000 + (high - 0xD800) * 0x400 + (low - 0xDC00)

/-- Adds a UTF-16 unit given by an escape. -/
def pushUnit (draft : TextDraft) (unit : Nat) : TextDraft :=
  if 0xD800 ≤ unit && unit < 0xDC00 then
    ⟨draft.chars, some unit, draft.paired && draft.high.isNone⟩
  else if 0xDC00 ≤ unit && unit < 0xE000 then
    match draft.high with
    | some high => ⟨Char.ofNat (combine high unit) :: draft.chars, none, draft.paired⟩
    | none => ⟨draft.chars, none, false⟩
  else draft.push (Char.ofNat unit)

/-- The text of the finished literal. -/
def finish (draft : TextDraft) : Option String :=
  if draft.paired && draft.high.isNone then some (String.ofList draft.chars.reverse) else none

end TextDraft

/-- The token under way, its characters newest first. -/
inductive LexerMode where
  | between
  | word (letters : List Char)
  | number (chars : List Char)
  | text (draft : TextDraft)
  | escape (draft : TextDraft)
  | hex (draft : TextDraft) (missing : Nat) (unit : Nat)
  deriving Repr

/-- The tokens found so far, newest first, and the token under way. -/
structure Lexer where
  tokens : List JsonToken
  mode : LexerMode
  deriving Repr

namespace Lexer

/-- The four characters that may stand between tokens. -/
def isSpace (c : Char) : Bool := c = ' ' || c = '\t' || c = '\n' || c = '\r'

/-- The characters a number literal is made of. -/
def isNumberChar (c : Char) : Bool :=
  c.isDigit || c = '-' || c = '+' || c = '.' || c = 'e' || c = 'E'

/-- The value of a hexadecimal digit. -/
def hexDigit? (c : Char) : Option Nat :=
  if c.isDigit then some (c.toNat - '0'.toNat)
  else if 'a' ≤ c && c ≤ 'f' then some (c.toNat - 'a'.toNat + 10)
  else if 'A' ≤ c && c ≤ 'F' then some (c.toNat - 'A'.toNat + 10)
  else none

/-- The character an escape of one letter stands for. -/
def escaped? : Char → Option Char
  | '"' => some '"'
  | '\\' => some '\\'
  | '/' => some '/'
  | 'b' => some '\x08'
  | 'f' => some '\x0c'
  | 'n' => some '\n'
  | 'r' => some '\r'
  | 't' => some '\t'
  | _ => none

/-- The value a bare word stands for. -/
def word? (letters : List Char) : Option Json :=
  if letters = ['n', 'u', 'l', 'l'] then some .null
  else if letters = ['t', 'r', 'u', 'e'] then some (.bool true)
  else if letters = ['f', 'a', 'l', 's', 'e'] then some (.bool false)
  else none

/-- The value of a number literal. -/
def number? (chars : List Char) : Option Json :=
  (NumberLiteral.parse? chars).map fun literal => literal.value chars

/-- A character that belongs to no token under way is a space, a mark or the start of a token. -/
def begin (tokens : List JsonToken) (c : Char) : Option Lexer :=
  if isSpace c then some ⟨tokens, .between⟩
  else if c = '"' then some ⟨tokens, .text .empty⟩
  else if c = '-' || c.isDigit then some ⟨tokens, .number [c]⟩
  else if c.isAlpha then some ⟨tokens, .word [c]⟩
  else (JsonMark.ofChar? c).map fun mark => ⟨.mark mark :: tokens, .between⟩

/-- Reads one more character. -/
def step (lexer : Lexer) (c : Char) : Option Lexer :=
  match lexer.mode with
  | .between => begin lexer.tokens c
  | .word letters =>
      if c.isAlpha then some ⟨lexer.tokens, .word (c :: letters)⟩
      else (word? letters.reverse).bind fun value => begin (.scalar value :: lexer.tokens) c
  | .number chars =>
      if isNumberChar c then some ⟨lexer.tokens, .number (c :: chars)⟩
      else (number? chars.reverse).bind fun value => begin (.scalar value :: lexer.tokens) c
  | .text draft =>
      if c = '"' then some ⟨.text draft.finish :: lexer.tokens, .between⟩
      else if c = '\\' then some ⟨lexer.tokens, .escape draft⟩
      else if c.toNat < 0x20 then none
      else some ⟨lexer.tokens, .text (draft.push c)⟩
  | .escape draft =>
      if c = 'u' then some ⟨lexer.tokens, .hex draft 3 0⟩
      else (escaped? c).map fun e => ⟨lexer.tokens, .text (draft.push e)⟩
  | .hex draft missing unit =>
      (hexDigit? c).map fun digit =>
        match missing with
        | 0 => ⟨lexer.tokens, .text (draft.pushUnit (16 * unit + digit))⟩
        | missing + 1 => ⟨lexer.tokens, .hex draft missing (16 * unit + digit)⟩

/-- All tokens, once the text has ended; a string may not be left open. -/
def finish (lexer : Lexer) : Option (List JsonToken) :=
  match lexer.mode with
  | .between => some lexer.tokens.reverse
  | .word letters =>
      (word? letters.reverse).map fun value => (.scalar value :: lexer.tokens).reverse
  | .number chars =>
      (number? chars.reverse).map fun value => (.scalar value :: lexer.tokens).reverse
  | _ => none

end Lexer

/-- The tokens of a text, or nothing if some part of it is no token. -/
def JsonToken.scan (text : String) : Option (List JsonToken) := do
  let lexer ← text.toList.foldlM Lexer.step ⟨[], .between⟩
  lexer.finish

end BugPatterns
