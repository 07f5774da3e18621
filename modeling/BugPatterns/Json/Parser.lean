import BugPatterns.Json.Token

/-!
# Values from tokens

A machine with a stack: each frame is a container part way through, so a value may be nested to
any depth. `Json.parse?` accepts exactly one value, with nothing but space around it.
-/

namespace BugPatterns

/-- A container part way through, its contents newest first. The name of the field under way is
    absent where the text of that name is unreadable. -/
inductive JsonFrame where
  | items (done : List Json)
  | fields (done : List (Option String × Json)) (name : Option String)
  deriving Repr

/-- What the next token may be. In `first` positions the container may also be closed at once. -/
inductive JsonExpect where
  | value
  | firstItem
  | firstName (outer : List JsonFrame)
  | name (done : List (Option String × Json)) (outer : List JsonFrame)
  | colon
  | next
  | nothing (result : Json)
  deriving Repr

/-- The containers around the next token, innermost first, and what that token may be. -/
structure JsonParser where
  frames : List JsonFrame
  expect : JsonExpect
  deriving Repr

namespace JsonParser

/-- The object with these fields, newest first; unreadable if one of the names is. -/
def object (done : List (Option String × Json)) : Json :=
  match done.mapM fun (name, value) => name.map fun name => (name, value) with
  | some fields => .obj fields.reverse
  | none => .unreadable

/-- Hands a finished value to the container around it. -/
def deliver (value : Json) : List JsonFrame → JsonParser
  | [] => ⟨[], .nothing value⟩
  | .items done :: outer => ⟨.items (value :: done) :: outer, .next⟩
  | .fields done name :: outer => ⟨.fields ((name, value) :: done) name :: outer, .next⟩

/-- Reads the first token of a value. -/
def beginValue (frames : List JsonFrame) : JsonToken → Option JsonParser
  | .scalar value => some (deliver value frames)
  | .text (some text) => some (deliver (.str text) frames)
  | .text none => some (deliver .unreadable frames)
  | .mark .leftBracket => some ⟨.items [] :: frames, .firstItem⟩
  | .mark .leftBrace => some ⟨[], .firstName frames⟩
  | .mark _ => none

/-- Reads one more token. -/
def step (parser : JsonParser) (token : JsonToken) : Option JsonParser :=
  match parser.expect, token, parser.frames with
  | .value, token, frames => beginValue frames token
  | .firstItem, .mark .rightBracket, _ :: outer => some (deliver (.arr []) outer)
  | .firstItem, token, frames => beginValue frames token
  | .firstName outer, .mark .rightBrace, _ => some (deliver (.obj []) outer)
  | .firstName outer, .text name, _ => some ⟨.fields [] name :: outer, .colon⟩
  | .name done outer, .text name, _ => some ⟨.fields done name :: outer, .colon⟩
  | .colon, .mark .colon, frames => some ⟨frames, .value⟩
  | .next, .mark .comma, .items done :: outer => some ⟨.items done :: outer, .value⟩
  | .next, .mark .rightBracket, .items done :: outer =>
      some (deliver (.arr done.reverse) outer)
  | .next, .mark .comma, .fields done _ :: outer => some ⟨[], .name done outer⟩
  | .next, .mark .rightBrace, .fields done _ :: outer => some (deliver (object done) outer)
  | _, _, _ => none

/-- The value read, if it is complete. -/
def finish (parser : JsonParser) : Option Json :=
  match parser.expect with
  | .nothing result => some result
  | _ => none

end JsonParser

/-- The value a list of tokens writes. -/
def Json.ofTokens? (tokens : List JsonToken) : Option Json := do
  let parser ← tokens.foldlM JsonParser.step ⟨[], .value⟩
  parser.finish

/-- The value a text writes, or nothing if the text is not well-formed. -/
def Json.parse? (text : String) : Option Json := do
  Json.ofTokens? (← JsonToken.scan text)

end BugPatterns
