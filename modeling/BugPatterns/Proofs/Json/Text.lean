import BugPatterns.Json.Parser
import BugPatterns.Proofs.Json.Scan

/-!
# The text of a value is read back

The parser gets past the tokens of a value in one large step, and hands the value to the container
around it (`JsonParser.after_tokens`). So a plain value is read back from its text
(`Json.parse?_render`).
-/

namespace BugPatterns

namespace JsonParser

/-- The parser that has read some tokens, the newest of which stands first. -/
def after (tokens : List JsonToken) : Option JsonParser :=
  tokens.reverse.foldlM step ⟨[], .value⟩

theorem after_cons {tokens : List JsonToken} {token : JsonToken} {parser next : JsonParser}
    (before : after tokens = some parser) (one : step parser token = some next) :
    after (token :: tokens) = some next := by
  have split : after (token :: tokens) = (after tokens).bind (step · token) := by
    simp [after, List.foldlM_append]
  rw [split, before]
  exact one

/-- The next token starts a value that goes into these containers. -/
def Awaits (frames : List JsonFrame) (parser : JsonParser) : Prop :=
  ∀ token, token ≠ .mark .rightBracket → step parser token = beginValue frames token

theorem awaits_value (frames : List JsonFrame) : Awaits frames ⟨frames, .value⟩ :=
  fun _ _ => rfl

theorem awaits_firstItem (frame : JsonFrame) (outer : List JsonFrame) :
    Awaits (frame :: outer) ⟨frame :: outer, .firstItem⟩ := by
  intro token other
  unfold step
  split <;> simp_all

/-- The next token names a field of an object under way. -/
def AwaitsName (done : List (Option String × Json)) (outer : List JsonFrame)
    (parser : JsonParser) : Prop :=
  ∀ name, step parser (.text name) = some ⟨.fields done name :: outer, .colon⟩

/-- Fields as a frame keeps them, the newest of which stands first. -/
def kept (fields : List (String × Json)) : List (Option String × Json) :=
  (fields.map fun field => (some field.1, field.2)).reverse

theorem kept_append_singleton (fields : List (String × Json)) (name : String) (value : Json) :
    kept (fields ++ [(name, value)]) = (some name, value) :: kept fields := by
  rw [kept, List.map_append, List.reverse_append]
  rfl

theorem object_kept (fields : List (String × Json)) : object (kept fields) = .obj fields := by
  have named (f : Option String × Json → Option (String × Json))
      (unwraps : ∀ field, f (some field.1, field.2) = some field) (later : List (String × Json)) :
      (later.map fun field => (some field.1, field.2)).mapM f = some later := by
    induction later with
    | nil => rfl
    | cons field later ih => rw [List.map_cons, List.mapM_cons, unwraps, ih]; rfl
  rw [object, kept, ← List.map_reverse, named _ fun _ => rfl]
  exact congrArg Json.obj (List.reverse_reverse fields)

mutual

/-- The tokens of a value are read as this value. -/
theorem after_tokens (value : Json) {before : List JsonToken} {parser : JsonParser}
    (ready : after before = some parser) {frames : List JsonFrame} (awaits : Awaits frames parser) :
    after (value.tokens before) = some (deliver value frames) := by
  match value with
  | .null | .bool _ | .num _ | .str _ | .unreadable => exact after_cons ready (awaits _ nofun)
  | .arr items =>
      have opened := after_cons ready (awaits (.mark .leftBracket) nofun)
      match items with
      | [] => exact after_cons opened rfl
      | item :: items =>
          have filled := after_itemTokens (item :: items) nofun opened (awaits_firstItem _ _)
          refine (after_cons filled rfl).trans ?_
          rw [List.append_nil, List.reverse_reverse]
  | .obj fields =>
      have opened := after_cons ready (awaits (.mark .leftBrace) nofun)
      match fields with
      | [] => exact after_cons opened rfl
      | field :: fields =>
          obtain ⟨last, filled⟩ :=
            after_fieldTokens (field :: fields) nofun [] opened fun _ => rfl
          refine (after_cons filled rfl).trans ?_
          rw [List.nil_append, object_kept]

/-- The tokens of items are read as these items. -/
theorem after_itemTokens (items : List Json) (some_item : items ≠ []) {before : List JsonToken}
    {parser : JsonParser} (ready : after before = some parser) {done : List Json}
    {outer : List JsonFrame} (awaits : Awaits (.items done :: outer) parser) :
    after (Json.itemTokens items before) =
      some ⟨.items (items.reverse ++ done) :: outer, .next⟩ := by
  match items with
  | [] => contradiction
  | [item] => exact after_tokens item ready awaits
  | item :: later :: items =>
      have first : after (.mark .comma :: item.tokens before) =
          some ⟨.items (item :: done) :: outer, .value⟩ :=
        after_cons (after_tokens item ready awaits) rfl
      refine (after_itemTokens (later :: items) nofun first (awaits_value _)).trans ?_
      rw [List.reverse_cons (a := item), List.append_assoc]
      rfl

/-- The tokens of fields are read as these fields. -/
theorem after_fieldTokens (fields : List (String × Json)) (some_field : fields ≠ [])
    (done : List (String × Json)) {before : List JsonToken} {parser : JsonParser}
    (ready : after before = some parser) {outer : List JsonFrame}
    (awaits : AwaitsName (kept done) outer parser) :
    ∃ last, after (Json.fieldTokens fields before) =
      some ⟨.fields (kept (done ++ fields)) last :: outer, .next⟩ := by
  have named (name : String) : after (.mark .colon :: .text (some name) :: before) =
      some ⟨.fields (kept done) name :: outer, .value⟩ :=
    after_cons (after_cons ready (awaits name)) rfl
  match fields with
  | [] => contradiction
  | [(name, value)] =>
      refine ⟨some name, (after_tokens value (named name) (awaits_value _)).trans ?_⟩
      rw [kept_append_singleton]
      rfl
  | (name, value) :: later :: fields =>
      have first : after (.mark .comma ::
          value.tokens (.mark .colon :: .text (some name) :: before)) =
          some ⟨[], .name (kept (done ++ [(name, value)])) outer⟩ := by
        rw [kept_append_singleton]
        exact after_cons (after_tokens value (named name) (awaits_value _)) rfl
      obtain ⟨last, all⟩ := after_fieldTokens (later :: fields) nofun (done ++ [(name, value)])
        first fun _ => rfl
      refine ⟨last, all.trans ?_⟩
      rw [List.append_assoc]
      rfl

end

end JsonParser

namespace Json

/-- The tokens of a value write it. -/
theorem ofTokens?_tokens (value : Json) : ofTokens? (value.tokens []).reverse = some value := by
  have start : JsonParser.after [] = some ⟨[], .value⟩ := rfl
  have complete := JsonParser.after_tokens value start (JsonParser.awaits_value [])
  exact congrArg (Option.bind · JsonParser.finish) complete

/-- A plain value is read back from its text. -/
theorem parse?_render {value : Json} (plain : value.isPlain) :
    parse? value.render = some value := by
  have scanned : JsonToken.scan value.render = some (value.tokens []).reverse := by
    have characters : value.render.toList = value.write [] := by
      rw [render, String.toList_ofList]
    rw [JsonToken.scan, characters]
    exact Lexer.run_write value plain [] Lexer.ends_nil
  rw [parse?, scanned]
  exact ofTokens?_tokens value

end Json

end BugPatterns
