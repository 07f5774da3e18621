import BugPatterns.Proofs.Ast.RoundTrip
import BugPatterns.Proofs.Json.Text
import BugPatterns.Unit.Document

/-!
# Unit documents are read back

A unit document is read back as it was written, from the value that is written and from its text.
So reading a document and writing it again brings it into a form that this no longer changes.
-/

namespace BugPatterns

open Record (Distinct)

instance : Keyword.Lawful MemberKind := ⟨fun a => by cases a <;> decide⟩

/-! ### Models -/

section Model

/-- The declared fields of a variable. -/
def VariableEntry.entries (entry : VariableEntry) : List (String × Option Json) :=
  [("name", some (.str entry.name)), ("key", entry.key.map .str), ("type", entry.type.map .str)]

/-- The declared fields of a member. -/
def MemberEntry.entries (entry : MemberEntry) : List (String × Option Json) :=
  [("name", some (.str entry.name)), ("key", entry.key.map .str),
    ("kind", some (Keyword.toJson entry.kind)), ("static", some (.bool entry.isStatic)),
    ("final", some (.bool entry.isFinal)), ("type", entry.type.map .str),
    ("constant", entry.constant.map .str),
    ("params", some (.arr (entry.params.map VariableEntry.toJson))),
    ("locals", some (.arr (entry.locals.map VariableEntry.toJson)))]

/-- The declared fields of a type. -/
def TypeEntry.entries (entry : TypeEntry) : List (String × Option Json) :=
  [("name", some (.str entry.name)), ("kind", some (Keyword.toJson entry.kind)),
    ("superclass", entry.superclass.map .str), ("interfaces", some (Json.strings entry.interfaces)),
    ("owner", entry.owner.map .str),
    ("members", some (.arr (entry.members.map MemberEntry.toJson)))]

theorem VariableEntry.toJson_eq (entry : VariableEntry) :
    entry.toJson = .obj (Json.present entry.entries) := by
  obtain ⟨name, key, type⟩ := entry
  cases key <;> cases type <;> rfl

theorem MemberEntry.toJson_eq (entry : MemberEntry) :
    entry.toJson = .obj (Json.present entry.entries) := by
  obtain ⟨name, key, kind, isStatic, isFinal, type, constant, params, locals⟩ := entry
  cases key <;> cases type <;> cases constant <;> rfl

theorem TypeEntry.toJson_eq (entry : TypeEntry) :
    entry.toJson = .obj (Json.present entry.entries) := by
  obtain ⟨name, kind, superclass, interfaces, owner, members⟩ := entry
  cases superclass <;> cases owner <;> rfl

/-- A variable is read back. -/
theorem VariableEntry.read_toJson (entry : VariableEntry) : read entry.toJson = .ok entry := by
  have distinct : Distinct entry.entries := by simp [Distinct, entries]
  rw [entry.toJson_eq]
  refine bind_ok distinct.ofJson? ?_
  refine bind_ok (distinct.required rfl rfl) ?_
  refine bind_ok (distinct.text rfl) ?_
  exact bind_ok (distinct.text rfl) rfl

/-- A member is read back. -/
theorem MemberEntry.read_toJson (entry : MemberEntry) : read entry.toJson = .ok entry := by
  have distinct : Distinct entry.entries := by simp [Distinct, entries]
  rw [entry.toJson_eq]
  refine bind_ok distinct.ofJson? ?_
  refine bind_ok (distinct.required rfl rfl) ?_
  refine bind_ok (distinct.text rfl) ?_
  refine bind_ok (distinct.withDefault rfl (Keyword.read_toJson .outside entry.kind)) ?_
  refine bind_ok (distinct.withDefault rfl rfl) ?_
  refine bind_ok (distinct.withDefault rfl rfl) ?_
  refine bind_ok (distinct.text rfl) ?_
  refine bind_ok (distinct.text rfl) ?_
  refine bind_ok (distinct.listed rfl fun part _ => part.read_toJson) ?_
  exact bind_ok (distinct.listed rfl fun part _ => part.read_toJson) rfl

/-- A type is read back. -/
theorem TypeEntry.read_toJson (entry : TypeEntry) : read entry.toJson = .ok entry := by
  have distinct : Distinct entry.entries := by simp [Distinct, entries]
  rw [entry.toJson_eq]
  refine bind_ok distinct.ofJson? ?_
  refine bind_ok (distinct.required rfl rfl) ?_
  refine bind_ok (distinct.withDefault rfl (Keyword.read_toJson .outside entry.kind)) ?_
  refine bind_ok (distinct.text rfl) ?_
  refine bind_ok (distinct.listed rfl fun _ _ => rfl) ?_
  refine bind_ok (distinct.text rfl) ?_
  exact bind_ok (distinct.listed rfl fun member _ => member.read_toJson) rfl

/-- The description of a model is read back. -/
theorem ModelDocument.read_toJson (document : ModelDocument) :
    read document.toJson = .ok document := by
  have distinct : Distinct
      [("types", some (.arr (document.types.map TypeEntry.toJson)))] := by simp [Distinct]
  refine bind_ok distinct.ofJson? ?_
  exact bind_ok (distinct.listed rfl fun type _ => type.read_toJson) rfl

end Model

/-! ### Plain documents -/

section Plain

theorem VariableEntry.isPlain_toJson (entry : VariableEntry) : entry.toJson.isPlain := by
  simp [toJson]

theorem MemberEntry.isPlain_toJson (entry : MemberEntry) : entry.toJson.isPlain := by
  simp [toJson, Json.arePlain_map VariableEntry.isPlain_toJson]

theorem TypeEntry.isPlain_toJson (entry : TypeEntry) : entry.toJson.isPlain := by
  simp [toJson, Json.isPlain_strings, Json.arePlain_map MemberEntry.isPlain_toJson]

theorem ModelDocument.isPlain_toJson (document : ModelDocument) : document.toJson.isPlain := by
  simp [toJson, Json.arePlain_map TypeEntry.isPlain_toJson]

theorem CompilationUnit.isPlain_toJson (unit : CompilationUnit Span) : unit.toJson.isPlain := by
  have types (decl : ClassDecl Span) : (Json.obj decl.toFields).isPlain := decl.plain_toFields
  simp [toJson, Json.arePlain_map types]

end Plain

namespace UnitDocument

/-- A document is written as a plain value. -/
theorem isPlain_toJson (document : UnitDocument) : document.toJson.isPlain := by
  simp [toJson, document.model.isPlain_toJson, document.tree.isPlain_toJson]

/-- A document is read back from the value that is written. -/
theorem read_toJson (document : UnitDocument) : read document.toJson = .ok document := by
  have distinct : Distinct [("model", some document.model.toJson),
      ("tree", some document.tree.toJson)] := by simp [Distinct]
  refine bind_ok distinct.ofJson? ?_
  refine bind_ok (distinct.withDefault rfl document.model.read_toJson) ?_
  exact bind_ok (distinct.required rfl document.tree.read_toJson) rfl

/-- A document is read back from the text that is written. -/
theorem parse_render (document : UnitDocument) : parse document.toJson.render = .ok document := by
  rw [parse, Json.parse?_render document.isPlain_toJson]
  exact document.read_toJson

/-- Reads a document and writes it again. -/
def rewrite (json : Json) : Except ReadError Json := toJson <$> read json

/-- Reads the text of a document and writes it again. -/
def rewriteText (text : String) : Except ReadError String :=
  (fun document => document.toJson.render) <$> parse text

/-- Every document is read back, from the value that is written and from its text. So a value or
    text that was written for a document is written again for itself. -/
theorem roundTrip :
    (∀ document : UnitDocument,
      read document.toJson = .ok document ∧ parse document.toJson.render = .ok document) ∧
    (∀ json, (rewrite json >>= rewrite) = rewrite json) ∧
    (∀ text, (rewriteText text >>= rewriteText) = rewriteText text) := by
  refine ⟨fun document => ⟨document.read_toJson, document.parse_render⟩, ?_, ?_⟩
  · exact rewrite_rewrite read_toJson
  · exact rewrite_rewrite parse_render

end UnitDocument

end BugPatterns
