import BugPatterns.Json.Record

/-!
# Places in source text

A span is the range of text a node was read from. Lines and columns count from one; a span of
zeros says that no place is known.
-/

namespace BugPatterns

/-- A range of source text, from its first position to its last. -/
structure Span where
  line : UInt32
  col : UInt32
  endLine : UInt32
  endCol : UInt32
  deriving DecidableEq, Repr, Inhabited

namespace Span

/-- The span of a node without a known place. -/
def unknown : Span := ⟨0, 0, 0, 0⟩

/-- The span that starts and ends at one position. -/
def point (line col : UInt32) : Span := ⟨line, col, line, col⟩

/-- A span is named by its start. -/
def text (span : Span) : String := s!"{span.line}:{span.col}"

/-- Source order of starts: by line, and on one line by column. -/
def startsNoLater (a b : Span) : Bool :=
  a.line < b.line || (a.line == b.line && a.col ≤ b.col)

/-- Reads a span; every part of it may be left out. -/
def read : Reader Span := fun json => do
  let record ← Record.ofJson? ["line", "col", "end_line", "end_col"] json
  return {
    line := ← record.withDefault "line" 0 Json.readUInt32
    col := ← record.withDefault "col" 0 Json.readUInt32
    endLine := ← record.withDefault "end_line" 0 Json.readUInt32
    endCol := ← record.withDefault "end_col" 0 Json.readUInt32 }

/-- A span is written with all its parts. -/
def toJson (span : Span) : Json :=
  .obj [("line", .nat span.line.toNat), ("col", .nat span.col.toNat),
    ("end_line", .nat span.endLine.toNat), ("end_col", .nat span.endCol.toNat)]

end Span

end BugPatterns
