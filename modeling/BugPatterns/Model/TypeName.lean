import BugPatterns.Text.Blank

/-!
# Type names

The name of a type tells how it is built. A name that ends in `[]` is that of an array type, the
rest being the name of its elements. Otherwise a name with a `<` in it is that of a parameterized
type, and what stands before the first `<` names its raw type. Any other name is plain. Blanks at
the end of a part do not belong to it.
-/

namespace BugPatterns

/-- A type name and the names it is built from. -/
inductive TypeName where
  | plain (text : String)
  | array (text : String) (element : TypeName)
  | parameterized (text : String) (raw : TypeName)
  deriving DecidableEq, Repr

namespace TypeName

/-- The whole name. -/
def text : TypeName → String
  | .plain text => text
  | .array text _ => text
  | .parameterized text _ => text

/-- What stands before a final `[]`. -/
def elementChars? (chars : List Char) : Option (List Char) :=
  match chars.reverse with
  | ']' :: '[' :: rest => some (dropTrailingBlanks rest.reverse)
  | _ => none

/-- What stands before the first `<`. -/
def rawChars? (chars : List Char) : Option (List Char) :=
  if '<' ∈ chars then some (dropTrailingBlanks (chars.takeWhile (· ≠ '<'))) else none

/-- An element name is shorter than the name of the array type. -/
theorem length_lt_of_elementChars? {chars rest : List Char}
    (h : elementChars? chars = some rest) : rest.length < chars.length := by
  unfold elementChars? at h
  split at h
  · next tail heq =>
      have hlen := congrArg List.length heq
      simp only [List.length_reverse, List.length_cons] at hlen
      have := length_dropTrailingBlanks_le tail.reverse
      simp only [List.length_reverse] at this
      simp only [Option.some.injEq] at h
      subst h
      omega
  · simp at h

/-- The leading part of a list ends before a character that does not belong to it. -/
theorem length_takeWhile_lt {p : Char → Bool} {c : Char} (hc : p c = false) :
    ∀ {chars : List Char}, c ∈ chars → (chars.takeWhile p).length < chars.length
  | [], h => by simp at h
  | d :: rest, h => by
      rw [List.takeWhile_cons]
      split
      · next hd =>
          have hrest : c ∈ rest := by
            rcases List.mem_cons.mp h with rfl | h
            · simp [hc] at hd
            · exact h
          simpa using length_takeWhile_lt hc hrest
      · simp

/-- A raw name is shorter than the name of the parameterized type. -/
theorem length_lt_of_rawChars? {chars rest : List Char}
    (h : rawChars? chars = some rest) : rest.length < chars.length := by
  unfold rawChars? at h
  split at h
  · next hmem =>
      simp only [Option.some.injEq] at h
      subst h
      exact Nat.lt_of_le_of_lt (length_dropTrailingBlanks_le _)
        (length_takeWhile_lt (by decide) hmem)
  · simp at h

/-- Takes a name apart. -/
def ofChars (chars : List Char) : TypeName :=
  match _h : elementChars? chars with
  | some element => .array (String.ofList chars) (ofChars element)
  | none =>
      match _h : rawChars? chars with
      | some raw => .parameterized (String.ofList chars) (ofChars raw)
      | none => .plain (String.ofList chars)
termination_by chars.length
decreasing_by
  · exact length_lt_of_elementChars? _h
  · exact length_lt_of_rawChars? _h

/-- Takes the name written by a text apart. -/
def parse (text : String) : TypeName := ofChars text.toList

/-- The last segment of a list of characters, the separators being `.` and `$`. -/
def lastSegment (chars : List Char) : List Char :=
  (chars.reverse.takeWhile fun c => c ≠ '.' && c ≠ '$').reverse

/-- The simple name of a type: the last segment of what stands before its arguments. -/
def simpleName (name : String) : String :=
  String.ofList (lastSegment (name.toList.takeWhile (· ≠ '<')))

end TypeName

end BugPatterns
