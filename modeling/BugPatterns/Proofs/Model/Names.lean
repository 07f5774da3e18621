import BugPatterns.Model.TypeName
import Mathlib.Data.List.TakeWhile

/-!
# Type names and the names they are built from

A name is known by its text: reading the text of a part gives that part again. What a name is built
from (`TypeName.base?`) is shorter than the name, so there is an induction along it
(`TypeName.base_induction`).
-/

namespace BugPatterns.TypeName

/-- The name that a name is built from: that of the elements of an array type, or that of the raw
    type of a parameterized one. -/
def base? (name : String) : Option String :=
  match parse name with
  | .plain _ => none
  | .array _ element => some element.text
  | .parameterized _ raw => some raw.text

/-- The name of an array type, or of a parameterized type whose raw type is an array type. -/
def isArray : TypeName → Bool
  | .plain _ => false
  | .array _ _ => true
  | .parameterized _ raw => raw.isArray

theorem text_ofChars (chars : List Char) : (ofChars chars).text = String.ofList chars := by
  unfold ofChars
  split
  · rfl
  · split <;> rfl

@[simp] theorem text_parse (name : String) : (parse name).text = name := by
  rw [parse, text_ofChars, String.ofList_toList]

theorem parse_text_ofChars (chars : List Char) : parse (ofChars chars).text = ofChars chars := by
  rw [text_ofChars, parse, String.toList_ofList]

theorem of_parse_plain {name text : String} (parsed : parse name = .plain text) : text = name := by
  have same := text_parse name
  rw [parsed] at same
  exact same

/-- An array type is named by the name of its elements and something more. -/
theorem of_parse_array {name text : String} {element : TypeName}
    (parsed : parse name = .array text element) :
    text = name ∧ parse element.text = element ∧ element.text.length < name.length := by
  unfold parse ofChars at parsed
  split at parsed
  · next rest found =>
      obtain ⟨rfl, rfl⟩ := TypeName.array.inj parsed
      refine ⟨String.ofList_toList, parse_text_ofChars rest, ?_⟩
      rw [text_ofChars, String.length_ofList]
      exact length_lt_of_elementChars? found
  · split at parsed <;> cases parsed

/-- A parameterized type is named by the name of its raw type and something more. -/
theorem of_parse_parameterized {name text : String} {raw : TypeName}
    (parsed : parse name = .parameterized text raw) :
    text = name ∧ parse raw.text = raw ∧ raw.text.length < name.length := by
  unfold parse ofChars at parsed
  split at parsed
  · cases parsed
  · split at parsed
    · next rest found =>
        obtain ⟨rfl, rfl⟩ := TypeName.parameterized.inj parsed
        refine ⟨String.ofList_toList, parse_text_ofChars rest, ?_⟩
        rw [text_ofChars, String.length_ofList]
        exact length_lt_of_rawChars? found
    · cases parsed

/-- A parameterized type has a `<` in its name. -/
theorem mem_of_ofChars_parameterized {chars : List Char} {text : String} {raw : TypeName}
    (parsed : ofChars chars = .parameterized text raw) : '<' ∈ chars := by
  unfold ofChars at parsed
  split at parsed
  · cases parsed
  · split at parsed
    · next rest found =>
        unfold rawChars? at found
        split at found
        · assumption
        · cases found
    · cases parsed

/-- What a parameterized type is built from is not parameterized: it is named by what stands before
    the first `<`. -/
theorem parameterized_ne_raw {name text rawText : String} {raw base : TypeName}
    (parsed : parse name = .parameterized text raw) : raw ≠ .parameterized rawText base := by
  unfold parse ofChars at parsed
  split at parsed
  · cases parsed
  · split at parsed
    · next rest found =>
        obtain ⟨-, rfl⟩ := TypeName.parameterized.inj parsed
        intro nested
        have member := mem_of_ofChars_parameterized nested
        unfold rawChars? at found
        split at found
        · cases found
          have kept := (List.dropWhile_sublist isBlank).subset (List.mem_reverse.mp member)
          have other := List.mem_takeWhile_imp (List.mem_reverse.mp kept)
          exact of_decide_eq_true other rfl
        · cases found
    · cases parsed

theorem length_lt_of_base? {name base : String} (built : base? name = some base) :
    base.length < name.length := by
  unfold base? at built
  split at built
  · cases built
  · next parsed =>
      cases built
      exact (of_parse_array parsed).2.2
  · next parsed =>
      cases built
      exact (of_parse_parameterized parsed).2.2

/-- What holds of a name whenever it holds of the name it is built from holds of all names. -/
theorem base_induction {motive : String → Prop}
    (step : ∀ name, (∀ base, base? name = some base → motive base) → motive name)
    (name : String) : motive name := by
  induction size : name.length using Nat.strongRecOn generalizing name with
  | ind n ih =>
      apply step
      intro base built
      exact ih base.length (size ▸ length_lt_of_base? built) base rfl

end BugPatterns.TypeName
