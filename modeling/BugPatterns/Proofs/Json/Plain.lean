import BugPatterns.Json.Record

/-!
# Plain values

The values that this library writes hold nothing unreadable, and no numbers but small natural ones.
Every such value is read back from its text.
-/

namespace BugPatterns

namespace Json

mutual

/-- Nothing inside the value is unreadable, and its numbers are natural ones of 64 bits. -/
def isPlain : Json → Bool
  | .num (.natural n) => n < UInt64.size
  | .num (.other _) => false
  | .arr items => arePlain items
  | .obj fields => fieldsArePlain fields
  | .unreadable => false
  | _ => true

/-- All values of a list are plain. -/
def arePlain : List Json → Bool
  | [] => true
  | item :: items => item.isPlain && arePlain items

/-- The values of all fields are plain. -/
def fieldsArePlain : List (String × Json) → Bool
  | [] => true
  | (_, value) :: fields => value.isPlain && fieldsArePlain fields

end

@[simp] theorem isPlain_str (text : String) : isPlain (.str text) := rfl

@[simp] theorem isPlain_bool (value : Bool) : isPlain (.bool value) := rfl

@[simp] theorem isPlain_arr (items : List Json) : isPlain (.arr items) = arePlain items := rfl

@[simp] theorem isPlain_obj (fields : List (String × Json)) :
    isPlain (.obj fields) = fieldsArePlain fields := rfl

@[simp] theorem arePlain_nil : arePlain [] := rfl

@[simp] theorem arePlain_cons (item : Json) (items : List Json) :
    arePlain (item :: items) = (item.isPlain && arePlain items) := rfl

@[simp] theorem fieldsArePlain_nil : fieldsArePlain [] := rfl

@[simp] theorem fieldsArePlain_cons (name : String) (value : Json)
    (fields : List (String × Json)) :
    fieldsArePlain ((name, value) :: fields) = (value.isPlain && fieldsArePlain fields) := rfl

@[simp] theorem fieldsArePlain_append (front back : List (String × Json)) :
    fieldsArePlain (front ++ back) = (fieldsArePlain front && fieldsArePlain back) := by
  induction front with
  | nil => rfl
  | cons field front ih =>
      rw [List.cons_append, fieldsArePlain_cons, fieldsArePlain_cons, ih, Bool.and_assoc]

@[simp] theorem fieldsArePlain_optionalField (name : String) (text : Option String) :
    fieldsArePlain (optionalField name .str text) := by
  cases text <;> rfl

theorem arePlain_map {α : Type} {write : α → Json} (each : ∀ a, (write a).isPlain)
    (items : List α) : arePlain (items.map write) := by
  induction items with
  | nil => rfl
  | cons a items ih => simp [each a, ih]

theorem isPlain_strings (texts : List String) : (strings texts).isPlain :=
  arePlain_map (fun _ => rfl) texts

mutual

/-- What is plain is readable. -/
theorem isReadable_of_isPlain : (value : Json) → value.isPlain → value.isReadable
  | .arr items, plain => areReadable_of_arePlain items plain
  | .obj fields, plain => fieldsAreReadable_of_plain fields plain
  | .null, _ | .bool _, _ | .num _, _ | .str _, _ => rfl

theorem areReadable_of_arePlain : (items : List Json) → arePlain items → areReadable items
  | [], _ => rfl
  | item :: items, plain => by
      rw [arePlain_cons, Bool.and_eq_true] at plain
      rw [areReadable, isReadable_of_isPlain item plain.1, areReadable_of_arePlain items plain.2]
      rfl

theorem fieldsAreReadable_of_plain : (fields : List (String × Json)) →
    fieldsArePlain fields → fieldsAreReadable fields
  | [], _ => rfl
  | (name, value) :: fields, plain => by
      rw [fieldsArePlain_cons, Bool.and_eq_true] at plain
      rw [fieldsAreReadable, isReadable_of_isPlain value plain.1,
        fieldsAreReadable_of_plain fields plain.2]
      rfl

end

end Json

@[simp] theorem Keyword.isPlain_toJson {α : Type} [Keyword α] (a : α) :
    (Keyword.toJson a).isPlain := rfl

end BugPatterns
