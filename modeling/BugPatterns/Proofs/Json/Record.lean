import BugPatterns.Json.Record
import BugPatterns.Proofs.Except
import Mathlib.Data.List.Nodup

/-!
# Records as they are written

A writer lists the fields that a record declares and leaves out those that are absent
(`Json.present`). From such a list a reader takes every field as it was written, so a record is read
back field by field.
-/

namespace BugPatterns

/-- The keywords of a type are told apart by their words. -/
class Keyword.Lawful (α : Type) [Keyword α] : Prop where
  ofWord?_word : ∀ a : α, Keyword.ofWord? (Keyword.word a) = some a

namespace Keyword

variable {α : Type} [Keyword α] [Keyword.Lawful α]

theorem ofWord_word (a : α) : ofWord (word a) = .ok a := by
  rw [ofWord, Lawful.ofWord?_word]

/-- A keyword is read back from its word. -/
theorem read_toJson (place : Place) (a : α) : read place (toJson a) = .ok a := ofWord_word a

theorem readTag_word (place : Place) (a : α) : readTag place (.str (word a)) = .ok a :=
  ofWord_word a

end Keyword

namespace Json

/-- The fields of a list of declared fields that are present. -/
def present (entries : List (String × Option Json)) : List (String × Json) :=
  entries.filterMap fun entry => entry.2.map fun value => (entry.1, value)

@[simp] theorem present_nil : present [] = [] := rfl

@[simp] theorem present_cons_some (name : String) (value : Json)
    (entries : List (String × Option Json)) :
    present ((name, some value) :: entries) = (name, value) :: present entries := rfl

@[simp] theorem present_cons_none (name : String) (entries : List (String × Option Json)) :
    present ((name, none) :: entries) = present entries := rfl

theorem map_fst_present_sublist (entries : List (String × Option Json)) :
    ((present entries).map Prod.fst).Sublist (entries.map Prod.fst) := by
  induction entries with
  | nil => exact List.Sublist.refl _
  | cons entry entries ih =>
      obtain ⟨name, value⟩ := entry
      cases value with
      | none => exact ih.cons name
      | some value => exact ih.cons_cons name

/-- A present field is found under its name, and an absent one is not, unless names repeat. -/
theorem lookup_present {entries : List (String × Option Json)}
    (distinct : (entries.map Prod.fst).Nodup) (name : String) :
    (present entries).lookup name = (entries.lookup name).join := by
  induction entries with
  | nil => rfl
  | cons entry entries ih =>
      obtain ⟨declared, value⟩ := entry
      rw [List.map_cons, List.nodup_cons] at distinct
      have rest := ih distinct.2
      cases value with
      | some value =>
          rw [present_cons_some, List.lookup_cons, List.lookup_cons, rest]
          cases name == declared <;> rfl
      | none =>
          rw [present_cons_none, List.lookup_cons]
          cases same : name == declared with
          | false => exact rest
          | true =>
              obtain rfl := eq_of_beq same
              refine List.lookup_eq_none_iff.mpr fun field listed => bne_iff_ne.mpr fun equal => ?_
              exact distinct.1 ((map_fst_present_sublist entries).subset
                (List.mem_map.mpr ⟨field, listed, equal.symm⟩))

theorem depth_le_of_mem {name : String} {value : Json} {fields : List (String × Json)}
    (listed : (name, value) ∈ fields) : value.depth ≤ depthOfFields fields := by
  induction fields with
  | nil => cases listed
  | cons field fields ih =>
      rcases List.mem_cons.mp listed with rfl | listed
      · exact Nat.le_max_left _ _
      · exact Nat.le_trans (ih listed) (Nat.le_max_right _ _)

theorem depth_le_of_item {value : Json} {items : List Json} (listed : value ∈ items) :
    value.depth ≤ depthOfItems items := by
  induction items with
  | nil => cases listed
  | cons item items ih =>
      rcases List.mem_cons.mp listed with rfl | listed
      · exact Nat.le_max_left _ _
      · exact Nat.le_trans (ih listed) (Nat.le_max_right _ _)

/-- What stands behind a tag is nested less deeply than the tagged object. -/
theorem depth_le_of_tagged {tag word : String} {fields : List (String × Json)} {bound : Nat}
    (nested : (obj ((tag, .str word) :: fields)).depth ≤ bound + 1) :
    depthOfFields fields ≤ bound := by
  simpa [depth, depthOfFields] using nested

/-- A list is read back if each of its items is. -/
theorem readList_map {α : Type} {read : Reader α} {write : α → Json} {items : List α}
    (each : ∀ a ∈ items, read (write a) = .ok a) :
    readList read (.arr (items.map write)) = .ok items := by
  show (items.map write).mapM read = .ok items
  induction items with
  | nil => rfl
  | cons a items ih =>
      rw [List.map_cons, List.mapM_cons, each a List.mem_cons_self,
        ih fun b member => each b (List.mem_cons_of_mem _ member)]
      rfl

/-- What is present is read back, unless it is written as `null`. -/
theorem readOption_map {α : Type} {read : Reader α} {write : α → Json} {value : Option α}
    (written : ∀ a, write a ≠ .null) (each : ∀ a, value = some a → read (write a) = .ok a) :
    readOption read (ofOption write value) = .ok value := by
  cases value with
  | none => rfl
  | some a =>
      have some_read : readOption read (write a) = some <$> read (write a) := by
        cases shape : write a with
        | null => exact absurd shape (written a)
        | _ => rfl
      rw [ofOption, some_read, each a rfl]
      rfl

end Json

namespace Record

variable {α : Type}

/-- The declared names of a record are different. -/
def Distinct (entries : List (String × Option Json)) : Prop := (entries.map Prod.fst).Nodup

theorem repeated?_eq_none {fields : List (String × Json)}
    (distinct : (fields.map Prod.fst).Nodup) : repeated? fields = none := by
  induction fields with
  | nil => rfl
  | cons field fields ih =>
      obtain ⟨name, value⟩ := field
      rw [List.map_cons, List.nodup_cons] at distinct
      have fresh : fields.lookup name = none := by
        refine List.lookup_eq_none_iff.mpr fun field listed => bne_iff_ne.mpr fun equal => ?_
        exact distinct.1 (List.mem_map.mpr ⟨field, listed, equal.symm⟩)
      rw [repeated?, fresh, Option.isSome_none, if_neg Bool.false_ne_true, ih distinct.2]

namespace Distinct

variable {entries : List (String × Option Json)} (distinct : Distinct entries)

include distinct

/-- All that is written is taken. -/
theorem ofJson? : Record.ofJson? (entries.map Prod.fst) (.obj (Json.present entries)) =
    .ok ⟨Json.present entries, false⟩ := by
  have names := Json.map_fst_present_sublist entries
  have all : (Json.present entries).filter
      (fun field => (entries.map Prod.fst).contains field.1) = Json.present entries :=
    List.filter_eq_self.mpr fun field listed =>
      List.contains_iff_mem.mpr (names.subset (List.mem_map_of_mem listed))
  have once : repeated? (Json.present entries) = none :=
    repeated?_eq_none (names.nodup distinct)
  simp only [Record.ofJson?, all, once]

theorem lookup {name : String} {value : Option Json} (found : entries.lookup name = some value) :
    (Json.present entries).lookup name = value := by
  rw [Json.lookup_present distinct, found]
  rfl

theorem required {name : String} {value : Json} (found : entries.lookup name = some (some value))
    {read : Reader α} {a : α} (reads : read value = .ok a) :
    Record.required ⟨Json.present entries, false⟩ name read = .ok a := by
  unfold Record.required
  rw [distinct.lookup found]
  exact reads

theorem withDefault {name : String} {value : Json}
    (found : entries.lookup name = some (some value)) {default : α} {read : Reader α} {a : α}
    (reads : read value = .ok a) :
    Record.withDefault ⟨Json.present entries, false⟩ name default read = .ok a := by
  unfold Record.withDefault
  rw [distinct.lookup found]
  exact reads

theorem optional {name : String} {value : Option α} {write : α → Json}
    (found : entries.lookup name = some (value.map write)) {read : Reader α}
    (notNull : ∀ a, write a ≠ .null) (reads : ∀ a, value = some a → read (write a) = .ok a) :
    Record.optional ⟨Json.present entries, false⟩ name read = .ok value := by
  unfold Record.optional Record.withDefault
  rw [distinct.lookup found]
  cases value with
  | none => rfl
  | some a => exact Json.readOption_map notNull reads

/-- A string that may be absent. -/
theorem text {name : String} {text : Option String}
    (found : entries.lookup name = some (text.map .str)) :
    Record.optional ⟨Json.present entries, false⟩ name Json.readString = .ok text :=
  distinct.optional found (fun _ => nofun) fun _ _ => rfl

/-- The items of a list are read back if each of them is. -/
theorem listed {name : String} {items : List α} {write : α → Json}
    (found : entries.lookup name = some (some (.arr (items.map write)))) {read : Reader α}
    (reads : ∀ a ∈ items, read (write a) = .ok a) :
    Record.withDefault ⟨Json.present entries, false⟩ name [] (Json.readList read) = .ok items :=
  distinct.withDefault found (Json.readList_map reads)

/-- Values are nested less deeply than the record that they are fields of. -/
theorem depth_le {name : String} {value : Json}
    (found : entries.lookup name = some (some value)) :
    value.depth ≤ Json.depthOfFields (Json.present entries) := by
  obtain ⟨before, after, split, -⟩ := List.lookup_eq_some_iff.mp (distinct.lookup found)
  refine @Json.depth_le_of_mem name _ _ ?_
  rw [split]
  exact List.mem_append_right _ List.mem_cons_self

end Distinct

/-- Fields with different names and values that are nested up to a bound. -/
structure Within (bound : Nat) (entries : List (String × Option Json)) : Prop where
  distinct : Distinct entries
  nested : Json.depthOfFields (Json.present entries) ≤ bound

namespace Within

variable {bound : Nat} {entries : List (String × Option Json)} (fields : Within bound entries)
  {name : String} {read : Reader α} {write : α → Json}
  (reads : ∀ a, (write a).depth ≤ bound → read (write a) = .ok a)

include fields reads

/-- A required part is read back if everything of its depth is. -/
theorem required {part : α} (found : entries.lookup name = some (some (write part))) :
    Record.required ⟨Json.present entries, false⟩ name read = .ok part :=
  fields.distinct.required found
    (reads part (Nat.le_trans (fields.distinct.depth_le found) fields.nested))

/-- An optional part is read back if everything of its depth is. -/
theorem optional {part : Option α} (notNull : ∀ a, write a ≠ .null)
    (found : entries.lookup name = some (part.map write)) :
    Record.optional ⟨Json.present entries, false⟩ name read = .ok part := by
  refine fields.distinct.optional found notNull fun a present => reads a ?_
  rw [present] at found
  exact Nat.le_trans (fields.distinct.depth_le found) fields.nested

/-- Listed parts are read back if everything of their depth is. -/
theorem listed {parts : List α}
    (found : entries.lookup name = some (some (.arr (parts.map write)))) :
    Record.withDefault ⟨Json.present entries, false⟩ name [] (Json.readList read) = .ok parts := by
  have depth := Nat.le_trans (fields.distinct.depth_le found) fields.nested
  refine fields.distinct.listed found fun a member => reads a ?_
  have item := Json.depth_le_of_item (List.mem_map_of_mem (f := write) member)
  exact Nat.le_trans item (Nat.le_of_succ_le depth)

end Within

end Record

/-- The tag in front of a record is taken off it. -/
theorem Json.splitTag_present {tag : String} {entries : List (String × Option Json)}
    (fresh : tag ∉ entries.map Prod.fst) (value : Json) :
    splitTag tag (.obj ((tag, value) :: present entries)) =
      .ok (value, .obj (present entries)) := by
  have others : ∀ field ∈ present entries, field.1 ≠ tag := fun field listed equal =>
    fresh (equal ▸ (map_fst_present_sublist entries).subset (List.mem_map_of_mem listed))
  have once : ((tag, value) :: present entries).filter (fun field => field.1 = tag) =
      [(tag, value)] := by
    rw [List.filter_cons_of_pos (by simp), List.filter_eq_nil_iff.mpr]
    exact fun field listed => by simpa using others field listed
  have rest : ((tag, value) :: present entries).filter (fun field => field.1 ≠ tag) =
      present entries := by
    rw [List.filter_cons_of_neg (by simp), List.filter_eq_self]
    exact fun field listed => by simpa using others field listed
  simp only [splitTag, once, rest]

end BugPatterns
