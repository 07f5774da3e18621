import BugPatterns.Proofs.Model.Interning

/-!
# The grammar of type names

`TypeName.Reads` says how a name reads: as that of an array type if it ends in `[]`, as that of a
parameterized type if its first `<` is matched by a `>` at its very end, and else as that of a type
of which nothing more can be told. Every name reads in one way and in no other
(`TypeName.exists_reads`, `TypeName.Reads.unique`).

`TypeName.parse` asks less than that: a `<` anywhere makes a name that of a parameterized type. So a
name is interned as it reads unless it has a `<` and nothing that matches it at the end
(`Model.internedAs_reading_iff`).
-/

namespace BugPatterns

namespace TypeName

/-- The brackets are matched: as many close as open, and none closes before it opens. -/
def Balanced (chars : List Char) : Prop :=
  chars.count '>' = chars.count '<' ∧
    ∀ front ∈ chars.inits, front.count '>' ≤ front.count '<'

instance (chars : List Char) : Decidable (Balanced chars) :=
  inferInstanceAs (Decidable (_ ∧ _))

example : Balanced "p.B<p.C>, p.D".toList ∧ ¬ Balanced "p.B>.p.C<p.D".toList := by decide

/-- The part is what is left without the blanks at the end. -/
def TrimsTo (chars part : List Char) : Prop :=
  (∃ blanks : List Char, chars = part ++ blanks ∧ ∀ c ∈ blanks, isBlank c = true) ∧
    ∀ c ∈ part.getLast?, isBlank c = false

/-- What a name can be that of. -/
inductive Reading where
  | array (element : String)
  | parameterized (raw : String)
  | other
  deriving DecidableEq, Repr

/-- How a name reads. -/
inductive Reads (name : String) : Reading → Prop where
  | array {rest : List Char} {element : String} :
      name.toList = rest ++ ['[', ']'] → TrimsTo rest element.toList →
      Reads name (.array element)
  | parameterized {front args : List Char} {raw : String} :
      name.toList = front ++ '<' :: (args ++ ['>']) → '<' ∉ front → Balanced args →
      TrimsTo front raw.toList → Reads name (.parameterized raw)
  | other :
      (∀ rest, name.toList ≠ rest ++ ['[', ']']) →
      (∀ front args, name.toList = front ++ '<' :: (args ++ ['>']) → '<' ∉ front →
        ¬ Balanced args) →
      Reads name .other

/-- The name has a `<`, but reads as that of no parameterized type. -/
def Unclosed (name : String) : Prop := Reads name .other ∧ '<' ∈ name.toList

/-! ## Every name reads in one way -/

theorem trimsTo_iff {chars part : List Char} :
    TrimsTo chars part ↔ part = dropTrailingBlanks chars := by
  constructor
  · rintro ⟨⟨blanks, rfl, blank⟩, ends⟩
    rw [dropTrailingBlanks, List.reverse_append,
      List.dropWhile_append_of_pos fun c member => blank c (List.mem_reverse.mp member)]
    cases turned : part.reverse with
    | nil => exact List.reverse_eq_nil_iff.mp turned
    | cons c front =>
        have kept : isBlank c = false := ends c (by
          rw [← List.head?_reverse, turned]
          rfl)
        rw [List.dropWhile_cons_of_neg (by simp [kept]), ← turned, List.reverse_reverse]
  · rintro rfl
    refine ⟨⟨(chars.reverse.takeWhile isBlank).reverse, ?_, fun c member => ?_⟩, fun c last => ?_⟩
    · rw [dropTrailingBlanks, ← List.reverse_append, List.takeWhile_append_dropWhile,
        List.reverse_reverse]
    · exact List.mem_takeWhile_imp (List.mem_reverse.mp member)
    · have first := List.head?_dropWhile_not isBlank chars.reverse
      rw [dropTrailingBlanks, List.getLast?_reverse] at last
      rw [Option.mem_def.mp last] at first
      exact first

theorem exists_trimsTo (chars : List Char) : ∃ part : String, TrimsTo chars part.toList :=
  ⟨String.ofList (dropTrailingBlanks chars), trimsTo_iff.mpr String.toList_ofList⟩

theorem TrimsTo.unique {chars : List Char} {part part' : String}
    (one : TrimsTo chars part.toList) (two : TrimsTo chars part'.toList) : part = part' :=
  String.toList_injective ((trimsTo_iff.mp one).trans (trimsTo_iff.mp two).symm)

theorem takeWhile_of_notMem {front rest : List Char} (first : '<' ∉ front) :
    (front ++ '<' :: rest).takeWhile (· ≠ '<') = front := by
  rw [List.takeWhile_append_of_pos, List.takeWhile_cons_of_neg (by simp), List.append_nil]
  rintro c member
  exact decide_eq_true fun same => first (same ▸ member)

theorem getLast?_of_parameterized {chars front args : List Char}
    (closed : chars = front ++ '<' :: (args ++ ['>'])) : chars.getLast? = some '>' := by
  have whole : chars = front ++ '<' :: args ++ ['>'] := by rw [closed, List.append_assoc]; rfl
  rw [whole, List.getLast?_concat]

theorem getLast?_of_array {chars rest : List Char} (ends : chars = rest ++ ['[', ']']) :
    chars.getLast? = some ']' := by
  have whole : chars = rest ++ ['['] ++ [']'] := by rw [ends, List.append_assoc]; rfl
  rw [whole, List.getLast?_concat]

/-- No name is both that of an array type and that of a parameterized type. -/
theorem ne_array_of_parameterized {chars front args rest : List Char}
    (closed : chars = front ++ '<' :: (args ++ ['>'])) : chars ≠ rest ++ ['[', ']'] := by
  intro ends
  have last := (getLast?_of_parameterized closed).symm.trans (getLast?_of_array ends)
  cases last

theorem Reads.unique {name : String} {one two : Reading} (first : Reads name one)
    (second : Reads name two) : one = two := by
  cases first with
  | array ends part =>
      cases second with
      | array ends' part' =>
          obtain rfl := List.append_cancel_right (ends.symm.trans ends')
          rw [part.unique part']
      | parameterized closed => exact absurd ends (ne_array_of_parameterized closed)
      | other open' => exact absurd ends (open' _)
  | parameterized closed leads balanced part =>
      cases second with
      | array ends => exact absurd ends (ne_array_of_parameterized closed)
      | parameterized closed' leads' _ part' =>
          have split := congrArg (List.takeWhile (· ≠ '<')) (closed.symm.trans closed')
          rw [takeWhile_of_notMem leads, takeWhile_of_notMem leads'] at split
          rw [part.unique (split ▸ part')]
      | other _ unmatched => exact absurd balanced (unmatched _ _ closed leads)
  | other plain unmatched =>
      cases second with
      | array ends => exact absurd ends (plain _)
      | parameterized closed leads balanced => exact absurd balanced (unmatched _ _ closed leads)
      | other => rfl

theorem exists_reads (name : String) : ∃ reading, Reads name reading := by
  by_cases ends : ∃ rest, name.toList = rest ++ ['[', ']']
  · obtain ⟨rest, ends⟩ := ends
    obtain ⟨element, part⟩ := exists_trimsTo rest
    exact ⟨_, .array ends part⟩
  by_cases closed : ∃ front args, name.toList = front ++ '<' :: (args ++ ['>']) ∧ '<' ∉ front ∧
      Balanced args
  · obtain ⟨front, args, closed, leads, balanced⟩ := closed
    obtain ⟨raw, part⟩ := exists_trimsTo front
    exact ⟨_, .parameterized closed leads balanced part⟩
  · exact ⟨_, .other (fun rest same => ends ⟨rest, same⟩)
      fun front args same leads balanced => closed ⟨front, args, same, leads, balanced⟩⟩

/-- The name of a member type of a parameterized type has text after the matching `>`. -/
theorem unclosed_memberType : Unclosed "p.A<p.B>.C" := by
  refine ⟨.other (fun rest ends => ?_) (fun front args closed => ?_), by decide⟩
  · exact absurd (getLast?_of_array ends) (by decide)
  · exact absurd (getLast?_of_parameterized closed) (by decide)

/-! ## How a name is taken apart -/

theorem elementChars?_eq_some_iff {chars part : List Char} :
    elementChars? chars = some part ↔ ∃ rest, chars = rest ++ ['[', ']'] ∧ TrimsTo rest part := by
  unfold elementChars?
  constructor
  · intro found
    split at found
    · next rest turned =>
        refine ⟨rest.reverse, ?_, trimsTo_iff.mpr (Option.some.inj found).symm⟩
        rw [← chars.reverse_reverse, turned]
        simp
    · cases found
  · rintro ⟨rest, rfl, part⟩
    rw [trimsTo_iff.mp part]
    simp

theorem rawChars?_eq_some_iff {chars part : List Char} :
    rawChars? chars = some part ↔
      ∃ front rest, chars = front ++ '<' :: rest ∧ '<' ∉ front ∧ TrimsTo front part := by
  unfold rawChars?
  constructor
  · intro found
    split at found
    · next member =>
        obtain ⟨front, rest, rfl, leads⟩ := List.eq_append_cons_of_mem member
        rw [takeWhile_of_notMem leads] at found
        exact ⟨front, rest, rfl, leads, trimsTo_iff.mpr (Option.some.inj found).symm⟩
    · cases found
  · rintro ⟨front, rest, rfl, leads, part⟩
    rw [if_pos (List.mem_append_right _ List.mem_cons_self), takeWhile_of_notMem leads,
      trimsTo_iff.mp part]

theorem elementChars?_eq_none_iff {chars : List Char} :
    elementChars? chars = none ↔ ∀ rest, chars ≠ rest ++ ['[', ']'] := by
  rw [Option.eq_none_iff_forall_ne_some]
  constructor
  · rintro absent rest rfl
    exact absent _ (elementChars?_eq_some_iff.mpr ⟨rest, rfl, trimsTo_iff.mpr rfl⟩)
  · intro plain part found
    obtain ⟨rest, ends, -⟩ := elementChars?_eq_some_iff.mp found
    exact plain rest ends

theorem rawChars?_eq_none_iff {chars : List Char} : rawChars? chars = none ↔ '<' ∉ chars := by
  unfold rawChars?
  split <;> simp_all

theorem parse_eq (name : String) :
    parse name =
      match elementChars? name.toList with
      | some element => .array name (parse (String.ofList element))
      | none =>
          match rawChars? name.toList with
          | some raw => .parameterized name (parse (String.ofList raw))
          | none => .plain name := by
  unfold parse
  rw [ofChars]
  split
  · next element found => simp only [found, String.ofList_toList, String.toList_ofList]
  · next whole =>
      split
      · next raw found => simp only [whole, found, String.ofList_toList, String.toList_ofList]
      · next plain => simp only [whole, plain, String.ofList_toList]

end TypeName

namespace Model

/-- The name is interned as one that reads so: one type is added after the type that the name is
    built from. -/
def InternedAs (model : Model) (name : String) : TypeName.Reading → Prop
  | .array element =>
      model.intern name = (model.intern element).2.pushType
        { TypeInfo.bare name .array with element := some (model.intern element).1 }
  | .parameterized raw =>
      model.intern name = (model.intern raw).2.pushType
        { TypeInfo.bare name ((model.intern raw).2.type (model.intern raw).1).tag with
          erasure := some (model.intern raw).1 }
  | .other => model.intern name = model.pushType (.bare name .unknown)

section Unseen

variable {model : Model} {name : String} (unseen : model.type? name = none)

include unseen

theorem internedAs_array {element : String}
    (found : TypeName.elementChars? name.toList = some element.toList) :
    model.InternedAs name (.array element) := by
  simp only [InternedAs, intern, TypeName.parse_eq name, found, String.ofList_toList, internName,
    TypeName.text, unseen]

theorem internedAs_parameterized {raw : String}
    (whole : TypeName.elementChars? name.toList = none)
    (found : TypeName.rawChars? name.toList = some raw.toList) :
    model.InternedAs name (.parameterized raw) := by
  simp only [InternedAs, intern, TypeName.parse_eq name, whole, found, String.ofList_toList,
    internName, TypeName.text, unseen]

theorem internedAs_other (whole : TypeName.elementChars? name.toList = none)
    (plain : TypeName.rawChars? name.toList = none) : model.InternedAs name .other := by
  simp only [InternedAs, intern, TypeName.parse_eq name, whole, plain, internName, TypeName.text,
    unseen]

end Unseen

/-- A type that is built from another one is none of which nothing more can be told. -/
theorem not_internedAs_other {model : Model} {name raw : String}
    (built : model.InternedAs name (.parameterized raw)) : ¬ model.InternedAs name .other := by
  intro plain
  have same : (model.intern name).2.type (model.intern name).1 = .bare name .unknown := by
    rw [plain, type_pushType_self]
  rw [built, type_pushType_self] at same
  cases congrArg TypeInfo.erasure same

/-- Interning follows the grammar of names except for those with a `<` that nothing at the end
    matches. A name that is not known yet and ends in `[]` becomes an array type on the type of the
    rest, and one whose first `<` is matched by the `>` at its end a parameterized type with the tag
    of its raw type; a name without a `<` becomes an unknown type. But one with text after the
    matching `>`, or with no such `>`, becomes a parameterized type as well, on what stands before
    its first `<`. -/
theorem internedAs_reading_iff (model : Model) (name : String)
    (unseen : model.type? name = none) :
    ∃ reading, (∀ second, TypeName.Reads name second ↔ second = reading) ∧
      (model.InternedAs name reading ↔ ¬ TypeName.Unclosed name) ∧
      (TypeName.Unclosed name → ∃ front rest raw, name.toList = front ++ '<' :: rest ∧
        '<' ∉ front ∧ TypeName.TrimsTo front raw.toList ∧
        model.InternedAs name (.parameterized raw)) := by
  obtain ⟨reading, reads⟩ := TypeName.exists_reads name
  have only (second : TypeName.Reading) : TypeName.Reads name second ↔ second = reading :=
    ⟨fun again => again.unique reads, fun same => same ▸ reads⟩
  refine ⟨reading, only, ?_⟩
  cases reads with
  | array ends part =>
      have closed : ¬ TypeName.Unclosed name := fun unclosed => nomatch (only _).mp unclosed.1
      have found := TypeName.elementChars?_eq_some_iff.mpr ⟨_, ends, part⟩
      exact ⟨iff_of_true (internedAs_array unseen found) closed,
        fun unclosed => absurd unclosed closed⟩
  | parameterized closing leads balanced part =>
      have closed : ¬ TypeName.Unclosed name := fun unclosed => nomatch (only _).mp unclosed.1
      have whole := TypeName.elementChars?_eq_none_iff.mpr fun _ =>
        TypeName.ne_array_of_parameterized closing
      have found := TypeName.rawChars?_eq_some_iff.mpr ⟨_, _, closing, leads, part⟩
      exact ⟨iff_of_true (internedAs_parameterized unseen whole found) closed,
        fun unclosed => absurd unclosed closed⟩
  | other plain unmatched =>
      have whole := TypeName.elementChars?_eq_none_iff.mpr plain
      by_cases member : '<' ∈ name.toList
      · obtain ⟨front, rest, split, leads⟩ := List.eq_append_cons_of_mem member
        obtain ⟨raw, part⟩ := TypeName.exists_trimsTo front
        have found := TypeName.rawChars?_eq_some_iff.mpr ⟨front, rest, split, leads, part⟩
        have built := internedAs_parameterized unseen whole found
        exact ⟨iff_of_false (not_internedAs_other built)
            (not_not_intro ⟨.other plain unmatched, member⟩),
          fun _ => ⟨front, rest, raw, split, leads, part, built⟩⟩
      · have closed : ¬ TypeName.Unclosed name := fun unclosed => member unclosed.2
        have free := TypeName.rawChars?_eq_none_iff.mpr member
        exact ⟨iff_of_true (internedAs_other unseen whole free) closed,
          fun unclosed => absurd unclosed closed⟩

/-- The name of a member type is interned as that of the outer type with arguments. -/
theorem internedAs_reading_iff_memberType :
    prelude.type? "p.A<p.B>.C" = none ∧
      prelude.InternedAs "p.A<p.B>.C" (.parameterized "p.A") := by
  have unseen : prelude.type? "p.A<p.B>.C" = none := by decide +kernel
  obtain ⟨_, _, _, beyond⟩ := internedAs_reading_iff prelude "p.A<p.B>.C" unseen
  obtain ⟨front, rest, raw, split, leads, part, built⟩ := beyond TypeName.unclosed_memberType
  have found := TypeName.rawChars?_eq_some_iff.mpr ⟨front, rest, split, leads, part⟩
  have outer : TypeName.rawChars? "p.A<p.B>.C".toList = some "p.A".toList := by decide +kernel
  obtain rfl := String.toList_injective (Option.some.inj (found.symm.trans outer))
  exact ⟨unseen, built⟩

/-- A name may read as that of an unknown type and be interned as that of a parameterized one. -/
theorem not_forall_internedAs_reading :
    ¬ ∀ (model : Model) (name : String) (reading : TypeName.Reading),
      model.type? name = none → TypeName.Reads name reading → model.InternedAs name reading := by
  intro follows
  have unseen : prelude.type? "p.A<p.B>.C" = none := by decide +kernel
  have built : prelude.InternedAs "p.A<p.B>.C" (.parameterized "p.A") :=
    internedAs_parameterized unseen (by decide +kernel) (by decide +kernel)
  exact not_internedAs_other built (follows _ _ _ unseen TypeName.unclosed_memberType.1)

end Model

end BugPatterns
