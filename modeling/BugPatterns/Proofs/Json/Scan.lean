import BugPatterns.Json.Printer
import BugPatterns.Json.Token
import BugPatterns.Proofs.Json.Plain
import Mathlib.Data.List.Basic
import Mathlib.Data.List.TakeWhile
import Mathlib.Data.Nat.Digits.Defs
import Mathlib.Tactic.SplitIfs

/-!
# Tokens of written values

The lexer gets past the text of a plain value in one large step, and keeps the tokens of the value
(`Lexer.run_write`). What a number or a word is followed by has to end it, and the marks of
containers do.
-/

namespace BugPatterns

namespace Json

mutual

/-- The tokens that a value is written with, newest first, on top of earlier ones. -/
def tokens : Json → List JsonToken → List JsonToken
  | .str text, before => .text (some text) :: before
  | .arr items, before => .mark .rightBracket :: itemTokens items (.mark .leftBracket :: before)
  | .obj fields, before => .mark .rightBrace :: fieldTokens fields (.mark .leftBrace :: before)
  | value, before => .scalar value :: before

/-- The tokens of the items of an array. -/
def itemTokens : List Json → List JsonToken → List JsonToken
  | [], before => before
  | [item], before => item.tokens before
  | item :: items, before => itemTokens items (.mark .comma :: item.tokens before)

/-- The tokens of the fields of an object. -/
def fieldTokens : List (String × Json) → List JsonToken → List JsonToken
  | [], before => before
  | [(name, value)], before => value.tokens (.mark .colon :: .text (some name) :: before)
  | (name, value) :: fields, before =>
      fieldTokens fields
        (.mark .comma :: value.tokens (.mark .colon :: .text (some name) :: before))

end

end Json

/-! ### Numbers -/

namespace NumberLiteral

theorem digitsValue_toDigits (n : Nat) : digitsValue (Nat.toDigits 10 n) = n :=
  Nat.ofDigitChars_toDigits (by decide) (by decide)

theorem toDigits_isDigit (n : Nat) : ∀ c ∈ Nat.toDigits 10 n, c.isDigit :=
  fun _ => Nat.isDigit_of_mem_toDigits (by decide) (by decide)

/-- The first digit of a positive number is not zero. -/
theorem head?_toDigits {n : Nat} (positive : 0 < n) : (Nat.toDigits 10 n).head? ≠ some '0' := by
  induction n using Nat.strong_induction_on with
  | _ n ih =>
      rcases Nat.lt_or_ge n 10 with small | large
      · rw [Nat.toDigits_of_lt_base small, List.head?_cons]
        intro zero
        exact Nat.ne_of_gt positive (Nat.digitChar_eq_zero.mp (Option.some.inj zero))
      · have shorter := ih (n / 10) (by omega) (by omega)
        rw [Nat.toDigits_of_base_le (by decide) large,
          List.head?_append_of_ne_nil _ Nat.toDigits_ne_nil]
        exact shorter

theorem isWhole_toDigits (n : Nat) : isWhole (Nat.toDigits 10 n) := by
  rcases Nat.eq_zero_or_pos n with rfl | positive
  · rfl
  · have first := head?_toDigits positive
    have some_digit := Nat.toDigits_ne_nil (n := n) (b := 10)
    unfold isWhole
    split
    · contradiction
    · next zero =>
        rw [zero] at first
        exact absurd rfl first
    · rfl

/-- Few digits denote a finite number. -/
theorem isBeyondFinite_digits {digits : List Char} (few : digits.length < 309) :
    isBeyondFinite ⟨false, digits, none, none⟩ = false := by
  have fewer := (digits.dropWhile_sublist (· = '0')).length_le
  have magnitude : (((digits ++ []).dropWhile (· = '0')).length : Int) +
      (0 - ([] : List Char).length) < 309 := by
    rw [List.append_nil, List.length_nil]
    omega
  exact if_pos (Bool.or_eq_true_iff.mpr (Or.inr (decide_eq_true magnitude)))

/-- The digits of a number are a literal of it. -/
theorem number?_toDigits {n : Nat} (small : n < UInt64.size) :
    Lexer.number? (Nat.toDigits 10 n) = some (.nat n) := by
  have digits := toDigits_isDigit n
  have few : (Nat.toDigits 10 n).length ≤ 20 :=
    (Nat.length_toDigits_le_iff (by decide) (by decide)).mpr (Nat.lt_trans small (by decide))
  have unsigned : parse? (Nat.toDigits 10 n) = unsigned? false (Nat.toDigits 10 n) := by
    unfold parse?
    split
    · next minus =>
        rw [minus] at digits
        exact absurd (digits '-' List.mem_cons_self) (by decide)
    · rfl
  have literal : unsigned? false (Nat.toDigits 10 n) =
      some ⟨false, Nat.toDigits 10 n, none, none⟩ := by
    have all : spanDigits (Nat.toDigits 10 n) = (Nat.toDigits 10 n, []) := by
      rw [spanDigits, List.takeWhile_eq_self_iff.mpr digits, List.dropWhile_eq_nil_iff.mpr digits]
    simp [unsigned?, all, isWhole_toDigits, fraction?, exponent?]
  rw [Lexer.number?, unsigned, literal, Option.map_some, value,
    isBeyondFinite_digits (by omega)]
  simp [digitsValue_toDigits]

end NumberLiteral

/-! ### Tokens of a text -/

namespace TextDraft

/-- A draft without surrogates, its characters newest first. -/
def plain (chars : List Char) : TextDraft := ⟨chars, none, true⟩

@[simp] theorem push_plain (chars : List Char) (c : Char) :
    (plain chars).push c = plain (c :: chars) := rfl

@[simp] theorem finish_plain (chars : List Char) :
    (plain chars).finish = some (String.ofList chars.reverse) := rfl

/-- A control character is no surrogate. -/
theorem pushUnit_plain (chars : List Char) {c : Char} (control : c.toNat < 0x20) :
    (plain chars).pushUnit c.toNat = plain (c :: chars) := by
  have low : (0xD800 ≤ c.toNat && c.toNat < 0xDC00) = false := by simp; omega
  have high : (0xDC00 ≤ c.toNat && c.toNat < 0xE000) = false := by simp; omega
  simp [pushUnit, low, high]

end TextDraft

namespace Lexer

/-- All tokens, once the characters have been read. -/
def run (lexer : Lexer) (chars : List Char) : Option (List JsonToken) :=
  (chars.foldlM step lexer).bind finish

theorem run_cons {lexer next : Lexer} {c : Char} {rest : List Char}
    (one : step lexer c = some next) : run lexer (c :: rest) = run next rest := by
  rw [run, List.foldlM_cons, one]
  rfl

/-- No number and no word goes on with these characters. -/
def Ends (rest : List Char) : Prop := ∀ c ∈ rest.head?, isNumberChar c = false ∧ c.isAlpha = false

theorem ends_nil : Ends [] := nofun

theorem ends_cons {c : Char} (apart : isNumberChar c = false ∧ c.isAlpha = false)
    (rest : List Char) : Ends (c :: rest) := by
  intro d first
  cases first
  exact apart

variable {before : List JsonToken} {rest : List Char}

/-- A number ends where its characters do. -/
theorem run_number {chars : List Char} {value : Json} (whole : number? chars.reverse = some value)
    (ends : Ends rest) :
    run ⟨before, .number chars⟩ rest = run ⟨.scalar value :: before, .between⟩ rest := by
  cases rest with
  | nil => simp [run, finish, whole]
  | cons c rest =>
      have apart := (ends c rfl).1
      simp [run, step, apart, whole]

/-- A word ends where its letters do. -/
theorem run_word {letters : List Char} {value : Json} (whole : word? letters.reverse = some value)
    (ends : Ends rest) :
    run ⟨before, .word letters⟩ rest = run ⟨.scalar value :: before, .between⟩ rest := by
  cases rest with
  | nil => simp [run, finish, whole]
  | cons c rest =>
      have apart := (ends c rfl).2
      simp [run, step, apart, whole]

theorem run_digits {digits : List Char} (all : ∀ c ∈ digits, c.isDigit) (seen : List Char) :
    run ⟨before, .number seen⟩ (digits ++ rest) =
      run ⟨before, .number (digits.reverse ++ seen)⟩ rest := by
  induction digits generalizing seen with
  | nil => rfl
  | cons c digits ih =>
      have digit : isNumberChar c := by simp [isNumberChar, all c List.mem_cons_self]
      have one : step ⟨before, .number seen⟩ c = some ⟨before, .number (c :: seen)⟩ := if_pos digit
      rw [List.cons_append, run_cons one, ih fun d member => all d (List.mem_cons_of_mem _ member),
        List.reverse_cons, List.append_assoc]
      rfl

/-- A digit starts a number. -/
theorem step_digit {c : Char} (digit : c.isDigit) :
    step ⟨before, .between⟩ c = some ⟨before, .number [c]⟩ := by
  have apart : isSpace c = false ∧ c ≠ '"' := by
    constructor
    · simp only [isSpace, Bool.or_eq_false_iff, decide_eq_false_iff_not]
      refine ⟨⟨⟨?_, ?_⟩, ?_⟩, ?_⟩ <;> rintro rfl <;> contradiction
    · rintro rfl
      contradiction
  simp [step, begin, apart, digit]

/-- A natural number is one token. -/
theorem run_toDigits {n : Nat} (small : n < UInt64.size) (ends : Ends rest) :
    run ⟨before, .between⟩ (Nat.toDigits 10 n ++ rest) =
      run ⟨.scalar (.nat n) :: before, .between⟩ rest := by
  have whole := NumberLiteral.number?_toDigits small
  have digits := NumberLiteral.toDigits_isDigit n
  revert whole digits
  cases Nat.toDigits 10 n with
  | nil => intro whole; cases whole
  | cons c later =>
      intro whole digits
      rw [List.cons_append, run_cons (step_digit (digits c List.mem_cons_self)),
        run_digits fun d member => digits d (List.mem_cons_of_mem _ member)]
      exact run_number (by simpa using whole) ends

/-- A hexadecimal digit has the value that it was written for. -/
theorem hexDigit?_hexDigit : ∀ {n : Nat}, n < 16 → hexDigit? (Json.hexDigit n) = some n := by
  decide

theorem step_hex {draft : TextDraft} {missing unit n : Nat} (small : n < 16) :
    step ⟨before, .hex draft (missing + 1) unit⟩ (Json.hexDigit n) =
      some ⟨before, .hex draft missing (16 * unit + n)⟩ := by
  rw [step, hexDigit?_hexDigit small]
  rfl

/-- The last digit of an escape completes its unit. -/
theorem step_lastHex {draft : TextDraft} {unit n : Nat} (small : n < 16) :
    step ⟨before, .hex draft 0 unit⟩ (Json.hexDigit n) =
      some ⟨before, .text (draft.pushUnit (16 * unit + n))⟩ := by
  rw [step, hexDigit?_hexDigit small]
  rfl

/-- What a character is written as is read as this character. -/
theorem run_escapeChar (c : Char) (chars : List Char) :
    run ⟨before, .text (.plain chars)⟩ (Json.escapeChar c ++ rest) =
      run ⟨before, .text (.plain (c :: chars))⟩ rest := by
  unfold Json.escapeChar
  split_ifs with quote backslash newline carriage tab backspace feed control
  iterate 7
    · subst c
      rfl
  · -- four digits name the unit, and the first two of them are zeros
    have unit : 16 * (16 * 0 + c.toNat / 16) + c.toNat % 16 = c.toNat := by omega
    show run ⟨before, .hex (.plain chars) 1 0⟩
      (Json.hexDigit (c.toNat / 16) :: Json.hexDigit (c.toNat % 16) :: rest) = _
    rw [run_cons (step_hex (by omega)), run_cons (step_lastHex (by omega)), unit,
      TextDraft.pushUnit_plain chars control]
  · refine run_cons ?_
    simp [step, quote, backslash, control]

/-- A string is one token. -/
theorem run_quote (text : String) :
    run ⟨before, .between⟩ (Json.quote text rest) =
      run ⟨.text (some text) :: before, .between⟩ rest := by
  have inside (letters seen : List Char) :
      run ⟨before, .text (.plain seen)⟩ (letters.flatMap Json.escapeChar ++ '"' :: rest) =
        run ⟨.text (some (String.ofList (seen.reverse ++ letters))) :: before, .between⟩ rest := by
    induction letters generalizing seen with
    | nil => rw [List.append_nil]; rfl
    | cons c letters ih =>
        rw [List.flatMap_cons, List.append_assoc, run_escapeChar, ih, List.reverse_cons,
          List.append_assoc]
        rfl
  exact (inside text.toList []).trans (by simp)

mutual

/-- The text of a value is its tokens. -/
theorem run_write (value : Json) (plain : value.isPlain) (before : List JsonToken)
    {rest : List Char} (ends : Ends rest) :
    run ⟨before, .between⟩ (value.write rest) = run ⟨value.tokens before, .between⟩ rest := by
  match value with
  | .null => exact @run_word before rest ['l', 'l', 'u', 'n'] .null rfl ends
  | .bool true => exact @run_word before rest ['e', 'u', 'r', 't'] (.bool true) rfl ends
  | .bool false => exact @run_word before rest ['e', 's', 'l', 'a', 'f'] (.bool false) rfl ends
  | .num (.natural _) => exact run_toDigits (of_decide_eq_true plain) ends
  | .str text => exact run_quote text
  | .arr items =>
      exact run_writeItems items plain (.mark .leftBracket :: before) (ends_cons ⟨rfl, rfl⟩ rest)
  | .obj fields =>
      exact run_writeFields fields plain (.mark .leftBrace :: before) (ends_cons ⟨rfl, rfl⟩ rest)

theorem run_writeItems (items : List Json) (plain : Json.arePlain items)
    (before : List JsonToken) {rest : List Char} (ends : Ends rest) :
    run ⟨before, .between⟩ (Json.writeItems items rest) =
      run ⟨Json.itemTokens items before, .between⟩ rest := by
  match items with
  | [] => rfl
  | [item] =>
      rw [Json.arePlain_cons, Bool.and_eq_true] at plain
      exact run_write item plain.1 before ends
  | item :: later :: items =>
      rw [Json.arePlain_cons, Bool.and_eq_true] at plain
      calc run ⟨before, .between⟩ (Json.writeItems (item :: later :: items) rest)
        _ = run ⟨item.tokens before, .between⟩ (',' :: Json.writeItems (later :: items) rest) :=
          run_write item plain.1 before (ends_cons ⟨rfl, rfl⟩ _)
        _ = run ⟨Json.itemTokens (item :: later :: items) before, .between⟩ rest :=
          run_writeItems (later :: items) plain.2 _ ends

theorem run_writeFields (fields : List (String × Json)) (plain : Json.fieldsArePlain fields)
    (before : List JsonToken) {rest : List Char} (ends : Ends rest) :
    run ⟨before, .between⟩ (Json.writeFields fields rest) =
      run ⟨Json.fieldTokens fields before, .between⟩ rest := by
  match fields with
  | [] => rfl
  | [(name, value)] =>
      rw [Json.fieldsArePlain_cons, Bool.and_eq_true] at plain
      exact (run_quote name).trans (run_write value plain.1 _ ends)
  | (name, value) :: later :: fields =>
      rw [Json.fieldsArePlain_cons, Bool.and_eq_true] at plain
      let named : List JsonToken := .mark .colon :: .text (some name) :: before
      calc run ⟨before, .between⟩ (Json.writeFields ((name, value) :: later :: fields) rest)
        _ = run ⟨named, .between⟩ (value.write (',' :: Json.writeFields (later :: fields) rest)) :=
          run_quote name
        _ = run ⟨value.tokens named, .between⟩ (',' :: Json.writeFields (later :: fields) rest) :=
          run_write value plain.1 named (ends_cons ⟨rfl, rfl⟩ _)
        _ = run ⟨Json.fieldTokens ((name, value) :: later :: fields) before, .between⟩ rest :=
          run_writeFields (later :: fields) plain.2 _ ends

end

end Lexer

end BugPatterns
