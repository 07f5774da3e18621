/-!
# Blank characters

The characters with the Unicode property `White_Space`, and the three questions the library asks
about blanks: whether a text holds nothing else, whether it holds any, and what is left when the
trailing ones are dropped.
-/

namespace BugPatterns

/-- The inclusive code point ranges of the property `White_Space`. -/
def blankRanges : List (Nat × Nat) :=
  [(0x09, 0x0D), (0x20, 0x20), (0x85, 0x85), (0xA0, 0xA0), (0x1680, 0x1680), (0x2000, 0x200A),
    (0x2028, 0x2029), (0x202F, 0x202F), (0x205F, 0x205F), (0x3000, 0x3000)]

/-- A character is blank when its code point lies in one of the ranges. -/
def isBlank (c : Char) : Bool :=
  blankRanges.any fun (first, last) => first ≤ c.toNat && c.toNat ≤ last

/-- A text is blank when it is empty or holds blank characters only. -/
def isBlankText (text : String) : Bool := text.toList.all isBlank

/-- The text holds a blank character somewhere. -/
def hasBlank (text : String) : Bool := text.toList.any isBlank

/-- Drops blank characters from the end of a list. -/
def dropTrailingBlanks (chars : List Char) : List Char :=
  (chars.reverse.dropWhile isBlank).reverse

/-- Dropping never lengthens a list. -/
theorem length_dropTrailingBlanks_le (chars : List Char) :
    (dropTrailingBlanks chars).length ≤ chars.length := by
  simpa [dropTrailingBlanks] using (List.dropWhile_sublist isBlank (l := chars.reverse)).length_le

end BugPatterns
