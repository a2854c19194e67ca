/-
# Sets of characters, and the blanks

A character class of the Unicode standard is a list of inclusive ranges of code points. `within`
asks whether a character lies in one of them.

The first of the classes are the characters that separate tokens: the white space of Unicode 14.0
together with the four information separators. A line ends only at a line feed, so most blanks do
not end one.
-/
namespace ContextAtlas.Text

/-! ## 1. Ranges -/

/-- An inclusive range of code points, first and last. -/
abbrev CodeRange := Nat × Nat

/-- Whether a character lies in one of the ranges. -/
def within (ranges : List CodeRange) (c : Char) : Bool :=
  ranges.any fun r => r.1 ≤ c.toNat && c.toNat ≤ r.2

theorem within_cons (r : CodeRange) (rs : List CodeRange) (c : Char) :
    within (r :: rs) c = ((r.1 ≤ c.toNat && c.toNat ≤ r.2) || within rs c) := rfl

/-! ## 2. Blanks -/

/-- Every range of blanks, in order of code point. -/
def blankRanges : List CodeRange :=
  [(0x9, 0xD), (0x1C, 0x20), (0x85, 0x85), (0xA0, 0xA0), (0x1680, 0x1680), (0x2000, 0x200A),
   (0x2028, 0x2029), (0x202F, 0x202F), (0x205F, 0x205F), (0x3000, 0x3000)]

/-- Whether a character is blank. -/
def isBlank (c : Char) : Bool := within blankRanges c

theorem isBlank_newline : isBlank '\n' = true := by decide

/-- Drops the blanks at both ends. -/
def trim (text : List Char) : List Char :=
  ((text.dropWhile isBlank).reverse.dropWhile isBlank).reverse

end ContextAtlas.Text
