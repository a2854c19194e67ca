/-
# Integers as people write them

An integer may have blanks around it, a sign, and single underscores between its digits; its digits
may belong to any script. To a base other than ten it may start with the mark of the base, such as
`0x`. A decimal integer has at most `maxDecimalDigits` digits.
-/
import ContextAtlas.Text.Numeral

namespace ContextAtlas.Text

/-- How many digits a decimal integer may have. -/
def maxDecimalDigits : Nat := 4300

/-- Whether a character is left out around a number: a blank, but no information separator. -/
def isNumberGap (c : Char) : Bool := isBlank c && !(0x1C ≤ c.toNat && c.toNat ≤ 0x1F)

/-- A text without the gaps around it. -/
def withoutNumberGaps (text : List Char) : List Char :=
  ((text.dropWhile isNumberGap).reverse.dropWhile isNumberGap).reverse

/-- The value of a digit below a base; letters go on behind nine. -/
def digitBelow? (base : Nat) (c : Char) : Option Nat :=
  ((decimalValue? c).or
    (if 'a' ≤ c ∧ c ≤ 'z' then some (c.toNat - 87)
      else if 'A' ≤ c ∧ c ≤ 'Z' then some (c.toNat - 55) else none)).filter (· < base)

/-- The values of the digits of a number; an underscore may stand between two of them. -/
def digitValues? (base : Nat) : List Char → Option (List Nat)
  | [] => none
  | [c] => (digitBelow? base c).map ([·])
  | c :: '_' :: r => do some ((← digitBelow? base c) :: (← digitValues? base r))
  | c :: r => do some ((← digitBelow? base c) :: (← digitValues? base r))

/-- The letter in the mark of a base. -/
def baseMark? : Nat → Option Char
  | 2 => some 'b'
  | 8 => some 'o'
  | 16 => some 'x'
  | _ => none

/-- A text behind the mark of a base, if it is there, and an underscore behind the mark. -/
def afterBaseMark (base : Nat) : List Char → List Char
  | '0' :: m :: r =>
    if baseMark? base = some m.toLower then
      match r with
      | '_' :: s => s
      | s => s
    else '0' :: m :: r
  | text => text

/-- The integer that a text writes to a base. -/
def parseInteger? (base : Nat) (text : List Char) : Option Int := do
  let core := withoutNumberGaps text
  let (negative, unsigned) :=
    match core with
    | '-' :: r => (true, r)
    | '+' :: r => (false, r)
    | r => (false, r)
  let digits ← digitValues? base (afterBaseMark base unsigned)
  if base = 10 ∧ digits.length > maxDecimalDigits then none
  else
    let n := digits.foldl (fun n d => n * base + d) 0
    some (if negative then -(n : Int) else n)

end ContextAtlas.Text
