/-
# Reading JSON text

`parse?` reads a text that is one value with optional blanks around it. Strings must not hold
control characters or halves of surrogate pairs, numbers have no leading zeros and at most
`maxWholeDigits` digits in front of the point, and besides the numbers of the format `NaN` and the
two infinities are read. Containers that are not empty nest at most `maxDepth` levels deep.

Each reader takes the start of a text and gives what it read and the rest.
-/
import ContextAtlas.Json

namespace ContextAtlas.Json

/-! ## 1. Blanks -/

/-- Whether a character may stand between two parts of a value. -/
def isGap (c : Char) : Bool := c == ' ' || c == '\t' || c == '\n' || c == '\r'

/-- The text behind its leading blanks. -/
def afterGap (text : List Char) : List Char := text.dropWhile isGap

/-! ## 2. Texts -/

/-- The value of a hexadecimal digit. -/
def hexValue? (c : Char) : Option Nat :=
  if '0' ≤ c ∧ c ≤ '9' then some (c.toNat - 48)
  else if 'a' ≤ c ∧ c ≤ 'f' then some (c.toNat - 87)
  else if 'A' ≤ c ∧ c ≤ 'F' then some (c.toNat - 55)
  else none

/-- The number that four hexadecimal digits write. -/
def hexQuad? (a b c d : Char) : Option Nat := do
  some ((((← hexValue? a) * 16 + (← hexValue? b)) * 16 + (← hexValue? c)) * 16 + (← hexValue? d))

/-- The character that an escape of one letter stands for. -/
def shortEscape? : Char → Option Char
  | '"' => some '"'
  | '\\' => some '\\'
  | '/' => some '/'
  | 'b' => some '\x08'
  | 'f' => some '\x0c'
  | 'n' => some '\n'
  | 'r' => some '\r'
  | 't' => some '\t'
  | _ => none

/-- The character of a code point that is no half of a surrogate pair. -/
def scalar? (n : Nat) : Option Char := if 0xD800 ≤ n ∧ n < 0xE000 then none else some (Char.ofNat n)

/-- The character of a surrogate pair. -/
def surrogatePair? (high low : Nat) : Option Char :=
  if 0xD800 ≤ high ∧ high < 0xDC00 ∧ 0xDC00 ≤ low ∧ low < 0xE000 then
    some (Char.ofNat (0x10000 + (high - 0xD800) * 0x400 + (low - 0xDC00)))
  else none

/-- Puts a character in front of what is read next. -/
def consText (c : Char) (next : Option (List Char × List Char)) :
    Option (List Char × List Char) :=
  next.map fun (content, rest) => (c :: content, rest)

/-- Reads a text behind its opening quote. -/
def readText : List Char → Option (List Char × List Char)
  | [] => none
  | '\\' :: 'u' :: a :: b :: c :: d :: r =>
    match hexQuad? a b c d with
    | none => none
    | some n =>
      match scalar? n, r with
      | some x, r => consText x (readText r)
      | none, '\\' :: 'u' :: a' :: b' :: c' :: d' :: s =>
        match (hexQuad? a' b' c' d').bind (surrogatePair? n) with
        | some x => consText x (readText s)
        | none => none
      | none, _ => none
  | '\\' :: c :: r =>
    match shortEscape? c with
    | some x => consText x (readText r)
    | none => none
  | c :: r =>
    if c = '"' then some ([], r)
    else if c = '\\' ∨ c.toNat < 32 then none
    else consText c (readText r)

/-! ## 3. Numbers -/

/-- The number that a run of digits writes behind the digits of `n`. -/
def digitsValue (n : Nat) (digits : List Char) : Nat :=
  digits.foldl (fun m c => m * 10 + (c.toNat - 48)) n

/-- A number with a sign. -/
def withSign (negative : Bool) (n : Nat) : Int := if negative then -(n : Int) else n

/-- Reads the digits behind a point; there has to be one. Without a point there are none. -/
def readFraction : List Char → Option (List Char × List Char)
  | '.' :: r =>
    match r.takeWhile Char.isDigit with
    | [] => none
    | digits => some (digits, r.dropWhile Char.isDigit)
  | text => some ([], text)

/-- Reads the digits of an exponent; there has to be one. -/
def readExponentDigits (negative : Bool) (text : List Char) : Option (Int × List Char) :=
  match text.takeWhile Char.isDigit with
  | [] => none
  | digits => some (withSign negative (digitsValue 0 digits), text.dropWhile Char.isDigit)

/-- Reads an optional exponent. -/
def readExponent : List Char → Option (Option Int × List Char)
  | [] => some (none, [])
  | c :: r =>
    if c = 'e' ∨ c = 'E' then
      (match r with
        | '+' :: s => readExponentDigits false s
        | '-' :: s => readExponentDigits true s
        | s => readExponentDigits false s).map fun (e, rest) => (some e, rest)
    else some (none, c :: r)

/-- How many digits a number may have in front of its point. -/
def maxWholeDigits : Nat := 4300

/-- Reads a number behind its sign. -/
def readNumber (negative : Bool) (text : List Char) : Option (Json × List Char) :=
  match text.takeWhile Char.isDigit with
  | [] => none
  | whole =>
    if (whole.head? = some '0' ∧ whole.length > 1) ∨ whole.length > maxWholeDigits then none
    else do
      let (fraction, afterFraction) ← readFraction (text.dropWhile Char.isDigit)
      let (exponent, rest) ← readExponent afterFraction
      if fraction.isEmpty ∧ exponent.isNone then
        some (integer (withSign negative (digitsValue 0 whole)), rest)
      else
        some (decimal (withSign negative (digitsValue (digitsValue 0 whole) fraction))
          (exponent.getD 0 - fraction.length), rest)

/-! ## 4. Containers -/

/-- The rest of a text behind a word that has to come first. -/
def afterWord? : List Char → List Char → Option (List Char)
  | [], text => some text
  | _ :: _, [] => none
  | c :: w, d :: r => if c = d then afterWord? w r else none

/-- Reads the items of an array that is not empty, up to its closing bracket. -/
def readItems (item : List Char → Option (Json × List Char)) (text : List Char) :
    Option (List Json × List Char) :=
  match item (afterGap text) with
  | none => none
  | some (value, afterItem) =>
    match afterGap afterItem with
    | ',' :: r =>
      if r.length < text.length then
        (readItems item r).map fun (values, rest) => (value :: values, rest)
      else none
    | ']' :: r => some ([value], r)
    | _ => none
termination_by text.length

/-- Reads one field: a name, a colon and a value. -/
def readField (item : List Char → Option (Json × List Char)) (text : List Char) :
    Option ((String × Json) × List Char) :=
  match afterGap text with
  | '"' :: r =>
    match readText r with
    | none => none
    | some (key, afterKey) =>
      match afterGap afterKey with
      | ':' :: s =>
        (item (afterGap s)).map fun (value, rest) => ((String.ofList key, value), rest)
      | _ => none
  | _ => none

/-- Reads the fields of an object that is not empty, up to its closing brace. -/
def readFields (item : List Char → Option (Json × List Char)) (text : List Char) :
    Option (List (String × Json) × List Char) :=
  match readField item text with
  | none => none
  | some (field, afterField) =>
    match afterGap afterField with
    | ',' :: r =>
      if r.length < text.length then
        (readFields item r).map fun (fields, rest) => (field :: fields, rest)
      else none
    | '}' :: r => some ([field], r)
    | _ => none
termination_by text.length

/-! ## 5. Values -/

/-- Reads a value that is no container. -/
def readLeaf : List Char → Option (Json × List Char)
  | '"' :: r => (readText r).map fun (content, rest) => (string (String.ofList content), rest)
  | 'n' :: r => (afterWord? "ull".toList r).map fun rest => (null, rest)
  | 't' :: r => (afterWord? "rue".toList r).map fun rest => (bool true, rest)
  | 'f' :: r => (afterWord? "alse".toList r).map fun rest => (bool false, rest)
  | 'N' :: r => (afterWord? "aN".toList r).map fun rest => (notFinite, rest)
  | 'I' :: r => (afterWord? "nfinity".toList r).map fun rest => (notFinite, rest)
  | '-' :: 'I' :: r => (afterWord? "nfinity".toList r).map fun rest => (notFinite, rest)
  | '-' :: r => readNumber true r
  | text => readNumber false text

/-- Reads a value in which containers that are not empty nest at most `levels` deep. -/
def readValue (levels : Nat) (text : List Char) : Option (Json × List Char) :=
  match text with
  | '[' :: r =>
    match afterGap r with
    | ']' :: rest => some (array [], rest)
    | inner =>
      match levels with
      | 0 => none
      | n + 1 => (readItems (readValue n) inner).map fun (items, rest) => (array items, rest)
  | '{' :: r =>
    match afterGap r with
    | '}' :: rest => some (object [], rest)
    | inner =>
      match levels with
      | 0 => none
      | n + 1 => (readFields (readValue n) inner).map fun (fields, rest) => (object fields, rest)
  | text => readLeaf text

/-- How many levels of containers a text may nest. -/
def maxDepth : Nat := 200

/-- The value that a text writes. -/
def parse? (text : List Char) : Option Json :=
  match readValue maxDepth (afterGap text) with
  | none => none
  | some (value, rest) => if (afterGap rest).isEmpty then some value else none

end ContextAtlas.Json
