/-
# Tags

A tag says what a node is. A scalar without a tag gets one from its text, by the rules of YAML 1.1:
`yes` is a truth value, `0x1F` an integer, `2020-01-01` a timestamp. A scalar between quotes is
text whatever it says.

* `Tag`: the tags that mean something; every other is `unknown`.
* `Tag.ofText`: the tag that a plain scalar gets from its text.
-/
import ContextAtlas.Yaml.Cursor

namespace ContextAtlas.Yaml

/-- What a node is. `merge` and `value` are the tags of the two special keys of a mapping. -/
inductive Tag where
  | null
  | bool
  | int
  | float
  | binary
  | timestamp
  | text
  | sequence
  | mapping
  | set
  | orderedMapping
  | pairs
  | merge
  | value
  | unknown
deriving DecidableEq

/-- The start of the addresses of all tags that mean something. -/
def standardAddress : String := "tag:yaml.org,2002:"

/-- The tag at an address. -/
def Tag.ofAddress (address : String) : Tag :=
  ([("null", .null), ("bool", .bool), ("int", .int), ("float", .float), ("binary", .binary),
    ("timestamp", .timestamp), ("str", .text), ("seq", .sequence), ("map", .mapping),
    ("set", .set), ("omap", .orderedMapping), ("pairs", .pairs), ("merge", .merge),
    ("value", .value)].find? fun (name, _) => standardAddress ++ name == address).elim
      .unknown (·.2)

/-! ## 1. Numbers -/

/-- A text behind an optional sign. -/
def afterSign : List Char → List Char
  | '+' :: r => r
  | '-' :: r => r
  | text => text

/-- Whether a character is a digit or an underscore. -/
def isSpacedDigit (c : Char) : Bool := c.isDigit || c == '_'

/-- Whether a text is one or more parts of a number to the base sixty, each a colon and one or two
digits, up to a text that `tail` accepts. -/
def isSexagesimal (tail : List Char → Bool) : List Char → Bool
  | ':' :: a :: b :: r =>
    ('0' ≤ a && a ≤ '5' && b.isDigit && (tail r || isSexagesimal tail r))
      || (a.isDigit && (tail (b :: r) || isSexagesimal tail (b :: r)))
  | [':', a] => a.isDigit && tail []
  | _ => false

/-- Whether a text writes an integer: to the base two, eight, ten, sixteen or sixty. -/
def isInteger (text : List Char) : Bool :=
  match afterSign text with
  | ['0'] => true
  | '0' :: 'b' :: r => !r.isEmpty && r.all fun c => c == '0' || c == '1' || c == '_'
  | '0' :: 'x' :: r => !r.isEmpty && r.all fun c => (hexDigit? c).isSome || c == '_'
  | '0' :: r => r.all fun c => ('0' ≤ c && c ≤ '7') || c == '_'
  | c :: r =>
    c.isDigit && (r.all isSpacedDigit
      || isSexagesimal List.isEmpty (r.dropWhile isSpacedDigit))
  | [] => false

/-- Whether a text is empty or an exponent, whose sign must be written. -/
def isExponent : List Char → Bool
  | [] => true
  | e :: sign :: r =>
    (e == 'e' || e == 'E') && (sign == '+' || sign == '-') && !r.isEmpty && r.all Char.isDigit
  | _ => false

/-- Whether a text is a point and a fraction, which may be empty. -/
def isFraction (exponent : Bool) : List Char → Bool
  | '.' :: r =>
    let rest := r.dropWhile isSpacedDigit
    if exponent then isExponent rest else rest.isEmpty
  | _ => false

/-- Whether a text writes a number with a point: to the base ten or sixty, infinite, or none. -/
def isDecimal (text : List Char) : Bool :=
  let unsigned := afterSign text
  (match unsigned with
    | c :: r =>
      c.isDigit && (isFraction true (r.dropWhile isSpacedDigit)
        || isSexagesimal (isFraction false) (r.dropWhile isSpacedDigit))
    | [] => false)
  || (match text with
    | '.' :: c :: r => c.isDigit && isExponent (r.dropWhile isSpacedDigit)
    | _ => false)
  || [".inf", ".Inf", ".INF"].contains (String.ofList unsigned)
  || [".nan", ".NaN", ".NAN"].contains (String.ofList text)

/-! ## 2. Timestamps -/

/-- What a timestamp says: the date, and the time of the day with the distance to universal time
in minutes, if they are given. -/
structure Timestamp where
  year : Nat
  month : Nat
  day : Nat
  time : Option (Nat × Nat × Nat) := none
  distance : Nat := 0

/-- The number that some digits write. -/
def digitsValue (digits : List Char) : Nat := digits.foldl (fun n c => n * 10 + (c.toNat - 48)) 0

/-- Takes at least `least` and at most `most` digits: their value and the rest. -/
def takeDigits (least most : Nat) (text : List Char) : Option (Nat × List Char) :=
  let digits := (text.take most).takeWhile Char.isDigit
  if least ≤ digits.length then some (digitsValue digits, text.drop digits.length) else none

/-- Takes one character. -/
def takeChar (c : Char) : List Char → Option (List Char)
  | [] => none
  | x :: r => if x = c then some r else none

/-- Reads the distance to universal time, in minutes, at the end of a timestamp. -/
def readDistance : List Char → Option Nat
  | [] => some 0
  | ['Z'] => some 0
  | sign :: r => do
    if sign = '+' ∨ sign = '-' then
      let (hours, r) ← takeDigits 1 2 r
      if r.isEmpty then some (hours * 60)
      else
        let (minutes, r) ← takeDigits 2 2 (← takeChar ':' r)
        if r.isEmpty then some (hours * 60 + minutes) else none
    else none

/-- Reads the time of a timestamp behind its date. -/
def readTime (text : List Char) : Option ((Nat × Nat × Nat) × Nat) := do
  let blank (c : Char) : Bool := c == ' ' || c == '\t'
  let r ←
    match text with
    | c :: r =>
      if c = 't' ∨ c = 'T' then some r
      else if blank c then some (r.dropWhile blank)
      else none
    | [] => none
  let (hour, r) ← takeDigits 1 2 r
  let (minute, r) ← takeDigits 2 2 (← takeChar ':' r)
  let (second, r) ← takeDigits 2 2 (← takeChar ':' r)
  let r :=
    match r with
    | '.' :: r => r.dropWhile Char.isDigit
    | r => r
  let distance ← readDistance (r.dropWhile blank)
  if r.dropWhile blank = [] ∧ r ≠ [] then none else some ((hour, minute, second), distance)

/-- Reads a timestamp. Without a time, month and day may have one digit. -/
def Timestamp.read? (text : List Char) : Option Timestamp := do
  let (year, r) ← takeDigits 4 4 text
  let (month, r) ← takeDigits 1 2 (← takeChar '-' r)
  let (day, r) ← takeDigits 1 2 (← takeChar '-' r)
  if r.isEmpty then some { year, month, day }
  else
    let (time, distance) ← readTime r
    some { year, month, day, time := some time, distance }

/-- Whether a text is a timestamp without being told so: a date alone has to be written in
full. -/
def isTimestamp (text : List Char) : Bool :=
  match Timestamp.read? text with
  | none => false
  | some t => t.time.isSome || text.length = 10

/-! ## 3. The tag of a text -/

/-- The words that are truth values. -/
def truthWords : List String :=
  ["yes", "Yes", "YES", "no", "No", "NO", "true", "True", "TRUE", "false", "False", "FALSE",
    "on", "On", "ON", "off", "Off", "OFF"]

/-- A text without a line feed at its end. -/
def withoutLastFeed (text : List Char) : List Char :=
  match text.reverse with
  | '\n' :: r => r.reverse
  | _ => text

/-- The tag that a plain scalar gets from its text; a line feed at its end does not count. -/
def Tag.ofText (text : List Char) : Tag :=
  let core := withoutLastFeed text
  let word := String.ofList core
  if text.isEmpty || ["~", "null", "Null", "NULL"].contains word then .null
  else if truthWords.contains word then .bool
  else if isDecimal core then .float
  else if isInteger core then .int
  else if word = "<<" then .merge
  else if isTimestamp core then .timestamp
  else if word = "=" then .value
  else if ["!", "&", "*"].contains word then .unknown
  else .text

end ContextAtlas.Yaml
