/-
# Walking over a YAML text

A cursor is a place in a text together with the text behind it. Line and column count from zero,
since indentation is a column. The end of the text is seen as the character NUL, which no text
holds: only printable characters are admitted.

* `Fault`: what can be wrong with a text or with a value in it.
* `Cursor`: the place, with `peek`, `forward` and `lineBreak`.
-/

namespace ContextAtlas.Yaml

/-! ## 1. Faults -/

/-- What is wrong with a document. `malformed` covers everything that the rules of the language
forbid: its syntax, its tags, its anchors, keys that cannot be keys. `endless` is about a document
that nests too deep or without end. The others are about single values: a value cannot be what its
tag says, a number is too long, or an escape names no character. -/
inductive Fault where
  | malformed
  | badValue
  | emptyNumber
  | unknownTruth
  | notTimestamp
  | timestampInMapping
  | numberTooLarge
  | codePointTooLarge
  | endless
deriving DecidableEq

/-! ## 2. Classes of characters -/

/-- What is seen behind the end of a text. -/
def endMark : Char := '\x00'

/-- Whether a character may stand in a document. -/
def isPrintable (c : Char) : Bool :=
  c == '\t' || c == '\n' || c == '\r' || (' ' ≤ c && c ≤ '~') || c == '\u0085'
    || ('\u00a0' ≤ c && c ≤ '\ud7ff') || ('\ue000' ≤ c && c ≤ '\ufffd') || 0x10000 ≤ c.toNat

/-- Whether a character breaks a line. -/
def isBreak (c : Char) : Bool :=
  c == '\r' || c == '\n' || c == '\u0085' || c == '\u2028' || c == '\u2029'

/-- Whether a character ends a line: a line break or the end of the text. -/
def isLineEnd (c : Char) : Bool := c == endMark || isBreak c

/-- Whether a character is a line end or a blank. -/
def isSpaceOrEnd (c : Char) : Bool := c == ' ' || isLineEnd c

/-- Whether a character is a line end, a blank or a tab. -/
def isGapOrEnd (c : Char) : Bool := c == '\t' || isSpaceOrEnd c

/-- Whether a character may stand in the name of an anchor, a directive or a tag handle. -/
def isNameChar (c : Char) : Bool := c.isAlphanum || c == '-' || c == '_'

/-- The value of a hexadecimal digit. -/
def hexDigit? (c : Char) : Option Nat :=
  if c.isDigit then some (c.toNat - 48)
  else if 'a' ≤ c && c ≤ 'f' then some (c.toNat - 87)
  else if 'A' ≤ c && c ≤ 'F' then some (c.toNat - 55)
  else none

/-- The number that some hexadecimal digits write. -/
def hexValue? (digits : List Char) : Option Nat :=
  digits.foldlM (fun n c => (hexDigit? c).map (n * 16 + ·)) 0

/-! ## 3. Cursors -/

/-- A place in a text and the text behind it. -/
structure Cursor where
  rest : List Char
  offset : Nat
  line : Nat
  column : Nat

namespace Cursor

/-- The start of a text. -/
def start (text : List Char) : Cursor := ⟨text, 0, 0, 0⟩

/-- The character `n` places further. -/
def peek (c : Cursor) (n : Nat) : Char := c.rest.getD n endMark

/-- The character at the cursor. -/
def here (c : Cursor) : Char := c.peek 0

/-- The next `n` characters. -/
def next (c : Cursor) (n : Nat) : List Char := c.rest.take n

/-- One character further. A line break of two characters is left with its second. -/
def step (c : Cursor) : Cursor :=
  match c.rest with
  | [] => c
  | x :: r =>
    if isBreak x && !(x == '\r' && r.head? == some '\n') then ⟨r, c.offset + 1, c.line + 1, 0⟩
    else if x == '\ufeff' then ⟨r, c.offset + 1, c.line, c.column⟩
    else ⟨r, c.offset + 1, c.line, c.column + 1⟩

/-- Some characters further. -/
def forward (c : Cursor) : Nat → Cursor
  | 0 => c
  | n + 1 => c.step.forward n

/-- The characters of a class at the cursor. -/
def run (c : Cursor) (p : Char → Bool) : List Char := c.rest.takeWhile p

/-- Behind the characters of a class. -/
def skip (c : Cursor) (p : Char → Bool) : Cursor := c.forward (c.run p).length

/-- Takes a line break, if there is one. All breaks but the two separators of Unicode read as a
line feed. -/
def lineBreak (c : Cursor) : List Char × Cursor :=
  if c.here == '\r' || c.here == '\n' || c.here == '\u0085' then
    (['\n'], if c.next 2 = ['\r', '\n'] then c.forward 2 else c.step)
  else if c.here == '\u2028' || c.here == '\u2029' then ([c.here], c.step)
  else ([], c)

/-- Whether a document marker stands at the cursor: three characters of a kind and a gap. -/
def atMarker (c : Cursor) (x : Char) : Bool := c.next 3 == [x, x, x] && isGapOrEnd (c.peek 3)

/-- Whether either document marker stands at the cursor. -/
def atSeparator (c : Cursor) : Bool := c.atMarker '-' || c.atMarker '.'

/-- Behind a comment up to the end of its line, if one starts at the cursor. -/
def skipComment (c : Cursor) : Cursor :=
  if c.here == '#' then c.skip (!isBreak ·) else c

/-- Behind the rest of a line that has to be blank but for a comment. -/
def skipLine (c : Cursor) : Except Fault Cursor :=
  let c := (c.skip (· == ' ')).skipComment
  if isLineEnd c.here then .ok c.lineBreak.2 else .error .malformed

end Cursor

end ContextAtlas.Yaml
