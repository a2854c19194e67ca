/-
# The tokens of a YAML text

Besides what is written, the tokens tell where collections of the block style start and end, which
the text says by indentation alone. The names of anchors, the handles of tags and directives are
read here; `ContextAtlas.Yaml.Token.Stream` puts the tokens of a text together.
-/
import ContextAtlas.Yaml.Scalar

namespace ContextAtlas.Yaml

/-- An instruction in front of a document. -/
inductive Directive where
  | version (major : Nat)
  | handle (handle uri : String)
  | other
deriving DecidableEq

/-- A token. A tag has a handle, or none when it is written out; a scalar is plain or not. -/
inductive Token where
  | directive (directive : Directive)
  | documentStart
  | documentEnd
  | streamEnd
  | blockSequenceStart
  | blockMappingStart
  | blockEnd
  | flowSequenceStart
  | flowSequenceEnd
  | flowMappingStart
  | flowMappingEnd
  | blockEntry
  | flowEntry
  | key
  | value
  | alias (name : String)
  | anchor (name : String)
  | tag (handle : Option String) (suffix : String)
  | scalar (text : String) (plain : Bool)
deriving DecidableEq

/-! ## 1. Names -/

/-- Reads the name of an anchor or an alias behind its mark. -/
def readAnchorName (c : Cursor) : Except Fault (String × Cursor) :=
  let name := c.run isNameChar
  let c := c.skip isNameChar
  if name.isEmpty then .error .malformed
  else if isGapOrEnd c.here || ['?', ':', ',', ']', '}', '%', '@', '`'].contains c.here then
    .ok (String.ofList name, c)
  else .error .malformed

/-! ## 2. Tags -/

/-- Whether a character may stand in the address of a tag. -/
def isUriChar (c : Char) : Bool := c.isAlphanum || "-;/?:@&=+$,_.!~*'()[]%".toList.contains c

/-- The continuation bytes of a character, and the code point they make with the bits so far. -/
def continueCode : Nat → Nat → List Nat → Option (Nat × List Nat)
  | 0, code, bytes => some (code, bytes)
  | _ + 1, _, [] => none
  | n + 1, code, b :: r =>
    if 0x80 ≤ b ∧ b < 0xC0 then continueCode n (code * 64 + (b - 0x80)) r else none

/-- The character at the start of some bytes, in the encoding UTF-8. -/
def decodeChar? (b : Nat) (r : List Nat) : Option (Char × List Nat) := do
  let (more, bits, least) ←
    if b < 0x80 then some (0, b, 0)
    else if 0xC2 ≤ b ∧ b < 0xE0 then some (1, b - 0xC0, 0x80)
    else if 0xE0 ≤ b ∧ b < 0xF0 then some (2, b - 0xE0, 0x800)
    else if 0xF0 ≤ b ∧ b < 0xF5 then some (3, b - 0xF0, 0x10000)
    else none
  let (code, rest) ← continueCode more bits r
  if least ≤ code ∧ code < 0x110000 ∧ ¬ (0xD800 ≤ code ∧ code < 0xE000) then
    some (Char.ofNat code, rest)
  else none

/-- The characters that some bytes write in the encoding UTF-8; `fuel` bounds their number. -/
def decodeChars? : Nat → List Nat → Option (List Char)
  | _, [] => some []
  | 0, _ :: _ => none
  | fuel + 1, b :: r => do
    let (x, rest) ← decodeChar? b r
    some (x :: (← decodeChars? fuel rest))

/-- The bytes that a run of escapes writes, each a percent sign and two hexadecimal digits. -/
def escapedBytes : Nat → Cursor → Except Fault (List Nat × Cursor)
  | 0, _ => .error .malformed
  | fuel + 1, c =>
    if c.here == '%' then
      match hexDigit? (c.peek 1), hexDigit? (c.peek 2) with
      | some a, some b => do
        let (more, c) ← escapedBytes fuel (c.forward 3)
        .ok ((a * 16 + b) :: more, c)
      | _, _ => .error .malformed
    else .ok ([], c)

/-- Reads the characters of an address. -/
def uriFrom : Nat → Cursor → Except Fault (List Char × Cursor)
  | 0, _ => .error .malformed
  | fuel + 1, c =>
    if c.here == '%' then do
      let (bytes, c) ← escapedBytes (c.rest.length + 1) c
      match decodeChars? bytes.length bytes with
      | some text =>
        let (more, c) ← uriFrom fuel c
        .ok (text ++ more, c)
      | none => .error .malformed
    else if isUriChar c.here then do
      let (more, rest) ← uriFrom fuel c.step
      .ok (c.here :: more, rest)
    else .ok ([], c)

/-- Reads the address of a tag, which is not empty. -/
def readUri (c : Cursor) : Except Fault (String × Cursor) :=
  if isUriChar c.here then do
    let (text, c) ← uriFrom (c.rest.length + 1) c
    .ok (String.ofList text, c)
  else .error .malformed

/-- Reads the handle of a tag: an exclamation mark, or a name between two. -/
def readHandle (c : Cursor) : Except Fault (String × Cursor) :=
  if c.here != '!' then .error .malformed
  else if c.peek 1 == ' ' then .ok ("!", c.step)
  else
    let name := c.step.run isNameChar
    if c.peek (name.length + 1) == '!' then
      .ok (String.ofList ('!' :: name ++ ['!']), c.forward (name.length + 2))
    else .error .malformed

/-- Whether an exclamation mark stands among the characters up to the next space or line end. -/
def hasHandle (c : Cursor) : Bool := (c.step.run (!isSpaceOrEnd ·)).contains '!'

/-- Reads a tag: its handle and its suffix. -/
def readTag (c : Cursor) : Except Fault (Token × Cursor) := do
  let (tag, c) ←
    if c.peek 1 == '<' then do
      let (uri, c) ← readUri (c.forward 2)
      if c.here == '>' then .ok (Token.tag none uri, c.step) else .error .malformed
    else if isGapOrEnd (c.peek 1) then .ok (Token.tag none "!", c.step)
    else do
      let (handle, c) ← if hasHandle c then readHandle c else .ok ("!", c.step)
      let (suffix, c) ← readUri c
      .ok (Token.tag (some handle) suffix, c)
  if isSpaceOrEnd c.here then .ok (tag, c) else .error .malformed

/-! ## 3. Directives -/

/-- How many decimal digits a number may have at most. -/
def maxDigits : Nat := 4300

/-- Reads a number of a version. -/
def readVersionNumber (c : Cursor) : Except Fault (Nat × Cursor) :=
  let digits := c.run Char.isDigit
  if digits.isEmpty then .error .malformed
  else if digits.length > maxDigits then .error .badValue
  else .ok (digits.foldl (fun n x => n * 10 + (x.toNat - 48)) 0, c.skip Char.isDigit)

/-- Reads the version that a text is written in. -/
def readVersion (c : Cursor) : Except Fault (Directive × Cursor) := do
  let (major, c) ← readVersionNumber (c.skip (· == ' '))
  if c.here != '.' then .error .malformed
  else
    let (_, c) ← readVersionNumber c.step
    if isSpaceOrEnd c.here then .ok (.version major, c) else .error .malformed

/-- Reads the meaning of a tag handle. -/
def readHandleMeaning (c : Cursor) : Except Fault (Directive × Cursor) := do
  let (handle, c) ← readHandle (c.skip (· == ' '))
  if c.here != ' ' then .error .malformed
  else
    let (uri, c) ← readUri (c.skip (· == ' '))
    if isSpaceOrEnd c.here then .ok (.handle handle uri, c) else .error .malformed

/-- Reads a directive at its percent sign, with its line. -/
def readDirective (c : Cursor) : Except Fault (Token × Cursor) := do
  let name := c.step.run isNameChar
  let c := c.step.skip isNameChar
  if name.isEmpty || !isSpaceOrEnd c.here then .error .malformed
  else
    let (directive, c) ←
      if name = "YAML".toList then readVersion c
      else if name = "TAG".toList then readHandleMeaning c
      else .ok (Directive.other, c.skip (!isBreak ·))
    .ok (.directive directive, ← c.skipLine)

end ContextAtlas.Yaml
