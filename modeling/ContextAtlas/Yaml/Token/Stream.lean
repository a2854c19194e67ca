/-
# Putting the tokens of a YAML text together

Indentation is kept as a stack of columns: a deeper column opens a collection, a lesser one closes
those that are deeper. A colon makes a key of what stands in front of it on its line, so a token
that may turn out to be a key is remembered, one for each level of brackets; when the colon comes,
a key token is put in front of the remembered place.

A text is read no further than its tokens are asked for. The next token is settled once no key
token can come in front of it any more, and a fault behind a settled token stays unseen until the
reader gets there.

* `StreamState`: the stack, the remembered keys, the tokens that are not taken yet.
* `StreamState.advance`: one token further in the text.
* `StreamState.settle`, `StreamState.take`: making sure of the next token, and taking it.
-/
import ContextAtlas.Yaml.Token

namespace ContextAtlas.Yaml

/-! ## 1. States -/

/-- A token that may turn out to be a key: how many tokens of the text stand in front of it,
whether the syntax of the block requires it to be one, and where it starts. -/
structure PossibleKey where
  index : Nat
  required : Bool
  offset : Nat
  line : Nat
  column : Nat

/-- How far the tokens of a text are put together. `indent` is the column of the innermost block
collection, below zero outside all; `indents` holds those around it. `keys` holds the possible key
of each level of brackets. `taken` counts the tokens that were taken, `queue` holds those that wait,
and `ended` says whether the end of the text was reached. -/
structure StreamState where
  cursor : Cursor
  flowLevel : Nat := 0
  indent : Int := -1
  indents : List Int := []
  keyAllowed : Bool := true
  keys : List (Nat × PossibleKey) := []
  taken : Nat := 0
  queue : List Token := []
  ended : Bool := false

namespace StreamState

/-- How many tokens of the text are put together. -/
def count (s : StreamState) : Nat := s.taken + s.queue.length

/-- Adds a token behind the others. -/
def push (s : StreamState) (t : Token) : StreamState := { s with queue := s.queue ++ [t] }

/-- Puts a token in front of the one at an index, which is not taken yet. -/
def insert (s : StreamState) (index : Nat) (t : Token) : StreamState :=
  let waiting := index - s.taken
  { s with queue := s.queue.take waiting ++ t :: s.queue.drop waiting }

/-- Whether the place is inside brackets. -/
def inFlow (s : StreamState) : Bool := s.flowLevel != 0

/-! ## 2. Indentation -/

/-- Closes the block collections that are deeper than a column. -/
def closeTo (column : Int) : List Int → StreamState → StreamState
  | [], s => s
  | outer :: r, s =>
    if s.indent > column then
      closeTo column r { s.push .blockEnd with indent := outer, indents := r }
    else s

/-- Closes the block collections that are deeper than a column; inside brackets there are none to
close. -/
def unwind (s : StreamState) (column : Int) : StreamState :=
  if s.inFlow then s else closeTo column s.indents s

/-- Opens a block collection at a column, if it is deeper than the innermost one. The start token
goes in front of the token at an index. -/
def openBlock (s : StreamState) (column : Nat) (index : Nat) (start : Token) : StreamState :=
  if s.indent < column then
    { s.insert index start with indent := column, indents := s.indent :: s.indents }
  else s

/-! ## 3. Possible keys -/

/-- Forgets the possible key of the current level; a required one must not be forgotten. -/
def dropKey (s : StreamState) : Except Fault StreamState :=
  if s.keys.any fun (level, key) => level == s.flowLevel && key.required then .error .malformed
  else .ok { s with keys := s.keys.filter fun (level, _) => level != s.flowLevel }

/-- Remembers that a key may start here. It is required at the column of a block collection. -/
def saveKey (s : StreamState) : Except Fault StreamState :=
  if s.keyAllowed then do
    let key : PossibleKey :=
      { index := s.count
        required := !s.inFlow && s.indent == s.cursor.column
        offset := s.cursor.offset
        line := s.cursor.line
        column := s.cursor.column }
    let s ← s.dropKey
    .ok { s with keys := (s.flowLevel, key) :: s.keys }
  else .ok s

/-- Whether a possible key is too far away to be one: on another line, or more than 1024
characters ahead. -/
def isStale (s : StreamState) (key : PossibleKey) : Bool :=
  key.line != s.cursor.line || s.cursor.offset - key.offset > 1024

/-- Forgets the possible keys that are too far away. -/
def dropStaleKeys (s : StreamState) : Except Fault StreamState :=
  if s.keys.any fun (_, key) => s.isStale key && key.required then .error .malformed
  else .ok { s with keys := s.keys.filter fun (_, key) => !s.isStale key }

/-! ## 4. Gaps -/

/-- Goes to the next token, over blanks, comments and line breaks. Behind a line break outside
brackets a key may start. -/
def skipGap : Nat → StreamState → StreamState
  | 0, s => s
  | fuel + 1, s =>
    let c := (s.cursor.skip (· == ' ')).skipComment
    if isBreak c.here then
      skipGap fuel
        { s with cursor := c.lineBreak.2, keyAllowed := s.keyAllowed || !s.inFlow }
    else { s with cursor := c }

/-- Goes to the next token; a byte order mark at the start of the text is passed over. -/
def toNextToken (s : StreamState) : StreamState :=
  let s :=
    if s.cursor.offset = 0 ∧ s.cursor.here = '\ufeff' then { s with cursor := s.cursor.step }
    else s
  skipGap (s.cursor.rest.length + 1) s

/-! ## 5. Single tokens -/

/-- Adds a token of some characters. -/
def mark (s : StreamState) (t : Token) (width : Nat) : StreamState :=
  { s.push t with cursor := s.cursor.forward width }

/-- Adds a token that ends all block collections: a document marker or a directive. -/
def boundary (s : StreamState) : Except Fault StreamState := do
  let s ← (s.unwind (-1)).dropKey
  .ok { s with keyAllowed := false }

/-- Opens brackets. -/
def openFlow (s : StreamState) (t : Token) : Except Fault StreamState := do
  let s ← s.saveKey
  .ok ({ s with flowLevel := s.flowLevel + 1, keyAllowed := true }.mark t 1)

/-- Closes brackets; there have to be open ones. -/
def closeFlow (s : StreamState) (t : Token) : Except Fault StreamState := do
  let s ← s.dropKey
  if s.flowLevel = 0 then .error .malformed
  else .ok ({ s with flowLevel := s.flowLevel - 1, keyAllowed := false }.mark t 1)

/-- A comma between brackets. -/
def flowEntry (s : StreamState) : Except Fault StreamState := do
  let s ← s.dropKey
  .ok ({ s with keyAllowed := true }.mark .flowEntry 1)

/-- The mark of an item, a key or a value in a block; outside brackets it may open a
collection. -/
def blockMark (s : StreamState) (start t : Token) (keyAllowed : Bool) :
    Except Fault StreamState := do
  if !s.inFlow && !s.keyAllowed then .error .malformed
  else
    let s := if s.inFlow then s else s.openBlock s.cursor.column s.count start
    let s ← s.dropKey
    .ok ({ s with keyAllowed := keyAllowed }.mark t 1)

/-- A colon: it makes a key of the possible key in front, or it stands on its own. -/
def valueMark (s : StreamState) : Except Fault StreamState :=
  match s.keys.lookup s.flowLevel with
  | some key =>
    let s := { s with keys := s.keys.filter fun (level, _) => level != s.flowLevel }
    let s := s.insert key.index .key
    let s := if s.inFlow then s else s.openBlock key.column key.index .blockMappingStart
    .ok ({ s with keyAllowed := false }.mark .value 1)
  | none => s.blockMark .blockMappingStart .value (!s.inFlow)

/-- Adds a token that may be a key. -/
def keyLike (s : StreamState) (read : Cursor → Except Fault (Token × Cursor)) :
    Except Fault StreamState := do
  let s ← s.saveKey
  let (t, c) ← read s.cursor
  .ok { s.push t with cursor := c, keyAllowed := false }

/-- Adds a plain scalar. -/
def plain (s : StreamState) : Except Fault StreamState := do
  let s ← s.saveKey
  let scalar := readPlain s.inFlow (s.indent + 1).toNat s.cursor
  .ok { s.push (.scalar (String.ofList scalar.text) true) with
    cursor := scalar.cursor, keyAllowed := scalar.broken }

/-- Adds a block scalar. -/
def blockScalar (s : StreamState) : Except Fault StreamState := do
  let s ← s.dropKey
  let (text, c) ← readBlockScalar s.indent s.cursor
  .ok { s.push (.scalar (String.ofList text) false) with cursor := c, keyAllowed := true }

/-- Whether a plain scalar can start here. -/
def startsPlain (s : StreamState) : Bool :=
  let x := s.cursor.here
  !(isGapOrEnd x || "-?:,[]\x7b\x7d#&*!|>'\"%@`".toList.contains x)
    || (!isGapOrEnd (s.cursor.peek 1) && (x == '-' || (!s.inFlow && (x == '?' || x == ':'))))

/-! ## 6. Streams -/

/-- Adds the token that starts here. -/
def token (s : StreamState) : Except Fault StreamState :=
  let c := s.cursor
  let x := c.here
  let gapBehind := isGapOrEnd (c.peek 1)
  if x == '%' && c.column == 0 then do
    let s ← s.boundary
    let (t, c) ← readDirective s.cursor
    .ok { s.push t with cursor := c }
  else if c.column == 0 && c.atMarker '-' then do .ok ((← s.boundary).mark .documentStart 3)
  else if c.column == 0 && c.atMarker '.' then do .ok ((← s.boundary).mark .documentEnd 3)
  else if x == '[' then s.openFlow .flowSequenceStart
  else if x == '{' then s.openFlow .flowMappingStart
  else if x == ']' then s.closeFlow .flowSequenceEnd
  else if x == '}' then s.closeFlow .flowMappingEnd
  else if x == ',' then s.flowEntry
  else if x == '-' && gapBehind then s.blockMark .blockSequenceStart .blockEntry true
  else if x == '?' && (s.inFlow || gapBehind) then
    s.blockMark .blockMappingStart .key (!s.inFlow)
  else if x == ':' && (s.inFlow || gapBehind) then s.valueMark
  else if x == '*' then
    s.keyLike fun c => (readAnchorName c.step).map fun (name, c) => (.alias name, c)
  else if x == '&' then
    s.keyLike fun c => (readAnchorName c.step).map fun (name, c) => (.anchor name, c)
  else if x == '!' then s.keyLike readTag
  else if (x == '|' || x == '>') && !s.inFlow then s.blockScalar
  else if x == '\'' || x == '"' then
    s.keyLike fun c => (readQuoted c).map fun (text, c) => (.scalar (String.ofList text) false, c)
  else if s.startsPlain then s.plain
  else .error .malformed

/-- Goes to the next token and adds it; behind the last one stands the end of the text. -/
def advance (s : StreamState) : Except Fault StreamState := do
  let s ← s.toNextToken.dropStaleKeys
  let s := s.unwind s.cursor.column
  if s.cursor.rest.isEmpty then
    let s ← (s.unwind (-1)).dropKey
    .ok { s.push .streamEnd with keys := [], ended := true }
  else s.token

/-- Whether a key token may still come in front of the next token. -/
def isOpen (s : StreamState) : Bool := s.keys.any fun (_, key) => key.index == s.taken

/-- Puts tokens together until the next one is settled; `fuel` bounds their number. -/
def settleWithin : Nat → StreamState → Except Fault StreamState
  | 0, _ => .error .malformed
  | fuel + 1, s =>
    if s.ended then .ok s
    else if s.queue.isEmpty then do settleWithin fuel (← s.advance)
    else do
      let s ← s.dropStaleKeys
      if s.isOpen then settleWithin fuel (← s.advance) else .ok s

/-- Settles the next token. -/
def settle (s : StreamState) : Except Fault StreamState := s.settleWithin (s.cursor.rest.length + 2)

/-- Takes the next token. -/
def take (s : StreamState) : StreamState := { s with queue := s.queue.tail, taken := s.taken + 1 }

/-- The tokens of a text, none of which is read yet. The characters of the text are looked at
beforehand. -/
def ofText (text : List Char) : Except Fault StreamState :=
  if text.all isPrintable then .ok { cursor := .start text } else .error .malformed

end StreamState

end ContextAtlas.Yaml
