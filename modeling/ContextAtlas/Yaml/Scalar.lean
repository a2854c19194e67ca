/-
# Reading scalars

A scalar is written in one of three styles: between quotes, plain, or as a block of lines. In each
style line breaks fold: a single break between two lines is a blank, and further breaks stay.

* `readQuoted`: between single or double quotes.
* `readPlain`: without quotes, up to something that cannot belong to it.
* `readBlockScalar`: the lines behind a header, kept or folded.
-/
import ContextAtlas.Yaml.Cursor

namespace ContextAtlas.Yaml

/-- Folds the breaks behind the first one of a run: the first is a blank when it stands alone, and
falls away in front of others, unless it is a separator of Unicode. -/
def foldBreaks (first further : List Char) : List Char :=
  if first = ['\n'] then (if further.isEmpty then [' '] else further) else first ++ further

/-! ## 1. Quoted scalars -/

/-- The character that an escape of one letter stands for. -/
def shortEscape? (c : Char) : Option Char :=
  [('0', '\x00'), ('a', '\x07'), ('b', '\x08'), ('t', '\t'), ('\t', '\t'), ('n', '\n'),
    ('v', '\x0b'), ('f', '\x0c'), ('r', '\r'), ('e', '\x1b'), (' ', ' '), ('"', '"'),
    ('\\', '\\'), ('/', '/'), ('N', '\u0085'), ('_', '\u00a0'), ('L', '\u2028'),
    ('P', '\u2029')].lookup c

/-- How many hexadecimal digits follow an escape letter. -/
def escapeWidth? (c : Char) : Option Nat := [('x', 2), ('u', 4), ('U', 8)].lookup c

/-- The character of a code point. Halves of surrogate pairs are replaced. -/
def charOfCode (n : Nat) : Except Fault Char :=
  if n < 0x110000 then .ok (if 0xD800 ≤ n ∧ n < 0xE000 then '\ufffd' else Char.ofNat n)
  else if n < 0x80000000 then .error .badValue
  else .error .codePointTooLarge

/-- Takes the line breaks inside a quoted scalar, with the blanks around them. A document marker
must not stand at the start of a line. -/
def quotedBreaks : Nat → Cursor → Except Fault (List Char × Cursor)
  | 0, _ => .error .malformed
  | fuel + 1, c =>
    if c.atSeparator then .error .malformed
    else
      let c := c.skip fun x => x == ' ' || x == '\t'
      if isBreak c.here then do
        let (first, c) := c.lineBreak
        let (more, c) ← quotedBreaks fuel c
        .ok (first ++ more, c)
      else .ok ([], c)

/-- Takes the blanks inside a quoted scalar; before a line break they fall away. -/
def quotedGap (c : Cursor) : Except Fault (List Char × Cursor) :=
  let blank (x : Char) : Bool := x == ' ' || x == '\t'
  let blanks := c.run blank
  let c := c.skip blank
  if c.here == endMark then .error .malformed
  else if isBreak c.here then do
    let (first, c) := c.lineBreak
    let (more, c) ← quotedBreaks (c.rest.length + 1) c
    .ok (foldBreaks first more, c)
  else .ok (blanks, c)

/-- Takes an escape behind its backslash. -/
def quotedEscape (c : Cursor) : Except Fault (List Char × Cursor) :=
  match shortEscape? c.here, escapeWidth? c.here with
  | some x, _ => .ok ([x], c.step)
  | none, some width =>
    let digits := c.step.next width
    match hexValue? digits with
    | some n =>
      if digits.length = width then do .ok ([← charOfCode n], (c.step).forward width)
      else .error .malformed
    | none => .error .malformed
  | none, none =>
    if isBreak c.here then quotedBreaks (c.rest.length + 1) c.lineBreak.2
    else .error .malformed

/-- Reads a quoted scalar behind its opening quote. -/
def quotedFrom (double : Bool) : Nat → Cursor → Except Fault (List Char × Cursor)
  | 0, _ => .error .malformed
  | fuel + 1, c => do
    let x := c.here
    if !double && x == '\'' && c.peek 1 == '\'' then
      let (rest, c) ← quotedFrom double fuel (c.forward 2)
      .ok ('\'' :: rest, c)
    else if x == (if double then '"' else '\'') then .ok ([], c.step)
    else
      let (piece, c) ←
        if double && x == '\\' then quotedEscape c.step
        else if isGapOrEnd x then quotedGap c
        else .ok ([x], c.step)
      let (rest, c) ← quotedFrom double fuel c
      .ok (piece ++ rest, c)

/-- Reads a quoted scalar at its opening quote. -/
def readQuoted (c : Cursor) : Except Fault (List Char × Cursor) :=
  quotedFrom (c.here == '"') (c.rest.length + 1) c.step

/-! ## 2. Plain scalars -/

/-- The characters at the start of a text that a plain scalar can take without a break. Inside
brackets, the marks of collections end it; a colon ends it in front of a gap. -/
def plainRun (inFlow : Bool) : List Char → List Char
  | [] => []
  | x :: r =>
    if isGapOrEnd x then []
    else if x == ':' && (isGapOrEnd (r.headD endMark)
        || (inFlow && [',', '[', ']', '{', '}'].contains (r.headD endMark))) then []
    else if inFlow && [',', '?', '[', ']', '{', '}'].contains x then []
    else x :: plainRun inFlow r

/-- Takes the further line breaks behind a line of a plain scalar, with the blanks around them.
There is no result in front of a document marker, but the cursor moves up to it. -/
def plainBreaks : Nat → Cursor → Option (List Char) × Cursor
  | 0, c => (none, c)
  | fuel + 1, c =>
    if c.here == ' ' then plainBreaks fuel c.step
    else if isBreak c.here then
      let (first, c) := c.lineBreak
      if c.atSeparator then (none, c)
      else
        let (more, c) := plainBreaks fuel c
        (more.map (first ++ ·), c)
    else (some [], c)

/-- Takes the gap behind a line of a plain scalar: what it reads as, whether it breaks a line, and
the place behind. -/
def plainGap (c : Cursor) : List Char × Bool × Cursor :=
  let blanks := c.run (· == ' ')
  let c := c.skip (· == ' ')
  if isBreak c.here then
    let (first, c) := c.lineBreak
    if c.atSeparator then ([], true, c)
    else
      let (more, c) := plainBreaks (c.rest.length + 1) c
      (match more with
        | some more => foldBreaks first more
        | none => [], true, c)
  else (blanks, false, c)

/-- A plain scalar: its text, whether a line break stands behind it, and the place behind it. -/
structure PlainScalar where
  text : List Char
  broken : Bool
  cursor : Cursor

/-- Reads the lines of a plain scalar that go on with `gap` behind what was read. -/
def plainFrom (inFlow : Bool) (indent : Nat) : Nat → List Char → Bool → Cursor → PlainScalar
  | 0, _, broken, c => ⟨[], broken, c⟩
  | fuel + 1, gap, broken, c =>
    let word := plainRun inFlow c.rest
    if c.here == '#' || word.isEmpty then ⟨[], broken, c⟩
    else
      let (behind, broken, c) := plainGap (c.forward word.length)
      if behind.isEmpty || c.here == '#' || (!inFlow && c.column < indent) then
        ⟨gap ++ word, broken, c⟩
      else
        let more := plainFrom inFlow indent fuel behind broken c
        ⟨gap ++ word ++ more.text, more.broken, more.cursor⟩

/-- Reads a plain scalar. Outside brackets, a line that is indented less than `indent` does not
belong to it. -/
def readPlain (inFlow : Bool) (indent : Nat) (c : Cursor) : PlainScalar :=
  plainFrom inFlow indent (c.rest.length + 1) [] false c

/-! ## 3. Block scalars -/

/-- What happens to the line breaks at the end of a block scalar. -/
inductive Chomping where
  | strip
  | clip
  | keep
deriving DecidableEq

/-- Reads an optional chomping mark. -/
def readChomping (c : Cursor) : Option Chomping × Cursor :=
  if c.here == '+' then (some .keep, c.step)
  else if c.here == '-' then (some .strip, c.step)
  else (none, c)

/-- Reads an optional indentation mark, a digit from one on. -/
def readIncrement (c : Cursor) : Except Fault (Option Nat × Cursor) :=
  if c.here == '0' then .error .malformed
  else if c.here.isDigit then .ok (some (c.here.toNat - 48), c.step)
  else .ok (none, c)

/-- Reads the header of a block scalar: the two marks in either order. -/
def readBlockHeader (c : Cursor) : Except Fault (Chomping × Option Nat × Cursor) := do
  let (early, c) := readChomping c
  let (increment, c) ← readIncrement c
  let (late, c) := if early.isNone && increment.isSome then readChomping c else (none, c)
  if isSpaceOrEnd c.here then .ok ((early.or late).getD .clip, increment, c)
  else .error .malformed

/-- Takes the blank lines at the start of a block scalar and finds the indentation of its first
line, at least `deepest`: the breaks, the deepest column, and the place. -/
def blockIndentation : Nat → Nat → Cursor → List Char × Nat × Cursor
  | 0, deepest, c => ([], deepest, c)
  | fuel + 1, deepest, c =>
    if c.here == ' ' then
      let c := c.step
      blockIndentation fuel (max deepest c.column) c
    else if isBreak c.here then
      let (first, c) := c.lineBreak
      let (more, deepest, c) := blockIndentation fuel deepest c
      (first ++ more, deepest, c)
    else ([], deepest, c)

/-- Takes up to `n` blanks. -/
def skipBlanks (c : Cursor) (n : Nat) : Cursor :=
  c.forward (min n (c.run (· == ' ')).length)

/-- Takes the line breaks in front of the next line of a block scalar, and its indentation. -/
def blockBreaks (indent : Nat) : Nat → Cursor → List Char × Cursor
  | 0, c => ([], c)
  | fuel + 1, c =>
    let c := skipBlanks c (indent - c.column)
    if isBreak c.here then
      let (first, c) := c.lineBreak
      let (more, c) := blockBreaks indent fuel c
      (first ++ more, c)
    else ([], c)

/-- The lines of a block scalar: the text, the break behind the last line, the breaks behind
that, and the place. `breaks` are those in front of the next line. -/
def blockLines (folded : Bool) (indent : Nat) :
    Nat → List Char → Cursor → List Char × List Char × List Char × Cursor
  | 0, breaks, c => ([], [], breaks, c)
  | fuel + 1, breaks, c =>
    if c.column = indent ∧ c.here ≠ endMark then
      let leads := !(c.here == ' ' || c.here == '\t')
      let content := c.run (!isBreak ·)
      let (lineBreak, c) := (c.forward content.length).lineBreak
      let (behind, c) := blockBreaks indent (c.rest.length + 1) c
      if c.column = indent ∧ c.here ≠ endMark then
        let joint :=
          if folded && lineBreak == ['\n'] && leads && !(c.here == ' ' || c.here == '\t') then
            if behind.isEmpty then [' '] else []
          else lineBreak
        let (more, last, tail, c) := blockLines folded indent fuel behind c
        (breaks ++ content ++ joint ++ more, last, tail, c)
      else (breaks ++ content, lineBreak, behind, c)
    else ([], [], breaks, c)

/-- Reads a block scalar at its style mark, inside a block that is indented by `indent`. -/
def readBlockScalar (indent : Int) (c : Cursor) : Except Fault (List Char × Cursor) := do
  let folded := c.here == '>'
  let (chomping, increment, c) ← readBlockHeader c.step
  let c ← c.skipLine
  let least := (max (indent + 1) 1).toNat
  let (indent, breaks, c) :=
    match increment with
    | none =>
      let (breaks, deepest, c) := blockIndentation (c.rest.length + 1) 0 c
      (max least deepest, breaks, c)
    | some n =>
      let (breaks, c) := blockBreaks (least + n - 1) (c.rest.length + 1) c
      (least + n - 1, breaks, c)
  let (text, last, tail, c) := blockLines folded indent (c.rest.length + 1) breaks c
  .ok (match chomping with
    | .strip => text
    | .clip => text ++ last
    | .keep => text ++ last ++ tail, c)

end ContextAtlas.Yaml
