/-
# JSON text

A value is written without any blanks, or with every element on a line of its own. Both layouts
are one: they differ in what stands at a line break and behind the colon of a field. Characters
beyond ASCII are written as they are.
-/
import ContextAtlas.Json

namespace ContextAtlas.Json

/-! ## 1. Layouts -/

/-- How a value is laid out. -/
inductive Layout where
  | compact
  | indented (width : Nat)
deriving DecidableEq

namespace Layout

/-- What stands in front of an element at a depth. -/
def lineBreak : Layout → Nat → List Char
  | compact, _ => []
  | indented width, depth => '\n' :: List.replicate (width * depth) ' '

/-- What stands between the name of a field and its value. -/
def colon : Layout → List Char
  | compact => [':']
  | indented _ => [':', ' ']

/-- The layout that an indentation asks for: none gives the compact one. An indentation below zero
is refused, and so is one that fits no machine word. -/
def ofIndent? : Option Int → Option Layout
  | none => some compact
  | some n => if 0 ≤ n ∧ n < 0x10000000000000000 then some (indented n.toNat) else none

end Layout

/-! ## 2. Texts -/

/-- A digit of a code point below sixteen. -/
def hexDigit (n : Nat) : Char :=
  if n < 10 then Char.ofNat (48 + n) else Char.ofNat (87 + n)

/-- One character inside a text. -/
def escapeChar (c : Char) : List Char :=
  if c = '"' then ['\\', '"']
  else if c = '\\' then ['\\', '\\']
  else if c = '\x08' then ['\\', 'b']
  else if c = '\t' then ['\\', 't']
  else if c = '\n' then ['\\', 'n']
  else if c = '\x0c' then ['\\', 'f']
  else if c = '\r' then ['\\', 'r']
  else if c.toNat < 32 then
    ['\\', 'u', '0', '0', hexDigit (c.toNat / 16), hexDigit (c.toNat % 16)]
  else [c]

/-- A text between its quotes. -/
def renderText (s : String) : List Char :=
  '"' :: s.toList.flatMap escapeChar ++ ['"']

/-! ## 3. Values -/

mutual

/-- A value whose elements, if any, stand at depth `depth + 1`. -/
def renderAt (layout : Layout) (depth : Nat) : Json → List Char
  | null => "null".toList
  | bool true => "true".toList
  | bool false => "false".toList
  | integer n => (toString n).toList
  | decimal m e => (toString m).toList ++ 'e' :: (toString e).toList
  | notFinite => "null".toList
  | string s => renderText s
  | array [] => ['[', ']']
  | array (item :: items) =>
    '[' :: layout.lineBreak (depth + 1) ++ renderAt layout (depth + 1) item
      ++ renderItems layout (depth + 1) items ++ layout.lineBreak depth ++ [']']
  | object [] => ['{', '}']
  | object ((key, value) :: fields) =>
    '{' :: layout.lineBreak (depth + 1) ++ renderText key ++ layout.colon
      ++ renderAt layout (depth + 1) value ++ renderFields layout (depth + 1) fields
      ++ layout.lineBreak depth ++ ['}']

/-- The items behind the first, each behind a comma. -/
def renderItems (layout : Layout) (depth : Nat) : List Json → List Char
  | [] => []
  | item :: items =>
    ',' :: layout.lineBreak depth ++ renderAt layout depth item
      ++ renderItems layout depth items

/-- The fields behind the first, each behind a comma. -/
def renderFields (layout : Layout) (depth : Nat) : List (String × Json) → List Char
  | [] => []
  | (key, value) :: fields =>
    ',' :: layout.lineBreak depth ++ renderText key ++ layout.colon
      ++ renderAt layout depth value ++ renderFields layout depth fields

end

/-- The text of a value. -/
def render (layout : Layout) (value : Json) : List Char := renderAt layout 0 value

end ContextAtlas.Json
