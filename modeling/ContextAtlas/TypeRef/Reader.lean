/-
# Reading type references

A type reference is an optional sigil `@`, a name, and optional arguments between angles: two for
`Map`, one for every other name. Arguments nest at most `maxTypeDepth` levels deep; what nests
deeper is unreadable.
-/
import ContextAtlas.Token
import ContextAtlas.TypeRef

namespace ContextAtlas

/-- How many levels the arguments of a type may nest. -/
def maxTypeDepth : Nat := 64

namespace TypeRef

/-- The tokens behind an optional sigil. -/
def afterSigil : List Token → List Token
  | [] => []
  | t :: r => if t.is .sigil then r else t :: r

/-- The tokens behind a mark that has to come first. -/
def expect? (m : Mark) : List Token → Option (List Token)
  | [] => none
  | t :: r => if t.is m then some r else none

/-- Reads the type reference at the start of a run of tokens, with `levels` levels left for it and
its arguments: the reference and the tokens behind. -/
def readWithin : Nat → List Token → Option (TypeRef × List Token)
  | 0, _ => none
  | levels + 1, ts =>
    match afterSigil ts with
    | [] => none
    | t :: r =>
      match t.word? with
      | none => none
      | some name =>
        match expect? .openAngle r with
        | none => some (ofName name, r)
        | some arguments =>
          if name = "Map" then do
            let (key, afterKey) ← readWithin levels arguments
            let afterComma ← expect? .comma afterKey
            let (value, afterValue) ← readWithin levels afterComma
            let rest ← expect? .closeAngle afterValue
            some (.map key value, rest)
          else do
            let (argument, afterArgument) ← readWithin levels arguments
            let rest ← expect? .closeAngle afterArgument
            some (ofWrapper name argument, rest)

/-- Reads the type reference at the start of a run of tokens: the reference and the tokens
behind. -/
def read? (ts : List Token) : Option (TypeRef × List Token) :=
  readWithin (maxTypeDepth + 1) ts

end TypeRef

end ContextAtlas
