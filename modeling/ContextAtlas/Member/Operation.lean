/-
# Reading operations

An operation is optional modifiers (`def` or a star, a visibility, `abstract`), an optional result
type, a name, a parameter list, and a trailer with an access marker and a state transition.

A transition is written between brackets: `[A, B -> C]`, or `[A -> B X C]` when the targets exclude
each other. A bracket without exactly one arrow is no transition.
-/
import ContextAtlas.Member.Modifier
import ContextAtlas.Skipped
import ContextAtlas.TypeRef.Reader

namespace ContextAtlas

/-! ## 1. Parameters -/

/-- Reads one parameter, a type and a name. Sigils are ignored. -/
def Parameter.read? (group : List Token) : Option Parameter := do
  let tokens := group.filter (!·.is .sigil)
  let name ← (← tokens.getLast?).word?
  let (type, _) ← TypeRef.read? tokens.dropLast
  some ⟨name, type⟩

/-- Splits a parameter list at the commas that stand outside angles, while `depth` angles are
open; `group` holds the tokens of the current group, the last first. -/
def splitParameters (depth : Nat) (group : List Token) : List Token → List (List Token)
  | [] => [group.reverse]
  | t :: r =>
    if t.is .comma && depth = 0 then group.reverse :: splitParameters depth [] r
    else if t.is .openAngle then splitParameters (depth + 1) (t :: group) r
    else if t.is .closeAngle then splitParameters (depth - 1) (t :: group) r
    else splitParameters depth (t :: group) r

/-- Reads a parameter list. What is no type and name is dropped. -/
def readParameters (ts : List Token) : List Parameter :=
  (splitParameters 0 [] ts).filterMap Parameter.read?

/-! ## 2. State transitions -/

namespace StateTransition

/-- Splits a run of tokens at separators into names. A name is the values of the tokens between
two separators, run together; where nothing stands between them there is no name. -/
def splitNames (isSeparator : Token → Bool) (run : List Token) : List String :=
  ((run.splitOnP isSeparator).filter (!·.isEmpty)).map fun piece =>
    String.join (piece.map Token.value)

/-- Whether a token marks the targets as exclusive: the word `X` or `x`. -/
def isExclusiveMarker (t : Token) : Bool := t.isWord "X" || t.isWord "x"

/-- The transition with the given tokens on both sides of its arrow. -/
def ofSides (left right : List Token) : StateTransition :=
  let sources := splitNames (·.is .comma) left
  let isExclusive := right.any isExclusiveMarker
  { sources := if sources.isEmpty then none else some sources
    targets := splitNames (if isExclusive then isExclusiveMarker else (·.is .comma)) right
    isExclusive := isExclusive }

/-- Reads the first bracket in a run of tokens as a transition. -/
def read? (ts : List Token) : Option StateTransition :=
  match ts.dropWhile (!·.is .openBracket) with
  | [] => none
  | _ :: r =>
    let inner := r.takeWhile (!·.is .closeBracket)
    if inner.length = r.length then none
    else if (inner.filter (·.is .arrow)).length = 1 then
      some (ofSides (inner.takeWhile (!·.is .arrow)) ((inner.dropWhile (!·.is .arrow)).drop 1))
    else none

end StateTransition

namespace Operation

/-! ## 3. The trailer -/

/-- Whether a trailer marks the operation as read-only: `read-only` anywhere, or `read` behind a
colon. -/
def isReadOnlyTrailer : List Token → Bool
  | [] => false
  | t :: r =>
    if t.is .colon && r.head?.any (·.isWord "read") then true
    else if t.isWord "read" && r.head?.any (·.is .minus)
        && r.tail.head?.any (·.value == "only") then true
    else isReadOnlyTrailer r

/-! ## 4. The line -/

/-- The tokens behind the modifiers of an operation, and its visibility. -/
def readModifiers (line : List Token) : Option Visibility × List Token :=
  let (visibility, r) := readVisibility (afterOptional Token.announcesOperation line)
  (visibility, afterOptional (·.isWord "abstract") r)

/-- Reads the type of the result from the tokens between modifiers and name; without any the
operation has no result. -/
def readReturnType (ts : List Token) : Option TypeRef :=
  if ts.isEmpty then some (.primitive .void) else (TypeRef.read? ts).map (·.1)

/-- Reads the operation on a line without trailing semicolons. -/
def read? (line : List Token) : Except SkipReason Operation :=
  let (visibility, signature) := readModifiers line
  let head := signature.takeWhile (!·.is .openParen)
  match signature.dropWhile (!·.is .openParen), head.getLast?.bind Token.word? with
  | _ :: afterOpen, some name =>
    match afterOpen.dropWhile (!·.is .closeParen) with
    | [] => .error .unclosedParameterList
    | _ :: trailer =>
      match readReturnType head.dropLast with
      | none => .error .unreadableReturnType
      | some returnType =>
        .ok
          { name := name
            returnType := returnType
            parameters := readParameters (afterOpen.takeWhile (!·.is .closeParen))
            visibility := visibility
            isReadOnly := isReadOnlyTrailer trailer
            transition := StateTransition.read? trailer }
  | _, _ => .error .notAnOperation

/-- Reads the operation on a line. -/
def ofLine (line : List Token) : Outcome Operation :=
  .ofRun (withoutTerminators line) (read? (withoutTerminators line))

end Operation

end ContextAtlas
