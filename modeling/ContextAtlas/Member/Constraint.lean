/-
# Constraints

Behind the name of an attribute stand constraints: bare words such as `required`, and values such
as `max="10"`. An exclamation mark takes the word behind it away. Everything else is ignored.
-/
import ContextAtlas.Token

namespace ContextAtlas

/-- One constraint: a bare word, or a key with its value. -/
inductive Constraint where
  | flag (word : String)
  | value (key text : String)
deriving DecidableEq

namespace Constraint

/-- The constraints in a run of tokens, in order. A key without a readable value is no constraint,
and neither is a word behind an exclamation mark. -/
def readAll : List Token → List Constraint
  | [] => []
  | [t] =>
    match t.lexeme with
    | .word w => [flag w]
    | _ => []
  | t :: u :: r =>
    match t.lexeme with
    | .symbol c => if c = '!' then readAll r else readAll (u :: r)
    | .word w =>
      if u.is .equals then
        match r with
        | [] => []
        | v :: s => if v.isValue then value w v.value :: readAll s else readAll (v :: s)
      else flag w :: readAll (u :: r)
    | _ => readAll (u :: r)

/-- Whether a word occurs bare. -/
def isFlagged (constraints : List Constraint) (word : String) : Bool :=
  constraints.contains (flag word)

/-- The last value of a key that is not empty. -/
def lastValue? (constraints : List Constraint) (key : String) : Option String :=
  (constraints.filterMap fun c =>
    match c with
    | value k text => if k = key ∧ text ≠ "" then some text else none
    | flag _ => none).getLast?

end Constraint

end ContextAtlas
