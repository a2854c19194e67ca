/-
# Reading the lines of a body

Every line of a body stands for itself: it is a flag, an attribute, a reference, an operation, or
it is left out, and what becomes of one line never depends on another.

* `Members.ofLine`: what one line holds.
* `Members.ofLines`: what a body holds, line after line.
* `serviceOperations`: the same for a service, whose lines are operations throughout.
-/
import ContextAtlas.Member.Attribute
import ContextAtlas.Member.Operation
import ContextAtlas.Member.Reference

namespace ContextAtlas

/-- What the lines of a body hold, each kind in the order of the lines. -/
structure Members where
  attributes : List Attribute := []
  references : List Reference := []
  operations : List Operation := []
  flags : List String := []
  skipped : List Skipped := []
deriving DecidableEq

namespace Members

/-! ## 1. Putting members together -/

/-- Nothing. -/
def empty : Members := {}

/-- The members of two bodies, one behind the other. -/
def append (m n : Members) : Members where
  attributes := m.attributes ++ n.attributes
  references := m.references ++ n.references
  operations := m.operations ++ n.operations
  flags := m.flags ++ n.flags
  skipped := m.skipped ++ n.skipped

instance : Append Members := ⟨append⟩

/-- Whether a flag occurs. -/
def has (m : Members) (flag : String) : Bool := m.flags.contains flag

/-- The flags that occur, each once, in order of spelling. -/
def flagSet (m : Members) : List String := m.flags.eraseDups.mergeSort fun a b => a ≤ b

/-! ## 2. One line -/

/-- The outcome of one line as members. -/
def ofAttribute : Outcome Attribute → Members
  | .matched a => { attributes := [a] }
  | .skipped s => { skipped := [s] }

/-- The outcome of one line as members. -/
def ofReference : Outcome Reference → Members
  | .matched a => { references := [a] }
  | .skipped s => { skipped := [s] }

/-- The outcome of one line as members. -/
def ofOperation : Outcome Operation → Members
  | .matched a => { operations := [a] }
  | .skipped s => { skipped := [s] }

/-- The flag that a line consists of. -/
def flag? (flags : List String) : List Token → Option String
  | [t] => t.word?.filter (· ∈ flags)
  | _ => none

/-- What one line holds. `flags` are the words that stand for themselves on a line of their own;
without `withOperations` an operation is left out. -/
def ofLine (flags : List String) (withOperations : Bool) (line : List Token) : Members :=
  let run := withoutTerminators line
  match flag? flags run with
  | some flag => { flags := [flag] }
  | none =>
    match lineKind? run with
    | none => {}
    | some .reference => ofReference (Reference.ofLine run)
    | some .attribute => ofAttribute (Attribute.ofLine run)
    | some .operation =>
      if withOperations then ofOperation (Operation.ofLine run)
      else { skipped := [.ofTokens .operationNotAllowed run] }

/-! ## 3. Bodies -/

/-- What a body holds. -/
def ofLines (flags : List String) (withOperations : Bool) (lines : List (List Token)) : Members :=
  (lines.map (ofLine flags withOperations)).foldr append empty

end Members

/-! ## 4. Services -/

/-- The outcome of one line of a service, if the line is not empty: an operation, with or without
`def`, when the line has a parameter list. -/
def serviceOperation? (line : List Token) : Option (Outcome Operation) :=
  let run := withoutTerminators line
  if run.isEmpty then none
  else if run.any (·.is .openParen) then some (Operation.ofLine run)
  else some (.skipped (.ofTokens .notAServiceOperation run))

/-- The outcomes of the lines of a service. -/
def serviceOperations (lines : List (List Token)) : List (Outcome Operation) :=
  lines.filterMap serviceOperation?

end ContextAtlas
