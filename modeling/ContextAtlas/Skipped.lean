/-
# Skipped fragments

Reading is lenient: a run of tokens that fits no rule is left out of the model, and the reason is
kept together with the run's text and place.

* `SkipReason`: why a run was left out, with its wording in `SkipReason.message`.
* `Skipped`: a run that was left out.
* `Outcome`: what became of one candidate, a value or a skipped run.
-/
import ContextAtlas.Token

namespace ContextAtlas

/-! ## 1. Reasons -/

/-- Why a run of tokens is left out. -/
inductive SkipReason where
  | unterminatedBlock
  | notAnAttribute
  | attributeWithoutName
  | referenceWithoutTarget
  | referenceWithoutName
  | notAnOperation
  | unclosedParameterList
  | unreadableReturnType
  | operationNotAllowed
  | notAServiceOperation
  | missingParticipant
deriving DecidableEq

/-- The wording of a reason. -/
def SkipReason.message : SkipReason → String
  | .unterminatedBlock => "unterminated block"
  | .notAnAttribute => "not an attribute"
  | .attributeWithoutName => "attribute without a name"
  | .referenceWithoutTarget => "reference without a target type"
  | .referenceWithoutName => "reference without a name"
  | .notAnOperation => "not an operation"
  | .unclosedParameterList => "unclosed parameter list"
  | .unreadableReturnType => "unreadable return type"
  | .operationNotAllowed => "operation not allowed here"
  | .notAServiceOperation => "not a service operation"
  | .missingParticipant => "relationship without two participants"

/-! ## 2. Skipped runs -/

/-- A run of tokens that was left out: the reason, its text, and the place of its first token. -/
structure Skipped where
  reason : SkipReason
  fragment : String
  line : Nat
  column : Nat
deriving DecidableEq

/-- The text of a run of tokens: their quoted lexemes, joined by single blanks. -/
def fragmentText (run : List Token) : String :=
  String.intercalate " " (run.map (·.lexeme.quoted))

/-- Leaves out a run of tokens. An empty run has the empty text and no place. -/
def Skipped.ofTokens (reason : SkipReason) (run : List Token) : Skipped where
  reason := reason
  fragment := fragmentText run
  line := (run.head?.map (·.position.line)).getD 0
  column := (run.head?.map (·.position.column)).getD 0

/-! ## 3. Outcomes -/

/-- What became of one candidate: a value, or a run of tokens that was left out. -/
inductive Outcome (α : Type) where
  | matched (value : α)
  | skipped (run : Skipped)
deriving DecidableEq

namespace Outcome

variable {α : Type}

/-- The value of a candidate that was read. -/
def value? : Outcome α → Option α
  | .matched a => some a
  | .skipped _ => none

/-- The run of a candidate that was left out. -/
def skipped? : Outcome α → Option Skipped
  | .matched _ => none
  | .skipped s => some s

/-- The outcome of reading a whole run of tokens, from a value or the reason against it. -/
def ofRun (run : List Token) : Except SkipReason α → Outcome α
  | .ok a => .matched a
  | .error reason => .skipped (.ofTokens reason run)

/-- An outcome is a value only where a value was read. -/
theorem eq_ok_of_ofRun {run : List Token} {r : Except SkipReason α} {a : α}
    (h : ofRun run r = .matched a) : r = .ok a := by
  cases r with
  | error reason => cases h
  | ok b => cases h; rfl

end Outcome

/-- The values among some outcomes, in order. -/
def matchedValues {α : Type} (outcomes : List (Outcome α)) : List α :=
  outcomes.filterMap Outcome.value?

/-- The skipped runs among some outcomes, in order. -/
def skippedRuns {α : Type} (outcomes : List (Outcome α)) : List Skipped :=
  outcomes.filterMap Outcome.skipped?

section

variable {α : Type} {a : α} {s : Skipped} {os os' : List (Outcome α)}

@[simp] theorem matchedValues_nil : matchedValues ([] : List (Outcome α)) = [] := rfl

@[simp] theorem matchedValues_matched : matchedValues (.matched a :: os) = a :: matchedValues os :=
  rfl

@[simp] theorem matchedValues_skipped : matchedValues (.skipped s :: os) = matchedValues os := rfl

@[simp] theorem matchedValues_append :
    matchedValues (os ++ os') = matchedValues os ++ matchedValues os' :=
  List.filterMap_append

theorem mem_matchedValues : a ∈ matchedValues os ↔ .matched a ∈ os := by
  rw [matchedValues, List.mem_filterMap]
  constructor
  · rintro ⟨o, ho, ha⟩
    cases o with
    | matched b => cases ha; exact ho
    | skipped s => cases ha
  · exact fun h => ⟨_, h, rfl⟩

@[simp] theorem skippedRuns_nil : skippedRuns ([] : List (Outcome α)) = [] := rfl

@[simp] theorem skippedRuns_matched : skippedRuns (.matched a :: os) = skippedRuns os := rfl

@[simp] theorem skippedRuns_skipped : skippedRuns (.skipped s :: os) = s :: skippedRuns os := rfl

end

end ContextAtlas
