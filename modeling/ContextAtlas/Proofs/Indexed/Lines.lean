/-
# Reading the lines of a body by index

The kind of a line is decided by its first token, which is fetched without a look at whether there
is one: a line that is empty without its semicolons is passed over before that.

* `kindOf`: the kind of a line.
* `membersOf`: what the lines of a body hold.
* `serviceOperationsOf`: the operations of a service.
* `membersOf_eq`, `serviceOperationsOf_eq`: they give what the readers of lists give.
-/
import ContextAtlas.Proofs.Indexed.Operation

namespace ContextAtlas.Indexed

/-! ## 1. The readers -/

section

variable (flags : List String) (withOperations : Bool) (line : List Token)

/-- The kind of a line; it has to have a first token. -/
def kindOf : Run LineKind := do
  let first ← fetch line 0
  if first.is .minus then return .reference
  else if first.announcesOperation then return .operation
  else if line.any (·.is .sigil) then return .reference
  else return .attribute

/-- The flag that a line consists of. -/
def flagOf : Run (Option String) := do
  if line.length = 1 then
    let t ← fetch line 0
    return t.word?.filter (· ∈ flags)
  else return none

/-- What a line without a flag holds. -/
def memberOf : Run Members := do
  match ← kindOf line with
  | .reference => return .ofReference (← referenceOf line)
  | .attribute => return .ofAttribute (← attributeOf line)
  | .operation =>
    if withOperations then return .ofOperation (← operationOf line)
    else return { skipped := [← leaveOut .operationNotAllowed line] }

/-- What a line holds. -/
def membersOfLine : Run Members := do
  let run ← stripTerminators line
  if run.isEmpty then return {}
  else
    match ← flagOf flags run with
    | some flag => return { flags := [flag] }
    | none => memberOf withOperations run

/-- What the lines of a body hold. -/
def membersOf (lines : List (List Token)) : Run Members := do
  let found ← lines.mapM (membersOfLine flags withOperations)
  return found.foldr Members.append .empty

/-- The outcome of a line of a service, if the line is not empty. -/
def serviceOperationOf : Run (Option (Outcome Operation)) := do
  let run ← stripTerminators line
  if run.isEmpty then return none
  else if run.any (·.is .openParen) then return some (← operationOf run)
  else return some (.skipped (← leaveOut .notAServiceOperation run))

/-- The outcomes of the lines of a service. -/
def serviceOperationsOf (lines : List (List Token)) : Run (List (Outcome Operation)) := do
  let found ← lines.mapM serviceOperationOf
  return found.reduceOption

end

/-! ## 2. Bodies -/

section

variable {flags : List String} {withOperations : Bool}

/-- The first token of a line is only fetched where there is one. -/
theorem kindOf_cons (t : Token) (r : List Token) :
    ∃ kind, kindOf (t :: r) = .ok kind ∧ lineKind? (t :: r) = some kind := by
  have hfirst : fetch (t :: r) 0 = .ok t := rfl
  rw [kindOf, hfirst, bind_ok, lineKind?]
  split
  · exact ⟨_, rfl, rfl⟩
  · split
    · exact ⟨_, rfl, rfl⟩
    · split <;> exact ⟨_, rfl, rfl⟩

theorem flagOf_eq (flags : List String) (line : List Token) :
    flagOf flags line = .ok (Members.flag? flags line) := by
  rcases line with _ | ⟨t, _ | ⟨u, r⟩⟩
  · rfl
  · rfl
  · simp [flagOf, Members.flag?]

theorem membersOfLine_eq (line : List Token) :
    membersOfLine flags withOperations line = .ok (Members.ofLine flags withOperations line) := by
  rw [membersOfLine, stripTerminators_eq, bind_ok, Members.ofLine]
  rcases hrun : withoutTerminators line with _ | ⟨t, r⟩
  · rfl
  obtain ⟨kind, hkind, hkind?⟩ := kindOf_cons t r
  simp only [List.isEmpty_cons, Bool.false_eq_true, if_false, flagOf_eq, bind_ok]
  cases Members.flag? flags (t :: r) with
  | some flag => rfl
  | none =>
    simp only [memberOf, hkind, hkind?, bind_ok]
    cases kind with
    | reference => simp [referenceOf_eq]
    | «attribute» => simp [attributeOf_eq]
    | operation => cases withOperations <;> simp [operationOf_eq, leaveOut_eq]

theorem membersOf_eq (flags : List String) (withOperations : Bool) (lines : List (List Token)) :
    membersOf flags withOperations lines = .ok (Members.ofLines flags withOperations lines) := by
  rw [membersOf, mapM_ok membersOfLine_eq, bind_ok, Members.ofLines]
  rfl

end

/-! ## 3. Services -/

theorem serviceOperationOf_eq (line : List Token) :
    serviceOperationOf line = .ok (serviceOperation? line) := by
  rw [serviceOperationOf, stripTerminators_eq, bind_ok, serviceOperation?, operationOf_eq,
    leaveOut_eq]
  split
  · rfl
  · split <;> rfl

theorem serviceOperationsOf_eq (lines : List (List Token)) :
    serviceOperationsOf lines = .ok (serviceOperations lines) := by
  rw [serviceOperationsOf, mapM_ok serviceOperationOf_eq, bind_ok, serviceOperations]
  simp [List.reduceOption]

end ContextAtlas.Indexed
