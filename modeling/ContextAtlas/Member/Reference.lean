/-
# Reading references

A reference is an optional minus, an optional visibility, a target type, optionally wrapped in a
collection and marked by the sigil `@`, a name, and a trailer with constraints, a `cascade` value
and an `opposite` name.
-/
import ContextAtlas.Member.Constraint
import ContextAtlas.Member.Modifier
import ContextAtlas.Skipped

namespace ContextAtlas.Reference

/-! ## 1. The trailer -/

/-- The value of the first `key = value` in a trailer whose value is a string or a word. -/
def assigned? (key : String) : List Token → Option String
  | t :: u :: v :: r =>
    if t.isWord key && u.is .equals then
      match v.lexeme with
      | .string s => some s
      | .word s => some s
      | _ => assigned? key (u :: v :: r)
    else assigned? key (u :: v :: r)
  | _ => none

/-- The token that a keyword in front of a run names: the first, or the second behind a sigil. -/
def pointedAt? : List Token → Option Token
  | t :: u :: _ => if t.is .sigil then some u else some t
  | [t] => some t
  | [] => none

/-- The word that follows the first occurrence of a keyword which a word follows. -/
def wordAfter? (key : String) : List Token → Option String
  | [] => none
  | t :: r =>
    if t.isWord key then
      match (pointedAt? r).bind Token.word? with
      | some w => some w
      | none => wordAfter? key r
    else wordAfter? key r

section

variable {key : String} {t : Token} {run rest : List Token}

theorem assigned?_cons_of_ne (ht : t.isWord key = false) :
    assigned? key (t :: rest) = assigned? key rest := by
  rcases rest with _ | ⟨u, _ | ⟨v, r⟩⟩
  · rfl
  · rfl
  · simp [assigned?, ht]

theorem wordAfter?_cons_of_ne (ht : t.isWord key = false) :
    wordAfter? key (t :: rest) = wordAfter? key rest := by
  simp [wordAfter?, ht]

/-- A search that passes over each token without the key passes over a run of them. -/
theorem search_append {α : Type} {search : List Token → α}
    (hstep : ∀ t rest, t.isWord key = false → search (t :: rest) = search rest)
    (h : ∀ t ∈ run, t.isWord key = false) : search (run ++ rest) = search rest := by
  induction run with
  | nil => rfl
  | cons t run ih =>
    rw [List.cons_append, hstep t _ (h t List.mem_cons_self)]
    exact ih fun u hu => h u (List.mem_cons_of_mem t hu)

end

/-! ## 2. The line -/

/-- Reads an optional collection wrapper with its opening angle. -/
def readWrapper : List Token → Option CollectionType × List Token
  | t :: u :: r =>
    match t.word?.bind Spelled.read? with
    | some c => if u.is .openAngle then (some c, r) else (none, t :: u :: r)
    | none => (none, t :: u :: r)
  | ts => (none, ts)

/-- Reads the reference on a line without trailing semicolons. -/
def read? (line : List Token) : Except SkipReason Reference :=
  let (visibility, afterVisibility) := readVisibility (afterOptional (·.is .minus) line)
  let (wrapper, afterWrapper) := readWrapper afterVisibility
  match afterOptional (·.is .sigil) afterWrapper with
  | [] => .error .referenceWithoutTarget
  | t :: afterTarget =>
    match t.word? with
    | none => .error .referenceWithoutTarget
    | some target =>
      match afterOptional (·.is .closeAngle) afterTarget with
      | [] => .error .referenceWithoutName
      | u :: trailer =>
        match u.word? with
        | none => .error .referenceWithoutName
        | some name =>
          .ok
            { name := name
              target := target
              wrapper := wrapper
              visibility := visibility
              required := Constraint.isFlagged (Constraint.readAll trailer) "required"
              nullable := Constraint.isFlagged (Constraint.readAll trailer) "nullable"
              cascade := assigned? "cascade" trailer
              opposite := wordAfter? "opposite" trailer }

/-- Reads the reference on a line. -/
def ofLine (line : List Token) : Outcome Reference :=
  .ofRun (withoutTerminators line) (read? (withoutTerminators line))

end ContextAtlas.Reference
