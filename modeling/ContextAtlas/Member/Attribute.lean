/-
# Reading attributes

An attribute is an optional visibility, a type, a name, and constraints.
-/
import ContextAtlas.Member.Constraint
import ContextAtlas.Member.Modifier
import ContextAtlas.Skipped
import ContextAtlas.TypeRef.Reader

namespace ContextAtlas.Attribute

/-- The attribute with the given head and constraints. -/
def ofConstraints (visibility : Option Visibility) (type : TypeRef) (name : String)
    (constraints : List Constraint) : Attribute where
  name := name
  type := type
  visibility := visibility
  key := Constraint.isFlagged constraints "key"
  required := Constraint.isFlagged constraints "required"
  nullable := Constraint.isFlagged constraints "nullable"
  unique := Constraint.isFlagged constraints "unique"
  email := Constraint.isFlagged constraints "email"
  past := Constraint.isFlagged constraints "past"
  future := Constraint.isFlagged constraints "future"
  notEmpty := Constraint.isFlagged constraints "notEmpty"
  notBlank := Constraint.isFlagged constraints "notBlank"
  min := Constraint.lastValue? constraints "min"
  max := Constraint.lastValue? constraints "max"
  range := Constraint.lastValue? constraints "range"
  length := Constraint.lastValue? constraints "length"
  pattern := Constraint.lastValue? constraints "pattern"

/-- Reads the attribute on a line without trailing semicolons. -/
def read? (line : List Token) : Except SkipReason Attribute :=
  let (visibility, afterVisibility) := readVisibility line
  match TypeRef.read? afterVisibility with
  | none => .error .notAnAttribute
  | some (type, afterType) =>
    match afterType with
    | [] => .error .attributeWithoutName
    | t :: r =>
      match t.word? with
      | none => .error .attributeWithoutName
      | some name => .ok (ofConstraints visibility type name (Constraint.readAll r))

/-- Reads the attribute on a line. -/
def ofLine (line : List Token) : Outcome Attribute :=
  .ofRun (withoutTerminators line) (read? (withoutTerminators line))

end ContextAtlas.Attribute
