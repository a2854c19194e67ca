/-
# Members of domain objects

The body of a domain object holds attributes, references to other objects, and operations. This
module says what they are; the modules below it read them from lines of tokens.
-/
import ContextAtlas.TypeRef

namespace ContextAtlas

/-- Who may see a member. -/
inductive Visibility where
  | «public»
  | «protected»
  | «private»
  | package
deriving DecidableEq

instance : Spelled Visibility where
  all := [.public, .protected, .private, .package]
  spell
    | .public => "public"
    | .protected => "protected"
    | .private => "private"
    | .package => "package"
  find_spell := by intro a; cases a <;> rfl

/-- A field of a domain object with its constraints. -/
structure Attribute where
  name : String
  type : TypeRef
  visibility : Option Visibility := none
  key : Bool := false
  required : Bool := false
  nullable : Bool := false
  unique : Bool := false
  email : Bool := false
  past : Bool := false
  future : Bool := false
  notEmpty : Bool := false
  notBlank : Bool := false
  min : Option String := none
  max : Option String := none
  range : Option String := none
  length : Option String := none
  pattern : Option String := none
deriving DecidableEq

/-- A reference from one domain object to another. -/
structure Reference where
  name : String
  target : String
  wrapper : Option CollectionType := none
  visibility : Option Visibility := none
  required : Bool := false
  nullable : Bool := false
  cascade : Option String := none
  opposite : Option String := none
deriving DecidableEq

/-- A parameter of an operation. -/
structure Parameter where
  name : String
  type : TypeRef
deriving DecidableEq

/-- A change of state that an operation brings about: from any of some states, or from no stated
one, to some states, which may exclude each other. -/
structure StateTransition where
  sources : Option (List String)
  targets : List String
  isExclusive : Bool
deriving DecidableEq

/-- An operation of a domain object or of a service. -/
structure Operation where
  name : String
  returnType : TypeRef := .primitive .void
  parameters : List Parameter := []
  visibility : Option Visibility := none
  isReadOnly : Bool := false
  transition : Option StateTransition := none
deriving DecidableEq

end ContextAtlas
