/-
# Type references

The type of an attribute, a parameter or a result is written as a name with optional arguments:
`String`, `List<Money>`, `Map<K,V>`. Built-in names and the four collections are closed
vocabularies; every other name stands for itself, so no name is unknown.
-/
import ContextAtlas.Spelled

namespace ContextAtlas

/-! ## 1. Vocabularies -/

/-- The built-in types. -/
inductive PrimitiveType where
  | string
  | int
  | integer
  | long
  | longObject
  | short
  | double
  | doubleObject
  | float
  | floatObject
  | boolean
  | booleanObject
  | bigDecimal
  | bigInteger
  | date
  | dateTime
  | timestamp
  | blob
  | clob
  | object
  | void
deriving DecidableEq

instance : Spelled PrimitiveType where
  all := [.string, .int, .integer, .long, .longObject, .short, .double, .doubleObject, .float,
    .floatObject, .boolean, .booleanObject, .bigDecimal, .bigInteger, .date, .dateTime,
    .timestamp, .blob, .clob, .object, .void]
  spell
    | .string => "String"
    | .int => "int"
    | .integer => "Integer"
    | .long => "long"
    | .longObject => "Long"
    | .short => "short"
    | .double => "double"
    | .doubleObject => "Double"
    | .float => "float"
    | .floatObject => "Float"
    | .boolean => "boolean"
    | .booleanObject => "Boolean"
    | .bigDecimal => "BigDecimal"
    | .bigInteger => "BigInteger"
    | .date => "Date"
    | .dateTime => "DateTime"
    | .timestamp => "Timestamp"
    | .blob => "Blob"
    | .clob => "Clob"
    | .object => "Object"
    | .void => "void"
  find_spell := by intro a; cases a <;> rfl

/-- The collections that a type or a reference can be wrapped in. -/
inductive CollectionType where
  | list
  | set
  | bag
  | collection
deriving DecidableEq

instance : Spelled CollectionType where
  all := [.list, .set, .bag, .collection]
  spell
    | .list => "List"
    | .set => "Set"
    | .bag => "Bag"
    | .collection => "Collection"
  find_spell := by intro a; cases a <;> rfl

/-! ## 2. References -/

/-- A reference to a type. A wrapper that is no collection is kept as a name, arguments and
all. -/
inductive TypeRef where
  | primitive (type : PrimitiveType)
  | collection (wrapper : CollectionType) (element : TypeRef)
  | map (key value : TypeRef)
  | named (name : String)
deriving DecidableEq

namespace TypeRef

/-- A type reference in the spelling of the language, without blanks. -/
def spell : TypeRef → String
  | primitive p => Spelled.spell p
  | collection c e => Spelled.spell c ++ "<" ++ e.spell ++ ">"
  | map k v => "Map<" ++ k.spell ++ "," ++ v.spell ++ ">"
  | named n => n

/-- The reference that a name without arguments stands for. -/
def ofName (name : String) : TypeRef :=
  match Spelled.read? name with
  | some p => primitive p
  | none => named name

/-- The reference that a name with one argument stands for. -/
def ofWrapper (name : String) (argument : TypeRef) : TypeRef :=
  match Spelled.read? name with
  | some c => collection c argument
  | none => named (name ++ "<" ++ argument.spell ++ ">")

end TypeRef

end ContextAtlas
