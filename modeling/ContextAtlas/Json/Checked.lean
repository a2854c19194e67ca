/-
# Checking JSON values

A value is checked against what is expected of it, and every complaint is kept with the place it
is about, so that one check tells of all faults at once. Complaints come in the order in which the
parts of a value are checked.

* `Complaint`: what is wrong, and where.
* `Checked`: what a check makes of a value.
* `Check.text`, `Check.flag`, `Check.member`, `Check.list`, ...: checks of single values.
* `Fields`: checks of the fields of an object.
-/
import ContextAtlas.Json
import ContextAtlas.Spelled

namespace ContextAtlas.Json

/-! ## 1. Complaints -/

/-- What is wrong with a value. -/
inductive Fault where
  | missing
  | notText
  | notFlag
  | unclearFlag
  | notList
  | notObject
  | notVariant
  | notMember
  | missingTag
  | unknownTag
  | notJson
deriving DecidableEq

/-- One step to a part of a value: into a field, into the variant of a tag, or to an item. -/
inductive Step where
  | field (name : String)
  | variant (tag : String)
  | item (index : Nat)
deriving DecidableEq

/-- A fault and the way to it from the whole value. -/
structure Complaint where
  fault : Fault
  path : List Step
deriving DecidableEq

/-! ## 2. Checked values -/

/-- What a check makes of a value: something usable, or complaints. -/
inductive Checked (α : Type) where
  | ok (value : α)
  | failed (complaints : List Complaint)

namespace Checked

variable {α β : Type}

/-- A single complaint about the whole value. -/
def fault (f : Fault) : Checked α := failed [⟨f, []⟩]

/-- The complaints of a check. -/
def complaints : Checked α → List Complaint
  | ok _ => []
  | failed cs => cs

/-- Applies a checked function to a checked value; the complaints of both are kept. -/
def apply (f : Checked (α → β)) (a : Checked α) : Checked β :=
  match f, a with
  | ok f, ok a => ok (f a)
  | f, a => failed (f.complaints ++ a.complaints)

/-- Changes the value of a check. -/
def map (f : α → β) : Checked α → Checked β
  | ok a => ok (f a)
  | failed cs => failed cs

/-- Places the complaints of a check behind a step. -/
def behind (step : Step) : Checked α → Checked α
  | ok a => ok a
  | failed cs => failed (cs.map fun c => { c with path := step :: c.path })

@[simp] theorem apply_ok (f : α → β) (a : α) : (ok f).apply (ok a) = ok (f a) := rfl

@[simp] theorem map_ok (f : α → β) (a : α) : (ok a).map f = ok (f a) := rfl

@[simp] theorem behind_ok (step : Step) (a : α) : (ok a : Checked α).behind step = ok a := rfl

end Checked

/-! ## 3. Checks of single values -/

/-- A check of a value. -/
abbrev Check (α : Type) := Json → Checked α

namespace Check

variable {α : Type}

/-- A text. -/
def text : Check String
  | string s => .ok s
  | _ => .fault .notText

/-- The words that stand for a truth value, in small letters. -/
def flagWords : List (String × Bool) :=
  [("0", false), ("f", false), ("n", false), ("no", false), ("off", false), ("false", false),
    ("1", true), ("t", true), ("y", true), ("on", true), ("yes", true), ("true", true)]

/-- The truth value that an integer stands for. -/
def flagOfInteger (n : Int) : Checked Bool :=
  if n = 0 then .ok false
  else if n = 1 then .ok true
  else if -0x8000000000000000 ≤ n ∧ n < 0x8000000000000000 then .fault .unclearFlag
  else .fault .notFlag

/-- How many digits a number has, up to one. -/
def digitCount (n : Nat) : Nat := n.log2 * 30103 / 100000 + 1

/-- The double-precision number next to a decimal one; the sign is left out. A number far beyond
the largest or below the smallest such number is infinite or zero without being worked out. -/
def nearestDouble (mantissa : Nat) (exponent : Int) : Float :=
  let places := (digitCount mantissa : Int) + exponent
  if mantissa = 0 ∨ places < -400 then 0.0
  else if places > 400 then 1.0 / 0.0
  else if exponent < 0 then Float.ofScientific mantissa true exponent.natAbs
  else Float.ofScientific mantissa false exponent.natAbs

/-- The truth value that a decimal number stands for: as a double-precision number it has to be
zero or one. Other whole numbers that fit a machine word are unclear. -/
def flagOfDecimal (mantissa exponent : Int) : Checked Bool :=
  let x := nearestDouble mantissa.natAbs exponent
  if x == 0.0 then .ok false
  else if x == 1.0 ∧ 0 ≤ mantissa then .ok true
  else if x < 9223372036854775808.0 ∧ x.floor == x then .fault .unclearFlag
  else .fault .notFlag

/-- A truth value, or a number or word that stands for one. -/
def flag : Check Bool
  | bool b => .ok b
  | integer n => flagOfInteger n
  | decimal m e => flagOfDecimal m e
  | string s =>
    match flagWords.lookup (String.ofList (s.toList.map Char.toLower)) with
    | some b => .ok b
    | none => .fault .unclearFlag
  | _ => .fault .notFlag

/-- A member of a closed vocabulary. -/
def member [Spelled α] : Check α
  | string s =>
    match Spelled.read? s with
    | some a => .ok a
    | none => .fault .notMember
  | _ => .fault .notMember

/-- A value or null. -/
def optional (check : Check α) : Check (Option α)
  | null => .ok none
  | value => (check value).map some

/-- The items of a list from an index on. -/
def itemsFrom (check : Check α) (index : Nat) : List Json → Checked (List α)
  | [] => .ok []
  | value :: values =>
    (((check value).behind (.item index)).map List.cons).apply (itemsFrom check (index + 1) values)

/-- A list. -/
def list (check : Check α) : Check (List α)
  | array values => itemsFrom check 0 values
  | _ => .fault .notList

/-- An object, whose fields are checked together. -/
def object (check : List (String × Json) → Checked α) : Check α
  | .object fields => check fields
  | _ => .fault .notObject

end Check

/-! ## 4. Checks of fields -/

/-- The fields of an object. -/
abbrev Fields := List (String × Json)

namespace Fields

variable {α : Type}

/-- A field that has to be there. -/
def required (fields : Fields) (name : String) (check : Check α) : Checked α :=
  match lastField? name fields with
  | some value => (check value).behind (.field name)
  | none => (Checked.fault .missing).behind (.field name)

/-- A field with a value to take in its absence. -/
def withDefault (fields : Fields) (name : String) (default : α) (check : Check α) :
    Checked α :=
  match lastField? name fields with
  | some value => (check value).behind (.field name)
  | none => .ok default

/-- A field that may be null or absent. -/
def optional (fields : Fields) (name : String) (check : Check α) :
    Checked (Option α) :=
  withDefault fields name none (Check.optional check)

/-- A truth value that is false in its absence. -/
def flag (fields : Fields) (name : String) : Checked Bool :=
  withDefault fields name false Check.flag

/-- A list that is empty in its absence. -/
def list (fields : Fields) (name : String) (check : Check α) : Checked (List α) :=
  withDefault fields name [] (Check.list check)

end Fields

/-- A value of one of several variants, told apart by a field that holds the tag. `variant?` gives
the check of a tag's variant. -/
def Check.tagged {α : Type} (tag : String)
    (variant? : String → Option (Fields → Checked α)) : Check α
  | .object fields =>
    match lastField? tag fields with
    | none => .fault .missingTag
    | some (.string name) =>
      match variant? name with
      | some check => (check fields).behind (.variant name)
      | none => .fault .unknownTag
    | some _ => .fault .unknownTag
  | _ => .fault .notVariant

end ContextAtlas.Json
