/-
# The values of a document

Every node of a document is given its value, those in deeper collections after those further out:
first the root, then what its collection holds, then what those collections hold. The first fault
in this order is the fault of the document, wherever it is.

* `Value`: what can be told apart about a value.
* `scalarValue`: the value of a scalar, or the fault in it.
* `Builder`: the values found so far, and the collections that are still to be opened.
* `load`: the value of a text, with the pairs of a mapping.
-/
import ContextAtlas.Text.Integer
import ContextAtlas.Yaml.Node

namespace ContextAtlas.Yaml

/-- A value, as far as values are told apart: truth values and texts, and the kind of all
others. -/
inductive Value where
  | null
  | bool (value : Bool)
  | text (value : String)
  | number
  | timestamp
  | bytes
  | mapping
  | otherCollection
deriving DecidableEq

/-! ## 1. Scalars -/

/-- A text without underscores. -/
def withoutUnderscores (text : List Char) : List Char := text.filter (· != '_')

/-- Whether a text is an integer to a base. -/
def isIntegerTo (base : Nat) (text : List Char) : Bool := (Text.parseInteger? base text).isSome

/-- Checks that a text writes an integer. -/
def checkInteger (text : List Char) : Except Fault Unit :=
  match withoutUnderscores text with
  | [] => .error .emptyNumber
  | core =>
    let unsigned := afterSign core
    let good :=
      match unsigned with
      | '0' :: 'b' :: r => isIntegerTo 2 r
      | '0' :: 'x' :: r => isIntegerTo 16 r
      | '0' :: r => r.isEmpty || isIntegerTo 8 unsigned
      | _ => (unsigned.splitOn ':').all (isIntegerTo 10)
    if unsigned.isEmpty then .error .emptyNumber
    else if good then .ok () else .error .badValue

/-- Whether a text is digits of any script, at least one. -/
def isDigits (text : List Char) : Bool :=
  !text.isEmpty && text.all fun c => (Text.decimalValue? c).isSome

/-- Whether a text is an exponent, or nothing. -/
def isOptionalExponent : List Char → Bool
  | [] => true
  | c :: r => (c == 'e' || c == 'E') && isDigits (afterSign r)

/-- Whether a text writes a floating-point number. -/
def isFloat (text : List Char) : Bool :=
  let core := afterSign (Text.withoutNumberGaps text)
  let isDecimalDigit (c : Char) : Bool := (Text.decimalValue? c).isSome
  let whole := core.takeWhile isDecimalDigit
  let plain :=
    match core.dropWhile isDecimalDigit with
    | '.' :: r =>
      !(whole.isEmpty && (r.takeWhile isDecimalDigit).isEmpty)
        && isOptionalExponent (r.dropWhile isDecimalDigit)
    | r => !whole.isEmpty && isOptionalExponent r
  plain || ["inf", "infinity", "nan"].contains (String.ofList (core.map Char.toLower))

/-- How many parts a floating-point number to the base sixty may have: the weight of the first part
has to be a double-precision number too. -/
def maxSexagesimalParts : Nat := 174

/-- Checks that a text writes a floating-point number. -/
def checkFloat (text : List Char) : Except Fault Unit :=
  match (withoutUnderscores text).map Char.toLower with
  | [] => .error .emptyNumber
  | core =>
    let unsigned := afterSign core
    let parts := unsigned.splitOn ':'
    if unsigned = ".inf".toList ∨ unsigned = ".nan".toList then .ok ()
    else if !parts.all isFloat then .error .badValue
    else if parts.length > maxSexagesimalParts then .error .numberTooLarge
    else .ok ()

/-- How many days a month has. -/
def daysInMonth (year month : Nat) : Nat :=
  if month = 2 then
    if year % 4 = 0 ∧ (year % 100 ≠ 0 ∨ year % 400 = 0) then 29 else 28
  else if month = 4 ∨ month = 6 ∨ month = 9 ∨ month = 11 then 30
  else 31

/-- Whether a timestamp names a day of the calendar and a time of the day. -/
def Timestamp.isValid (t : Timestamp) : Bool :=
  1 ≤ t.year && 1 ≤ t.month && t.month ≤ 12 && 1 ≤ t.day && t.day ≤ daysInMonth t.year t.month
    && t.time.all (fun (hour, minute, second) => hour < 24 && minute < 60 && second < 60)
    && t.distance < 24 * 60

/-- Checks that a text writes a timestamp of the calendar. -/
def checkTimestamp (text : List Char) : Except Fault Unit :=
  match Timestamp.read? (withoutLastFeed text) with
  | none => .error .notTimestamp
  | some t => if t.isValid then .ok () else .error .badValue

/-- The truth value of a word. -/
def truthValue? (text : List Char) : Option Bool :=
  [("yes", true), ("no", false), ("true", true), ("false", false), ("on", true),
    ("off", false)].lookup (String.ofList (text.map Char.toLower))

/-- Whether a character is a digit of the base-64 encoding. -/
def isBase64Digit (c : Char) : Bool := c.isAlphanum || c == '+' || c == '/'

/-- Whether a text is base-64: groups of four digits, the last filled up with equals signs. Other
characters do not count. `place` is the place in the current group, `pads` the number of signs
since its last digit. -/
def isBase64 (place pads : Nat) : List Char → Bool
  | [] => place = 0
  | c :: r =>
    if c == '=' then
      if 2 ≤ place then 4 ≤ place + pads + 1 || isBase64 place (pads + 1) r
      else isBase64 place pads r
    else if isBase64Digit c then isBase64 ((place + 1) % 4) 0 r
    else isBase64 place pads r

/-- The value of a scalar with a tag. -/
def scalarValue (tag : Tag) (text : String) : Except Fault Value :=
  let chars := text.toList
  match tag with
  | .null => .ok .null
  | .bool =>
    match truthValue? chars with
    | some b => .ok (.bool b)
    | none => .error .unknownTruth
  | .int => do checkInteger chars; .ok .number
  | .float => do checkFloat chars; .ok .number
  | .timestamp => do checkTimestamp chars; .ok .timestamp
  | .binary =>
    if chars.all (·.toNat < 0x80) && isBase64 0 0 chars then .ok .bytes else .error .malformed
  | .text => .ok (.text text)
  | _ => .error .malformed

/-! ## 2. Building values -/

/-- The nodes of a document, the values found so far, and the collections that are still to be
opened, in order. -/
structure Builder where
  nodes : Array Node
  values : List (Nat × Value) := []
  pending : List Nat := []

/-- A step of building. -/
abbrev Build (α : Type) := StateT Builder (Except Fault) α

namespace Build

/-- The node at a place. -/
def nodeAt (place : Nat) : Build Node := do
  match (← get).nodes[place]? with
  | some node => pure node
  | none => throw .malformed

/-- Replaces the node at a place. -/
def setNode (place : Nat) (node : Node) : Build Unit :=
  modify fun s => { s with nodes := s.nodes.setIfInBounds place node }

/-- The text of a node that is to be a scalar. A mapping stands for the value of its special key
for values. -/
def scalarText : Nat → Nat → Build String
  | 0, _ => throw .endless
  | fuel + 1, place => do
    match (← nodeAt place).content with
    | .scalar text => pure text
    | .sequence _ => throw .malformed
    | .mapping pairs =>
      let nodes := (← get).nodes
      let isValueKey (pair : Nat × Nat) : Bool := nodes[pair.1]?.any (·.tag = .value)
      match pairs.find? isValueKey with
      | some (_, value) => scalarText fuel value
      | none => throw .malformed

/-- The value of a node. What a collection holds is left for later. -/
def value (place : Nat) : Build Value := do
  match (← get).values.lookup place with
  | some v => pure v
  | none =>
    let node ← nodeAt place
    let v ←
      match node.tag with
      | .mapping =>
        modify fun s => { s with pending := s.pending ++ [place] }
        pure Value.mapping
      | .sequence | .set | .orderedMapping | .pairs =>
        modify fun s => { s with pending := s.pending ++ [place] }
        pure Value.otherCollection
      | .merge | .value | .unknown => throw .malformed
      | tag =>
        let text ← scalarText ((← get).nodes.size + 1) place
        match tag, node.content with
        | .timestamp, .mapping _ => throw .timestampInMapping
        | _, _ => scalarValue tag text
    modify fun s => { s with values := (place, v) :: s.values }
    pure v

/-! ## 3. Mappings -/

/-- The pairs of the mappings that are merged into another: of one mapping, or of a sequence of
them, where the first has the last word. `flatten` gives the pairs of a mapping. -/
def mergedPairs (flatten : Nat → Build (List (Nat × Nat))) (place : Nat) :
    Build (List (Nat × Nat)) := do
  match (← nodeAt place).content with
  | .mapping _ => flatten place
  | .sequence items =>
    let pairs ← items.mapM fun item => do
      match (← nodeAt item).content with
      | .mapping _ => flatten item
      | _ => throw .malformed
    pure pairs.reverse.flatten
  | .scalar _ => throw .malformed

/-- The pairs of the mapping at a place. -/
def pairsAt (place : Nat) : Build (List (Nat × Nat)) := do
  match (← nodeAt place).content with
  | .mapping pairs => pure pairs
  | _ => throw .malformed

/-- Replaces the pairs of the mapping at a place. -/
def setPairs (place : Nat) (pairs : List (Nat × Nat)) : Build Unit := do
  setNode place { ← nodeAt place with content := .mapping pairs }

/-- Makes texts of the special keys for values among some pairs. -/
def plainKeys (pairs : List (Nat × Nat)) : Build Unit :=
  pairs.forM fun (key, _) => do
    let node ← nodeAt key
    if node.tag = .value then setNode key { node with tag := .text }

/-- Takes the merge keys out of the mapping at a place, from an index on, and gives the pairs they
stand for. The mapping may be merged into itself, so a merge key is gone before the mappings behind
it are looked at, and what is left of the own pairs is looked up again behind each; `fuel` bounds
the number of merge keys. -/
def takeMerges (flatten : Nat → Build (List (Nat × Nat))) (place : Nat) :
    Nat → Nat → Build (List (Nat × Nat))
  | 0, _ => pure []
  | fuel + 1, start => do
    let pairs ← pairsAt place
    let nodes := (← get).nodes
    let isMerge (pair : Nat × Nat) : Bool := nodes[pair.1]?.any (·.tag = .merge)
    let passed := (pairs.drop start).takeWhile (!isMerge ·)
    plainKeys passed
    let index := start + passed.length
    match pairs[index]? with
    | none => pure []
    | some (_, source) =>
      setPairs place (pairs.eraseIdx index)
      let merged ← mergedPairs flatten source
      pure (merged ++ (← takeMerges flatten place fuel index))

/-- The pairs of a mapping without its merge keys, the merged pairs in front. `depth` bounds how
deep mappings are merged into each other. -/
def flatten : Nat → Nat → Build (List (Nat × Nat))
  | 0, _ => throw .endless
  | depth + 1, place => do
    let merged ← takeMerges (flatten depth) place ((← pairsAt place).length + 1) 0
    let pairs := merged ++ (← pairsAt place)
    setPairs place pairs
    pure pairs

/-- How deep mappings may be merged into each other. As with `maxLevels` the limit is the stack of
one run of the interpreter, where a merge takes a single frame. -/
def maxMerges : Nat := 989

/-- The values of the keys and values of a mapping. A collection cannot be a key. -/
def mappingValues (place : Nat) : Build (List (Value × Value)) := do
  let pairs ← flatten maxMerges place
  pairs.mapM fun (key, content) => do
    let k ← value key
    if k = .mapping ∨ k = .otherCollection then throw .malformed
    else pure (k, ← value content)

/-- Gives the nodes their values that a list of pairs is made of: each item is a mapping of one
pair. -/
def pairValues (items : List Nat) : Build Unit :=
  items.forM fun item => do
    match (← nodeAt item).content with
    | .mapping [(key, content)] => do
      let _ ← value key
      let _ ← value content
    | _ => throw .malformed

/-- Opens a collection: gives what it holds its values, and tells the pairs of a mapping. -/
def openCollection (place : Nat) : Build (List (Value × Value)) := do
  let node ← nodeAt place
  match node.tag, node.content with
  | .mapping, _ | .set, _ => mappingValues place
  | .sequence, .sequence items => do
    items.forM fun item => do
      let _ ← value item
    pure []
  | .orderedMapping, .sequence items | .pairs, .sequence items => do
    pairValues items
    pure []
  | _, _ => throw .malformed

/-- Opens the collections that are still to be opened, and those found on the way. -/
def openPending : Nat → Build Unit
  | 0 => pure ()
  | fuel + 1 => do
    match (← get).pending with
    | [] => pure ()
    | place :: r =>
      modify fun s => { s with pending := r }
      let _ ← openCollection place
      openPending fuel

/-- The value of a document with a root, and the pairs of its root when that is a mapping. -/
def document (root : Nat) : Build (Value × List (Value × Value)) := do
  let v ← value root
  match (← get).pending with
  | [] => pure (v, [])
  | place :: _ =>
    modify fun s => { s with pending := [] }
    let pairs ← openCollection place
    openPending ((← get).nodes.size + 1)
    pure (v, pairs)

end Build

/-! ## 4. Texts -/

/-- The value of a text, and the pairs of its root when that is a mapping. A text without a
document is null. -/
def load (text : List Char) : Except Fault (Value × List (Value × Value)) := do
  match ← composeDocument text with
  | (none, _) => .ok (.null, [])
  | (some root, nodes) => (·.1) <$> (Build.document root).run { nodes }

end ContextAtlas.Yaml
