/-
# The nodes of a document

A document is a tree of scalars, sequences and mappings. With anchors and aliases a node can stand
in several places, even inside itself, so nodes are kept in a table and refer to each other by
their place in it. The text is read as the nodes are put together, so that of two faults the one
that is met first counts.

* `Node`, `Content`: a node and what it holds.
* `Composer`: the table while it is built.
* `composeDocument`: the nodes of the only document of a text.
-/
import ContextAtlas.Yaml.Tag
import ContextAtlas.Yaml.Token.Stream

namespace ContextAtlas.Yaml

/-- What a node holds; other nodes are given by their place in the table. -/
inductive Content where
  | scalar (text : String)
  | sequence (items : List Nat)
  | mapping (pairs : List (Nat × Nat))

/-- A node of a document. -/
structure Node where
  tag : Tag
  content : Content

/-! ## 1. Building a table -/

/-- The table of nodes while it is built, with the tokens to come. `levels` counts the collections
around the current place. -/
structure Composer where
  nodes : Array Node := #[]
  anchors : List (String × Nat) := []
  handles : List (String × String) := []
  levels : Nat := 0
  stream : StreamState

/-- A step of building. -/
abbrev Compose (α : Type) := StateT Composer (Except Fault) α

namespace Compose

/-- The next token. -/
def peek : Compose Token := do
  let s ← get
  let stream ← s.stream.settle
  set { s with stream }
  match stream.queue with
  | t :: _ => pure t
  | [] => throw .malformed

/-- Takes the next token, which was looked at before. -/
def take : Compose Unit := modify fun s => { s with stream := s.stream.take }

/-- Whether the next token is one of some. -/
def sees (ts : List Token) : Compose Bool := do pure (ts.contains (← peek))

/-- Takes a token that has to come next. -/
def expect (t : Token) : Compose Unit := do
  if (← peek) = t then take else throw .malformed

/-- Adds a node to the table: its place. -/
def add (node : Node) : Compose Nat := do
  let s ← get
  set { s with nodes := s.nodes.push node }
  pure s.nodes.size

/-- Names the node at a place by an anchor; a name is given once. -/
def nameNode (anchor : Option String) (place : Nat) : Compose Unit := do
  match anchor with
  | none => pure ()
  | some name =>
    let s ← get
    if (s.anchors.lookup name).isSome then throw .malformed
    else set { s with anchors := (name, place) :: s.anchors }

/-- Adds a node under an anchor. -/
def addNamed (anchor : Option String) (node : Node) : Compose Nat := do
  let place ← add node
  nameNode anchor place
  pure place

/-- Fills the node at a place with what was found behind it. -/
def fill (place : Nat) (node : Node) : Compose Unit :=
  modify fun s => { s with nodes := s.nodes.setIfInBounds place node }

/-- How deep collections may nest. This is no rule of YAML: each level takes two frames on the stack
of an interpreter that has a thousand. The number is what one run of it left for the reader; called
from deeper in the stack, the reader gives up earlier. -/
def maxLevels : Nat := 492

/-- Reads what stands inside a collection. -/
def inside {α : Type} (content : Compose α) : Compose α := do
  if (← get).levels = maxLevels then throw .endless
  else
    modify fun s => { s with levels := s.levels + 1 }
    let a ← content
    modify fun s => { s with levels := s.levels - 1 }
    pure a

/-- Adds the empty scalar that stands where nothing is written. -/
def addEmpty : Compose Nat := add ⟨Tag.ofText [], .scalar ""⟩

/-- The address that a handle and a suffix make. -/
def address (handle : Option String) (suffix : String) : Compose String := do
  match handle with
  | none => pure suffix
  | some h =>
    match (← get).handles.lookup h with
    | some start => pure (start ++ suffix)
    | none => throw .malformed

/-! ## 2. Nodes -/

/-- What stands in front of a node: an anchor and the address of a tag. -/
structure Properties where
  anchor : Option String := none
  address : Option String := none

/-- The properties of an anchor and a tag, which is a handle and a suffix. -/
def properties (anchor : Option String) (tag : Option (Option String × String)) :
    Compose Properties := do
  match tag with
  | some (handle, suffix) => pure ⟨anchor, some (← address handle suffix)⟩
  | none => pure ⟨anchor, none⟩

/-- The tag of a collection. -/
def Properties.collectionTag (p : Properties) (default : Tag) : Tag :=
  match p.address with
  | none => default
  | some a => if a = "!" then default else .ofAddress a

/-- The tag of a scalar. The address `!` asks for the tag of the text, as if it were plain. -/
def Properties.scalarTag (p : Properties) (plain : Bool) (text : String) : Tag :=
  match p.address with
  | none => if plain then .ofText text.toList else .text
  | some a => if a = "!" then .ofText text.toList else .ofAddress a

/-- Reads an optional anchor. -/
def readAnchor : Compose (Option String) := do
  match ← peek with
  | .anchor name => do take; pure (some name)
  | _ => pure none

/-- Reads an optional tag: its handle and its suffix. -/
def readTag : Compose (Option (Option String × String)) := do
  match ← peek with
  | .tag handle suffix => do take; pure (some (handle, suffix))
  | _ => pure none

/-- Reads an optional anchor and an optional tag, in either order. -/
def readProperties : Compose Properties := do
  match ← readAnchor with
  | some name => properties (some name) (← readTag)
  | none =>
    match ← readTag with
    | some tag => properties (← readAnchor) (some tag)
    | none => pure {}

/-- Where a node stands: in a block, in a block where a sequence need not be indented, or between
brackets. -/
inductive Place where
  | block
  | unindented
  | flow
deriving DecidableEq

/-- Reads a sequence whose items `items` reads. -/
def sequenceNode (p : Properties) (items : Compose (List Nat)) : Compose Nat := do
  let place ← addNamed p.anchor ⟨p.collectionTag .sequence, .sequence []⟩
  fill place ⟨p.collectionTag .sequence, .sequence (← inside items)⟩
  pure place

/-- Reads a mapping whose pairs `pairs` reads. -/
def mappingNode (p : Properties) (pairs : Compose (List (Nat × Nat))) : Compose Nat := do
  let place ← addNamed p.anchor ⟨p.collectionTag .mapping, .mapping []⟩
  fill place ⟨p.collectionTag .mapping, .mapping (← inside pairs)⟩
  pure place

mutual

/-- Reads a node. -/
def node (place : Place) : Nat → Compose Nat
  | 0 => throw .malformed
  | fuel + 1 => do
    match ← peek with
    | .alias name =>
      take
      match (← get).anchors.lookup name with
      | some n => pure n
      | none => throw .malformed
    | _ =>
      let p ← readProperties
      match ← peek, place with
      | .blockEntry, .unindented => sequenceNode p (unindentedItems fuel)
      | .scalar text plain, _ =>
        take
        addNamed p.anchor ⟨p.scalarTag plain text, .scalar text⟩
      | .flowSequenceStart, _ => take; sequenceNode p (flowItems true fuel)
      | .flowMappingStart, _ => take; mappingNode p (flowPairs true fuel)
      | t, _ =>
        if place != .flow && t = .blockSequenceStart then
          take
          sequenceNode p (blockItems fuel)
        else if place != .flow && t = .blockMappingStart then
          take
          mappingNode p (blockPairs fuel)
        else if p.anchor.isSome || p.address.isSome then
          addNamed p.anchor ⟨p.scalarTag true "", .scalar ""⟩
        else throw .malformed

/-- Reads a node, or the empty scalar in front of one of some tokens. -/
def nodeUnless (stops : List Token) (place : Place) : Nat → Compose Nat
  | 0 => throw .malformed
  | fuel + 1 => do
    if ← sees stops then addEmpty else node place fuel

/-- Reads the value of a pair, or the empty scalar when none is written. -/
def pairValue (stops : List Token) (place : Place) : Nat → Compose Nat
  | 0 => throw .malformed
  | fuel + 1 => do
    if ← sees [.value] then
      take
      nodeUnless stops place fuel
    else addEmpty

/-- Reads the items of an indented sequence. -/
def blockItems : Nat → Compose (List Nat)
  | 0 => throw .malformed
  | fuel + 1 => do
    if ← sees [.blockEntry] then
      take
      let item ← nodeUnless [.blockEntry, .blockEnd] .block fuel
      pure (item :: (← blockItems fuel))
    else
      expect .blockEnd
      pure []

/-- Reads the items of a sequence that is not indented. -/
def unindentedItems : Nat → Compose (List Nat)
  | 0 => throw .malformed
  | fuel + 1 => do
    if ← sees [.blockEntry] then
      take
      let item ← nodeUnless [.blockEntry, .key, .value, .blockEnd] .block fuel
      pure (item :: (← unindentedItems fuel))
    else pure []

/-- Reads the pairs of a block mapping. -/
def blockPairs : Nat → Compose (List (Nat × Nat))
  | 0 => throw .malformed
  | fuel + 1 => do
    if ← sees [.key] then
      take
      let key ← nodeUnless [.key, .value, .blockEnd] .unindented fuel
      let value ← pairValue [.key, .value, .blockEnd] .unindented fuel
      pure ((key, value) :: (← blockPairs fuel))
    else
      expect .blockEnd
      pure []

/-- Reads a pair that is an item of a sequence between brackets. -/
def flowPairItem : Nat → Compose Nat
  | 0 => throw .malformed
  | fuel + 1 => do
    take
    mappingNode {} do
      let key ← nodeUnless [.value, .flowEntry, .flowSequenceEnd] .flow fuel
      let value ← pairValue [.flowEntry, .flowSequenceEnd] .flow fuel
      pure [(key, value)]

/-- Reads the items of a sequence between brackets; behind the first each needs a comma. -/
def flowItems (first : Bool) : Nat → Compose (List Nat)
  | 0 => throw .malformed
  | fuel + 1 => do
    if ← sees [.flowSequenceEnd] then
      take
      pure []
    else
      if !first then expect .flowEntry
      if ← sees [.flowSequenceEnd] then
        take
        pure []
      else
        let item ← if ← sees [.key] then flowPairItem fuel else node .flow fuel
        pure (item :: (← flowItems false fuel))

/-- Reads the pairs of a mapping between brackets; behind the first each needs a comma. -/
def flowPairs (first : Bool) : Nat → Compose (List (Nat × Nat))
  | 0 => throw .malformed
  | fuel + 1 => do
    if ← sees [.flowMappingEnd] then
      take
      pure []
    else
      if !first then expect .flowEntry
      if ← sees [.flowMappingEnd] then
        take
        pure []
      else if ← sees [.key] then
        take
        let key ← nodeUnless [.value, .flowEntry, .flowMappingEnd] .flow fuel
        let value ← pairValue [.flowEntry, .flowMappingEnd] .flow fuel
        pure ((key, value) :: (← flowPairs false fuel))
      else
        let key ← node .flow fuel
        let value ← addEmpty
        pure ((key, value) :: (← flowPairs false fuel))

end

/-! ## 3. Documents -/

/-- The handles that every document knows. -/
def defaultHandles : List (String × String) := [("!", "!"), ("!!", standardAddress)]

/-- Takes the directives in front of a document. At most one gives a version, and no handle is
given twice. -/
def directives : Nat → Bool → List (String × String) → Compose Unit
  | 0, _, _ => throw .malformed
  | fuel + 1, versioned, handles => do
    match ← peek with
    | .directive (.version major) =>
      if versioned ∨ major ≠ 1 then throw .malformed
      else
        take
        directives fuel true handles
    | .directive (.handle handle start) =>
      if (handles.lookup handle).isSome then throw .malformed
      else
        take
        directives fuel versioned ((handle, start) :: handles)
    | .directive .other =>
      take
      directives fuel versioned handles
    | _ => modify fun s => { s with handles := handles ++ defaultHandles }

/-- Takes all document end markers. -/
def documentEnds : Nat → Compose Unit
  | 0 => pure ()
  | fuel + 1 => do
    if ← sees [.documentEnd] then
      take
      documentEnds fuel

/-- Whether a token is a directive. -/
def isDirective : Token → Bool
  | .directive _ => true
  | _ => false

/-- Reads a document up to the end of the text: the place of its root, or nothing when there is no
document. A second document must not follow; of the instructions in front of it a fault counts
first. -/
def document (fuel : Nat) : Compose (Option Nat) := do
  if ← sees [.streamEnd] then pure none
  else
    let root ←
      if isDirective (← peek) || (← sees [.documentStart]) then
        directives fuel false []
        expect .documentStart
        if isDirective (← peek) || (← sees [.documentStart, .documentEnd, .streamEnd]) then addEmpty
        else node .block fuel
      else
        modify fun s => { s with handles := defaultHandles }
        node .block fuel
    documentEnds fuel
    if ← sees [.streamEnd] then pure (some root)
    else
      directives fuel false []
      throw .malformed

end Compose

/-- The nodes of the only document of a text, with the place of its root. Without a document there
is no root. -/
def composeDocument (text : List Char) : Except Fault (Option Nat × Array Node) := do
  let stream ← StreamState.ofText text
  let fuel := 16 * (text.length + 2)
  let (root, s) ← (Compose.document fuel).run { stream }
  .ok (root, s.nodes)

end ContextAtlas.Yaml
