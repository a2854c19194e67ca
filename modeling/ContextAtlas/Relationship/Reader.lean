/-
# Reading relationships

A relationship is read around its connector, an arrow or a keyword. To the left stand a name and
its roles between brackets, `A [U,OHS]`; to the right the roles and the name, `[D,ACL] B`; behind
them an optional `: Name` and an optional body between braces. The left side is looked up among
all tokens in front of the connector, so in `A -> B -> C` the context `B` takes part twice.

* `Connector`: what a connector says about its two sides.
* `Relationship.ofSides`: the relationship that a connector and two sides make.
* `readRelationships`: one outcome for each connector in a run of tokens, in order.
-/
import ContextAtlas.Block
import ContextAtlas.Relationship
import ContextAtlas.Setting
import ContextAtlas.Skipped

namespace ContextAtlas

/-! ## 1. Connectors -/

/-- What a connector says about its two sides. The arrows leave the kind of relationship to the
roles; the keywords state it. -/
inductive Connector where
  | symmetric
  | leftUpstream
  | rightUpstream
  | partnership
  | sharedKernel
  | upstreamDownstream
  | downstreamUpstream
  | customerSupplier
  | supplierCustomer
deriving DecidableEq

/-- The connector that two words joined by a minus make. -/
def Connector.ofWords? (first second : String) : Option Connector :=
  if first = "Shared" ∧ second = "Kernel" then some .sharedKernel
  else if first = "Upstream" ∧ second = "Downstream" then some .upstreamDownstream
  else if first = "Downstream" ∧ second = "Upstream" then some .downstreamUpstream
  else if first = "Customer" ∧ second = "Supplier" then some .customerSupplier
  else if first = "Supplier" ∧ second = "Customer" then some .supplierCustomer
  else none

/-- The connector at the start of a run of tokens, and how many further tokens it takes. -/
def Connector.read? (t : Token) (r : List Token) : Option (Connector × Nat) :=
  match t.lexeme with
  | .mark .doubleArrow => some (.symmetric, 0)
  | .mark .arrow => some (.leftUpstream, 0)
  | .mark .backArrow => some (.rightUpstream, 0)
  | .word first =>
    if first = "Partnership" then some (.partnership, 0)
    else
      match r with
      | u :: v :: _ =>
        if u.is .minus then
          (v.word?.bind (Connector.ofWords? first)).map fun c => (c, 2)
        else none
      | _ => none
  | _ => none

/-! ## 2. Roles -/

/-- The upstream roles among some abbreviations. -/
def upstreamRoles (abbreviations : List String) : List UpstreamRole :=
  abbreviations.filterMap fun a =>
    if a = "PL" then some .publishedLanguage
    else if a = "OHS" then some .openHostService
    else none

/-- The downstream roles among some abbreviations. -/
def downstreamRoles (abbreviations : List String) : List DownstreamRole :=
  abbreviations.filterMap fun a =>
    if a = "ACL" then some .anticorruptionLayer
    else if a = "CF" then some .conformist
    else none

/-- Whether the abbreviations to the left and right of an arrow make a customer-supplier
relationship: a supplier to the left or a customer to the right, whatever way the arrow points. -/
def isCustomerSupplier (left right : List String) : Bool :=
  left.contains "S" || right.contains "C"

/-! ## 3. Sides -/

/-- One side of a connector: the context and the abbreviations between its brackets. -/
structure Side where
  context : String
  roles : List String
deriving DecidableEq

/-- The words in a run of tokens. -/
def wordsOf (run : List Token) : List String := run.filterMap Token.word?

/-- Reads the side that ends in front of a connector; `before` holds the tokens in front of it,
the last first. -/
def Side.readLeft? (before : List Token) : Option Side :=
  match before with
  | [] => none
  | t :: r =>
    if t.is .closeBracket then
      match r.dropWhile (!·.is .openBracket) with
      | [] => none
      | _ :: s =>
        (s.head?.bind Token.word?).map fun context =>
          ⟨context, wordsOf (r.takeWhile (!·.is .openBracket)).reverse⟩
    else t.word?.map fun context => ⟨context, []⟩

/-- Reads the context name at the start of a run of tokens, behind an optional sigil. -/
def Side.readContext? (roles : List String) (ts : List Token) : Option (Side × List Token) :=
  match ts with
  | [] => none
  | t :: r =>
    if t.is .sigil then
      match r with
      | [] => none
      | u :: s => u.word?.map fun context => (⟨context, roles⟩, s)
    else t.word?.map fun context => (⟨context, roles⟩, r)

/-- Reads the side behind a connector: the side and the tokens behind it. -/
def Side.readRight? (ts : List Token) : Option (Side × List Token) :=
  match ts with
  | [] => none
  | t :: r =>
    if t.is .openBracket then
      match r.dropWhile (!·.is .closeBracket) with
      | [] => none
      | _ :: s => Side.readContext? (wordsOf (r.takeWhile (!·.is .closeBracket))) s
    else Side.readContext? [] (t :: r)

/-! ## 4. Relationships -/

/-- The relationship that a connector and its sides make, with an optional name and the tokens of
its body. -/
def Relationship.ofSides (connector : Connector) (left right : Side) (name : Option String)
    (body : List Token) : Relationship :=
  let technology := Setting.string? "implementationTechnology" body
  let symmetric : Symmetric := ⟨left.context, right.context, name, technology⟩
  let directed (upstream downstream : Side) : Directed :=
    { upstream := upstream.context
      downstream := downstream.context
      upstreamRoles := upstreamRoles upstream.roles
      downstreamRoles := downstreamRoles downstream.roles
      exposedAggregates := Setting.values "exposedAggregates" body
      rights := Setting.member? GovernanceRights "downstreamRights" body
      name := name
      technology := technology }
  let ofArrow (terms : Directed) : Relationship :=
    if isCustomerSupplier left.roles right.roles then .customerSupplier terms
    else .upstreamDownstream terms
  match connector with
  | .symmetric =>
    if left.roles.contains "SK" || right.roles.contains "SK" then .sharedKernel symmetric
    else .partnership symmetric
  | .partnership => .partnership symmetric
  | .sharedKernel => .sharedKernel symmetric
  | .leftUpstream => ofArrow (directed left right)
  | .rightUpstream => ofArrow (directed right left)
  | .upstreamDownstream => .upstreamDownstream (directed left right)
  | .downstreamUpstream => .upstreamDownstream (directed right left)
  | .supplierCustomer => .customerSupplier (directed left right)
  | .customerSupplier => .customerSupplier (directed right left)

/-- Splits the tokens behind an opening brace into the group's body and the tokens behind the
group. A group that never closes takes all tokens, and its last one stands for the closing
brace. -/
def splitGroup (ts : List Token) : List Token × List Token :=
  match splitBody 0 ts with
  | some (body, _, rest) => (body, rest)
  | none => (ts.dropLast, [])

theorem length_splitGroup_le (ts : List Token) : (splitGroup ts).2.length ≤ ts.length := by
  unfold splitGroup
  split
  · next h => exact Nat.le_of_lt (length_lt_of_splitBody h)
  · simp

/-- Reads an optional name behind a colon. -/
def readRelationshipName (ts : List Token) : Option String × List Token :=
  match ts with
  | t :: u :: r =>
    if t.is .colon then
      match u.word? with
      | some name => (some name, r)
      | none => (none, ts)
    else (none, ts)
  | _ => (none, ts)

/-- Reads an optional body between braces. -/
def readRelationshipBody (ts : List Token) : List Token × List Token :=
  match ts with
  | [] => ([], [])
  | t :: r => if t.is .openBrace then splitGroup r else ([], t :: r)

/-- Reads the relationship around a connector: `before` holds the tokens in front of it, the last
first, and `after` those behind it. Gives the relationship and the tokens behind it. -/
def Relationship.read? (connector : Connector) (before after : List Token) :
    Option (Relationship × List Token) := do
  let left ← Side.readLeft? before
  let (right, afterRight) ← Side.readRight? after
  let (name, afterName) := readRelationshipName afterRight
  let (body, rest) := readRelationshipBody afterName
  some (.ofSides connector left right name body, rest)

/-! ## 5. Runs of relationships -/

theorem length_le_of_readContext {roles : List String} {ts rest : List Token} {side : Side}
    (h : Side.readContext? roles ts = some (side, rest)) : rest.length ≤ ts.length := by
  unfold Side.readContext? at h
  split at h
  · simp at h
  · split at h
    · split at h
      · simp at h
      · simp only [Option.map_eq_some_iff, Prod.mk.injEq] at h
        obtain ⟨_, _, _, rfl⟩ := h
        simp
        omega
    · simp only [Option.map_eq_some_iff, Prod.mk.injEq] at h
      obtain ⟨_, _, _, rfl⟩ := h
      simp

theorem length_le_of_readRight {ts rest : List Token} {side : Side}
    (h : Side.readRight? ts = some (side, rest)) : rest.length ≤ ts.length := by
  unfold Side.readRight? at h
  split at h
  · simp at h
  · next t r =>
    split at h
    · split at h
      · simp at h
      · next u s hdrop =>
        have h1 := length_le_of_readContext h
        have h2 : (u :: s).length ≤ r.length := by
          rw [← hdrop]
          exact (List.dropWhile_sublist _).length_le
        simp only [List.length_cons] at h2 ⊢
        omega
    · exact length_le_of_readContext h

theorem length_readRelationshipName_le (ts : List Token) :
    (readRelationshipName ts).2.length ≤ ts.length := by
  unfold readRelationshipName
  split
  · split
    · split
      · simp only [List.length_cons]
        omega
      · simp
    · simp
  · simp

theorem length_readRelationshipBody_le (ts : List Token) :
    (readRelationshipBody ts).2.length ≤ ts.length := by
  unfold readRelationshipBody
  split
  · simp
  · split
    · exact Nat.le_succ_of_le (length_splitGroup_le _)
    · simp

theorem length_le_of_readRelationship {connector : Connector} {before after rest : List Token}
    {relationship : Relationship}
    (h : Relationship.read? connector before after = some (relationship, rest)) :
    rest.length ≤ after.length := by
  simp only [Relationship.read?, Option.bind_eq_bind, Option.bind_eq_some_iff] at h
  obtain ⟨left, -, ⟨right, afterRight⟩, hright, h⟩ := h
  simp only [Option.some.injEq, Prod.mk.injEq] at h
  obtain ⟨-, rfl⟩ := h
  have h1 := length_le_of_readRight hright
  have h2 := length_readRelationshipName_le afterRight
  have h3 := length_readRelationshipBody_le (readRelationshipName afterRight).2
  omega

/-- Finds the relationships in a run of tokens, behind the tokens `before`, the last first. A
group that belongs to no relationship is passed over. -/
def readRelationshipsFrom (before : List Token) : List Token → List (Outcome Relationship)
  | [] => []
  | t :: r =>
    if t.is .openBrace then
      let rest := (splitGroup r).2
      readRelationshipsFrom ((r.take (r.length - rest.length)).reverse ++ t :: before) rest
    else
      match Connector.read? t r with
      | none => readRelationshipsFrom (t :: before) r
      | some (connector, n) =>
        let behind := (r.take n).reverse ++ t :: before
        match _h : Relationship.read? connector before (r.drop n) with
        | none =>
          .skipped (.ofTokens .missingParticipant (t :: r.take n))
            :: readRelationshipsFrom behind (r.drop n)
        | some (relationship, rest) =>
          let taken := (r.drop n).take ((r.drop n).length - rest.length)
          .matched relationship :: readRelationshipsFrom (taken.reverse ++ behind) rest
termination_by ts => ts.length
decreasing_by
  · have := length_splitGroup_le r
    simp only [List.length_cons]
    omega
  · simp only [List.length_cons]
    omega
  · simp only [List.length_cons, List.length_drop]
    omega
  · have := length_le_of_readRelationship _h
    simp only [List.length_drop] at this
    simp only [List.length_cons]
    omega

section

variable {before r rest : List Token} {t : Token} {connector : Connector} {n : Nat}
  {relationship : Relationship}

@[simp] theorem readRelationshipsFrom_nil : readRelationshipsFrom before [] = [] := by
  rw [readRelationshipsFrom]

theorem readRelationshipsFrom_of_group (ht : t.is .openBrace = true) :
    readRelationshipsFrom before (t :: r)
      = readRelationshipsFrom
          ((r.take (r.length - (splitGroup r).2.length)).reverse ++ t :: before)
          (splitGroup r).2 := by
  rw [readRelationshipsFrom, if_pos ht]

theorem readRelationshipsFrom_of_no_connector (ht : t.is .openBrace = false)
    (hc : Connector.read? t r = none) :
    readRelationshipsFrom before (t :: r) = readRelationshipsFrom (t :: before) r := by
  rw [readRelationshipsFrom, ht, if_neg Bool.false_ne_true, hc]

theorem readRelationshipsFrom_of_skipped (ht : t.is .openBrace = false)
    (hc : Connector.read? t r = some (connector, n))
    (hr : Relationship.read? connector before (r.drop n) = none) :
    readRelationshipsFrom before (t :: r)
      = .skipped (.ofTokens .missingParticipant (t :: r.take n))
        :: readRelationshipsFrom ((r.take n).reverse ++ t :: before) (r.drop n) := by
  rw [readRelationshipsFrom, ht, if_neg Bool.false_ne_true, hc]
  simp only
  split
  · rfl
  · rename_i h
    exact absurd (hr.symm.trans h) (by simp)

theorem readRelationshipsFrom_of_matched (ht : t.is .openBrace = false)
    (hc : Connector.read? t r = some (connector, n))
    (hr : Relationship.read? connector before (r.drop n) = some (relationship, rest)) :
    readRelationshipsFrom before (t :: r)
      = .matched relationship
        :: readRelationshipsFrom
            (((r.drop n).take ((r.drop n).length - rest.length)).reverse
              ++ ((r.take n).reverse ++ t :: before)) rest := by
  rw [readRelationshipsFrom, ht, if_neg Bool.false_ne_true, hc]
  simp only
  split
  · rename_i h
    exact absurd (hr.symm.trans h) (by simp)
  · rename_i h
    obtain ⟨rfl, rfl⟩ := by simpa using hr.symm.trans h
    rfl

end

/-- Finds the relationships in the body of a context map, one outcome for each connector. -/
def readRelationships (ts : List Token) : List (Outcome Relationship) :=
  readRelationshipsFrom [] ts

end ContextAtlas
