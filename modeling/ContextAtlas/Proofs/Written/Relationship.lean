/-
# Reading written relationships

A relationship is written as `A [roles] connector [roles] @B : Name { ... }`, where everything but
the two contexts and the connector may be missing.  Nothing separates two relationships: the reader
looks back from a connector for the left context and forward for the right one.

* `Source.Relationship`: one written relationship, its lexemes, and the relationship that is meant;
* `readRelationshipsFrom_front`: the walk passes over what stands in front of a connector;
* `Relationship.read?_written`: around a connector the relationship that is meant is read;
* `readRelationships_written`: a run of written relationships is read one by one, in order.

A left context or left role called `Partnership` would be taken for a connector, so a written
relationship has none.
-/
import ContextAtlas.Proofs.Block.Balance
import ContextAtlas.Proofs.Layout.Block
import ContextAtlas.Proofs.Written.Field

namespace ContextAtlas

namespace Source

/-! ## 1. Written relationships -/

/-- How a connector is written. -/
def connectorLexemes : Connector → List Lexeme
  | .symmetric => [.mark .doubleArrow]
  | .leftUpstream => [.mark .arrow]
  | .rightUpstream => [.mark .backArrow]
  | .partnership => [.word "Partnership"]
  | .sharedKernel => [.word "Shared", .mark .minus, .word "Kernel"]
  | .upstreamDownstream => [.word "Upstream", .mark .minus, .word "Downstream"]
  | .downstreamUpstream => [.word "Downstream", .mark .minus, .word "Upstream"]
  | .customerSupplier => [.word "Customer", .mark .minus, .word "Supplier"]
  | .supplierCustomer => [.word "Supplier", .mark .minus, .word "Customer"]

/-- Roles with commas between them. -/
def roleRun (roles : List String) : List Lexeme :=
  (roles.map Lexeme.word).intersperse (.mark .comma)

/-- Roles between their brackets, or nothing. -/
def bracket : Option (List String) → List Lexeme
  | none => []
  | some roles => .mark .openBracket :: (roleRun roles ++ [.mark .closeBracket])

/-- The name of a relationship behind its colon, or nothing. -/
def nameClause : Option String → List Lexeme
  | none => []
  | some name => [.mark .colon, .word name]

/-- The body of a relationship between its braces, or nothing. -/
def bodyGroup : Option (List Lexeme) → List Lexeme
  | none => []
  | some body => .mark .openBrace :: (body ++ [.mark .closeBrace])

/-- A relationship as it is written. -/
structure Relationship where
  left : String
  leftRoles : Option (List String)
  connector : Connector
  rightRoles : Option (List String)
  hasSigil : Bool
  right : String
  name : Option String
  body : Option (List Lexeme)
  left_ne : left ≠ "Partnership"
  leftRoles_ne : ∀ roles ∈ leftRoles, "Partnership" ∉ roles
  balanced : ∀ lexemes ∈ body, Balanced (laidRow 1 lexemes)

namespace Relationship

/-- What stands in front of the connector. -/
def front (r : Relationship) : List Lexeme := .word r.left :: bracket r.leftRoles

/-- What stands behind the connector. -/
def behind (r : Relationship) : List Lexeme :=
  bracket r.rightRoles ++ (if r.hasSigil then [.mark .sigil] else []) ++ .word r.right
    :: (nameClause r.name ++ bodyGroup r.body)

/-- How a relationship is written. -/
def lexemes (r : Relationship) : List Lexeme :=
  r.front ++ connectorLexemes r.connector ++ r.behind

/-! ## 2. What is meant -/

/-- The roles to the left. -/
def leftWords (r : Relationship) : List String := r.leftRoles.getD []

/-- The roles to the right. -/
def rightWords (r : Relationship) : List String := r.rightRoles.getD []

/-- The tokens of the body. -/
def settings (r : Relationship) : List Token := laidRow 1 (r.body.getD [])

/-- Whether the connector makes the left context the upstream one. -/
def leftIsUpstream (r : Relationship) : Bool :=
  r.connector ∈ [.leftUpstream, .upstreamDownstream, .supplierCustomer]

/-- The upstream role that an abbreviation stands for. -/
def upstreamRole? : String → Option UpstreamRole
  | "PL" => some .publishedLanguage
  | "OHS" => some .openHostService
  | _ => none

/-- The downstream role that an abbreviation stands for. -/
def downstreamRole? : String → Option DownstreamRole
  | "ACL" => some .anticorruptionLayer
  | "CF" => some .conformist
  | _ => none

/-- The terms of a relationship without a direction. -/
def symmetric (r : Relationship) : Symmetric where
  first := r.left
  second := r.right
  name := r.name
  technology := Setting.string? "implementationTechnology" r.settings

/-- The terms of a directed relationship: the side that is upstream has upstream roles, the other
one downstream roles. -/
def directed (r : Relationship) : Directed where
  upstream := if r.leftIsUpstream then r.left else r.right
  downstream := if r.leftIsUpstream then r.right else r.left
  upstreamRoles := (if r.leftIsUpstream then r.leftWords else r.rightWords).filterMap upstreamRole?
  downstreamRoles :=
    (if r.leftIsUpstream then r.rightWords else r.leftWords).filterMap downstreamRole?
  exposedAggregates := Setting.values "exposedAggregates" r.settings
  rights := Setting.member? GovernanceRights "downstreamRights" r.settings
  name := r.name
  technology := Setting.string? "implementationTechnology" r.settings

/-- The relationship that is meant.  A keyword states the kind; `<->` is a shared kernel with the
role `SK` on a side, and an arrow a customer-supplier relationship with `S` to its left or `C` to
its right, whatever way it points. -/
def meaning (r : Relationship) : ContextAtlas.Relationship :=
  match r.connector with
  | .symmetric =>
    if "SK" ∈ r.leftWords ∨ "SK" ∈ r.rightWords then .sharedKernel r.symmetric
    else .partnership r.symmetric
  | .leftUpstream | .rightUpstream =>
    if "S" ∈ r.leftWords ∨ "C" ∈ r.rightWords then .customerSupplier r.directed
    else .upstreamDownstream r.directed
  | .partnership => .partnership r.symmetric
  | .sharedKernel => .sharedKernel r.symmetric
  | .upstreamDownstream | .downstreamUpstream => .upstreamDownstream r.directed
  | .customerSupplier | .supplierCustomer => .customerSupplier r.directed

end Relationship

end Source

/-! ## 3. In front of a connector -/

open Source

/-- A token that starts no connector, whatever follows but a minus, and opens no group. -/
structure Token.Quiet (t : Token) : Prop where
  not_open : t.is .openBrace = false
  not_arrow : t.is .arrow = false ∧ t.is .backArrow = false ∧ t.is .doubleArrow = false
  not_minus : t.is .minus = false
  not_partnership : t.isWord "Partnership" = false

theorem quiet_word {w : String} {p : Position} (hw : w ≠ "Partnership") :
    Token.Quiet ⟨.word w, p⟩ := by
  constructor <;> simp [Token.is, Token.isWord, hw]

theorem quiet_mark {m : Mark} {p : Position}
    (hm : m ∉ [Mark.openBrace, .arrow, .backArrow, .doubleArrow, .minus]) :
    Token.Quiet ⟨.mark m, p⟩ := by
  simp only [List.mem_cons, List.not_mem_nil, or_false, not_or] at hm
  constructor <;> simp [Token.is, Token.isWord, hm]

/-- A quiet token in front of another starts no connector. -/
theorem Token.Quiet.read?_eq_none {t : Token} {r : List Token} (ht : t.Quiet)
    (hr : ∀ u ∈ r.head?, u.is .minus = false) : Connector.read? t r = none := by
  obtain ⟨x, p⟩ := t
  have hopen := ht.not_open
  obtain ⟨harrow, hback, hdouble⟩ := ht.not_arrow
  have hword := ht.not_partnership
  cases x with
  | mark m => cases m <;> simp_all [Connector.read?, Token.is]
  | word w =>
    have hw : w ≠ "Partnership" := by simpa [Token.isWord] using hword
    rcases r with _ | ⟨u, _ | ⟨v, s⟩⟩
    · simp [Connector.read?, hw]
    · simp [Connector.read?, hw]
    · have hu : u.is .minus = false := hr u rfl
      simp [Connector.read?, hw, hu]
  | _ => rfl

/-- **The walk passes over quiet tokens.** -/
theorem readRelationshipsFrom_front {rest : List Token}
    (hrest : ∀ u ∈ rest.head?, u.is .minus = false) : ∀ {before front : List Token},
    (∀ t ∈ front, t.Quiet) →
    readRelationshipsFrom before (front ++ rest)
      = readRelationshipsFrom (front.reverse ++ before) rest
  | before, [], _ => rfl
  | before, t :: r, h => by
    have ht := h t List.mem_cons_self
    have hr : ∀ u ∈ r, u.Quiet := fun u hu => h u (List.mem_cons_of_mem t hu)
    have hnext : ∀ u ∈ (r ++ rest).head?, u.is .minus = false := by
      cases r with
      | nil => exact hrest
      | cons v s =>
        intro u hu
        obtain rfl : v = u := by simpa using hu
        exact (hr v List.mem_cons_self).not_minus
    rw [List.cons_append,
      readRelationshipsFrom_of_no_connector ht.not_open (ht.read?_eq_none hnext),
      readRelationshipsFrom_front hrest hr]
    simp

/-! ## 4. Sides -/

theorem mem_roleRun {roles : List String} {x : Lexeme} (h : x ∈ roleRun roles) :
    x = .mark .comma ∨ ∃ w ∈ roles, x = .word w := by
  induction roles with
  | nil => simp [roleRun] at h
  | cons w roles ih =>
    cases roles with
    | nil =>
      obtain rfl : x = .word w := by simpa [roleRun] using h
      exact .inr ⟨w, List.mem_cons_self, rfl⟩
    | cons v roles =>
      simp only [roleRun, List.map_cons, List.intersperse_cons_cons, List.mem_cons] at h
      rcases h with rfl | rfl | h
      · exact .inr ⟨w, List.mem_cons_self, rfl⟩
      · exact .inl rfl
      · rcases ih (by simpa [roleRun] using h) with rfl | ⟨u, hu, rfl⟩
        · exact .inl rfl
        · exact .inr ⟨u, List.mem_cons_of_mem w hu, rfl⟩

/-- No bracket stands among roles. -/
theorem not_is_of_mem_roleRun {roles : List String} {t : Token} {m : Mark} (hm : m ≠ .comma)
    (h : t ∈ laidRow 1 (roleRun roles)) : t.is m = false := by
  obtain ⟨hx, -⟩ := exists_of_mem_laidRow h
  rcases mem_roleRun hx with hx | ⟨w, -, hx⟩
  · simp [Token.is, hx, hm.symm]
  · simp [Token.is, hx]

theorem wordsOf_roleRun : ∀ roles : List String, wordsOf (laidRow 1 (roleRun roles)) = roles
  | [] => rfl
  | [_] => rfl
  | w :: v :: roles => by
    have ih := wordsOf_roleRun (v :: roles)
    have hcomma : ∀ row, wordsOf (laidRow 1 (.mark .comma :: row)) = wordsOf (laidRow 1 row) :=
      fun _ => rfl
    have hword : ∀ row, wordsOf (laidRow 1 (.word w :: row)) = w :: wordsOf (laidRow 1 row) :=
      fun _ => rfl
    rw [roleRun, List.map_cons, List.map_cons, List.intersperse_cons_cons, hword, hcomma]
    exact congrArg (w :: ·) ih

/-- What stands in front of a connector is read back from it. -/
theorem Side.readLeft?_written (r : Source.Relationship) (before : List Token) :
    Side.readLeft? ((laidRow 1 r.front).reverse ++ before) = some ⟨r.left, r.leftWords⟩ := by
  rcases hroles : r.leftRoles with _ | roles
  · simp [Relationship.front, Relationship.leftWords, bracket, hroles, readLeft?, Token.is,
      Token.word?]
  · have hrun : ∀ t ∈ (laidRow 1 (roleRun roles)).reverse, t.is .openBracket = false := fun t ht =>
      not_is_of_mem_roleRun (by decide) (List.mem_reverse.mp ht)
    have hspan := span_until (t := ⟨.mark .openBracket, .ofLine 1⟩) hrun rfl
      (⟨.word r.left, .ofLine 1⟩ :: before)
    have hsplit : (laidRow 1 r.front).reverse ++ before
        = ⟨.mark .closeBracket, .ofLine 1⟩ :: ((laidRow 1 (roleRun roles)).reverse
          ++ ⟨.mark .openBracket, .ofLine 1⟩ :: ⟨.word r.left, .ofLine 1⟩ :: before) := by
      simp [Relationship.front, bracket, hroles]
    have hclose : Token.is ⟨.mark .closeBracket, .ofLine 1⟩ .closeBracket = true := rfl
    rw [hsplit, readLeft?]
    simp only [hclose, if_true, hspan.1, hspan.2, List.reverse_reverse, wordsOf_roleRun]
    simp [Token.word?, Relationship.leftWords, hroles]

theorem Side.readContext?_written (r : Source.Relationship) (roles : List String)
    (rest : List Token) :
    Side.readContext? roles (laidRow 1 (if r.hasSigil then [.mark .sigil] else [])
        ++ ⟨.word r.right, .ofLine 1⟩ :: rest) = some (⟨r.right, roles⟩, rest) := by
  cases r.hasSigil <;> simp [readContext?, Token.is, Token.word?]

/-- What stands behind a connector is read up to the right context. -/
theorem Side.readRight?_written (r : Source.Relationship) (rest : List Token) :
    Side.readRight? (laidRow 1 (bracket r.rightRoles)
        ++ (laidRow 1 (if r.hasSigil then [.mark .sigil] else [])
          ++ ⟨.word r.right, .ofLine 1⟩ :: rest))
      = some (⟨r.right, r.rightWords⟩, rest) := by
  rcases hroles : r.rightRoles with _ | roles
  · have hcontext := Side.readContext?_written r [] rest
    rw [bracket, laidRow_nil, List.nil_append, Relationship.rightWords, hroles, Option.getD_none]
    cases hs : r.hasSigil <;> rw [hs] at hcontext <;> exact hcontext
  · have hrun : ∀ t ∈ laidRow 1 (roleRun roles), t.is .closeBracket = false := fun t ht =>
      not_is_of_mem_roleRun (by decide) ht
    have hspan := span_until (t := ⟨.mark .closeBracket, .ofLine 1⟩) hrun rfl
      (laidRow 1 (if r.hasSigil then [.mark .sigil] else []) ++ ⟨.word r.right, .ofLine 1⟩ :: rest)
    have hopen : Token.is ⟨.mark .openBracket, .ofLine 1⟩ .openBracket = true := rfl
    rw [bracket, laidRow_cons, laidRow_append, laidRow_cons, laidRow_nil, List.cons_append,
      readRight?, List.append_assoc, List.singleton_append]
    simp only [hopen, if_true, hspan.1, hspan.2, wordsOf_roleRun]
    rw [readContext?_written, Relationship.rightWords, hroles, Option.getD_some]

/-! ## 5. One relationship -/

/-- Whether tokens can stand behind a relationship: they go on neither with a name nor with a
body. -/
def EndsRelationship (rest : List Token) : Prop :=
  ∀ t ∈ rest.head?, t.is .colon = false ∧ t.is .openBrace = false

theorem readRelationshipName_written (r : Source.Relationship) {rest : List Token}
    (hrest : EndsRelationship rest) :
    readRelationshipName (laidRow 1 (nameClause r.name) ++ (laidRow 1 (bodyGroup r.body) ++ rest))
      = (r.name, laidRow 1 (bodyGroup r.body) ++ rest) := by
  rcases r.name with _ | name
  · have hhead : ∀ t ∈ (laidRow 1 (bodyGroup r.body) ++ rest).head?, t.is .colon = false := by
      rcases r.body with _ | body
      · exact fun t ht => (hrest t ht).1
      · intro t ht
        obtain rfl : (⟨.mark .openBrace, .ofLine 1⟩ : Token) = t := by
          simpa [bodyGroup] using ht
        rfl
    rw [nameClause, laidRow_nil, List.nil_append]
    generalize laidRow 1 (bodyGroup r.body) ++ rest = ts at hhead
    rcases ts with _ | ⟨t, _ | ⟨u, s⟩⟩
    · rfl
    · rfl
    · simp [readRelationshipName, hhead t rfl]
  · simp [nameClause, readRelationshipName, Token.is, Token.word?]

theorem readRelationshipBody_written (r : Source.Relationship) {rest : List Token}
    (hrest : EndsRelationship rest) :
    readRelationshipBody (laidRow 1 (bodyGroup r.body) ++ rest) = (r.settings, rest) := by
  rcases hbody : r.body with _ | body
  · rw [bodyGroup, laidRow_nil, List.nil_append, Relationship.settings, hbody]
    rcases rest with _ | ⟨t, s⟩
    · rfl
    · simp [readRelationshipBody, (hrest t rfl).2]
  · have hsplit : splitBody 0 (laidRow 1 body ++ ⟨.mark .closeBrace, .ofLine 1⟩ :: rest)
        = some (laidRow 1 body, ⟨.mark .closeBrace, .ofLine 1⟩, rest) :=
      (r.balanced body hbody).splitBody rfl
    simp [bodyGroup, readRelationshipBody, splitGroup, hsplit, Relationship.settings, hbody,
      Token.is]

/-- The relationship that is meant is the one that its sides make. -/
theorem Relationship.ofSides_written (r : Source.Relationship) :
    Relationship.ofSides r.connector ⟨r.left, r.leftWords⟩ ⟨r.right, r.rightWords⟩ r.name r.settings
      = r.meaning := by
  have hup : ∀ a, Relationship.upstreamRole? a
      = if a = "PL" then some .publishedLanguage
        else if a = "OHS" then some .openHostService else none := by
    intro a
    unfold Relationship.upstreamRole?
    split <;> simp_all
  have hdown : ∀ a, Relationship.downstreamRole? a
      = if a = "ACL" then some .anticorruptionLayer
        else if a = "CF" then some .conformist else none := by
    intro a
    unfold Relationship.downstreamRole?
    split <;> simp_all
  have hupstream : ∀ ws : List String, upstreamRoles ws = ws.filterMap Relationship.upstreamRole? :=
    fun ws => List.filterMap_congr fun a _ => (hup a).symm
  have hdownstream : ∀ ws : List String,
      downstreamRoles ws = ws.filterMap Relationship.downstreamRole? :=
    fun ws => List.filterMap_congr fun a _ => (hdown a).symm
  unfold Relationship.ofSides Relationship.meaning
  cases hc : r.connector <;>
    simp [Relationship.symmetric, Relationship.directed, Relationship.leftIsUpstream, hc,
      hupstream, hdownstream, isCustomerSupplier]

/-- **Around the connector of a written relationship the one that is meant is read.** -/
theorem Relationship.read?_written (r : Source.Relationship) (before : List Token)
    {rest : List Token} (hrest : EndsRelationship rest) :
    Relationship.read? r.connector ((laidRow 1 r.front).reverse ++ before)
      (laidRow 1 r.behind ++ rest) = some (r.meaning, rest) := by
  have hbehind : laidRow 1 r.behind ++ rest
      = laidRow 1 (bracket r.rightRoles) ++ (laidRow 1 (if r.hasSigil then [.mark .sigil] else [])
        ++ ⟨.word r.right, .ofLine 1⟩
          :: (laidRow 1 (nameClause r.name) ++ (laidRow 1 (bodyGroup r.body) ++ rest))) := by
    simp [Relationship.behind]
  simp only [read?, Option.bind_eq_bind, Side.readLeft?_written, hbehind, Side.readRight?_written,
    Option.bind_some, readRelationshipName_written r hrest, readRelationshipBody_written r hrest,
    ofSides_written]

/-! ## 6. Runs of relationships -/

theorem quiet_front (r : Source.Relationship) : ∀ t ∈ laidRow 1 r.front, t.Quiet := by
  intro t ht
  rw [Relationship.front, laidRow_cons, List.mem_cons] at ht
  rcases ht with rfl | ht
  · exact quiet_word r.left_ne
  · rcases hroles : r.leftRoles with _ | roles
    · simp [hroles, bracket] at ht
    · rw [hroles, bracket, laidRow_cons, laidRow_append, laidRow_cons, laidRow_nil, List.mem_cons,
        List.mem_append, List.mem_singleton] at ht
      rcases ht with rfl | ht | rfl
      · exact quiet_mark (by decide)
      · obtain ⟨x, hx, rfl⟩ := List.mem_map.mp ht
        rcases mem_roleRun hx with rfl | ⟨w, hw, rfl⟩
        · exact quiet_mark (by decide)
        · exact quiet_word fun h => r.leftRoles_ne roles hroles (h ▸ hw)
      · exact quiet_mark (by decide)

/-- A written connector is found where it starts. -/
theorem exists_connector (c : Connector) (after : List Token) :
    ∃ t r n, laidRow 1 (connectorLexemes c) ++ after = t :: r ∧ t.is .openBrace = false
      ∧ t.is .minus = false ∧ Connector.read? t r = some (c, n) ∧ r.drop n = after := by
  cases c <;> exact ⟨_, _, _, rfl, rfl, rfl, rfl, rfl⟩

/-- A relationship is read where it starts, whatever stands in front of it. -/
theorem exists_readRelationshipsFrom_written (r : Source.Relationship) (before : List Token)
    {rest : List Token} (hrest : EndsRelationship rest) :
    ∃ before', readRelationshipsFrom before (laidRow 1 r.lexemes ++ rest)
      = .matched r.meaning :: readRelationshipsFrom before' rest := by
  obtain ⟨t, s, n, hconnector, hopen, hminus, hread, hdrop⟩ :=
    exists_connector r.connector (laidRow 1 r.behind ++ rest)
  have hsplit : laidRow 1 r.lexemes ++ rest = laidRow 1 r.front ++ t :: s := by
    rw [← hconnector, Relationship.lexemes, laidRow_append, laidRow_append, List.append_assoc,
      List.append_assoc]
  have hrelationship := Relationship.read?_written r before hrest
  rw [← hdrop] at hrelationship
  rw [hsplit, readRelationshipsFrom_front (by simpa using hminus) (quiet_front r),
    readRelationshipsFrom_of_matched hopen hread hrelationship]
  exact ⟨_, rfl⟩

theorem readRelationshipsFrom_written : ∀ (rs : List Source.Relationship) (before : List Token),
    readRelationshipsFrom before (laidRow 1 (rs.flatMap Relationship.lexemes))
      = rs.map fun r => .matched r.meaning
  | [], before => by simp
  | r :: rs, before => by
    have hrest : EndsRelationship (laidRow 1 (rs.flatMap Relationship.lexemes)) := by
      cases rs with
      | nil => exact fun t ht => by simp at ht
      | cons r' rs =>
        intro t ht
        obtain rfl : (⟨.word r'.left, .ofLine 1⟩ : Token) = t := by
          simpa [Relationship.lexemes, Relationship.front] using ht
        exact ⟨rfl, rfl⟩
    obtain ⟨before', h⟩ := exists_readRelationshipsFrom_written r before hrest
    rw [List.flatMap_cons, laidRow_append, h, readRelationshipsFrom_written rs before',
      List.map_cons]

/-- An outcome that is read wherever its tokens stand is read. -/
theorem eq_map_matched_of_unplaced {α β : Type} {f : α → β} : ∀ {os : List (Outcome β)}
    {xs : List α}, os.map Outcome.unplaced = xs.map (fun x => .matched (f x)) →
    os = xs.map fun x => .matched (f x)
  | [], [], _ => rfl
  | [], _ :: _, h => by simp at h
  | _ :: _, [], h => by simp at h
  | o :: os, x :: xs, h => by
    obtain ⟨ho, hos⟩ := List.cons.inj h
    rw [List.map_cons, eq_map_matched_of_unplaced hos]
    cases o with
    | matched a => exact congrArg (· :: _) ho
    | skipped s => simp [Outcome.unplaced] at ho

/-- **Written relationships are read as the ones that are meant**, wherever their tokens stand: one
by one, in order and each as often as it is written. -/
theorem readRelationships_written (rs : List Source.Relationship) (ts : List Token)
    (h : ts.map Token.lexeme = rs.flatMap Relationship.lexemes) :
    readRelationships ts = rs.map fun r => .matched r.meaning := by
  have hmoved : ts.map (Token.moved fun _ => .ofLine 1)
      = laidRow 1 (rs.flatMap Relationship.lexemes) := by
    rw [← h, laidRow, List.map_map]
    rfl
  have hread := readRelationships_moved (m := fun _ => .ofLine 1) ts
  rw [hmoved, readRelationships, readRelationshipsFrom_written, List.map_map] at hread
  exact eq_map_matched_of_unplaced hread.symm

namespace Source

/-- `Web [D,CF] <- [U,PL] @Shop : Orders { exposedAggregates = Cart { } }`. -/
def sampleArrow : Relationship where
  left := "Web"
  leftRoles := some ["D", "CF"]
  connector := .rightUpstream
  rightRoles := some ["U", "PL"]
  hasSigil := true
  right := "Shop"
  name := some "Orders"
  body := some [.word "exposedAggregates", .mark .equals, .word "Cart", .mark .openBrace,
    .mark .closeBrace]
  left_ne := by decide
  leftRoles_ne := by simp
  balanced := by
    simp only [Option.mem_some_iff, forall_eq']
    decide

/-- `Shop Shared-Kernel Stock`. -/
def sampleKeyword : Relationship where
  left := "Shop"
  leftRoles := none
  connector := .sharedKernel
  rightRoles := none
  hasSigil := false
  right := "Stock"
  name := none
  body := none
  left_ne := by decide
  leftRoles_ne := by simp
  balanced := by simp

end Source

/-- A relationship whose arrow points left and that has everything, then one that has nothing. -/
theorem readRelationships_sample :
    readRelationships (lex
        "Web [D,CF]<-[U,PL] @Shop : Orders \x7b exposedAggregates = Cart \x7b \x7d \x7d
          Shop Shared-Kernel Stock".toList)
      = [.matched (.upstreamDownstream
          { upstream := "Shop"
            downstream := "Web"
            upstreamRoles := [.publishedLanguage]
            downstreamRoles := [.conformist]
            exposedAggregates := ["Cart"]
            name := some "Orders" }),
        .matched (.sharedKernel ⟨"Shop", "Stock", none, none⟩)] := by
  rw [readRelationships_written [sampleArrow, sampleKeyword] _ (by decide +kernel)]
  decide +kernel

end ContextAtlas
