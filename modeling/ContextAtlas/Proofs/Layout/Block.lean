/-
# Blocks at other places

A block remembers three places, and its own lines are found by comparing line numbers.  So here a
move of tokens has to keep the order of lines (`KeepsLines`); columns and offsets stay free.

A skipped run tells the place of its first token.  `unplaced` forgets it, and what a reader gives
for moved tokens is compared with what it gives for the tokens themselves up to that.

* `scanBlocks_moved`: the same blocks are found, at other places;
* `Block.lines_moved`: a moved block has the same own lines;
* `Members.ofLines_moved`, `serviceOperations_moved`, `readRelationships_moved`: and so the same
  members, operations and relationships.
-/
import ContextAtlas.Proofs.Layout.Reader
import Mathlib.Data.List.SplitBy

namespace ContextAtlas

variable {m : Position → Position}

/-! ## 1. Forgetting the places of skipped runs -/

/-- A skipped run without its place. -/
def Skipped.unplaced (s : Skipped) : Skipped := { s with line := 0, column := 0 }

namespace Outcome

variable {α β : Type}

/-- An outcome without the place of a skipped run. -/
def unplaced : Outcome α → Outcome α
  | .matched a => .matched a
  | .skipped s => .skipped s.unplaced

/-- An outcome with another value. -/
def map (f : α → β) : Outcome α → Outcome β
  | .matched a => .matched (f a)
  | .skipped s => .skipped s

end Outcome

@[simp] theorem Skipped.unplaced_ofTokens_moved (reason : SkipReason) (run : List Token) :
    (Skipped.ofTokens reason (run.map (Token.moved m))).unplaced
      = (Skipped.ofTokens reason run).unplaced := by
  simp [unplaced, ofTokens, fragmentText_moved]

@[simp] theorem Outcome.unplaced_ofRun_moved {α : Type} (run : List Token)
    (result : Except SkipReason α) :
    (Outcome.ofRun (run.map (Token.moved m)) result).unplaced
      = (Outcome.ofRun run result).unplaced := by
  cases result with
  | ok a => rfl
  | error reason => simp [ofRun, unplaced]

/-! ## 2. Groups and blocks -/

theorem splitBody_moved : ∀ (depth : Nat) (ts : List Token),
    splitBody depth (ts.map (Token.moved m))
      = (splitBody depth ts).map fun x =>
          (x.1.map (Token.moved m), x.2.1.moved m, x.2.2.map (Token.moved m))
  | _, [] => rfl
  | depth, t :: r => by
    rw [List.map_cons, splitBody.eq_def, splitBody.eq_def]
    simp only [Token.is_moved, splitBody_moved _ r]
    by_cases ho : t.is .openBrace = true
    · simp [ho, Function.comp_def]
    · by_cases hc : t.is .closeBrace = true
      · cases depth <;> simp [ho, hc, Function.comp_def]
      · simp [ho, hc, Function.comp_def]

/-- A block at other places. -/
def Block.moved (m : Position → Position) (b : Block) : Block :=
  { b with
    start := m b.start
    opener := m b.opener
    closer := m b.closer
    body := b.body.map (Token.moved m) }

/-- The same blocks are found among moved tokens, at their other places. -/
theorem scanFrom_moved (keyword : String) (nameOptional : Bool) (before : Option Token)
    (ts : List Token) :
    (scanFrom keyword nameOptional (before.map (Token.moved m))
        (ts.map (Token.moved m))).map Outcome.unplaced
      = (scanFrom keyword nameOptional before ts).map
          fun o => (o.map (Block.moved m)).unplaced := by
  fun_induction scanFrom keyword nameOptional before ts with
  | case1 => simp
  | case2 before t r hk hh ih =>
    have hh' : Header.read? nameOptional (r.map (Token.moved m)) = none := by
      rw [Header.read?_moved, hh]
      rfl
    rw [List.map_cons, scanFrom_of_no_header (t := t.moved m) hk hh']
    exact ih
  | case3 before t r hk header opener inner hh hb ih =>
    have hh' : Header.read? nameOptional (r.map (Token.moved m))
        = some (header, opener.moved m, inner.map (Token.moved m)) := by
      rw [Header.read?_moved, hh]
      rfl
    have hb' : splitBody 0 (inner.map (Token.moved m)) = none := by rw [splitBody_moved, hb]; rfl
    rw [List.map_cons, scanFrom_of_open (t := t.moved m) hk hh' hb', List.map_cons, List.map_cons]
    refine congrArg₂ List.cons ?_ ih
    have hrun : t.moved m :: (r.map (Token.moved m)).take
        ((r.map (Token.moved m)).length - (inner.map (Token.moved m)).length)
        = (t :: r.take (r.length - inner.length)).map (Token.moved m) := by
      simp [List.map_take]
    rw [hrun]
    exact congrArg Outcome.skipped (Skipped.unplaced_ofTokens_moved _ _)
  | case4 before t r hk header opener inner hh body closer rest hb ih =>
    have hh' : Header.read? nameOptional (r.map (Token.moved m))
        = some (header, opener.moved m, inner.map (Token.moved m)) := by
      rw [Header.read?_moved, hh]
      rfl
    have hb' : splitBody 0 (inner.map (Token.moved m))
        = some (body.map (Token.moved m), closer.moved m, rest.map (Token.moved m)) := by
      rw [splitBody_moved, hb]
      rfl
    rw [List.map_cons, scanFrom_of_block (t := t.moved m) hk hh' hb', List.map_cons, List.map_cons]
    refine congrArg₂ List.cons ?_ ih
    cases before <;> rfl
  | case5 before t r hk ih =>
    rw [List.map_cons, scanFrom_of_not_keyword (by simpa using hk)]
    exact ih

theorem scanBlocks_moved (keyword : String) (nameOptional : Bool) (ts : List Token) :
    (scanBlocks keyword nameOptional (ts.map (Token.moved m))).map Outcome.unplaced
      = (scanBlocks keyword nameOptional ts).map fun o => (o.map (Block.moved m)).unplaced :=
  scanFrom_moved keyword nameOptional none ts

/-! ## 3. Own lines -/

/-- A move of places that keeps the order of lines, and so keeps together what shares a line. -/
def KeepsLines (m : Position → Position) : Prop :=
  ∀ p q, (m p).line ≤ (m q).line ↔ p.line ≤ q.line

theorem KeepsLines.line_beq (h : KeepsLines m) (p q : Position) :
    ((m p).line == (m q).line) = (p.line == q.line) := by
  have h1 := h p q
  have h2 := h q p
  rw [Bool.eq_iff_iff, beq_iff_eq, beq_iff_eq]
  omega

theorem opensGroup_moved : ∀ (depth : Nat) (ts : List Token),
    opensGroup depth (ts.map (Token.moved m)) = opensGroup depth ts
  | _, [] => rfl
  | depth, t :: r => by
    rw [List.map_cons, opensGroup, opensGroup, opensGroup_moved _ r, opensGroup_moved _ r,
      opensGroup_moved _ r]
    rfl

theorem ownTokensFrom_moved (h : KeepsLines m) (o : Position) : ∀ (depth : Nat) (ts : List Token),
    ownTokensFrom (m o).line depth (ts.map (Token.moved m))
      = (ownTokensFrom o.line depth ts).map (Token.moved m)
  | _, [] => rfl
  | depth, t :: r => by
    have hline : ((t.moved m).line != (m o).line) = (t.line != o.line) :=
      congrArg (! ·) (h.line_beq t.position o)
    have hrest : (r.map (Token.moved m)).takeWhile (fun u => u.line == (t.moved m).line)
        = (r.takeWhile fun u => u.line == t.line).map (Token.moved m) := by
      have hfun : (fun u : Token => u.line == (t.moved m).line) ∘ Token.moved m
          = fun u => u.line == t.line := funext fun u => h.line_beq u.position t.position
      rw [List.takeWhile_map, hfun]
    rw [List.map_cons, ownTokensFrom, ownTokensFrom, hline, hrest, opensGroup_moved,
      ownTokensFrom_moved h o _ r, ownTokensFrom_moved h o _ r, ownTokensFrom_moved h o _ r]
    simp only [apply_ite (List.map (Token.moved m)), List.map_cons]
    rfl

theorem Block.ownTokens_moved (h : KeepsLines m) (b : Block) :
    (b.moved m).ownTokens = b.ownTokens.map (Token.moved m) :=
  ownTokensFrom_moved h b.opener 0 b.body

theorem groupLines_moved (h : KeepsLines m) (run : List Token) :
    groupLines (run.map (Token.moved m)) = (groupLines run).map (List.map (Token.moved m)) := by
  have hline : ∀ t u : Token, ((t.moved m).line == (u.moved m).line) = (t.line == u.line) :=
    fun t u => h.line_beq t.position u.position
  unfold groupLines
  rw [List.splitBy_eq_iff]
  refine ⟨?_, ?_, ?_, ?_⟩
  · rw [← List.map_flatten, List.flatten_splitBy]
  · simp
  · intro g hg
    obtain ⟨k, hk, rfl⟩ := List.mem_map.mp hg
    rw [List.isChain_map]
    exact (List.isChain_of_mem_splitBy hk).imp fun t u htu => by rw [hline]; exact htu
  · rw [List.isChain_map]
    refine (List.isChain_getLast_head_splitBy _ run).imp fun g k ⟨hg, hk, hgk⟩ => ?_
    exact ⟨by simpa using hg, by simpa using hk, by simpa [hline] using hgk⟩

theorem Block.lines_moved (h : KeepsLines m) (b : Block) :
    (b.moved m).lines = b.lines.map (List.map (Token.moved m)) := by
  rw [lines, ownTokens_moved h, groupLines_moved h, lines]

/-! ## 4. Members, operations and relationships -/

theorem Attribute.ofLine_moved (line : List Token) :
    (ofLine (line.map (Token.moved m))).unplaced = (ofLine line).unplaced := by
  rw [ofLine, withoutTerminators_moved, read?_moved, Outcome.unplaced_ofRun_moved, ofLine]

theorem Reference.ofLine_moved (line : List Token) :
    (ofLine (line.map (Token.moved m))).unplaced = (ofLine line).unplaced := by
  rw [ofLine, withoutTerminators_moved, read?_moved, Outcome.unplaced_ofRun_moved, ofLine]

theorem Operation.ofLine_moved (line : List Token) :
    (ofLine (line.map (Token.moved m))).unplaced = (ofLine line).unplaced := by
  rw [ofLine, withoutTerminators_moved, read?_moved, Outcome.unplaced_ofRun_moved, ofLine]

namespace Members

/-- Members without the places of the skipped runs. -/
def unplaced (x : Members) : Members := { x with skipped := x.skipped.map Skipped.unplaced }

theorem unplaced_append (x y : Members) : (x.append y).unplaced = x.unplaced.append y.unplaced := by
  simp [unplaced, append]

theorem unplaced_ofAttribute (o : Outcome Attribute) :
    (ofAttribute o).unplaced = ofAttribute o.unplaced := by cases o <;> rfl

theorem unplaced_ofReference (o : Outcome Reference) :
    (ofReference o).unplaced = ofReference o.unplaced := by cases o <;> rfl

theorem unplaced_ofOperation (o : Outcome Operation) :
    (ofOperation o).unplaced = ofOperation o.unplaced := by cases o <;> rfl

theorem flag?_moved (flags : List String) (run : List Token) :
    flag? flags (run.map (Token.moved m)) = flag? flags run := by
  rcases run with _ | ⟨t, _ | ⟨u, r⟩⟩ <;> rfl

theorem ofLine_moved (flags : List String) (withOperations : Bool) (line : List Token) :
    (ofLine flags withOperations (line.map (Token.moved m))).unplaced
      = (ofLine flags withOperations line).unplaced := by
  unfold ofLine
  simp only [withoutTerminators_moved, flag?_moved, lineKind?_moved]
  cases flag? flags (withoutTerminators line) with
  | some flag => rfl
  | none =>
    cases lineKind? (withoutTerminators line) with
    | none => rfl
    | some kind =>
      cases kind with
      | reference =>
        simp only [unplaced_ofReference, Reference.ofLine_moved]
      | «attribute» =>
        simp only [unplaced_ofAttribute, Attribute.ofLine_moved]
      | operation =>
        cases withOperations with
        | true => simp only [if_true, unplaced_ofOperation, Operation.ofLine_moved]
        | false => simp [unplaced]

theorem ofLines_moved (flags : List String) (withOperations : Bool) : ∀ lines : List (List Token),
    (ofLines flags withOperations (lines.map (List.map (Token.moved m)))).unplaced
      = (ofLines flags withOperations lines).unplaced
  | [] => rfl
  | line :: lines => by
    have ih := ofLines_moved flags withOperations lines
    simp only [ofLines, List.map_cons, List.foldr_cons, unplaced_append, ofLine_moved] at ih ⊢
    rw [ih]

end Members

theorem serviceOperation?_moved (line : List Token) :
    (serviceOperation? (line.map (Token.moved m))).map Outcome.unplaced
      = (serviceOperation? line).map Outcome.unplaced := by
  unfold serviceOperation?
  simp only [withoutTerminators_moved, List.isEmpty_map, List.any_map, Function.comp_def,
    Token.is_moved]
  split
  · rfl
  · split
    · simp [Operation.ofLine_moved]
    · simp [Outcome.unplaced]

theorem serviceOperations_moved (lines : List (List Token)) :
    (serviceOperations (lines.map (List.map (Token.moved m)))).map Outcome.unplaced
      = (serviceOperations lines).map Outcome.unplaced := by
  simp only [serviceOperations, List.filterMap_map, List.map_filterMap, Function.comp_def,
    serviceOperation?_moved]

/-! ## 5. Relationships -/

theorem Connector.read?_moved (t : Token) (r : List Token) :
    read? (t.moved m) (r.map (Token.moved m)) = read? t r := by
  unfold read?
  rcases r with _ | ⟨u, _ | ⟨v, r⟩⟩ <;> rfl

theorem wordsOf_moved (run : List Token) : wordsOf (run.map (Token.moved m)) = wordsOf run := by
  simp [wordsOf, List.filterMap_map, Function.comp_def]

namespace Side

theorem readLeft?_moved (before : List Token) :
    readLeft? (before.map (Token.moved m)) = readLeft? before := by
  unfold readLeft?
  rcases before with _ | ⟨t, r⟩
  · rfl
  · simp only [List.map_cons, Token.is_moved, Token.word?_moved,
      dropWhile_moved (m := m) (p := (!·.is .openBracket)) (fun _ => rfl),
      takeWhile_moved (m := m) (p := (!·.is .openBracket)) (fun _ => rfl), ← List.map_reverse,
      wordsOf_moved]
    cases r.dropWhile (!·.is .openBracket) with
    | nil => rfl
    | cons u s => cases s <;> rfl

theorem readContext?_moved (roles : List String) (ts : List Token) :
    readContext? roles (ts.map (Token.moved m))
      = (readContext? roles ts).map fun x => (x.1, x.2.map (Token.moved m)) := by
  unfold readContext?
  rcases ts with _ | ⟨t, r⟩
  · rfl
  · by_cases ht : t.is .sigil = true
    · rcases r with _ | ⟨u, s⟩ <;> simp [ht, Function.comp_def]
    · simp [ht, Function.comp_def]

theorem readRight?_moved (ts : List Token) :
    readRight? (ts.map (Token.moved m))
      = (readRight? ts).map fun x => (x.1, x.2.map (Token.moved m)) := by
  unfold readRight?
  rcases ts with _ | ⟨t, r⟩
  · rfl
  · simp only [List.map_cons, Token.is_moved,
      dropWhile_moved (m := m) (p := (!·.is .closeBracket)) (fun _ => rfl),
      takeWhile_moved (m := m) (p := (!·.is .closeBracket)) (fun _ => rfl), wordsOf_moved]
    by_cases ht : t.is .openBracket = true
    · simp only [ht, if_true]
      cases r.dropWhile (!·.is .closeBracket) with
      | nil => rfl
      | cons u s => exact readContext?_moved _ s
    · simp only [ht]
      exact readContext?_moved [] (t :: r)

end Side

theorem splitGroup_moved (ts : List Token) :
    splitGroup (ts.map (Token.moved m))
      = ((splitGroup ts).1.map (Token.moved m), (splitGroup ts).2.map (Token.moved m)) := by
  rw [splitGroup, splitBody_moved, splitGroup]
  cases splitBody 0 ts with
  | none => simp
  | some x => rfl

theorem readRelationshipName_moved (ts : List Token) :
    readRelationshipName (ts.map (Token.moved m))
      = ((readRelationshipName ts).1, (readRelationshipName ts).2.map (Token.moved m)) := by
  unfold readRelationshipName
  rcases ts with _ | ⟨t, _ | ⟨u, r⟩⟩
  · rfl
  · rfl
  · by_cases ht : t.is .colon = true
    · cases hu : u.word? <;> simp [ht, hu]
    · simp [ht]

theorem readRelationshipBody_moved (ts : List Token) :
    readRelationshipBody (ts.map (Token.moved m))
      = ((readRelationshipBody ts).1.map (Token.moved m),
          (readRelationshipBody ts).2.map (Token.moved m)) := by
  unfold readRelationshipBody
  rcases ts with _ | ⟨t, r⟩
  · rfl
  · by_cases ht : t.is .openBrace = true
    · simp [ht, splitGroup_moved]
    · simp [ht]

namespace Relationship

theorem ofSides_moved (connector : Connector) (left right : Side) (name : Option String)
    (body : List Token) :
    ofSides connector left right name (body.map (Token.moved m))
      = ofSides connector left right name body := by
  simp only [ofSides, Setting.string?_moved, Setting.values_moved, Setting.member?_moved]

theorem read?_moved (connector : Connector) (before after : List Token) :
    read? connector (before.map (Token.moved m)) (after.map (Token.moved m))
      = (read? connector before after).map fun x => (x.1, x.2.map (Token.moved m)) := by
  unfold read?
  simp only [Side.readLeft?_moved, Side.readRight?_moved, Option.bind_eq_bind]
  cases Side.readLeft? before with
  | none => rfl
  | some left =>
    cases Side.readRight? after with
    | none => rfl
    | some x =>
      simp only [Option.map_some, Option.bind_some, readRelationshipName_moved,
        readRelationshipBody_moved, ofSides_moved]

end Relationship

theorem readRelationshipsFrom_moved (before ts : List Token) :
    (readRelationshipsFrom (before.map (Token.moved m)) (ts.map (Token.moved m))).map
        Outcome.unplaced
      = (readRelationshipsFrom before ts).map Outcome.unplaced := by
  fun_induction readRelationshipsFrom before ts with
  | case1 => simp
  | case2 before t r ht rest ih =>
    rw [List.map_cons, readRelationshipsFrom_of_group (t := t.moved m) ht, splitGroup_moved]
    simpa [List.map_take] using ih
  | case3 before t r ht hc ih =>
    have hc' : Connector.read? (t.moved m) (r.map (Token.moved m)) = none := by
      rw [Connector.read?_moved, hc]
    rw [List.map_cons,
      readRelationshipsFrom_of_no_connector (t := t.moved m) (by simpa using ht) hc']
    exact ih
  | case4 before t r ht connector n hc behind hr ih =>
    have hc' : Connector.read? (t.moved m) (r.map (Token.moved m)) = some (connector, n) := by
      rw [Connector.read?_moved, hc]
    have hr' : Relationship.read? connector (before.map (Token.moved m))
        ((r.map (Token.moved m)).drop n) = none := by
      rw [← List.map_drop, Relationship.read?_moved, hr]
      rfl
    have hrun : t.moved m :: (r.map (Token.moved m)).take n
        = (t :: r.take n).map (Token.moved m) := by
      simp [List.map_take]
    rw [List.map_cons,
      readRelationshipsFrom_of_skipped (t := t.moved m) (by simpa using ht) hc' hr',
      List.map_cons, List.map_cons, hrun]
    refine congrArg₂ List.cons (congrArg Outcome.skipped (Skipped.unplaced_ofTokens_moved _ _)) ?_
    simpa [behind, List.map_take, List.map_drop] using ih
  | case5 before t r ht connector n hc behind relationship rest hr taken ih =>
    have hc' : Connector.read? (t.moved m) (r.map (Token.moved m)) = some (connector, n) := by
      rw [Connector.read?_moved, hc]
    have hr' : Relationship.read? connector (before.map (Token.moved m))
        ((r.map (Token.moved m)).drop n) = some (relationship, rest.map (Token.moved m)) := by
      rw [← List.map_drop, Relationship.read?_moved, hr]
      rfl
    rw [List.map_cons,
      readRelationshipsFrom_of_matched (t := t.moved m) (by simpa using ht) hc' hr',
      List.map_cons, List.map_cons]
    refine congrArg₂ List.cons rfl ?_
    simpa [behind, taken, List.map_take, List.map_drop] using ih

theorem readRelationships_moved (ts : List Token) :
    (readRelationships (ts.map (Token.moved m))).map Outcome.unplaced
      = (readRelationships ts).map Outcome.unplaced :=
  readRelationshipsFrom_moved [] ts

end ContextAtlas
