/-
# Faults of the nodes of a text

The tokens of a text are put together, and nodes are put together from the tokens, as the text is
read.  Nothing of this adds a fault of a new kind, but that collections may nest too deep: a text
whose nodes cannot be told breaks the rules of the language, holds a bad escape or a bad version, or
nests too deep.

* `StreamState.Stays`, `StreamState.settle_stays`: putting tokens together stays inside the text;
* `Keeps`: a step of a building that keeps an invariant of its state;
* `ComposeFault`: the faults of the nodes of a text;
* `Compose.NodeSteps`: reading nodes keeps to the text, for all kinds of nodes at once;
* `composeDocument_ends`: so does the reading of a document.
-/
import ContextAtlas.Proofs.Yaml.Scan
import ContextAtlas.Yaml.Node

namespace ContextAtlas.Yaml

open Cursor

/-! ## 1. Putting tokens together -/

namespace StreamState

variable {text : List Char} {s : StreamState}

/-- The tokens are put together up to a place in the text, or there is a fault of the text. -/
abbrev Stays (text : List Char) (x : Except Fault StreamState) : Prop :=
  Ends (ScanFault text) (fun s => s.cursor.rest <:+ text) x

@[simp] theorem closeTo_cursor (column : Int) (indents : List Int) (s : StreamState) :
    (closeTo column indents s).cursor = s.cursor := by
  induction indents generalizing s with
  | nil => rfl
  | cons outer r ih =>
    rw [closeTo]
    split
    · exact ih _
    · rfl

@[simp] theorem unwind_cursor (s : StreamState) (column : Int) :
    (s.unwind column).cursor = s.cursor := by
  unfold unwind
  split
  · rfl
  · exact closeTo_cursor _ _ _

@[simp] theorem openBlock_cursor (s : StreamState) (column index : Nat) (start : Token) :
    (s.openBlock column index start).cursor = s.cursor := by
  unfold openBlock
  split <;> rfl

theorem mark_suffix (t : Token) (width : Nat) (h : s.cursor.rest <:+ text) :
    (s.mark t width).cursor.rest <:+ text :=
  forward_suffix width h

theorem dropKey_stays (h : s.cursor.rest <:+ text) : Stays text s.dropKey := by
  unfold dropKey
  split
  · exact .error .malformed
  · exact .ok h

theorem saveKey_stays (h : s.cursor.rest <:+ text) : Stays text s.saveKey := by
  unfold saveKey
  split
  · exact (dropKey_stays h).bind fun _ hs => .ok hs
  · exact .ok h

theorem dropStaleKeys_stays (h : s.cursor.rest <:+ text) : Stays text s.dropStaleKeys := by
  unfold dropStaleKeys
  split
  · exact .error .malformed
  · exact .ok h

theorem skipGap_suffix (fuel : Nat) (h : s.cursor.rest <:+ text) :
    (skipGap fuel s).cursor.rest <:+ text := by
  induction fuel generalizing s with
  | zero => exact h
  | succ fuel ih =>
    have hgap : (s.cursor.skip (· == ' ')).skipComment.rest <:+ text :=
      skipComment_suffix (skip_suffix _ h)
    rw [skipGap]
    split
    · exact ih (lineBreak_suffix hgap)
    · exact hgap

theorem toNextToken_suffix (h : s.cursor.rest <:+ text) :
    s.toNextToken.cursor.rest <:+ text := by
  unfold toNextToken
  dsimp only
  split
  · exact skipGap_suffix _ (step_suffix h)
  · exact skipGap_suffix _ h

theorem boundary_stays (h : s.cursor.rest <:+ text) : Stays text s.boundary := by
  unfold boundary
  have hunwound : (s.unwind (-1)).cursor.rest <:+ text := by rwa [unwind_cursor]
  exact (dropKey_stays hunwound).bind fun _ hs => .ok hs

theorem openFlow_stays (t : Token) (h : s.cursor.rest <:+ text) : Stays text (s.openFlow t) := by
  unfold openFlow
  exact (saveKey_stays h).bind fun _ hs => .ok (mark_suffix t 1 hs)

theorem closeFlow_stays (t : Token) (h : s.cursor.rest <:+ text) : Stays text (s.closeFlow t) := by
  unfold closeFlow
  refine (dropKey_stays h).bind fun s hs => ?_
  split
  · exact .error .malformed
  · exact .ok (mark_suffix t 1 hs)

theorem flowEntry_stays (h : s.cursor.rest <:+ text) : Stays text s.flowEntry := by
  unfold flowEntry
  exact (dropKey_stays h).bind fun _ hs => .ok (mark_suffix .flowEntry 1 hs)

theorem blockMark_stays (start t : Token) (keyAllowed : Bool) (h : s.cursor.rest <:+ text) :
    Stays text (s.blockMark start t keyAllowed) := by
  unfold blockMark
  dsimp only
  split
  · exact .error .malformed
  · have hopened : (if s.inFlow then s
        else s.openBlock s.cursor.column s.count start).cursor.rest <:+ text := by
      split
      · exact h
      · rwa [openBlock_cursor]
    exact (dropKey_stays hopened).bind fun _ hs => .ok (mark_suffix t 1 hs)

theorem valueMark_stays (h : s.cursor.rest <:+ text) : Stays text s.valueMark := by
  unfold valueMark
  split
  · next key _ =>
    dsimp only
    refine .ok (mark_suffix .value 1 ?_)
    dsimp only
    split
    · exact h
    · rwa [openBlock_cursor]
  · exact blockMark_stays _ _ _ h

theorem keyLike_stays {read : Cursor → Except Fault (Token × Cursor)}
    (hread : ∀ c : Cursor, c.rest <:+ text → Reads text (read c)) (h : s.cursor.rest <:+ text) :
    Stays text (s.keyLike read) := by
  unfold keyLike
  refine (saveKey_stays h).bind fun s hs => ?_
  exact Ends.bind (hread s.cursor hs) fun _ hr => .ok hr

theorem plain_stays (h : s.cursor.rest <:+ text) : Stays text s.plain := by
  unfold plain
  exact (saveKey_stays h).bind fun _ hs => .ok (readPlain_suffix _ _ hs)

theorem blockScalar_stays (h : s.cursor.rest <:+ text) : Stays text s.blockScalar := by
  unfold blockScalar
  refine (dropKey_stays h).bind fun s hs => ?_
  exact Ends.bind (readBlockScalar_reads _ hs) fun _ hr => .ok hr

theorem token_stays (h : s.cursor.rest <:+ text) : Stays text s.token := by
  have hname (g : String → Token) (c : Cursor) (hc : c.rest <:+ text) :
      Reads text ((readAnchorName c.step).map fun r => (g r.1, r.2)) :=
    (readAnchorName_reads (step_suffix hc)).map
  have hquoted (c : Cursor) (hc : c.rest <:+ text) : Reads text
      ((readQuoted c).map fun r => (Token.scalar (String.ofList r.1) false, r.2)) :=
    (readQuoted_reads hc).map (g := fun text => Token.scalar (String.ofList text) false)
  unfold token
  extract_lets c x gapBehind
  refine .ite ?_ ?_
  · refine (boundary_stays h).bind fun s hs => ?_
    exact Ends.bind (readDirective_reads hs) fun _ hr => .ok hr
  refine .ite ((boundary_stays h).bind fun _ hs => .ok (mark_suffix _ 3 hs)) ?_
  refine .ite ((boundary_stays h).bind fun _ hs => .ok (mark_suffix _ 3 hs)) ?_
  refine .ite (openFlow_stays _ h) ?_
  refine .ite (openFlow_stays _ h) ?_
  refine .ite (closeFlow_stays _ h) ?_
  refine .ite (closeFlow_stays _ h) ?_
  refine .ite (flowEntry_stays h) ?_
  refine .ite (blockMark_stays _ _ _ h) ?_
  refine .ite (blockMark_stays _ _ _ h) ?_
  refine .ite (valueMark_stays h) ?_
  refine .ite (keyLike_stays (hname .alias) h) ?_
  refine .ite (keyLike_stays (hname .anchor) h) ?_
  refine .ite (keyLike_stays (fun _ hc => readTag_reads hc) h) ?_
  refine .ite (blockScalar_stays h) ?_
  refine .ite (keyLike_stays hquoted h) ?_
  exact .ite (plain_stays h) (.error .malformed)

theorem advance_stays (h : s.cursor.rest <:+ text) : Stays text s.advance := by
  unfold advance
  refine (dropStaleKeys_stays (toNextToken_suffix h)).bind fun s hs => ?_
  have hunwound (column : Int) : (s.unwind column).cursor.rest <:+ text := by rwa [unwind_cursor]
  dsimp only
  split
  · refine Ends.bind (dropKey_stays ?_) fun _ hs => .ok hs
    rw [unwind_cursor]
    exact hunwound _
  · exact token_stays (hunwound _)

theorem settleWithin_stays (fuel : Nat) (h : s.cursor.rest <:+ text) :
    Stays text (settleWithin fuel s) := by
  induction fuel generalizing s with
  | zero => exact .error .malformed
  | succ fuel ih =>
    rw [settleWithin]
    split
    · exact .ok h
    · split
      · exact (advance_stays h).bind fun _ hs => ih hs
      · refine (dropStaleKeys_stays h).bind fun s hs => ?_
        split
        · exact (advance_stays hs).bind fun _ hs => ih hs
        · exact .ok hs

/-- **Settling a token stays inside the text.** -/
theorem settle_stays (h : s.cursor.rest <:+ text) : Stays text s.settle :=
  settleWithin_stays _ h

end StreamState

/-! ## 2. Steps of a building -/

/-- A step keeps an invariant of its state and gives a result with a property, or it ends with a
fault of some kind. -/
def Keeps {σ α : Type} (F : Fault → Prop) (I : σ → Prop) (P : α → Prop)
    (m : StateT σ (Except Fault) α) : Prop :=
  ∀ s, I s → Ends F (fun r => P r.1 ∧ I r.2) (m s)

section Keeps

variable {σ α β : Type} {F : Fault → Prop} {I : σ → Prop} {P : α → Prop} {Q : β → Prop}
  {m : StateT σ (Except Fault) α}

theorem Keeps.pure {a : α} (h : P a) : Keeps F I P (pure a) := fun _ hs => .ok ⟨h, hs⟩

theorem Keeps.throw {f : Fault} (h : F f) : Keeps F I P (throw f) := fun _ _ => .error h

theorem Keeps.get : Keeps F I I get := fun _ hs => .ok ⟨hs, hs⟩

theorem Keeps.set {s : σ} (h : I s) : Keeps F I (fun _ => True) (set s) := fun _ _ =>
  .ok ⟨trivial, h⟩

theorem Keeps.modify {g : σ → σ} (h : ∀ s, I s → I (g s)) :
    Keeps F I (fun _ => True) (modify g) := fun s hs => .ok ⟨trivial, h s hs⟩

theorem Keeps.lift {x : Except Fault α} (hx : Ends F P x) : Keeps F I P (liftM x) := by
  intro s hs
  cases hx with
  | ok h => exact .ok ⟨h, hs⟩
  | error h => exact .error h

theorem Keeps.bind {k : α → StateT σ (Except Fault) β} (hm : Keeps F I P m)
    (hk : ∀ a, P a → Keeps F I Q (k a)) : Keeps F I Q (m >>= k) := by
  intro s hs
  exact Ends.bind (hm s hs) fun r hr => hk r.1 hr.1 r.2 hr.2

theorem Keeps.mono {R : α → Prop} (hm : Keeps F I P m) (h : ∀ a, P a → R a) : Keeps F I R m := by
  intro s hs
  exact (hm s hs).mono (fun _ hf => hf) fun r hr => ⟨h r.1 hr.1, hr.2⟩

theorem Keeps.forM {g : α → StateT σ (Except Fault) Unit}
    (hg : ∀ a, Keeps F I (fun _ => True) (g a)) (l : List α) :
    Keeps F I (fun _ => True) (l.forM g) := by
  induction l with
  | nil => exact .pure trivial
  | cons a l ih => exact (hg a).bind fun _ _ => ih

theorem Keeps.mapM {g : α → StateT σ (Except Fault) β}
    (hg : ∀ a, Keeps F I (fun _ => True) (g a)) (l : List α) :
    Keeps F I (fun _ => True) (l.mapM g) := by
  induction l with
  | nil => exact .pure trivial
  | cons a l ih =>
    rw [List.mapM_cons]
    exact (hg a).bind fun _ _ => ih.bind fun _ _ => .pure trivial

end Keeps

/-! ## 3. Putting nodes together -/

/-- What is wrong with the nodes of a text: they nest too deep, or the text is at fault. -/
def ComposeFault (text : List Char) (f : Fault) : Prop := f = .endless ∨ ScanFault text f

namespace Compose

variable {α β : Type} {text : List Char}

/-- A step of building that stays inside the text and ends with no other fault. -/
abbrev Stays (text : List Char) (m : Compose α) : Prop :=
  Keeps (ComposeFault text) (fun s => s.stream.cursor.rest <:+ text) (fun _ => True) m

theorem Stays.malformed : Stays text (throw .malformed : Compose α) :=
  .throw (.inr .malformed)

theorem Stays.done {a : α} : Stays text (pure a : Compose α) := .pure trivial

theorem Stays.andThen {m : Compose α} {k : α → Compose β} (hm : Stays text m)
    (hk : ∀ a, Stays text (k a)) : Stays text (m >>= k) :=
  Keeps.bind hm fun a _ => hk a

theorem peek_stays : Stays text peek := by
  unfold peek
  refine Keeps.bind .get fun s hs => ?_
  have hsettle : Ends (ComposeFault text) (fun s => s.cursor.rest <:+ text) s.stream.settle :=
    (StreamState.settle_stays hs).mono (fun _ hf => .inr hf) fun _ h => h
  refine Keeps.bind (.lift hsettle) fun stream hstream => ?_
  refine Keeps.bind (.set hstream) fun _ _ => ?_
  split
  · exact Stays.done
  · exact Stays.malformed

theorem take_stays : Stays text take := .modify fun _ hs => hs

theorem sees_stays (ts : List Token) : Stays text (sees ts) := by
  unfold sees
  exact peek_stays.andThen fun _ => Stays.done

theorem expect_stays (t : Token) : Stays text (expect t) := by
  unfold expect
  refine peek_stays.andThen fun _ => ?_
  split
  · exact take_stays
  · exact Stays.malformed

theorem add_stays (node : Node) : Stays text (add node) := by
  unfold add
  refine Keeps.bind .get fun s hs => ?_
  exact Keeps.bind (.set hs) fun _ _ => Stays.done

theorem nameNode_stays (anchor : Option String) (place : Nat) :
    Stays text (nameNode anchor place) := by
  unfold nameNode
  cases anchor with
  | none => exact Stays.done
  | some name =>
    refine Keeps.bind .get fun s hs => ?_
    split
    · exact Stays.malformed
    · exact .set hs

theorem addNamed_stays (anchor : Option String) (node : Node) :
    Stays text (addNamed anchor node) := by
  unfold addNamed
  exact (add_stays node).andThen fun place =>
    (nameNode_stays anchor place).andThen fun _ => Stays.done

theorem fill_stays (place : Nat) (node : Node) : Stays text (fill place node) :=
  .modify fun _ hs => hs

/-- Only here a fault is added: a collection must not nest too deep. -/
theorem inside_stays {content : Compose α} (h : Stays text content) :
    Stays text (inside content) := by
  unfold inside
  refine Keeps.bind .get fun s _ => ?_
  split
  · exact .throw (.inl rfl)
  · refine Keeps.bind (.modify fun _ hs => hs) fun _ _ => ?_
    refine h.andThen fun a => ?_
    exact Keeps.bind (.modify fun _ hs => hs) fun _ _ => Stays.done

theorem address_stays (handle : Option String) (suffix : String) :
    Stays text (address handle suffix) := by
  unfold address
  cases handle with
  | none => exact Stays.done
  | some name =>
    refine Keeps.bind .get fun s _ => ?_
    split
    · exact Stays.done
    · exact Stays.malformed

theorem properties_stays (anchor : Option String) (tag : Option (Option String × String)) :
    Stays text (properties anchor tag) := by
  unfold properties
  split
  · exact (address_stays _ _).andThen fun _ => Stays.done
  · exact Stays.done

theorem readAnchor_stays : Stays text readAnchor := by
  unfold readAnchor
  refine peek_stays.andThen fun t => ?_
  split
  · exact take_stays.andThen fun _ => Stays.done
  · exact Stays.done

theorem readTag_stays : Stays text readTag := by
  unfold readTag
  refine peek_stays.andThen fun t => ?_
  split
  · exact take_stays.andThen fun _ => Stays.done
  · exact Stays.done

theorem readProperties_stays : Stays text readProperties := by
  unfold readProperties
  refine readAnchor_stays.andThen fun anchor => ?_
  split
  · exact readTag_stays.andThen fun tag => properties_stays _ tag
  · refine readTag_stays.andThen fun tag => ?_
    split
    · exact readAnchor_stays.andThen fun anchor => properties_stays anchor _
    · exact Stays.done

theorem sequenceNode_stays (p : Properties) {items : Compose (List Nat)}
    (h : Stays text items) : Stays text (sequenceNode p items) := by
  unfold sequenceNode
  refine (addNamed_stays _ _).andThen fun place => ?_
  refine (inside_stays h).andThen fun items => ?_
  exact (fill_stays place _).andThen fun _ => Stays.done

theorem mappingNode_stays (p : Properties) {pairs : Compose (List (Nat × Nat))}
    (h : Stays text pairs) : Stays text (mappingNode p pairs) := by
  unfold mappingNode
  refine (addNamed_stays _ _).andThen fun place => ?_
  refine (inside_stays h).andThen fun pairs => ?_
  exact (fill_stays place _).andThen fun _ => Stays.done

/-- The readers of nodes, with as much fuel, stay inside the text. -/
structure NodeSteps (text : List Char) (fuel : Nat) : Prop where
  node (place : Place) : Stays text (node place fuel)
  nodeUnless (stops : List Token) (place : Place) : Stays text (nodeUnless stops place fuel)
  pairValue (stops : List Token) (place : Place) : Stays text (pairValue stops place fuel)
  blockItems : Stays text (blockItems fuel)
  unindentedItems : Stays text (unindentedItems fuel)
  blockPairs : Stays text (blockPairs fuel)
  flowPairItem : Stays text (flowPairItem fuel)
  flowItems (first : Bool) : Stays text (flowItems first fuel)
  flowPairs (first : Bool) : Stays text (flowPairs first fuel)

theorem node_stays {fuel : Nat} (h : NodeSteps text fuel) (place : Place) :
    Stays text (node place (fuel + 1)) := by
  rw [node]
  refine peek_stays.andThen fun t => ?_
  split
  · refine take_stays.andThen fun _ => ?_
    refine Keeps.bind .get fun s _ => ?_
    split
    · exact Stays.done
    · exact Stays.malformed
  · refine readProperties_stays.andThen fun p => ?_
    refine peek_stays.andThen fun t => ?_
    split
    · exact sequenceNode_stays p h.unindentedItems
    · exact take_stays.andThen fun _ => addNamed_stays _ _
    · exact take_stays.andThen fun _ => sequenceNode_stays p (h.flowItems true)
    · exact take_stays.andThen fun _ => mappingNode_stays p (h.flowPairs true)
    · split
      · exact take_stays.andThen fun _ => sequenceNode_stays p h.blockItems
      · split
        · exact take_stays.andThen fun _ => mappingNode_stays p h.blockPairs
        · split
          · exact addNamed_stays _ _
          · exact Stays.malformed

theorem nodeUnless_stays {fuel : Nat} (h : NodeSteps text fuel) (stops : List Token)
    (place : Place) : Stays text (nodeUnless stops place (fuel + 1)) := by
  rw [nodeUnless]
  refine (sees_stays stops).andThen fun stop => ?_
  split
  · exact add_stays _
  · exact h.node place

theorem pairValue_stays {fuel : Nat} (h : NodeSteps text fuel) (stops : List Token)
    (place : Place) : Stays text (pairValue stops place (fuel + 1)) := by
  rw [pairValue]
  refine (sees_stays _).andThen fun written => ?_
  split
  · exact take_stays.andThen fun _ => h.nodeUnless stops place
  · exact add_stays _

theorem blockItems_stays {fuel : Nat} (h : NodeSteps text fuel) :
    Stays text (blockItems (fuel + 1)) := by
  rw [blockItems]
  refine (sees_stays _).andThen fun entry => ?_
  split
  · refine take_stays.andThen fun _ => (h.nodeUnless _ _).andThen fun item => ?_
    exact h.blockItems.andThen fun _ => Stays.done
  · exact (expect_stays _).andThen fun _ => Stays.done

theorem unindentedItems_stays {fuel : Nat} (h : NodeSteps text fuel) :
    Stays text (unindentedItems (fuel + 1)) := by
  rw [unindentedItems]
  refine (sees_stays _).andThen fun entry => ?_
  split
  · refine take_stays.andThen fun _ => (h.nodeUnless _ _).andThen fun item => ?_
    exact h.unindentedItems.andThen fun _ => Stays.done
  · exact Stays.done

theorem blockPairs_stays {fuel : Nat} (h : NodeSteps text fuel) :
    Stays text (blockPairs (fuel + 1)) := by
  rw [blockPairs]
  refine (sees_stays _).andThen fun marked => ?_
  split
  · refine take_stays.andThen fun _ => (h.nodeUnless _ _).andThen fun key => ?_
    refine (h.pairValue _ _).andThen fun value => ?_
    exact h.blockPairs.andThen fun _ => Stays.done
  · exact (expect_stays _).andThen fun _ => Stays.done

theorem flowPairItem_stays {fuel : Nat} (h : NodeSteps text fuel) :
    Stays text (flowPairItem (fuel + 1)) := by
  rw [flowPairItem]
  refine take_stays.andThen fun _ => mappingNode_stays _ ?_
  refine (h.nodeUnless _ _).andThen fun key => ?_
  exact (h.pairValue _ _).andThen fun value => Stays.done

theorem flowItems_stays {fuel : Nat} (h : NodeSteps text fuel) (first : Bool) :
    Stays text (flowItems first (fuel + 1)) := by
  rw [flowItems]
  refine (sees_stays _).andThen fun closed => ?_
  split
  · exact take_stays.andThen fun _ => Stays.done
  · extract_lets more afterComma
    have hmore : ∀ item, Stays text (more item) := fun item =>
      (h.flowItems false).andThen fun _ => Stays.done
    have hafter : ∀ u, Stays text (afterComma u) := by
      intro u
      refine (sees_stays _).andThen fun closed => ?_
      split
      · exact take_stays.andThen fun _ => Stays.done
      · refine (sees_stays _).andThen fun marked => ?_
        split
        · exact h.flowPairItem.andThen hmore
        · exact (h.node .flow).andThen hmore
    split
    · exact (expect_stays _).andThen hafter
    · exact hafter ()

theorem flowPairs_stays {fuel : Nat} (h : NodeSteps text fuel) (first : Bool) :
    Stays text (flowPairs first (fuel + 1)) := by
  rw [flowPairs]
  refine (sees_stays _).andThen fun closed => ?_
  split
  · exact take_stays.andThen fun _ => Stays.done
  · extract_lets afterComma
    have hafter : ∀ u, Stays text (afterComma u) := by
      intro u
      refine (sees_stays _).andThen fun closed => ?_
      split
      · exact take_stays.andThen fun _ => Stays.done
      · refine (sees_stays _).andThen fun marked => ?_
        split
        · refine take_stays.andThen fun _ => (h.nodeUnless _ _).andThen fun key => ?_
          refine (h.pairValue _ _).andThen fun value => ?_
          exact (h.flowPairs false).andThen fun _ => Stays.done
        · refine (h.node .flow).andThen fun key => (add_stays _).andThen fun value => ?_
          exact (h.flowPairs false).andThen fun _ => Stays.done
    split
    · exact (expect_stays _).andThen hafter
    · exact hafter ()

/-- **Reading nodes stays inside the text**, however deep they nest: by induction on the fuel that
all readers share. -/
theorem nodeSteps (text : List Char) (fuel : Nat) : NodeSteps text fuel := by
  induction fuel with
  | zero =>
    exact
      { node := fun _ => Stays.malformed
        nodeUnless := fun _ _ => Stays.malformed
        pairValue := fun _ _ => Stays.malformed
        blockItems := Stays.malformed
        unindentedItems := Stays.malformed
        blockPairs := Stays.malformed
        flowPairItem := Stays.malformed
        flowItems := fun _ => Stays.malformed
        flowPairs := fun _ => Stays.malformed }
  | succ fuel ih =>
    exact
      { node := node_stays ih
        nodeUnless := nodeUnless_stays ih
        pairValue := pairValue_stays ih
        blockItems := blockItems_stays ih
        unindentedItems := unindentedItems_stays ih
        blockPairs := blockPairs_stays ih
        flowPairItem := flowPairItem_stays ih
        flowItems := flowItems_stays ih
        flowPairs := flowPairs_stays ih }

/-! ## 4. Documents -/

theorem directives_stays (fuel : Nat) (versioned : Bool) (handles : List (String × String)) :
    Stays text (directives fuel versioned handles) := by
  induction fuel generalizing versioned handles with
  | zero => exact Stays.malformed
  | succ fuel ih =>
    rw [directives]
    refine peek_stays.andThen fun t => ?_
    split
    · split
      · exact Stays.malformed
      · exact take_stays.andThen fun _ => ih _ _
    · split
      · exact Stays.malformed
      · exact take_stays.andThen fun _ => ih _ _
    · exact take_stays.andThen fun _ => ih _ _
    · exact .modify fun _ hs => hs

theorem documentEnds_stays (fuel : Nat) : Stays text (documentEnds fuel) := by
  induction fuel with
  | zero => exact Stays.done
  | succ fuel ih =>
    rw [documentEnds]
    refine (sees_stays _).andThen fun marked => ?_
    split
    · exact take_stays.andThen fun _ => ih
    · exact Stays.done

theorem document_stays (fuel : Nat) : Stays text (document fuel) := by
  have hnode : ∀ place, Stays text (node place fuel) := (nodeSteps text fuel).node
  unfold document
  refine (sees_stays _).andThen fun ended => ?_
  split
  · exact Stays.done
  · refine peek_stays.andThen fun t => (sees_stays _).andThen fun marked => ?_
    extract_lets close
    have hclose : ∀ root, Stays text (close root) := by
      intro root
      refine (documentEnds_stays fuel).andThen fun _ => (sees_stays _).andThen fun ended => ?_
      split
      · exact Stays.done
      · exact (directives_stays _ _ _).andThen fun _ => Stays.malformed
    split
    · refine (directives_stays _ _ _).andThen fun _ => (expect_stays _).andThen fun _ => ?_
      refine peek_stays.andThen fun t => (sees_stays _).andThen fun empty => ?_
      split
      · exact (add_stays _).andThen hclose
      · exact (hnode .block).andThen hclose
    · refine Keeps.bind (.modify fun _ hs => hs) fun _ _ => ?_
      exact (hnode .block).andThen hclose

end Compose

/-- **The nodes of a text** are there, or the text is at fault, or it nests too deep. -/
theorem composeDocument_ends (text : List Char) :
    Ends (ComposeFault text) (fun _ => True) (composeDocument text) := by
  unfold composeDocument
  have hstart : Ends (ComposeFault text) (fun s => s.cursor.rest <:+ text)
      (StreamState.ofText text) := by
    unfold StreamState.ofText
    exact .ite (.ok (List.suffix_refl text)) (.error (.inr .malformed))
  refine hstart.bind fun stream hstream => ?_
  refine Ends.bind (Compose.document_stays _ { stream } hstream) fun r _ => ?_
  exact .ok trivial

end ContextAtlas.Yaml
