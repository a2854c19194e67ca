/-
# Faults of the values of a text

The nodes of a document are given their values.  While this goes on, nodes are changed: the pairs of
mappings are merged, and special keys for values become texts.  The texts of the scalars and the
tags that count stay what they were, so a fault of a value can be shown in the nodes as they were
put together.

* `Stems`, `Kept`: what a node keeps while values are built, and that all nodes keep it;
* `NodeFault`: the faults of single values, each with the node that is at fault;
* `Build.value_steps`, `Build.flatten_steps`, `Build.document_steps`: building keeps the nodes and
  ends with no other fault;
* `LoadFault`, `load_ends`: the faults of the values of a text.
-/
import ContextAtlas.Proofs.Yaml.Compose
import ContextAtlas.Yaml.Value

namespace ContextAtlas.Yaml

/-! ## 1. What nodes keep -/

/-- What a node keeps of a node of the document while values are built.  Only a special key for
values gets another tag, and only a mapping gets other contents, which are pairs again. -/
structure Stems (n node : Node) : Prop where
  tag : node.tag = n.tag ∨ n.tag = .value ∧ node.tag = .text
  content : node.content = n.content
    ∨ ∃ pairs pairs', n.content = .mapping pairs ∧ node.content = .mapping pairs'

/-- Every node stems from the node of the document at its place. -/
def Kept (nodes₀ nodes : Array Node) : Prop :=
  ∀ (place : Nat) (node : Node), nodes[place]? = some node →
    ∃ n, nodes₀[place]? = some n ∧ Stems n node

section Kept

variable {nodes₀ nodes : Array Node} {n node : Node} {place : Nat}

theorem Kept.refl (nodes : Array Node) : Kept nodes nodes :=
  fun _ node h => ⟨node, h, .inl rfl, .inl rfl⟩

theorem Kept.set (h : Kept nodes₀ nodes) (hplace : nodes₀[place]? = some n) (hs : Stems n node) :
    Kept nodes₀ (nodes.setIfInBounds place node) := by
  intro other node' hother
  rw [Array.getElem?_setIfInBounds] at hother
  split at hother
  · next heq =>
    subst heq
    split at hother
    · cases hother
      exact ⟨n, hplace, hs⟩
    · cases hother
  · exact h other node' hother

/-- The key of a pair with a special tag was such a key from the beginning. -/
theorem Kept.exists_special {tag : Tag} (h : Kept nodes₀ nodes) (htag : tag ≠ .text)
    (hkey : nodes[place]?.any (·.tag = tag) = true) : ∃ n ∈ nodes₀, n.tag = tag := by
  rw [Option.any_eq_true] at hkey
  obtain ⟨node, hnode, htagged⟩ := hkey
  obtain ⟨n, hn, hs⟩ := h place node hnode
  have htagged : node.tag = tag := by simpa using htagged
  refine ⟨n, Array.mem_of_getElem? hn, ?_⟩
  rcases hs.tag with hsame | ⟨_, htext⟩
  · rw [← hsame, htagged]
  · exact absurd (htagged.symm.trans htext) htag

theorem Stems.content_scalar {text : String} (h : Stems n node)
    (hnode : node.content = .scalar text) : n.content = .scalar text := by
  rcases h.content with hsame | ⟨_, _, _, hpairs⟩
  · rw [← hsame, hnode]
  · rw [hnode] at hpairs
    cases hpairs

theorem Stems.content_mapping {pairs : List (Nat × Nat)} (h : Stems n node)
    (hnode : node.content = .mapping pairs) : ∃ pairs, n.content = .mapping pairs := by
  rcases h.content with hsame | ⟨pairs, _, hpairs, _⟩
  · exact ⟨_, by rw [← hsame, hnode]⟩
  · exact ⟨pairs, hpairs⟩

end Kept

/-! ## 2. Faults of single values -/

/-- A node stands for a text: a scalar for its own, and a mapping with a special key for values for
the text of a scalar. -/
inductive HasText (nodes : Array Node) (n : Node) (text : String) : Prop where
  | own (content : n.content = .scalar text)
  | value {pairs : List (Nat × Nat)} {key m : Node} (content : n.content = .mapping pairs)
      (mem_key : key ∈ nodes) (special : key.tag = .value) (mem : m ∈ nodes)
      (scalar : m.content = .scalar text)

/-- What is wrong with the values of some nodes, with the node that shows it.  Of the faults without
a text, a mapping is no timestamp, and only special keys lead from one node on to another. -/
inductive NodeFault (nodes : Array Node) : Fault → Prop where
  | malformed : NodeFault nodes .malformed
  | scalar {n : Node} {text : String} {f : Fault} (mem : n ∈ nodes) (has : HasText nodes n text)
      (bad : scalarValue n.tag text = .error f) : NodeFault nodes f
  | timestamp {n : Node} {pairs : List (Nat × Nat)} (mem : n ∈ nodes) (tag : n.tag = .timestamp)
      (content : n.content = .mapping pairs) : NodeFault nodes .timestampInMapping
  | endless {n : Node} (mem : n ∈ nodes) (special : n.tag = .merge ∨ n.tag = .value) :
      NodeFault nodes .endless

theorem scalarValue_ends {nodes₀ : Array Node} {n node : Node} {text : String} (mem : n ∈ nodes₀)
    (hs : Stems n node) (has : HasText nodes₀ n text) :
    Ends (NodeFault nodes₀) (fun _ => True) (scalarValue node.tag text) := by
  rcases hs.tag with hsame | ⟨_, htext⟩
  · rw [hsame]
    cases hvalue : scalarValue n.tag text with
    | ok v => exact .ok trivial
    | error f => exact .error (.scalar mem has hvalue)
  · rw [htext]
    exact .ok trivial

/-! ## 3. Steps of building -/

/-- Whether a tag is one of the collections. -/
def Tag.isCollection : Tag → Bool
  | .mapping | .sequence | .set | .orderedMapping | .pairs => true
  | _ => false

namespace Build

variable {α β : Type} {nodes₀ : Array Node}

/-- A step of building keeps the nodes and gives a result with a property, or a node is at fault. -/
abbrev Steps (nodes₀ : Array Node) (P : α → Prop) (m : Build α) : Prop :=
  Keeps (NodeFault nodes₀) (fun s => Kept nodes₀ s.nodes) P m

theorem Steps.malformed {P : α → Prop} : Steps nodes₀ P (throw .malformed : Build α) :=
  .throw .malformed

theorem Steps.done {a : α} : Steps nodes₀ (fun _ => True) (pure a : Build α) := .pure trivial

theorem nodeAt_steps (place : Nat) :
    Steps nodes₀ (fun node => ∃ n, nodes₀[place]? = some n ∧ Stems n node) (nodeAt place) := by
  unfold nodeAt
  refine Keeps.bind .get fun s hs => ?_
  split
  · next node hnode => exact .pure (hs place node hnode)
  · exact Steps.malformed

/-- Looking for the text of a node ends, or there is a special key for values. -/
theorem scalarText_steps (fuel place : Nat) (hfuel : fuel = 0 → ∃ n ∈ nodes₀, n.tag = .value) :
    Steps nodes₀ (fun text => ∃ n, nodes₀[place]? = some n ∧ HasText nodes₀ n text)
      (scalarText fuel place) := by
  induction fuel generalizing place with
  | zero =>
    obtain ⟨n, hn, htag⟩ := hfuel rfl
    exact .throw (.endless hn (.inr htag))
  | succ fuel ih =>
    rw [scalarText]
    refine (nodeAt_steps place).bind fun node ⟨n, hn, hs⟩ => ?_
    split
    · next text hcontent => exact .pure ⟨n, hn, .own (hs.content_scalar hcontent)⟩
    · exact Steps.malformed
    · next pairs hcontent =>
      refine Keeps.bind .get fun s hkept => ?_
      extract_lets nodes isValueKey
      split
      · next key value hfind =>
        have hkey : isValueKey (key, value) = true := List.find?_some hfind
        obtain ⟨k, hk, hspecial⟩ := hkept.exists_special (by decide) hkey
        obtain ⟨pairs, hpairs⟩ := hs.content_mapping hcontent
        refine (ih value fun _ => ⟨k, hk, hspecial⟩).mono ?_
        rintro text ⟨m, hm, htext⟩
        refine ⟨n, hn, ?_⟩
        cases htext with
        | own hscalar => exact .value hpairs hk hspecial (Array.mem_of_getElem? hm) hscalar
        | value _ _ _ hmem hscalar => exact .value hpairs hk hspecial hmem hscalar
      · exact Steps.malformed

/-- The value of a scalar, or of a mapping that stands for one. -/
def scalarAt (place : Nat) (node : Node) : Build Value := do
  let text ← scalarText ((← get).nodes.size + 1) place
  match node.tag, node.content with
  | .timestamp, .mapping _ => throw .timestampInMapping
  | tag, _ => scalarValue tag text

/-- The value of a node that is met for the first time.  A collection is left for later. -/
def newValue (place : Nat) (node : Node) : Build Value :=
  if node.tag.isCollection then do
    modify fun s => { s with pending := s.pending ++ [place] }
    pure (if node.tag = .mapping then .mapping else .otherCollection)
  else if node.tag = .merge ∨ node.tag = .value ∨ node.tag = .unknown then throw .malformed
  else scalarAt place node

/-- A value is looked up, or it is new and remembered. -/
theorem value_eq (place : Nat) : value place = (do
    match (← get).values.lookup place with
    | some v => pure v
    | none =>
      let node ← nodeAt place
      let v ← newValue place node
      modify fun s => { s with values := (place, v) :: s.values }
      pure v) := by
  unfold value
  refine bind_congr fun s => ?_
  cases s.values.lookup place with
  | some v => rfl
  | none =>
    refine bind_congr fun node => ?_
    obtain ⟨tag, content⟩ := node
    cases tag
    case timestamp => cases content <;> simp [newValue, Tag.isCollection, scalarAt]
    all_goals simp [newValue, Tag.isCollection, scalarAt]

theorem scalarAt_steps {place : Nat} {n node : Node} (hn : nodes₀[place]? = some n)
    (hs : Stems n node) : Steps nodes₀ (fun _ => True) (scalarAt place node) := by
  have hmem : n ∈ nodes₀ := Array.mem_of_getElem? hn
  unfold scalarAt
  refine Keeps.bind .get fun s _ => ?_
  refine (scalarText_steps _ place (by simp)).bind fun text ⟨m, hm, htext⟩ => ?_
  obtain rfl : n = m := by simpa [hn] using hm
  split
  · next pairs htag hcontent =>
    obtain ⟨pairs, hpairs⟩ := hs.content_mapping hcontent
    refine .throw (.timestamp hmem ?_ hpairs)
    rcases hs.tag with hsame | ⟨_, hplain⟩
    · rw [← hsame, htag]
    · rw [htag] at hplain
      cases hplain
  · exact .lift (scalarValue_ends hmem hs htext)

/-- **The value of a node** is found, or the node is at fault. -/
theorem value_steps (place : Nat) : Steps nodes₀ (fun _ => True) (value place) := by
  rw [value_eq]
  refine Keeps.bind .get fun s _ => ?_
  split
  · exact Steps.done
  · refine (nodeAt_steps place).bind fun node ⟨n, hn, hs⟩ => ?_
    have hnew : Steps nodes₀ (fun _ => True) (newValue place node) := by
      unfold newValue
      split
      · exact Keeps.bind (.modify fun _ h => h) fun _ _ => Steps.done
      · split
        · exact Steps.malformed
        · exact scalarAt_steps hn hs
    refine hnew.bind fun v _ => ?_
    exact Keeps.bind (.modify fun _ h => h) fun _ _ => Steps.done

/-! ## 4. Mappings -/

theorem setNode_steps {place : Nat} {n node : Node} (hn : nodes₀[place]? = some n)
    (hs : Stems n node) : Steps nodes₀ (fun _ => True) (setNode place node) :=
  .modify fun _ hkept => hkept.set hn hs

theorem pairsAt_steps (place : Nat) :
    Steps nodes₀ (fun _ => ∃ n pairs, nodes₀[place]? = some n ∧ n.content = .mapping pairs)
      (pairsAt place) := by
  unfold pairsAt
  refine (nodeAt_steps place).bind fun node ⟨n, hn, hs⟩ => ?_
  split
  · next pairs hcontent =>
    obtain ⟨pairs, hpairs⟩ := hs.content_mapping hcontent
    exact .pure ⟨n, pairs, hn, hpairs⟩
  · exact Steps.malformed

/-- New pairs are given to a mapping only, so all nodes are kept. -/
theorem setPairs_steps {place : Nat} (pairs : List (Nat × Nat))
    (h : ∃ n pairs, nodes₀[place]? = some n ∧ n.content = .mapping pairs) :
    Steps nodes₀ (fun _ => True) (setPairs place pairs) := by
  obtain ⟨m, pairs₀, hm, hcontent⟩ := h
  unfold setPairs
  refine (nodeAt_steps place).bind fun node ⟨n, hn, hs⟩ => ?_
  obtain rfl : m = n := by simpa [hm] using hn
  exact setNode_steps hm ⟨hs.tag, .inr ⟨pairs₀, pairs, hcontent, rfl⟩⟩

theorem plainKeys_steps (pairs : List (Nat × Nat)) :
    Steps nodes₀ (fun _ => True) (plainKeys pairs) := by
  refine Keeps.forM ?_ pairs
  rintro ⟨key, _⟩
  refine (nodeAt_steps key).bind fun node ⟨n, hn, hs⟩ => ?_
  split
  · next htag =>
    refine setNode_steps hn ⟨.inr ⟨?_, rfl⟩, hs.content⟩
    rcases hs.tag with hsame | ⟨hvalue, _⟩
    · rw [← hsame, htag]
    · exact hvalue
  · exact Steps.done

theorem mergedPairs_steps {flatten : Nat → Build (List (Nat × Nat))}
    (hflatten : ∀ place, Steps nodes₀ (fun _ => True) (flatten place)) (place : Nat) :
    Steps nodes₀ (fun _ => True) (mergedPairs flatten place) := by
  unfold mergedPairs
  refine (nodeAt_steps place).bind fun node _ => ?_
  split
  · exact hflatten place
  · refine (Keeps.mapM ?_ _).bind fun pairs _ => Steps.done
    intro item
    refine (nodeAt_steps item).bind fun node _ => ?_
    split
    · exact hflatten item
    · exact Steps.malformed
  · exact Steps.malformed

/-- Behind the longest start of a list whose elements have a property comes one without it. -/
theorem eq_false_of_getElem?_length_takeWhile {p : α → Bool} {l : List α} {a : α}
    (h : l[(l.takeWhile p).length]? = some a) : p a = false := by
  induction l with
  | nil => cases h
  | cons b l ih =>
    rw [List.takeWhile_cons] at h
    split at h
    · exact ih h
    · next hb =>
      cases h
      simpa using hb

/-- A merge key is taken out only where there is one. -/
theorem takeMerges_steps {flatten : Nat → Build (List (Nat × Nat))}
    (hflatten : (∃ n ∈ nodes₀, n.tag = .merge) →
      ∀ place, Steps nodes₀ (fun _ => True) (flatten place)) (place fuel start : Nat) :
    Steps nodes₀ (fun _ => True) (takeMerges flatten place fuel start) := by
  induction fuel generalizing start with
  | zero => exact Steps.done
  | succ fuel ih =>
    rw [takeMerges]
    refine (pairsAt_steps place).bind fun pairs hmapping => ?_
    refine Keeps.bind .get fun s hkept => ?_
    extract_lets nodes isMerge passed index
    refine (plainKeys_steps passed).bind fun _ _ => ?_
    split
    · exact Steps.done
    · next key source hindex =>
      have hmerge : isMerge (key, source) = true := by
        have hnext : (pairs.drop start)[passed.length]? = some (key, source) := by
          rw [List.getElem?_drop, hindex]
        simpa using eq_false_of_getElem?_length_takeWhile hnext
      have hspecial : ∃ n ∈ nodes₀, n.tag = .merge := hkept.exists_special (by decide) hmerge
      refine (setPairs_steps _ hmapping).bind fun _ _ => ?_
      refine (mergedPairs_steps (hflatten hspecial) source).bind fun merged _ => ?_
      exact (ih index).bind fun _ _ => Steps.done

/-- **The merged pairs of a mapping** are found, or a node is at fault; without a merge key one
level is enough. -/
theorem flatten_steps (depth place : Nat) (hdepth : depth = 0 → ∃ n ∈ nodes₀, n.tag = .merge) :
    Steps nodes₀ (fun _ => True) (flatten depth place) := by
  induction depth generalizing place with
  | zero =>
    obtain ⟨n, hn, htag⟩ := hdepth rfl
    exact .throw (.endless hn (.inl htag))
  | succ depth ih =>
    rw [flatten]
    refine (pairsAt_steps place).bind fun pairs _ => ?_
    refine (takeMerges_steps (fun hmerge place => ih place fun _ => hmerge) place _ _).bind
      fun merged _ => ?_
    refine (pairsAt_steps place).bind fun own hmapping => ?_
    exact (setPairs_steps _ hmapping).bind fun _ _ => Steps.done

theorem mappingValues_steps (place : Nat) : Steps nodes₀ (fun _ => True) (mappingValues place) := by
  unfold mappingValues
  refine (flatten_steps maxMerges place fun h => absurd h (by decide)).bind fun pairs _ => ?_
  refine Keeps.mapM ?_ pairs
  rintro ⟨key, content⟩
  refine (value_steps key).bind fun k _ => ?_
  split
  · exact Steps.malformed
  · exact (value_steps content).bind fun _ _ => Steps.done

theorem pairValues_steps (items : List Nat) :
    Steps nodes₀ (fun _ => True) (pairValues items) := by
  refine Keeps.forM ?_ items
  intro item
  refine (nodeAt_steps item).bind fun node _ => ?_
  split
  · next key content _ =>
    refine (value_steps key).bind fun _ _ => ?_
    exact (value_steps content).bind fun _ _ => Steps.done
  · exact Steps.malformed

theorem openCollection_steps (place : Nat) :
    Steps nodes₀ (fun _ => True) (openCollection place) := by
  unfold openCollection
  refine (nodeAt_steps place).bind fun node _ => ?_
  split
  · exact mappingValues_steps place
  · exact mappingValues_steps place
  · refine (Keeps.forM ?_ _).bind fun _ _ => Steps.done
    intro item
    exact (value_steps item).bind fun _ _ => Steps.done
  · exact (pairValues_steps _).bind fun _ _ => Steps.done
  · exact (pairValues_steps _).bind fun _ _ => Steps.done
  · exact Steps.malformed

theorem openPending_steps (fuel : Nat) : Steps nodes₀ (fun _ => True) (openPending fuel) := by
  induction fuel with
  | zero => exact Steps.done
  | succ fuel ih =>
    rw [openPending]
    refine Keeps.bind .get fun s _ => ?_
    split
    · exact Steps.done
    · refine Keeps.bind (.modify fun _ h => h) fun _ _ => ?_
      exact (openCollection_steps _).bind fun _ _ => ih

/-- **The value of a document** is found, or a node is at fault. -/
theorem document_steps (root : Nat) : Steps nodes₀ (fun _ => True) (document root) := by
  unfold document
  refine (value_steps root).bind fun v _ => ?_
  refine Keeps.bind .get fun s _ => ?_
  split
  · exact Steps.done
  · refine Keeps.bind (.modify fun _ h => h) fun _ _ => ?_
    refine (openCollection_steps _).bind fun pairs _ => ?_
    refine Keeps.bind .get fun s _ => ?_
    exact (openPending_steps _).bind fun _ _ => Steps.done

end Build

/-! ## 5. Texts -/

/-- What is wrong with the values of a text: its nodes cannot be told, since the text is at fault or
its collections nest too deep, or one of its nodes is at fault. -/
inductive LoadFault (text : List Char) : Fault → Prop where
  | text {f : Fault} (composed : composeDocument text = .error f) (fault : ScanFault text f) :
      LoadFault text f
  | nesting (composed : composeDocument text = .error .endless) : LoadFault text .endless
  | node {f : Fault} {root : Nat} {nodes : Array Node}
      (composed : composeDocument text = .ok (some root, nodes)) (fault : NodeFault nodes f) :
      LoadFault text f

/-- **The value of a text** is found, or there is a fault of the text or of one of its nodes. -/
theorem load_ends (text : List Char) : Ends (LoadFault text) (fun _ => True) (load text) := by
  have hcompose := composeDocument_ends text
  unfold load
  cases hnodes : composeDocument text with
  | error f =>
    rw [hnodes] at hcompose
    refine .error ?_
    rcases hcompose.fault rfl with rfl | hscan
    · exact .nesting hnodes
    · exact .text hnodes hscan
  | ok r =>
    obtain ⟨root, nodes⟩ := r
    cases root with
    | none => exact .ok trivial
    | some root =>
      have hvalue := Build.document_steps root { nodes } (Kept.refl nodes)
      change Ends _ _ ((·.1) <$> (Build.document root).run { nodes })
      unfold StateT.run
      generalize Build.document root { nodes } = x at hvalue
      cases hvalue with
      | ok _ => exact .ok trivial
      | error hnode => exact .error (.node hnodes hnode)

end ContextAtlas.Yaml
