/-
# Every value of a document is told

The value of a document is told only when the values of all its nodes are, however deep they stand
and whether or not anything is made of them.  The nodes are visited from the root on: a node whose
value is told and that is a collection waits until it is opened, and opening it tells the values of
what it holds.  No node waits twice, so as many rounds as there are nodes are enough, and what was
told in the end is closed under the nodes that collections hold.

This is said of documents without special keys, where the pairs of a mapping are the written ones.

* `Holds`, `Reached`: which nodes a collection holds, and which are reached from the root;
* `Opening`: the invariant of the visit, and `value_tells`, `openCollection_tells`: its steps;
* `openPending_closes`: the visit ends with nothing waiting;
* `EveryScalarTold`, `everyScalarTold_of_load`: a text with a value has no scalar without one.
-/
import ContextAtlas.Proofs.Yaml.Build
import Mathlib.Logic.Relation
import Mathlib.Data.List.Perm.Subperm

namespace ContextAtlas.Yaml

/-! ## 1. What is reached -/

/-- No key is special: nothing is merged, and no mapping stands for a scalar. -/
def NoSpecialKeys (nodes : Array Node) : Prop := ∀ n ∈ nodes, n.tag ≠ .merge ∧ n.tag ≠ .value

section Reached

variable (nodes : Array Node)

/-- A collection holds a pair: a mapping its own pairs, a list of pairs those of its items. -/
inductive HoldsPair (place : Nat) (pair : Nat × Nat) : Prop where
  | own {n : Node} {pairs : List (Nat × Nat)} (node : nodes[place]? = some n)
      (tag : n.tag = .mapping ∨ n.tag = .set) (content : n.content = .mapping pairs)
      (mem : pair ∈ pairs)
  | listed {n m : Node} {items : List Nat} {item : Nat} (node : nodes[place]? = some n)
      (tag : n.tag = .orderedMapping ∨ n.tag = .pairs) (content : n.content = .sequence items)
      (mem : item ∈ items) (single : nodes[item]? = some m) (pair : m.content = .mapping [pair])

/-- A collection holds a node: an item, or the key or the content of a pair. -/
inductive Holds (place other : Nat) : Prop where
  | item {n : Node} {items : List Nat} (node : nodes[place]? = some n) (tag : n.tag = .sequence)
      (content : n.content = .sequence items) (mem : other ∈ items)
  | key {content : Nat} (pair : HoldsPair nodes place (other, content))
  | content {key : Nat} (pair : HoldsPair nodes place (key, other))

/-- A node is reached from the root of a document. -/
def Reached (root place : Nat) : Prop := Relation.ReflTransGen (Holds nodes) root place

end Reached

/-- Only collections hold nodes. -/
theorem Holds.isCollection {nodes : Array Node} {place other : Nat} (h : Holds nodes place other) :
    ∃ n, nodes[place]? = some n ∧ n.tag.isCollection = true := by
  have hpair : ∀ pair, HoldsPair nodes place pair →
      ∃ n, nodes[place]? = some n ∧ n.tag.isCollection = true := by
    intro pair hpair
    cases hpair with
    | own hn htag => exact ⟨_, hn, by rcases htag with htag | htag <;> rw [htag] <;> rfl⟩
    | listed hn htag => exact ⟨_, hn, by rcases htag with htag | htag <;> rw [htag] <;> rfl⟩
  cases h with
  | item hn htag => exact ⟨_, hn, by rw [htag]; rfl⟩
  | key pair => exact hpair _ pair
  | content pair => exact hpair _ pair

/-- A node has a value so far as it is looked at on its own: a collection is looked into later. -/
def Node.HasValue (n : Node) : Prop :=
  n.tag.isCollection = true ∨ ∃ word v, n.content = .scalar word ∧ scalarValue n.tag word = .ok v

/-! ## 2. Steps that look at the nodes -/

namespace Build

variable {α β : Type} {nodes : Array Node} {place : Nat}

/-- A step that looks at the nodes and changes nothing. -/
def Looks (nodes : Array Node) (P : α → Prop) (m : Build α) : Prop :=
  ∀ s : Builder, s.nodes = nodes → Keeps (fun _ => True) (fun t => t = s) P m

section Looks

variable {P : α → Prop} {Q : β → Prop} {m : Build α}

theorem Looks.pure {a : α} (h : P a) : Looks nodes P (pure a : Build α) := fun _ _ => .pure h

theorem Looks.throw {f : Fault} : Looks nodes P (throw f : Build α) := fun _ _ => .throw trivial

theorem Looks.bind {k : α → Build β} (hm : Looks nodes P m) (hk : ∀ a, P a → Looks nodes Q (k a)) :
    Looks nodes Q (m >>= k) := fun s hs => (hm s hs).bind fun a ha => hk a ha s hs

theorem Looks.get : Looks nodes (fun s : Builder => s.nodes = nodes) get := fun _ hs =>
  Keeps.get.mono fun _ ht => by rw [ht, hs]

theorem Looks.forM {g : α → Build Unit} (hg : ∀ a, Looks nodes (fun _ => True) (g a))
    (l : List α) : Looks nodes (fun _ => True) (l.forM g) := fun s hs =>
  .forM (fun a => hg a s hs) l

end Looks

theorem nodeAt_looks (place : Nat) :
    Looks nodes (fun node => nodes[place]? = some node) (nodeAt place) := by
  unfold nodeAt
  refine Looks.get.bind fun s hs => ?_
  split
  · next node hnode => exact .pure (by rw [← hs, hnode])
  · exact .throw

theorem pairsAt_looks (place : Nat) :
    Looks nodes (fun pairs => ∃ n, nodes[place]? = some n ∧ n.content = .mapping pairs)
      (pairsAt place) := by
  unfold pairsAt
  refine (nodeAt_looks place).bind fun n hn => ?_
  split
  · next pairs hcontent => exact .pure ⟨n, hn, hcontent⟩
  · exact .throw

/-- A node that is put where it stands changes nothing. -/
theorem setNode_looks {node : Node} (h : nodes[place]? = some node) :
    Looks nodes (fun _ => True) (setNode place node) := by
  rintro s rfl t rfl
  have hsame : t.nodes.setIfInBounds place node = t.nodes := by
    refine Array.ext_getElem? fun other => ?_
    rw [Array.getElem?_setIfInBounds]
    split
    · next heq =>
      subst heq
      rw [h, if_pos (Array.getElem?_eq_some_iff.mp h).1]
    · rfl
  refine .ok ⟨trivial, ?_⟩
  dsimp only
  rw [hsame]

theorem setPairs_looks {pairs : List (Nat × Nat)}
    (h : ∃ n, nodes[place]? = some n ∧ n.content = .mapping pairs) :
    Looks nodes (fun _ => True) (setPairs place pairs) := by
  obtain ⟨n, hn, hcontent⟩ := h
  unfold setPairs
  refine (nodeAt_looks place).bind fun node hnode => ?_
  obtain rfl : n = node := by simpa [hn] using hnode
  rw [← hcontent]
  exact setNode_looks hn

section NoSpecialKeys

variable (hplain : NoSpecialKeys nodes)

include hplain

theorem any_tag_eq_false (place : Nat) {tag : Tag} (htag : tag = .merge ∨ tag = .value) :
    nodes[place]?.any (·.tag = tag) = false := by
  cases hn : nodes[place]? with
  | none => rfl
  | some n =>
    have hne := hplain n (Array.mem_of_getElem? hn)
    rcases htag with rfl | rfl
    · simp [hne.1]
    · simp [hne.2]

theorem scalarText_looks (fuel place : Nat) :
    Looks nodes (fun word => ∃ n, nodes[place]? = some n ∧ n.content = .scalar word)
      (scalarText fuel place) := by
  cases fuel with
  | zero => exact .throw
  | succ fuel =>
    rw [scalarText]
    refine (nodeAt_looks place).bind fun n hn => ?_
    split
    · next word hcontent => exact .pure ⟨n, hn, hcontent⟩
    · exact .throw
    · next pairs _ =>
      refine Looks.get.bind fun s hs => ?_
      extract_lets nodes' isValueKey
      have hnone : pairs.find? isValueKey = none := by
        rw [List.find?_eq_none]
        intro pair _
        have hfalse : isValueKey pair = false := by
          rw [← any_tag_eq_false hplain pair.1 (.inr rfl), ← hs]
        simp [hfalse]
      rw [hnone]
      exact .throw

theorem plainKeys_looks (pairs : List (Nat × Nat)) :
    Looks nodes (fun _ => True) (plainKeys pairs) := by
  refine Looks.forM ?_ pairs
  rintro ⟨key, _⟩
  refine (nodeAt_looks key).bind fun node hnode => ?_
  split
  · next htag => exact absurd htag (hplain node (Array.mem_of_getElem? hnode)).2
  · exact .pure trivial

/-- Without merge keys nothing is taken out. -/
theorem takeMerges_looks (flatten : Nat → Build (List (Nat × Nat))) (place fuel start : Nat) :
    Looks nodes (fun merged => merged = []) (takeMerges flatten place fuel start) := by
  cases fuel with
  | zero => exact .pure rfl
  | succ fuel =>
    rw [takeMerges]
    refine (pairsAt_looks place).bind fun pairs _ => ?_
    refine Looks.get.bind fun s hs => ?_
    extract_lets nodes' isMerge passed index
    refine (plainKeys_looks hplain passed).bind fun _ _ => ?_
    have hpassed : passed = pairs.drop start := by
      refine List.takeWhile_eq_self_iff.mpr fun pair _ => ?_
      have hfalse : isMerge pair = false := by
        rw [← any_tag_eq_false hplain pair.1 (.inl rfl), ← hs]
      simp [hfalse]
    have hend : pairs[index]? = none := by
      rw [List.getElem?_eq_none_iff]
      have hlength : passed.length = pairs.length - start := by rw [hpassed, List.length_drop]
      omega
    rw [hend]
    exact .pure rfl

/-- Without merge keys the pairs of a mapping are its own. -/
theorem flatten_looks (depth place : Nat) :
    Looks nodes (fun pairs => ∃ n, nodes[place]? = some n ∧ n.content = .mapping pairs)
      (flatten depth place) := by
  cases depth with
  | zero => exact .throw
  | succ depth =>
    rw [flatten]
    refine (pairsAt_looks place).bind fun _ _ => ?_
    refine (takeMerges_looks hplain _ place _ _).bind fun merged hmerged => ?_
    refine (pairsAt_looks place).bind fun pairs hpairs => ?_
    subst hmerged
    exact (setPairs_looks hpairs).bind fun _ _ => .pure hpairs

end NoSpecialKeys

/-! ## 3. Steps that tell values -/

/-- What is done with the state that is there. -/
theorem ends_get_bind {F : Fault → Prop} {P : α × Builder → Prop} {k : Builder → Build α}
    {s : Builder} (h : Ends F P (k s s)) : Ends F P ((get >>= k) s) := h

/-- The value of a node was told. -/
def Told (s : Builder) (place : Nat) : Prop := (s.values.lookup place).isSome = true

/-- The visit of the nodes of a document: what was told so far has a value, and of it every
collection was opened or waits for it, each once. -/
structure Opening (nodes : Array Node) (opened : List Nat) (s : Builder) : Prop where
  nodes_eq : s.nodes = nodes
  hasValue : ∀ place, Told s place → ∃ n, nodes[place]? = some n ∧ n.HasValue
  waits : ∀ place n, Told s place → nodes[place]? = some n → n.tag.isCollection = true →
    place ∈ opened ++ s.pending
  told : ∀ place ∈ opened ++ s.pending, Told s place
  nodup : (opened ++ s.pending).Nodup

/-- What was told stays told. -/
def Extends (s s' : Builder) : Prop := ∀ place, Told s place → Told s' place

/-- A property of the visit that stays as more is told. -/
def Lasts (Q : Builder → Prop) : Prop := ∀ s s', Extends s s' → Q s → Q s'

/-- A step goes on with the visit, and a property holds behind it. -/
def Tells (nodes : Array Node) (opened : List Nat) (Q : Builder → Prop) (m : Build α) : Prop :=
  ∀ s, Opening nodes opened s →
    Ends (fun _ => True) (fun r => Opening nodes opened r.2 ∧ Extends s r.2 ∧ Q r.2) (m s)

section Tells

variable {opened : List Nat} {s s' : Builder} {P : α → Prop} {Q R : Builder → Prop} {m : Build α}

theorem Tells.pure {a : α} : Tells nodes opened (fun _ => True) (pure a : Build α) := fun _ hs =>
  .ok ⟨hs, fun _ h => h, trivial⟩

theorem Tells.throw {f : Fault} : Tells nodes opened Q (throw f : Build α) := fun _ _ =>
  .error trivial

theorem Tells.bind {k : α → Build β} (hQ : Lasts Q) (hm : Tells nodes opened Q m)
    (hk : ∀ a, Tells nodes opened R (k a)) :
    Tells nodes opened (fun s => Q s ∧ R s) (m >>= k) := by
  intro s hs
  refine Ends.bind (hm s hs) fun r ⟨hr, hsr, hq⟩ => ?_
  refine (hk r.1 r.2 hr).mono (fun _ h => h) fun r' ⟨hr', hrr', hR⟩ => ?_
  exact ⟨hr', fun place h => hrr' place (hsr place h), hQ r.2 r'.2 hrr' hq, hR⟩

theorem Tells.thenPure {g : α → β} (hm : Tells nodes opened Q m) :
    Tells nodes opened Q (m >>= fun a => Pure.pure (g a)) := fun s hs =>
  Ends.bind (hm s hs) fun _ hr => .ok hr

theorem Tells.mono (hm : Tells nodes opened Q m) (h : ∀ s, Q s → R s) :
    Tells nodes opened R m := fun s hs =>
  (hm s hs).mono (fun _ hf => hf) fun _ ⟨hr, hsr, hq⟩ => ⟨hr, hsr, h _ hq⟩

/-- A step that only looks at the nodes tells nothing. -/
theorem Looks.bindTells {k : α → Build β} (hm : Looks nodes P m)
    (hk : ∀ a, P a → Tells nodes opened Q (k a)) : Tells nodes opened Q (m >>= k) := by
  intro s hs
  refine Ends.bind (hm s hs.nodes_eq s rfl) ?_
  rintro ⟨a, _⟩ ⟨ha, rfl⟩
  exact hk a ha _ hs

theorem Tells.mapM {g : α → Build β} {Q : α → Builder → Prop} (hQ : ∀ a, Lasts (Q a))
    (hg : ∀ a, Tells nodes opened (Q a) (g a)) (l : List α) :
    Tells nodes opened (fun s => ∀ a ∈ l, Q a s) (l.mapM g) := by
  induction l with
  | nil => exact Tells.pure.mono fun _ _ => by simp
  | cons a l ih =>
    rw [List.mapM_cons]
    refine ((hg a).bind (hQ a) fun _ => ih.thenPure).mono fun s h => ?_
    rw [List.forall_mem_cons]
    exact h

theorem Tells.forM {g : α → Build Unit} {Q : α → Builder → Prop} (hQ : ∀ a, Lasts (Q a))
    (hg : ∀ a, Tells nodes opened (Q a) (g a)) (l : List α) :
    Tells nodes opened (fun s => ∀ a ∈ l, Q a s) (l.forM g) := by
  induction l with
  | nil => exact Tells.pure.mono fun _ _ => by simp
  | cons a l ih =>
    refine ((hg a).bind (hQ a) fun _ => ih).mono fun s h => ?_
    rw [List.forall_mem_cons]
    exact h

theorem lasts_told (place : Nat) : Lasts (Told · place) := fun _ _ h => h place

theorem told_cons_iff {v : Value} {other : Nat} {pending : List Nat} :
    Told ⟨s.nodes, (place, v) :: s.values, pending⟩ other ↔ other = place ∨ Told s other := by
  unfold Told
  rw [List.lookup_cons]
  by_cases h : other = place
  · simp [h]
  · rw [beq_eq_false_iff_ne.mpr h]
    simp only [h, false_or]

/-- A collection whose value is told for the first time waits to be opened. -/
theorem Opening.tell_collection {n : Node} {v : Value} (hs : Opening nodes opened s)
    (hnew : ¬ Told s place) (hn : nodes[place]? = some n)
    (hcollection : n.tag.isCollection = true) :
    Opening nodes opened ⟨s.nodes, (place, v) :: s.values, s.pending ++ [place]⟩ := by
  refine ⟨hs.nodes_eq, ?_, ?_, ?_, ?_⟩
  · intro other hother
    rcases told_cons_iff.mp hother with rfl | hother
    · exact ⟨n, hn, .inl hcollection⟩
    · exact hs.hasValue other hother
  · intro other m hother hm htag
    rw [← List.append_assoc, List.mem_append]
    rcases told_cons_iff.mp hother with rfl | hother
    · exact .inr List.mem_cons_self
    · exact .inl (hs.waits other m hother hm htag)
  · intro other hother
    rw [← List.append_assoc, List.mem_append, List.mem_singleton] at hother
    rw [told_cons_iff]
    rcases hother with hother | rfl
    · exact .inr (hs.told other hother)
    · exact .inl rfl
  · rw [← List.append_assoc, List.nodup_append]
    refine ⟨hs.nodup, by simp, ?_⟩
    rintro other hmem _ hplace rfl
    rw [List.mem_singleton.mp hplace] at hmem
    exact hnew (hs.told place hmem)

/-- A scalar whose value is told does not wait. -/
theorem Opening.tell_scalar {n : Node} {v w : Value} {word : String} (hs : Opening nodes opened s)
    (hnew : ¬ Told s place) (hn : nodes[place]? = some n) (hscalar : n.tag.isCollection = false)
    (hword : n.content = .scalar word) (hvalue : scalarValue n.tag word = .ok w) :
    Opening nodes opened ⟨s.nodes, (place, v) :: s.values, s.pending⟩ := by
  refine ⟨hs.nodes_eq, ?_, ?_, ?_, hs.nodup⟩
  · intro other hother
    rcases told_cons_iff.mp hother with rfl | hother
    · exact ⟨n, hn, .inr ⟨word, w, hword, hvalue⟩⟩
    · exact hs.hasValue other hother
  · intro other m hother hm htag
    rcases told_cons_iff.mp hother with rfl | hother
    · obtain rfl : n = m := by simpa [hn] using hm
      rw [hscalar] at htag
      cases htag
    · exact hs.waits other m hother hm htag
  · intro other hother
    exact told_cons_iff.mpr (.inr (hs.told other hother))

/-- The next collection that waits is opened. -/
theorem Opening.next {r : List Nat} (hs : Opening nodes opened s)
    (hpending : s.pending = place :: r) :
    Opening nodes (opened ++ [place]) ⟨s.nodes, s.values, r⟩ := by
  have hqueue : opened ++ s.pending = opened ++ [place] ++ r := by
    rw [hpending, List.append_assoc, List.singleton_append]
  refine ⟨hs.nodes_eq, hs.hasValue, ?_, ?_, ?_⟩
  · intro other n htold hn htag
    rw [← hqueue]
    exact hs.waits other n htold hn htag
  · intro other hother
    rw [← hqueue] at hother
    exact hs.told other hother
  · rw [← hqueue]
    exact hs.nodup

/-- What is opened are nodes, each once, so there are no more of them than nodes. -/
theorem length_opened_le (hs : Opening nodes opened s) : opened.length ≤ nodes.size := by
  have hsubset : opened ⊆ List.range nodes.size := by
    intro place hplace
    obtain ⟨n, hn, -⟩ := hs.hasValue place (hs.told place (List.mem_append_left _ hplace))
    exact List.mem_range.mpr (Array.getElem?_eq_some_iff.mp hn).1
  have hnodup : opened.Nodup := (List.nodup_append.mp hs.nodup).1
  simpa using (hnodup.subperm hsubset).length_le

end Tells

/-! ## 4. The visit -/

/-- A collection was opened: it is no scalar, and the values of the nodes it holds were told. -/
structure Opened (nodes : Array Node) (place : Nat) (s : Builder) : Prop where
  not_scalar : ∀ n word, nodes[place]? = some n → n.content ≠ .scalar word
  holds : ∀ other, Holds nodes place other → Told s other

theorem lasts_opened (place : Nat) : Lasts (Opened nodes place) := fun _ _ hss' h =>
  ⟨h.not_scalar, fun other ho => hss' other (h.holds other ho)⟩

section Opened

variable {n : Node} {s : Builder}

theorem Opened.mapping {pairs : List (Nat × Nat)} (hn : nodes[place]? = some n)
    (hcontent : n.content = .mapping pairs)
    (h : ∀ pair ∈ pairs, Told s pair.1 ∧ Told s pair.2) : Opened nodes place s := by
  have hpair : ∀ pair, HoldsPair nodes place pair → Told s pair.1 ∧ Told s pair.2 := by
    intro pair hpair
    cases hpair with
    | own hm _ hpairs hmem =>
      obtain rfl := Option.some.inj (hn.symm.trans hm)
      rw [hcontent] at hpairs
      cases hpairs
      exact h pair hmem
    | listed hm _ hitems _ _ _ =>
      obtain rfl := Option.some.inj (hn.symm.trans hm)
      rw [hcontent] at hitems
      cases hitems
  refine ⟨?_, ?_⟩
  · intro m word hm hword
    obtain rfl := Option.some.inj (hn.symm.trans hm)
    rw [hcontent] at hword
    cases hword
  · intro other hother
    cases hother with
    | item hm _ hitems _ =>
      obtain rfl := Option.some.inj (hn.symm.trans hm)
      rw [hcontent] at hitems
      cases hitems
    | key pair => exact (hpair _ pair).1
    | content pair => exact (hpair _ pair).2

/-- The items of a sequence count only when its tag says so, and the pairs in the items otherwise.
-/
theorem Opened.sequence {items : List Nat} (hn : nodes[place]? = some n)
    (hcontent : n.content = .sequence items)
    (hitem : n.tag = .sequence → ∀ item ∈ items, Told s item)
    (hpair : n.tag ≠ .sequence → ∀ item ∈ items, ∃ m pair, nodes[item]? = some m
      ∧ m.content = .mapping [pair] ∧ Told s pair.1 ∧ Told s pair.2) : Opened nodes place s := by
  have hpair : ∀ pair, HoldsPair nodes place pair → Told s pair.1 ∧ Told s pair.2 := by
    intro pair hheld
    cases hheld with
    | own hm _ hpairs _ =>
      obtain rfl := Option.some.inj (hn.symm.trans hm)
      rw [hcontent] at hpairs
      cases hpairs
    | listed hm htag hitems hmem hsingle hown =>
      obtain rfl := Option.some.inj (hn.symm.trans hm)
      rw [hcontent] at hitems
      cases hitems
      have hother : n.tag ≠ .sequence := by rcases htag with htag | htag <;> simp [htag]
      obtain ⟨m, pair', hm', hpair', htold⟩ := hpair hother _ hmem
      obtain rfl := Option.some.inj (hsingle.symm.trans hm')
      rw [hown] at hpair'
      cases hpair'
      exact htold
  refine ⟨?_, ?_⟩
  · intro m word hm hword
    obtain rfl := Option.some.inj (hn.symm.trans hm)
    rw [hcontent] at hword
    cases hword
  · intro other hother
    cases hother with
    | item hm htag hitems hmem =>
      obtain rfl := Option.some.inj (hn.symm.trans hm)
      rw [hcontent] at hitems
      cases hitems
      exact hitem htag other hmem
    | key pair => exact (hpair _ pair).1
    | content pair => exact (hpair _ pair).2

end Opened

/-- Nothing waits, and what was told is closed under the nodes that collections hold. -/
def Closed (nodes : Array Node) (s : Builder) : Prop :=
  ∀ place n, Told s place → nodes[place]? = some n →
    n.HasValue ∧ (n.tag.isCollection = true → Opened nodes place s)

section Visit

variable {opened : List Nat} {s s' : Builder} (hplain : NoSpecialKeys nodes)

include hplain

/-- A scalar with a value is no more than looked at. -/
theorem scalarAt_looks {n : Node} (hn : nodes[place]? = some n) :
    Looks nodes (fun _ => ∃ word w, n.content = .scalar word ∧ scalarValue n.tag word = .ok w)
      (scalarAt place n) := by
  unfold scalarAt
  refine Looks.get.bind fun s _ => ?_
  refine (scalarText_looks hplain _ place).bind fun word ⟨m, hm, hword⟩ => ?_
  obtain rfl : n = m := by simpa [hn] using hm
  split
  · exact .throw
  · intro s _
    refine Keeps.lift ?_
    cases hvalue : scalarValue n.tag word with
    | ok w => exact .ok ⟨word, w, hword, hvalue⟩
    | error f => exact .error trivial

/-- The value of a node that was not told before is told, and the node waits if it is a collection.
-/
theorem newValue_tells (hs : Opening nodes opened s) (hnew : ¬ Told s place) {n : Node}
    (hn : nodes[place]? = some n) :
    Ends (fun _ => True) (fun r =>
        Opening nodes opened { r.2 with values := (place, r.1) :: r.2.values }
          ∧ r.2.values = s.values ∧ (r.2.pending = s.pending ∨ r.2.pending = s.pending ++ [place]))
      (newValue place n s) := by
  unfold newValue
  by_cases htag : n.tag.isCollection = true
  · rw [if_pos htag]
    exact .ok ⟨hs.tell_collection hnew hn htag, rfl, .inr rfl⟩
  · rw [if_neg htag]
    rw [Bool.not_eq_true] at htag
    split
    · exact .error trivial
    · refine (scalarAt_looks hplain hn s hs.nodes_eq s rfl).mono (fun _ h => h) ?_
      rintro ⟨v, t⟩ ⟨⟨word, w, hword, hvalue⟩, ht⟩
      obtain rfl : t = s := ht
      exact ⟨hs.tell_scalar hnew hn htag hword hvalue, rfl, .inl rfl⟩

/-- The value of a node is told, and the node waits if it is a collection that was not told before.
-/
theorem value_tells_here (hs : Opening nodes opened s) (place : Nat) :
    Ends (fun _ => True) (fun r => Opening nodes opened r.2 ∧ Extends s r.2 ∧ Told r.2 place
      ∧ (r.2.pending = s.pending ∨ r.2.pending = s.pending ++ [place])) (value place s) := by
  rw [value_eq]
  refine ends_get_bind ?_
  cases hlookup : s.values.lookup place with
  | some v =>
    refine .ok ⟨hs, fun _ h => h, ?_, .inl rfl⟩
    simp [Told, hlookup]
  | none =>
    have hnew : ¬ Told s place := by simp [Told, hlookup]
    refine Ends.bind (nodeAt_looks place s hs.nodes_eq s rfl) ?_
    rintro ⟨n, t⟩ ⟨hn, ht⟩
    obtain rfl : t = s := ht
    refine Ends.bind (newValue_tells hplain hs hnew hn) ?_
    rintro ⟨v, u⟩ ⟨hu, hvalues, hpending⟩
    have htold : ∀ other, Told { u with values := (place, v) :: u.values } other
        ↔ other = place ∨ Told t other := by
      intro other
      rw [told_cons_iff, Told, hvalues, Told]
    exact .ok
      ⟨hu, fun other h => (htold other).mpr (.inr h), (htold place).mpr (.inl rfl), hpending⟩

theorem value_tells (place : Nat) : Tells nodes opened (Told · place) (value place) := fun _ hs =>
  (value_tells_here hplain hs place).mono (fun _ h => h) fun _ ⟨hr, hsr, htold, _⟩ =>
    ⟨hr, hsr, htold⟩

theorem mappingValues_tells (place : Nat) :
    Tells nodes opened (fun s => ∃ n pairs, nodes[place]? = some n ∧ n.content = .mapping pairs
      ∧ ∀ pair ∈ pairs, Told s pair.1 ∧ Told s pair.2) (mappingValues place) := by
  unfold mappingValues
  refine (flatten_looks hplain maxMerges place).bindTells fun pairs ⟨n, hn, hcontent⟩ => ?_
  refine (Tells.mapM (Q := fun pair s => Told s pair.1 ∧ Told s pair.2) ?_ ?_ pairs).mono
    fun s h => ⟨n, pairs, hn, hcontent, h⟩
  · intro pair s s' hss' h
    exact ⟨hss' _ h.1, hss' _ h.2⟩
  · rintro ⟨key, content⟩
    refine ((value_tells hplain key).bind (lasts_told key) fun k => ?_)
    split
    · exact Tells.throw
    · exact (value_tells hplain content).thenPure

theorem pairValues_tells (items : List Nat) :
    Tells nodes opened (fun s => ∀ item ∈ items, ∃ m pair, nodes[item]? = some m
      ∧ m.content = .mapping [pair] ∧ Told s pair.1 ∧ Told s pair.2) (pairValues items) := by
  refine Tells.forM (Q := fun item s => ∃ m pair, nodes[item]? = some m
    ∧ m.content = .mapping [pair] ∧ Told s pair.1 ∧ Told s pair.2) ?_ ?_ items
  · rintro item s s' hss' ⟨m, pair, hm, hpair, hkey, hcontent⟩
    exact ⟨m, pair, hm, hpair, hss' _ hkey, hss' _ hcontent⟩
  · intro item
    refine (nodeAt_looks item).bindTells fun m hm => ?_
    split
    · next key content hpair =>
      refine ((value_tells hplain key).bind (lasts_told key) fun _ =>
        (value_tells hplain content).thenPure).mono fun s h => ?_
      exact ⟨m, (key, content), hm, hpair, h⟩
    · exact Tells.throw

/-- **Opening a collection** tells the values of what it holds. -/
theorem openCollection_tells (place : Nat) :
    Tells nodes opened (Opened nodes place) (openCollection place) := by
  unfold openCollection
  refine (nodeAt_looks place).bindTells fun n hn => ?_
  have hmapping : Tells nodes opened (Opened nodes place) (mappingValues place) := by
    refine (mappingValues_tells hplain place).mono ?_
    rintro s ⟨m, pairs, hm, hcontent, htold⟩
    exact .mapping hm hcontent htold
  split
  · exact hmapping
  · exact hmapping
  · next items htag hcontent =>
    refine (Tells.forM (fun item => lasts_told item) (fun item => ?_) items).thenPure.mono ?_
    · exact (value_tells hplain item).thenPure
    · intro s h
      exact .sequence hn hcontent (fun _ => h) fun hother => absurd htag hother
  · next items htag hcontent =>
    refine (pairValues_tells hplain items).thenPure.mono fun s h => ?_
    exact .sequence hn hcontent (fun hsame => by simp [htag] at hsame) fun _ => h
  · next items htag hcontent =>
    refine (pairValues_tells hplain items).thenPure.mono fun s h => ?_
    exact .sequence hn hcontent (fun hsame => by simp [htag] at hsame) fun _ => h
  · exact Tells.throw

/-- **The visit ends with nothing waiting**: by induction on the rounds, each of which opens a node
more. -/
theorem openPending_closes (fuel : Nat) (hs : Opening nodes opened s)
    (hopened : ∀ place ∈ opened, Opened nodes place s) (hfuel : nodes.size < opened.length + fuel) :
    Ends (fun _ => True) (fun r => Extends s r.2 ∧ Closed nodes r.2) (openPending fuel s) := by
  induction fuel generalizing opened s with
  | zero =>
    have := length_opened_le hs
    omega
  | succ fuel ih =>
    rw [openPending]
    refine ends_get_bind ?_
    cases hpending : s.pending with
    | nil =>
      refine .ok ⟨fun _ h => h, fun place n htold hn => ⟨?_, fun htag => ?_⟩⟩
      · obtain ⟨m, hm, hvalue⟩ := hs.hasValue place htold
        obtain rfl := Option.some.inj (hm.symm.trans hn)
        exact hvalue
      · have hmem := hs.waits place n htold hn htag
        rw [hpending, List.append_nil] at hmem
        exact hopened place hmem
    | cons place r =>
      refine Ends.bind (openCollection_tells hplain place _ (hs.next hpending)) ?_
      rintro ⟨_, t⟩ ⟨ht, hst, hplace⟩
      have hall : ∀ other ∈ opened ++ [place], Opened nodes other t := by
        intro other hother
        rcases List.mem_append.mp hother with hother | hother
        · exact lasts_opened other s t hst (hopened other hother)
        · rw [List.mem_singleton.mp hother]
          exact hplace
      have hlength : nodes.size < (opened ++ [place]).length + fuel := by
        rw [List.length_append, List.length_singleton]
        omega
      refine (ih ht hall hlength).mono (fun _ h => h) ?_
      rintro ⟨_, u⟩ ⟨htu, hclosed⟩
      exact ⟨fun other h => htu other (hst other h), hclosed⟩

end Visit

/-- What is told when nothing waits is all that is reached. -/
theorem Closed.exists_scalarValue {s : Builder} {root : Nat} (h : Closed nodes s)
    (hroot : Told s root) {place : Nat} {n : Node} {word : String}
    (hreached : Reached nodes root place) (hn : nodes[place]? = some n)
    (hword : n.content = .scalar word) : ∃ v, scalarValue n.tag word = .ok v := by
  have htold : Told s place := by
    clear hn
    induction hreached with
    | refl => exact hroot
    | tail _ hholds ih =>
      obtain ⟨m, hm, htag⟩ := hholds.isCollection
      exact ((h _ m ih hm).2 htag).holds _ hholds
  obtain ⟨hvalue, hopened⟩ := h place n htold hn
  rcases hvalue with htag | ⟨word', v, hword', hv⟩
  · exact absurd hword ((hopened htag).not_scalar n word hn)
  · rw [hword] at hword'
    cases hword'
    exact ⟨v, hv⟩

/-- **The visit of a document** tells the values of all that is reached from its root. -/
theorem document_closes (hplain : NoSpecialKeys nodes) (root : Nat) :
    Ends (fun _ => True) (fun r => Told r.2 root ∧ Closed nodes r.2) (document root { nodes }) := by
  have hstart : Opening nodes [] { nodes } := by
    refine ⟨rfl, ?_, ?_, ?_, .nil⟩
    · intro place htold
      cases htold
    · intro place n htold
      cases htold
    · intro place hmem
      cases hmem
  unfold document
  refine Ends.bind (value_tells_here hplain hstart root) ?_
  rintro ⟨v, s⟩ ⟨hs, -, hroot, hpending⟩
  refine ends_get_bind ?_
  rcases hpending with hpending | hpending
  · rw [hpending]
    refine .ok ⟨hroot, fun place n htold hn => ?_⟩
    obtain ⟨m, hm, hvalue⟩ := hs.hasValue place htold
    obtain rfl := Option.some.inj (hm.symm.trans hn)
    refine ⟨hvalue, fun htag => ?_⟩
    have hmem := hs.waits place m htold hn htag
    rw [hpending] at hmem
    cases hmem
  · have hpending : s.pending = [root] := hpending
    rw [hpending]
    refine Ends.bind (openCollection_tells hplain root _ (hs.next hpending)) ?_
    rintro ⟨pairs, t⟩ ⟨ht, hst, hopened⟩
    have hfuel : nodes.size < ([root] : List Nat).length + (t.nodes.size + 1) := by
      rw [ht.nodes_eq]
      omega
    refine Ends.bind (openPending_closes hplain _ ht (by simpa using hopened) hfuel) ?_
    rintro ⟨_, u⟩ ⟨htu, hclosed⟩
    exact .ok ⟨htu root (hst root hroot), hclosed⟩

end Build

/-! ## 5. Texts -/

/-- Every scalar that is reached from the root has a value, if no key of the document is special. -/
def EveryScalarTold (text : List Char) : Prop :=
  ∀ root nodes, composeDocument text = .ok (some root, nodes) → NoSpecialKeys nodes →
    ∀ place n word, Reached nodes root place → nodes[place]? = some n → n.content = .scalar word →
      ∃ v, scalarValue n.tag word = .ok v

/-- **A text with a value has no scalar without one**, wherever it stands. -/
theorem everyScalarTold_of_load {text : List Char} {r : Value × List (Value × Value)}
    (hload : load text = .ok r) : EveryScalarTold text := by
  intro root nodes hnodes hplain place n word hreached hn hword
  have hcloses := Build.document_closes hplain root
  unfold load at hload
  rw [hnodes] at hload
  change (·.1) <$> Build.document root { nodes } = .ok r at hload
  generalize Build.document root { nodes } = x at hload hcloses
  cases hcloses with
  | ok h => exact h.2.exists_scalarValue h.1 hreached hn hword
  | error _ => cases hload

end ContextAtlas.Yaml
