/-
# One document behind another

A document whose groups are all closed and whose last token is a closing brace can be followed by
any text on the next line, and the model of both holds what is in the model of each.  The text
behind may be broken in any way: an open block, an open string or a stray brace in it says nothing
about the document in front.

* `merge_append`: merging is concatenation when the one pair of lists stays below the other;
* `Report.ofTokens_append`: the model of tokens behind tokens that leave nothing open;
* `parse_append`: the same for texts.
-/
import ContextAtlas.Proofs.Block.Scan
import ContextAtlas.Proofs.Comment
import ContextAtlas.Proofs.Layout.Report

namespace ContextAtlas

/-! ## 1. Merging by line -/

section

variable {α : Type} {le : α → α → Bool}

/-- A list that stays below another, before that is merged with a third. -/
theorem merge_append_left : ∀ {xs xs' ys : List α}, (∀ x ∈ xs, ∀ y ∈ ys, le x y = true) →
    (xs ++ xs').merge ys le = xs ++ xs'.merge ys le
  | [], _, _, _ => rfl
  | x :: xs, xs', [], _ => by simp
  | x :: xs, xs', y :: ys, h => by
    have hxy : le x y = true := h x List.mem_cons_self y List.mem_cons_self
    rw [List.cons_append, List.cons_merge_cons_pos le _ _ hxy,
      merge_append_left fun u hu => h u (List.mem_cons_of_mem x hu), List.cons_append]

/-- The same with the lower list on the other side; it has to stay strictly below. -/
theorem merge_append_right : ∀ {xs ys ys' : List α}, (∀ y ∈ ys, ∀ x ∈ xs, le x y = false) →
    xs.merge (ys ++ ys') le = ys ++ xs.merge ys' le
  | _, [], _, _ => rfl
  | [], y :: ys, ys', _ => by simp
  | x :: xs, y :: ys, ys', h => by
    have hxy : ¬ le x y = true := by simp [h y List.mem_cons_self x List.mem_cons_self]
    rw [List.cons_append, List.cons_merge_cons_neg le _ _ hxy,
      merge_append_right fun u hu => h u (List.mem_cons_of_mem y hu), List.cons_append]

/-- Merging is concatenation when the first two lists stay below the last two. -/
theorem merge_append : ∀ {xs ys xs' ys' : List α}, (∀ x ∈ xs, ∀ y ∈ ys', le x y = true) →
    (∀ y ∈ ys, ∀ x ∈ xs', le x y = false) →
    (xs ++ xs').merge (ys ++ ys') le = xs.merge ys le ++ xs'.merge ys' le
  | [], ys, xs', ys', _, h => by
    rw [List.nil_append, List.nil_merge]
    exact merge_append_right h
  | x :: xs, [], xs', ys', h, _ => by
    rw [List.nil_append, List.merge_right]
    exact merge_append_left h
  | x :: xs, y :: ys, xs', ys', h, h' => by
    rw [List.cons_append, List.cons_append, List.cons_merge_cons, List.cons_merge_cons]
    by_cases hxy : le x y = true
    · have ih : (xs ++ xs').merge (y :: ys ++ ys') le = xs.merge (y :: ys) le ++ xs'.merge ys' le :=
        merge_append (fun u hu => h u (List.mem_cons_of_mem x hu)) h'
      rw [if_pos hxy, if_pos hxy, List.cons_append, ← ih, List.cons_append]
    · have ih : (x :: xs ++ xs').merge (ys ++ ys') le = (x :: xs).merge ys le ++ xs'.merge ys' le :=
        merge_append h fun u hu => h' u (List.mem_cons_of_mem y hu)
      rw [if_neg hxy, if_neg hxy, List.cons_append, ← ih, List.cons_append]

end

/-! ## 2. Tokens behind tokens -/

/-- The models of two documents as one: everything of both, in order, and the context map of the
first that has one. -/
def Model.append (m n : Model) : Model where
  contextMap := m.contextMap.or n.contextMap
  contexts := m.contexts ++ n.contexts
  domains := m.domains ++ n.domains
  requirements := m.requirements ++ n.requirements

section

variable {ts us : List Token}

theorem value_readBlocks_append {α : Type} (h : SelfContained ts) (keyword : String)
    (read : Block → Noted α) (us : List Token) :
    (readBlocks keyword read (ts ++ us)).value
      = (readBlocks keyword read ts).value ++ (readBlocks keyword read us).value := by
  simp only [readBlocks, scanBlocks_append h, matchedValues_append, List.map_append]

theorem value_readContextMap (ts : List Token) :
    (readContextMap ts).value
      = (matchedValues (scanBlocks "ContextMap" true ts)).head?.map
          fun b => (ContextMap.ofBlock b).value := by
  simp only [readContextMap]
  cases matchedValues (scanBlocks "ContextMap" true ts) <;> rfl

theorem value_readContextMap_append (h : SelfContained ts) (us : List Token) :
    (readContextMap (ts ++ us)).value = (readContextMap ts).value.or (readContextMap us).value := by
  rw [value_readContextMap, value_readContextMap, value_readContextMap, scanBlocks_append h,
    matchedValues_append, List.head?_append]
  cases (matchedValues (scanBlocks "ContextMap" true ts)).head? <;> rfl

/-- A requirement stands where its keyword does. -/
theorem exists_of_mem_placedRequirements {keyword : String} {read : Block → UserRequirement}
    {x : Position × UserRequirement} (hx : x ∈ placedRequirements keyword read ts) :
    ∃ t ∈ ts, x.1 = t.position := by
  obtain ⟨b, hb, rfl⟩ := List.mem_map.mp hx
  obtain ⟨-, ⟨site⟩⟩ := exists_site_of_mem_scanFrom hb
  exact ⟨site.word, site.word_mem, site.start_eq⟩

theorem value_readUserRequirements_append (h : SelfContained ts)
    (hlines : ∀ t ∈ ts, ∀ u ∈ us, t.line < u.line) :
    (readUserRequirements (ts ++ us)).value
      = (readUserRequirements ts).value ++ (readUserRequirements us).value := by
  have hbelow : ∀ {k k' : String} {read read' : Block → UserRequirement},
      ∀ x ∈ placedRequirements k read ts, ∀ y ∈ placedRequirements k' read' us,
        x.1.line < y.1.line := by
    intro k k' read read' x hx y hy
    obtain ⟨t, ht, hxt⟩ := exists_of_mem_placedRequirements hx
    obtain ⟨u, hu, hyu⟩ := exists_of_mem_placedRequirements hy
    rw [hxt, hyu]
    exact hlines t ht u hu
  have happend : ∀ (k : String) (read : Block → UserRequirement),
      placedRequirements k read (ts ++ us)
        = placedRequirements k read ts ++ placedRequirements k read us := by
    intro k read
    simp only [placedRequirements, scanBlocks_append h, matchedValues_append, List.map_append]
  simp only [readUserRequirements, value_readRequirements, happend, List.map_append]
  rw [merge_append, List.map_append]
  · intro x hx y hy
    obtain ⟨x', hx', rfl⟩ := List.mem_map.mp hx
    obtain ⟨y', hy', rfl⟩ := List.mem_map.mp hy
    simpa using Nat.le_of_lt (hbelow x' hx' y' hy')
  · intro y hy x hx
    obtain ⟨x', hx', rfl⟩ := List.mem_map.mp hx
    obtain ⟨y', hy', rfl⟩ := List.mem_map.mp hy
    simpa using hbelow y' hy' x' hx'

/-- **What stands on lines below tokens that leave nothing open adds its own model to theirs.** -/
theorem Report.ofTokens_append (h : SelfContained ts)
    (hlines : ∀ t ∈ ts, ∀ u ∈ us, t.line < u.line) :
    (ofTokens (ts ++ us)).model = (ofTokens ts).model.append (ofTokens us).model := by
  simp only [ofTokens, Model.append, value_readContextMap_append h, value_readBlocks_append h,
    value_readUserRequirements_append h hlines]

end

/-! ## 3. Texts -/

theorem keepsLines_shift (lines offset : Nat) : KeepsLines (Position.shift lines offset) :=
  fun _ _ => Nat.add_le_add_iff_right

/-- **Documents one behind the other.**  A document that leaves nothing open has its model, whatever
text follows on the next line, and that text adds the model that it has on its own. -/
theorem parse_append {a b : String} (ha : Uncommented a.toList) (hb : Uncommented b.toList)
    (hself : SelfContained (lex a.toList)) :
    ∃ m n, Model.parse a false = .ok m ∧ Model.parse b false = .ok n
      ∧ Model.parse (a ++ "\n" ++ b) false = .ok (m.append n) := by
  refine ⟨(Report.ofText a).model, (Report.ofText b).model, rfl, rfl, congrArg Except.ok ?_⟩
  have htext : (a ++ "\n" ++ b).toList = a.toList ++ '\n' :: b.toList := by
    simp [String.toList_append]
  rw [Report.ofText, Report.ofText, Report.ofText, htext,
    stripComments_eq_self (ha.append_newline hb), stripComments_eq_self ha,
    stripComments_eq_self hb, lex_append_newline]
  have hlines : ∀ t ∈ lex a.toList, ∀ u ∈ (lex b.toList).map
      (Token.moved (Position.shift (1 + a.toList.count '\n') (a.toList.length + 1))),
      t.line < u.line := by
    intro t ht u hu
    obtain ⟨v, hv, rfl⟩ := List.mem_map.mp hu
    have htop := line_le_of_mem_lexFrom .start a.toList t ht
    have hbottom := not_before_of_mem_lexFrom .start b.toList v hv
    rw [Position.line_foldl_past] at htop
    unfold Position.Before at hbottom
    simp only [Position.start, Token.line, Token.moved, Position.shift] at htop hbottom ⊢
    omega
  rw [Report.ofTokens_append hself hlines,
    (Report.ofTokens_moved (keepsLines_shift _ _) (lex b.toList)).1]

/-- A context stays what it is in front of a stray brace, an open block and an open string. -/
theorem parse_append_broken :
    ∃ m n, Model.parse "BoundedContext Shop \x7b type = FEATURE \x7d" false = .ok m
      ∧ Model.parse "\x7d Domain Sale \x7b \"open" false = .ok n
      ∧ Model.parse ("BoundedContext Shop \x7b type = FEATURE \x7d" ++ "\n"
          ++ "\x7d Domain Sale \x7b \"open") false = .ok (m.append n) :=
  have hbalanced : Balanced (lex "BoundedContext Shop \x7b type = FEATURE \x7d".toList) := by
    decide +kernel
  parse_append (uncommented_of_not_mem (by decide)) (uncommented_of_not_mem (by decide))
    ⟨hbalanced.closed, by decide +kernel⟩

end ContextAtlas
