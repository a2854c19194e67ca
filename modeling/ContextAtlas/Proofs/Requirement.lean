/-
# The order of user requirements

Use cases and user stories are found by a scan each and merged by the lines of their keywords.  So
there is one requirement for each block, and they come in the order of their lines; but two blocks
of different kinds on one line come with the use case in front, whatever their order in the text.

* `pairwise_merge`: what is in order in two sorted lists, and across them, is in order when they are
  merged;
* `Block.Precedes`: the order in which requirements come;
* `requirements_precede`: the requirements of a document are its blocks in this order;
* `requirements_out_of_order`: which is not the order of the text.
-/
import ContextAtlas.Proofs.Block.Lines
import ContextAtlas.Proofs.Layout.Report

namespace ContextAtlas

/-! ## 1. Merging -/

section

variable {α : Type} {R : α → α → Prop} {key : α → Nat}

/-- **A relation that holds along two lists in the order of their keys, and between their elements
as their keys compare, holds along their merge.** -/
theorem pairwise_merge : ∀ {xs ys : List α}, xs.Pairwise R → ys.Pairwise R →
    (xs.Pairwise fun x y => key x ≤ key y) → (ys.Pairwise fun x y => key x ≤ key y) →
    (∀ x ∈ xs, ∀ y ∈ ys, key x ≤ key y → R x y) → (∀ x ∈ xs, ∀ y ∈ ys, key y < key x → R y x) →
    (xs.merge ys fun x y => key x ≤ key y).Pairwise R
  | [], ys, _, hy, _, _, _, _ => by simpa using hy
  | x :: xs, [], hx, _, _, _, _, _ => by simpa using hx
  | x :: xs, y :: ys, hx, hy, hsx, hsy, hxy, hyx => by
    have ⟨hxhead, hxtail⟩ := List.pairwise_cons.mp hx
    have ⟨hyhead, hytail⟩ := List.pairwise_cons.mp hy
    have ⟨hsxhead, hsxtail⟩ := List.pairwise_cons.mp hsx
    have ⟨hsyhead, hsytail⟩ := List.pairwise_cons.mp hsy
    rw [List.cons_merge_cons]
    by_cases hle : key x ≤ key y
    · rw [if_pos (decide_eq_true hle)]
      refine .cons (fun a ha => ?_) (pairwise_merge hxtail hy hsxtail hsy
        (fun u hu => hxy u (List.mem_cons_of_mem x hu))
        fun u hu => hyx u (List.mem_cons_of_mem x hu))
      rcases List.mem_merge.mp ha with ha | ha
      · exact hxhead a ha
      · refine hxy x List.mem_cons_self a ha ?_
        rcases List.mem_cons.mp ha with rfl | ha
        · exact hle
        · exact hle.trans (hsyhead a ha)
    · rw [if_neg (by simpa using hle)]
      refine .cons (fun a ha => ?_) (pairwise_merge hx hytail hsx hsytail
        (fun u hu v hv => hxy u hu v (List.mem_cons_of_mem y hv))
        fun u hu v hv => hyx u hu v (List.mem_cons_of_mem y hv))
      rcases List.mem_merge.mp ha with ha | ha
      · refine hyx a ha y List.mem_cons_self ?_
        rcases List.mem_cons.mp ha with rfl | ha
        · omega
        · have hxa := hsxhead a ha
          omega
      · exact hyhead a ha

end

/-! ## 2. The order of blocks -/

/-- The order in which requirements come: that of their keywords in the text, but of two kinds on
one line the use cases come first. -/
def Block.Precedes (b c : Block) : Prop :=
  if b.line = c.line ∧ b.keyword ≠ c.keyword then b.keyword = "UseCase"
  else b.start.Before c.start

theorem sublist_start : ∀ bs : List Block,
    (bs.map Block.start).Sublist (bs.flatMap Block.places)
  | [] => List.Sublist.refl []
  | b :: bs => by
    rw [List.map_cons, List.flatMap_cons, Block.places, List.cons_append]
    exact ((sublist_start bs).trans (List.sublist_append_right _ _)).cons_cons b.start

/-- The blocks of a scan come in the order of their keywords. -/
theorem pairwise_start {keyword : String} {nameOptional : Bool} {ts : List Token}
    (h : Ordered ts) :
    (matchedValues (scanBlocks keyword nameOptional ts)).Pairwise
      fun b c => b.start.Before c.start := by
  have hplaces : ((matchedValues (scanBlocks keyword nameOptional ts)).flatMap Block.places).Sublist
      (ts.map Token.position) := places_sublist
  have hpositions : (ts.map Token.position).Pairwise Position.Before := List.pairwise_map.mpr h
  exact List.pairwise_map.mp (hpositions.sublist ((sublist_start _).trans hplaces))

/-! ## 3. Requirements -/

/-- The blocks of a document that are requirements, those of each kind in the order of the text. -/
def requirementBlocks (ts : List Token) : List Block :=
  matchedValues (scanBlocks "UseCase" false ts) ++ matchedValues (scanBlocks "UserStory" false ts)

/-- The requirement that a block states. -/
def UserRequirement.ofBlock (b : Block) : UserRequirement :=
  if b.keyword = "UseCase" then .useCase (.ofBlock b) else .userStory (.ofBlock b)

/-- The blocks of both kinds, merged by line. -/
def mergedBlocks (ts : List Token) : List Block :=
  (matchedValues (scanBlocks "UseCase" false ts)).merge
    (matchedValues (scanBlocks "UserStory" false ts)) fun b c => b.line ≤ c.line

theorem perm_mergedBlocks (ts : List Token) : (mergedBlocks ts).Perm (requirementBlocks ts) :=
  List.merge_perm_append _

/-- Each block becomes one requirement. -/
theorem value_readUserRequirements (ts : List Token) :
    (readUserRequirements ts).value = (mergedBlocks ts).map UserRequirement.ofBlock := by
  have hplaced : ∀ (keyword : String) (read : Block → UserRequirement),
      (∀ b : Block, b.keyword = keyword → read b = .ofBlock b) →
      (readRequirements keyword read ts).value
        = (matchedValues (scanBlocks keyword false ts)).map
            fun b => (b.line, UserRequirement.ofBlock b) := by
    intro keyword read hread
    refine List.map_congr_left fun b hb => ?_
    exact congrArg (Prod.mk b.line) (hread b (exists_site_of_mem_scanFrom hb).1)
  have hcases := hplaced "UseCase" (fun b => .useCase (.ofBlock b))
    fun b hb => by rw [UserRequirement.ofBlock, if_pos hb]
  have hstories := hplaced "UserStory" (fun b => .userStory (.ofBlock b))
    fun b hb => by rw [UserRequirement.ofBlock, if_neg (by simp [hb])]
  have hmerged : (mergedBlocks ts).map (fun b => (b.line, UserRequirement.ofBlock b)) = _ :=
    List.map_merge (s := fun x y => x.1 ≤ y.1) fun _ _ _ _ => rfl
  simp only [readUserRequirements, hcases, hstories]
  rw [← hmerged, List.map_map]
  rfl

/-- Requirements come in the order of their lines, and use cases first on each. -/
theorem pairwise_mergedBlocks {ts : List Token} (h : Ordered ts) :
    (mergedBlocks ts).Pairwise Block.Precedes := by
  have hkeyword : ∀ {keyword : String} {b : Block},
      b ∈ matchedValues (scanBlocks keyword false ts) → b.keyword = keyword :=
    fun hb => (exists_site_of_mem_scanFrom hb).1
  have hkind : ∀ keyword : String,
      (matchedValues (scanBlocks keyword false ts)).Pairwise Block.Precedes := by
    intro keyword
    refine (pairwise_start h).imp_of_mem fun {b c} hb hc hbc => ?_
    rw [Block.Precedes, if_neg (by simp [hkeyword hb, hkeyword hc])]
    exact hbc
  have hline : ∀ keyword : String,
      (matchedValues (scanBlocks keyword false ts)).Pairwise fun b c => b.line ≤ c.line :=
    fun keyword => (pairwise_start h).imp Position.Before.line_le
  refine pairwise_merge (hkind "UseCase") (hkind "UserStory") (hline "UseCase")
    (hline "UserStory") ?_ ?_
  · intro b hb c hc hle
    rw [Block.Precedes]
    split
    · exact hkeyword hb
    · next hne =>
      have hdiffer : b.keyword ≠ c.keyword := by simp [hkeyword hb, hkeyword hc]
      exact .inl (Nat.lt_of_le_of_ne hle fun heq => hne ⟨heq, hdiffer⟩)
  · intro b hb c hc hlt
    rw [Block.Precedes, if_neg fun heq => absurd heq.1 (Nat.ne_of_lt hlt)]
    exact .inl hlt

/-- **Requirements in the order of their lines.**  A document has one requirement for each block
that is one; on one line the use cases come first, and each kind in the order of the text. -/
theorem requirements_precede (source : String) :
    ∃ (m : Model) (blocks : List Block), Model.parse source false = .ok m
      ∧ blocks.Perm (requirementBlocks (lex (stripComments source.toList)))
      ∧ m.requirements = blocks.map UserRequirement.ofBlock
      ∧ blocks.Pairwise Block.Precedes :=
  let ts := lex (stripComments source.toList)
  ⟨(Report.ofText source).model, mergedBlocks ts, rfl, perm_mergedBlocks ts,
    value_readUserRequirements ts, pairwise_mergedBlocks (ordered_lex _)⟩

/-- **Not in the order of the text.**  Of a user story and a use case behind it on the same line no
arrangement in the order of the text gives the requirements of the document. -/
theorem requirements_out_of_order :
    ¬ ∃ (m : Model) (blocks : List Block),
      Model.parse "UserStory A \x7b \x7d UseCase B \x7b \x7d" false = .ok m
      ∧ blocks.Perm (requirementBlocks
          (lex (stripComments "UserStory A \x7b \x7d UseCase B \x7b \x7d".toList)))
      ∧ m.requirements = blocks.map UserRequirement.ofBlock
      ∧ blocks.Pairwise fun b c => b.start.Before c.start := by
  rintro ⟨m, blocks, hm, hperm, hrequirements, horder⟩
  obtain rfl := Except.ok.inj hm
  generalize hts : lex (stripComments "UserStory A \x7b \x7d UseCase B \x7b \x7d".toList) = ts
    at hperm
  -- There are two blocks, and the order of the text has the story in front.
  have hreversed : (requirementBlocks ts).reverse.Pairwise fun b c => b.start.Before c.start := by
    rw [← hts]
    decide +kernel
  have hblocks := (hperm.trans (List.reverse_perm _).symm).eq_of_pairwise
    (fun b c _ _ hbc hcb => absurd (hbc.trans hcb) (Position.not_before_self _)) horder hreversed
  -- They share a line, so the merge has the use case in front.
  have hline : ∀ b ∈ matchedValues (scanBlocks "UseCase" false ts),
      ∀ c ∈ matchedValues (scanBlocks "UserStory" false ts), b.line ≤ c.line := by
    rw [← hts]
    decide +kernel
  have hmerged : mergedBlocks ts = requirementBlocks ts :=
    List.merge_of_le fun b c hb hc => decide_eq_true (hline b hb c hc)
  have hswapped : (requirementBlocks ts).map UserRequirement.ofBlock
      = (requirementBlocks ts).reverse.map UserRequirement.ofBlock := by
    rw [← hblocks, ← hrequirements, ← hmerged, ← value_readUserRequirements, ← hts]
    rfl
  rw [← hts] at hswapped
  exact absurd hswapped (by decide +kernel)

end ContextAtlas
