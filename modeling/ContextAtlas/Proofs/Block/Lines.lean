/-
# Own lines

A body's own lines are found by leaving tokens out.  Still every one of them is a stretch of the
document: whatever is left out between two tokens of a line takes the first of the two with it.

And a token is an own token of one block at most, the innermost one around it.

* `Ordered`: tokens in the order of their places, as a text has them;
* `infix_of_mem_lines`: own lines are stretches of the body;
* `innermost_unique`: no group is open in front of an own token, so the opening brace of its block
  is the only one that fits;
* `keyword_eq_of_shared`: nor do two keywords share a header.
-/
import ContextAtlas.Proofs.Block.Scan
import ContextAtlas.Proofs.Token.Line
import Mathlib.Data.List.Nodup
import Mathlib.Data.List.SplitBy

namespace ContextAtlas

/-! ## 1. Tokens in order -/

/-- Tokens in the order of their places, no two at one place. -/
def Ordered (ts : List Token) : Prop := ts.Pairwise fun t u => t.position.Before u.position

section

variable {ts us r body : List Token} {t u : Token}

theorem Ordered.of_sublist (h : Ordered us) (hs : ts.Sublist us) : Ordered ts :=
  List.Pairwise.sublist hs h

theorem Ordered.of_infix (h : Ordered us) (hs : ts <:+: us) : Ordered ts :=
  h.of_sublist hs.sublist

theorem Ordered.line_le (h : Ordered (t :: r)) : ∀ u ∈ r, t.line ≤ u.line :=
  fun u hu => ((List.pairwise_cons.mp h).1 u hu).line_le

theorem Ordered.tail (h : Ordered (t :: r)) : Ordered r := (List.pairwise_cons.mp h).2

theorem ordered_lex (text : List Char) : Ordered (lex text) := pairwise_before_lexFrom .start text

/-- Line and column tell the tokens of a text apart. -/
theorem Ordered.nodup_place (h : Ordered ts) : (ts.map Token.place).Nodup := by
  rw [List.Nodup, List.pairwise_map]
  refine h.imp fun {t u} htu heq => ?_
  have hl : t.position.line = u.position.line := congrArg Prod.fst heq
  have hc : t.position.column = u.position.column := congrArg Prod.snd heq
  unfold Position.Before at htu
  omega

theorem Ordered.nodup_position (h : Ordered ts) : (ts.map Token.position).Nodup := by
  have hplace := h.nodup_place
  rw [show Token.place = (fun p : Position => (p.line, p.column)) ∘ Token.position from rfl,
    ← List.map_map] at hplace
  exact hplace.of_map _

theorem Ordered.nodup (h : Ordered ts) : ts.Nodup := h.nodup_place.of_map _

theorem Ordered.eq_of_place (h : Ordered ts) (ht : t ∈ ts) (hu : u ∈ ts)
    (heq : t.place = u.place) : t = u :=
  List.inj_on_of_nodup_map h.nodup_place ht hu heq

/-! ## 2. Own lines are stretches -/

/-- In front of the first opening brace closing ones do not count. -/
theorem opensGroup_zero : ∀ ts : List Token, opensGroup 0 ts = ts.any (·.is .openBrace)
  | [] => rfl
  | t :: r => by
    rw [opensGroup, List.any_cons, opensGroup_zero r]
    by_cases ho : t.is .openBrace = true <;> simp [ho]

theorem sublist_ownTokensFrom (braceLine : Nat) : ∀ (depth : Nat) (ts : List Token),
    (ownTokensFrom braceLine depth ts).Sublist ts
  | _, [] => List.Sublist.refl []
  | depth, t :: r => by
    rw [ownTokensFrom]
    split
    · exact (sublist_ownTokensFrom braceLine _ r).cons t
    · split
      · exact (sublist_ownTokensFrom braceLine _ r).cons t
      · split
        · exact (sublist_ownTokensFrom braceLine _ r).cons_cons t
        · exact (sublist_ownTokensFrom braceLine _ r).cons t

/-- Behind an own token nothing on its line is left out. -/
theorem prefix_of_own_line {braceLine line e : Nat} (hb : line ≠ braceLine) :
    ∀ {ts g : List Token}, Ordered ts → openAfter? 0 ts = some e → (∀ t ∈ ts, line ≤ t.line) →
      (∀ t ∈ ts.takeWhile (·.line == line), t.is .openBrace = false) →
      g <+: ownTokensFrom braceLine 0 ts → (∀ t ∈ g, t.line = line) → g <+: ts
  | _, [], _, _, _, _, _, _ => List.nil_prefix
  | [], _ :: _, _, _, _, _, hg, _ => hg
  | t :: r, u :: g, hordered, hopen, hlines, hline, hg, hsame => by
    have hu : u ∈ t :: r :=
      (sublist_ownTokensFrom braceLine 0 (t :: r)).subset (hg.subset List.mem_cons_self)
    have hul : u.line = line := hsame u List.mem_cons_self
    have ht : t.line = line := by
      have h1 := hlines t List.mem_cons_self
      rcases List.mem_cons.mp hu with rfl | hu
      · exact hul
      · have h2 := hordered.line_le u hu
        omega
    rw [List.takeWhile_cons_of_pos (by simp [ht])] at hline
    have ho : t.is .openBrace = false := hline t List.mem_cons_self
    have hc : t.is .closeBrace = false := by
      rw [← Bool.not_eq_true]
      intro hc
      simp [openAfter?_close_zero hc] at hopen
    have hrest : ∀ v ∈ r.takeWhile (·.line == line), v.is .openBrace = false :=
      fun v hv => hline v (List.mem_cons_of_mem t hv)
    have hown : ownTokensFrom braceLine 0 (t :: r) = t :: ownTokensFrom braceLine 0 r := by
      rw [ownTokensFrom, opensGroup_zero, ht]
      have hany : (r.takeWhile fun u => u.line == line).any (·.is .openBrace) = false := by
        simpa using hrest
      simp [ho, hc, hb, hany]
    rw [hown] at hg
    obtain ⟨rfl, hg'⟩ := List.cons_prefix_cons.mp hg
    rw [openAfter?_other ho hc] at hopen
    exact List.cons_prefix_cons.mpr ⟨rfl, prefix_of_own_line hb hordered.tail hopen
      (fun v hv => hlines v (List.mem_cons_of_mem u hv)) hrest hg'
      fun v hv => hsame v (List.mem_cons_of_mem u hv)⟩

/-- Own tokens on one line, with no own token missing between them, are a stretch of the body. -/
theorem infix_of_own_line {braceLine line e : Nat} : ∀ {depth : Nat} {ts g : List Token},
    Ordered ts → openAfter? depth ts = some e → g <:+: ownTokensFrom braceLine depth ts →
      (∀ t ∈ g, t.line = line) → g <:+: ts
  | _, [], _, _, _, hg, _ => hg
  | depth, t :: r, g, hordered, hopen, hg, hsame => by
    have hr : r <:+: t :: r := (List.suffix_cons t r).isInfix
    by_cases ho : t.is .openBrace = true
    · rw [ownTokensFrom, if_pos ho] at hg
      rw [openAfter?_open ho] at hopen
      exact (infix_of_own_line hordered.tail hopen hg hsame).trans hr
    · by_cases hc : t.is .closeBrace = true
      · rw [ownTokensFrom, if_neg ho, if_pos hc] at hg
        cases depth with
        | zero => simp [openAfter?_close_zero hc] at hopen
        | succ d =>
          rw [openAfter?_close hc] at hopen
          exact (infix_of_own_line hordered.tail hopen hg hsame).trans hr
      · rw [ownTokensFrom, if_neg ho, if_neg hc] at hg
        rw [Bool.not_eq_true] at ho hc
        rw [openAfter?_other ho hc] at hopen
        split at hg
        · -- `t` is an own token, so nothing on its line behind it is left out.
          rename_i hown
          simp only [Bool.and_eq_true, decide_eq_true_eq, bne_iff_ne, ne_eq, Bool.not_eq_true',
            opensGroup_zero, List.any_eq_false] at hown
          obtain ⟨⟨rfl, hb⟩, hline⟩ := hown
          rcases List.infix_cons_iff.mp hg with hg | hg
          · cases g with
            | nil => exact List.nil_infix
            | cons u g =>
              obtain ⟨rfl, hg'⟩ := List.cons_prefix_cons.mp hg
              have hu : u.line = line := hsame u List.mem_cons_self
              refine (List.cons_prefix_cons.mpr ⟨rfl, ?_⟩).isInfix
              refine prefix_of_own_line hb hordered.tail hopen hordered.line_le
                (fun v hv => by simpa using hline v hv) hg' fun v hv => ?_
              rw [hsame v (List.mem_cons_of_mem u hv), hu]
          · exact (infix_of_own_line hordered.tail hopen hg hsame).trans hr
        · exact (infix_of_own_line hordered.tail hopen hg hsame).trans hr

theorem line_eq_of_mem_groupLines {run g : List Token} (hg : g ∈ groupLines run) :
    ∃ line, ∀ t ∈ g, t.line = line := by
  have hchain := List.isChain_of_mem_splitBy hg
  cases g with
  | nil => exact ⟨0, by simp⟩
  | cons t g =>
    refine ⟨t.line, fun u hu => ?_⟩
    have hpairs : (t :: g).Pairwise fun x y => x.line = y.line :=
      List.isChain_iff_pairwise.mp (hchain.imp fun x y hxy => by simpa using hxy)
    rcases List.mem_cons.mp hu with rfl | hu
    · rfl
    · exact ((List.pairwise_cons.mp hpairs).1 u hu).symm

/-- **Every own line of a block is a stretch of its body.** -/
theorem infix_of_mem_lines {b : Block} (hordered : Ordered b.body) (hbalanced : Balanced b.body)
    {line : List Token} (hline : line ∈ b.lines) : line <:+: b.body := by
  obtain ⟨n, hn⟩ := line_eq_of_mem_groupLines hline
  have hin : line <:+: b.ownTokens := by
    have h := List.infix_of_mem_flatten hline
    rwa [Block.lines, groupLines, List.flatten_splitBy] at h
  exact infix_of_own_line hordered hbalanced hin hn

theorem flatten_lines (b : Block) : b.lines.flatten = b.ownTokens := List.flatten_splitBy _ _

/-! ## 3. The innermost block around a token -/

/-- No group is open in front of an own token. -/
theorem exists_of_mem_ownTokensFrom {braceLine e : Nat} : ∀ {depth : Nat} {ts : List Token},
    openAfter? depth ts = some e → t ∈ ownTokensFrom braceLine depth ts →
      ∃ front back, ts = front ++ t :: back ∧ openAfter? depth front = some 0
  | _, [], _, ht => absurd ht List.not_mem_nil
  | depth, u :: r, hopen, ht => by
    by_cases ho : u.is .openBrace = true
    · rw [ownTokensFrom, if_pos ho] at ht
      rw [openAfter?_open ho] at hopen
      obtain ⟨front, back, rfl, hfront⟩ := exists_of_mem_ownTokensFrom hopen ht
      exact ⟨u :: front, back, rfl, by rw [openAfter?_open ho, hfront]⟩
    · by_cases hc : u.is .closeBrace = true
      · rw [ownTokensFrom, if_neg ho, if_pos hc] at ht
        cases depth with
        | zero => simp [openAfter?_close_zero hc] at hopen
        | succ d =>
          rw [openAfter?_close hc] at hopen
          obtain ⟨front, back, rfl, hfront⟩ := exists_of_mem_ownTokensFrom hopen ht
          exact ⟨u :: front, back, rfl, by rw [openAfter?_close hc, hfront]⟩
      · rw [ownTokensFrom, if_neg ho, if_neg hc] at ht
        rw [Bool.not_eq_true] at ho hc
        rw [openAfter?_other ho hc] at hopen
        have hbehind : t ∈ ownTokensFrom braceLine depth r → ∃ front back,
            u :: r = front ++ t :: back ∧ openAfter? depth front = some 0 := by
          intro ht
          obtain ⟨front, back, rfl, hfront⟩ := exists_of_mem_ownTokensFrom hopen ht
          exact ⟨u :: front, back, rfl, by rw [openAfter?_other ho hc, hfront]⟩
        split at ht
        · rename_i hown
          simp only [Bool.and_eq_true, decide_eq_true_eq] at hown
          rcases List.mem_cons.mp ht with rfl | ht
          · exact ⟨[], r, rfl, by rw [openAfter?, hown.1.1]⟩
          · exact hbehind ht
        · exact hbehind ht

/-- Two opening braces with nothing open behind either of them up to one and the same point are one
brace. -/
theorem innermost_unique {front front' l l' : List Token} {o o' : Token}
    (ho : o.is .openBrace = true) (ho' : o'.is .openBrace = true) (hl : Balanced l)
    (hl' : Balanced l') (h : front ++ o :: l = front' ++ o' :: l') : front = front' ∧ o = o' := by
  -- A brace behind the other one would still be open.
  have hbehind : ∀ {x y : List Token} {p : Token}, p.is .openBrace = true → Balanced y →
      ¬ Balanced (x ++ p :: y) := by
    intro x y p hp hy hxy
    unfold Balanced at hxy
    rw [openAfter?_append] at hxy
    obtain ⟨d, -, hd⟩ := Option.bind_eq_some_iff.mp hxy
    have hopen := openAfter?_add (d + 1) hy
    rw [Nat.zero_add] at hopen
    rw [openAfter?_open hp, hopen] at hd
    simp at hd
  rcases List.append_eq_append_iff.mp h with ⟨x, rfl, hx⟩ | ⟨x, rfl, hx⟩
  · cases x with
    | nil => exact ⟨by simp, (List.cons.inj hx).1⟩
    | cons p x =>
      obtain ⟨rfl, rfl⟩ := List.cons.inj hx
      exact absurd hl (hbehind ho' hl')
  · cases x with
    | nil => exact ⟨by simp, (List.cons.inj hx).1.symm⟩
    | cons p x =>
      obtain ⟨rfl, rfl⟩ := List.cons.inj hx
      exact absurd hl' (hbehind ho hl)

end

/-- Two keywords whose headers end at one and the same opening brace are one keyword: inside the
other header it would name nothing, and a name would stand behind it. -/
theorem word_eq_of_shared_header {front front' clauses clauses' : List Token} {word word' : Token}
    (h : front ++ word :: clauses = front' ++ word' :: clauses')
    (hword : word.isBlockName = true) (hword' : word'.isBlockName = true)
    (hchain : clauses.IsChain NotBothNames) (hchain' : clauses'.IsChain NotBothNames)
    (hname : ∃ n ∈ clauses.head?, n.isBlockName = true)
    (hname' : ∃ n ∈ clauses'.head?, n.isBlockName = true) : word = word' := by
  have hinside : ∀ {x r : List Token} {w : Token}, w.isBlockName = true →
      (∃ n ∈ r.head?, n.isBlockName = true) → ¬ (x ++ w :: r).IsChain NotBothNames := by
    rintro x r w hw ⟨n, hn, hb⟩ hxr
    cases r with
    | nil => simp at hn
    | cons m r =>
      obtain rfl : m = n := by simpa using hn
      exact (List.isChain_cons_cons.mp (List.isChain_append.mp hxr).2.1).1 ⟨hw, hb⟩
  rcases List.append_eq_append_iff.mp h with ⟨x, -, hx⟩ | ⟨x, -, hx⟩
  · cases x with
    | nil => exact (List.cons.inj hx).1
    | cons p x =>
      rw [(List.cons.inj hx).2] at hchain
      exact absurd hchain (hinside hword' hname')
  · cases x with
    | nil => exact (List.cons.inj hx).1.symm
    | cons p x =>
      rw [(List.cons.inj hx).2] at hchain'
      exact absurd hchain' (hinside hword hname)

theorem Block.Site.isBlockName {nameOptional : Bool} {ts : List Token} {b : Block}
    (s : b.Site nameOptional ts) (hk : b.keyword ∉ clauseWords) : s.word.isBlockName = true := by
  have hword : s.word.lexeme = .word b.keyword := by simpa [Token.isWord] using s.word_is
  simp [Token.isBlockName, Token.word?, hword, hk]

/-- **Two blocks that are found in the same tokens and share an own token are blocks of one keyword:
they have the same opening brace, and so the same header.** -/
theorem keyword_eq_of_shared {ts : List Token} {b b' : Block} (hordered : Ordered ts)
    (s : b.Site false ts) (s' : b'.Site false ts) (hk : b.keyword ∉ clauseWords)
    (hk' : b'.keyword ∉ clauseWords) {t : Token} (ht : t ∈ b.ownTokens) (ht' : t ∈ b'.ownTokens) :
    b.keyword = b'.keyword := by
  obtain ⟨l, back, hbody, hl⟩ := exists_of_mem_ownTokensFrom s.balanced ht
  obtain ⟨l', back', hbody', hl'⟩ := exists_of_mem_ownTokensFrom s'.balanced ht'
  have hsplit : ts = (s.before ++ s.word :: s.clauses ++ s.opening :: l)
      ++ t :: (back ++ s.closing :: s.behind) := by
    conv_lhs => rw [s.tokens_eq, hbody]
    simp
  have hsplit' : ts = (s'.before ++ s'.word :: s'.clauses ++ s'.opening :: l')
      ++ t :: (back' ++ s'.closing :: s'.behind) := by
    conv_lhs => rw [s'.tokens_eq, hbody']
    simp
  have hnodup := hordered.nodup
  rw [hsplit, List.nodup_append, List.nodup_cons] at hnodup
  have hfront := ((List.append_cons_inj_of_notMem
    (fun hx => hnodup.2.2 t hx t List.mem_cons_self rfl) hnodup.2.1.1).mp
    (hsplit.symm.trans hsplit')).1
  have hheads := (innermost_unique s.opens s'.opens hl hl' hfront).1
  have hword := word_eq_of_shared_header hheads (s.isBlockName hk) (s'.isBlockName hk')
    s.neighbours s'.neighbours (s.named rfl) (s'.named rfl)
  have hlexeme : s.word.lexeme = .word b.keyword := by simpa [Token.isWord] using s.word_is
  have hlexeme' : s'.word.lexeme = .word b'.keyword := by simpa [Token.isWord] using s'.word_is
  rw [hword, hlexeme'] at hlexeme
  exact (Lexeme.word.inj hlexeme).symm

end ContextAtlas
