/-
# What a scan finds, and where

A scan goes through its tokens once.  A block that it finds is a stretch of them, with a balanced
body, and behind tokens that leave nothing open it finds what it would find on its own.

* `scanFrom_append`: a scan of tokens behind tokens that close what they open;
* `Block.Site`: where a block stands, and `exists_site`: every block that is found stands somewhere;
* `Block.FoundIn`: the blocks that are found at any depth;
* `places_sublist`: the keywords, opening braces and bodies of the blocks that are found follow each
  other, so no two of them share a token;
* `skipped_sublist`: what is left open are keywords of the scan, each told once.
-/
import ContextAtlas.Proofs.Block.Balance
import ContextAtlas.Proofs.Block.Header

namespace ContextAtlas

/-! ## 1. Tokens that leave nothing open -/

/-- Tokens after which a document could end: every opening brace is closed among them, and the last
of them, if there is one, is a closing brace. -/
structure SelfContained (ts : List Token) : Prop where
  closed : Closed ts
  ends : ∀ t ∈ ts.getLast?, t.is .closeBrace = true

theorem SelfContained.of_append {ts us : List Token} (h : SelfContained (ts ++ us)) :
    SelfContained us where
  closed := h.closed.of_append
  ends := fun t ht => h.ends t (by simp_all)

theorem SelfContained.of_cons {t : Token} {us : List Token} (h : SelfContained (t :: us)) :
    SelfContained us :=
  (show SelfContained ([t] ++ us) from h).of_append

theorem getLast?_cons_or (t : Token) (r : List Token) (before : Option Token) :
    (t :: r).getLast?.or before = r.getLast?.or (some t) := by
  rw [List.getLast?_cons]
  cases r.getLast? <;> rfl

theorem getLast?_append_or (ts us : List Token) (before : Option Token) :
    (ts ++ us).getLast?.or before = us.getLast?.or (ts.getLast?.or before) := by
  rw [List.getLast?_append, Option.or_assoc]

/-- **A scan reads tokens behind others as if it started there, if those leave nothing open.** -/
theorem scanFrom_append {keyword : String} {nameOptional : Bool} {before : Option Token}
    {ts : List Token} (h : SelfContained ts) (us : List Token) :
    scanFrom keyword nameOptional before (ts ++ us)
      = scanFrom keyword nameOptional before ts
        ++ scanFrom keyword nameOptional (ts.getLast?.or before) us := by
  -- A keyword is no closing brace, so one stands behind it.
  have hlast : ∀ {t : Token} {r : List Token}, t.isWord keyword = true → SelfContained (t :: r) →
      ∃ q c, r = q ++ [c] ∧ c.is .closeBrace = true := by
    intro t r ht htr
    rcases List.eq_nil_or_concat r with rfl | ⟨q, c, rfl⟩
    · have hclose := htr.ends t rfl
      have ht' : t.lexeme = .word keyword := by simpa [Token.isWord] using ht
      simp [Token.is, ht'] at hclose
    · rw [List.concat_eq_append] at htr ⊢
      exact ⟨q, c, rfl, htr.of_cons.ends c (by simp)⟩
  fun_induction scanFrom keyword nameOptional before ts with
  | case1 => simp
  | case2 before t r hk hh ih =>
    obtain ⟨q, c, rfl, hc⟩ := hlast hk h
    have hh' : Header.read? nameOptional (q ++ [c] ++ us) = none := by
      rw [List.append_assoc, List.singleton_append, Header.read?_append hc, hh, Option.map_none]
    rw [List.cons_append, scanFrom_of_no_header hk hh', ih h.of_cons, getLast?_cons_or]
  | case3 before t r hk header opener inner hh hb ih =>
    obtain ⟨run, rfl, ho, -⟩ := exists_of_readHeader hh
    have hcloses : Closes inner := h.of_cons.closed run opener inner rfl ho
    exact absurd hb (splitBody_ne_none_iff.mpr hcloses)
  | case4 before t r hk header opener inner hh body closer rest hb ih =>
    obtain ⟨q, c, rfl, hc⟩ := hlast hk h
    have hh' : Header.read? nameOptional (q ++ [c] ++ us) = some (header, opener, inner ++ us) := by
      rw [List.append_assoc, List.singleton_append, Header.read?_append hc, hh, Option.map_some]
    obtain ⟨run, hr, -⟩ := exists_of_readHeader hh
    have hinner := eq_of_splitBody hb
    have hsplit : t :: (q ++ [c]) = (t :: run ++ opener :: body) ++ closer :: rest := by
      rw [hr, hinner]
      simp
    have hrest : SelfContained rest := by
      rw [hsplit] at h
      exact h.of_append.of_cons
    rw [List.cons_append, scanFrom_of_block hk hh' (splitBody_append hb us), ih hrest, hsplit,
      getLast?_append_or, getLast?_cons_or, List.cons_append]
  | case5 before t r hk ih =>
    rw [List.cons_append, scanFrom_of_not_keyword (by simpa using hk), ih h.of_cons,
      getLast?_cons_or]

/-- The token in front of a scan only matters when it says `abstract`. -/
theorem scanFrom_congr_before {keyword : String} {nameOptional : Bool}
    {before before' : Option Token}
    (h : before.any (·.isWord "abstract") = before'.any (·.isWord "abstract")) (ts : List Token) :
    scanFrom keyword nameOptional before ts = scanFrom keyword nameOptional before' ts := by
  cases ts with
  | nil => rw [scanFrom_nil, scanFrom_nil]
  | cons t r =>
    by_cases ht : t.isWord keyword = true
    · cases hh : Header.read? nameOptional r with
      | none => rw [scanFrom_of_no_header ht hh, scanFrom_of_no_header ht hh]
      | some x =>
        obtain ⟨header, opener, inner⟩ := x
        cases hb : splitBody 0 inner with
        | none => rw [scanFrom_of_open ht hh hb, scanFrom_of_open ht hh hb]
        | some y =>
          obtain ⟨body, closer, rest⟩ := y
          rw [scanFrom_of_block ht hh hb, scanFrom_of_block ht hh hb, h]
    · rw [Bool.not_eq_true] at ht
      rw [scanFrom_of_not_keyword ht, scanFrom_of_not_keyword ht]

theorem scanBlocks_append {keyword : String} {nameOptional : Bool} {ts : List Token}
    (h : SelfContained ts) (us : List Token) :
    scanBlocks keyword nameOptional (ts ++ us)
      = scanBlocks keyword nameOptional ts ++ scanBlocks keyword nameOptional us := by
  unfold scanBlocks
  rw [scanFrom_append h]
  refine congrArg _ (scanFrom_congr_before ?_ us)
  cases hl : ts.getLast? with
  | none => rfl
  | some t =>
    have ht : t.lexeme = .mark .closeBrace := by simpa [Token.is] using h.ends t hl
    simp [Token.isWord, ht]

/-! ## 2. Where a block stands -/

/-- Where a block stands in a run of tokens. -/
structure Block.Site (nameOptional : Bool) (ts : List Token) (b : Block) where
  before : List Token
  word : Token
  clauses : List Token
  opening : Token
  closing : Token
  behind : List Token
  tokens_eq : ts = before ++ word :: (clauses ++ opening :: (b.body ++ closing :: behind))
  word_is : word.isWord b.keyword = true
  start_eq : b.start = word.position
  opener_eq : b.opener = opening.position
  closer_eq : b.closer = closing.position
  header_eq : Header.read? nameOptional (clauses ++ opening :: (b.body ++ [closing]))
    = some (b.header, opening, b.body ++ [closing])
  opens : opening.is .openBrace = true
  closes : closing.is .closeBrace = true
  balanced : Balanced b.body
  neighbours : clauses.IsChain NotBothNames
  named : nameOptional = false → ∃ t ∈ clauses.head?, t.isBlockName = true

/-- A block stands in more tokens too. -/
def Block.Site.append {nameOptional : Bool} {ts : List Token} {b : Block}
    (s : b.Site nameOptional ts) (front back : List Token) :
    b.Site nameOptional (front ++ ts ++ back) :=
  { s with
    before := front ++ s.before
    behind := s.behind ++ back
    tokens_eq := by
      conv_lhs => rw [s.tokens_eq]
      simp }

theorem Block.Site.mem_of_mem {nameOptional : Bool} {ts : List Token} {b : Block}
    (s : b.Site nameOptional ts) {t : Token}
    (h : t ∈ s.before ++ s.word :: (s.clauses ++ s.opening :: (b.body ++ s.closing :: s.behind))) :
    t ∈ ts := by
  rwa [← s.tokens_eq] at h

theorem Block.Site.word_mem {nameOptional : Bool} {ts : List Token} {b : Block}
    (s : b.Site nameOptional ts) : s.word ∈ ts := s.mem_of_mem (by simp)

theorem Block.Site.opening_mem {nameOptional : Bool} {ts : List Token} {b : Block}
    (s : b.Site nameOptional ts) : s.opening ∈ ts := s.mem_of_mem (by simp)

theorem Block.Site.closing_mem {nameOptional : Bool} {ts : List Token} {b : Block}
    (s : b.Site nameOptional ts) : s.closing ∈ ts := s.mem_of_mem (by simp)

theorem Block.Site.body_infix {nameOptional : Bool} {ts : List Token} {b : Block}
    (s : b.Site nameOptional ts) : b.body <:+: ts := by
  refine ⟨s.before ++ s.word :: (s.clauses ++ [s.opening]), s.closing :: s.behind, ?_⟩
  conv_rhs => rw [s.tokens_eq]
  simp

section

variable {keyword : String} {nameOptional : Bool} {before : Option Token} {ts : List Token}

theorem exists_site_of_mem_scanFrom {b : Block}
    (hb : b ∈ matchedValues (scanFrom keyword nameOptional before ts)) :
    b.keyword = keyword ∧ Nonempty (b.Site nameOptional ts) := by
  fun_induction scanFrom keyword nameOptional before ts with
  | case1 => simp [matchedValues] at hb
  | case2 before t r hk hh ih =>
    obtain ⟨hkey, ⟨s⟩⟩ := ih hb
    exact ⟨hkey, ⟨by simpa using s.append [t] []⟩⟩
  | case3 before t r hk header opener inner hh hbody ih =>
    obtain ⟨hkey, ⟨s⟩⟩ := ih hb
    obtain ⟨run, rfl, -⟩ := exists_of_readHeader hh
    exact ⟨hkey, ⟨by simpa using s.append (t :: run ++ [opener]) []⟩⟩
  | case4 before t r hk header opener inner hh body closer rest hbody ih =>
    obtain ⟨run, rfl, ho, hchain, hnamed⟩ := exists_of_readHeader hh
    obtain ⟨rfl, hc, hbalanced⟩ := splitBody_eq_some_iff.mp hbody
    have hheader := Header.read?_in_front hc hh
    rw [matchedValues_matched] at hb
    rcases List.mem_cons.mp hb with rfl | hb
    · exact ⟨rfl, ⟨{
        before := []
        word := t
        clauses := run
        opening := opener
        closing := closer
        behind := rest
        tokens_eq := rfl
        word_is := hk
        start_eq := rfl
        opener_eq := rfl
        closer_eq := rfl
        header_eq := hheader
        opens := ho
        closes := hc
        balanced := hbalanced
        neighbours := hchain
        named := hnamed }⟩⟩
    · obtain ⟨hkey, ⟨s⟩⟩ := ih hb
      exact ⟨hkey, ⟨by simpa using s.append (t :: run ++ opener :: body ++ [closer]) []⟩⟩
  | case5 before t r hk ih =>
    obtain ⟨hkey, ⟨s⟩⟩ := ih hb
    exact ⟨hkey, ⟨by simpa using s.append [t] []⟩⟩

/-! ## 3. Places -/

/-- The places of a block's keyword, of its opening brace, and of the tokens in its body. -/
def Block.places (b : Block) : List Position :=
  b.start :: b.opener :: b.body.map Token.position

/-- **The blocks that are found take up different tokens, in order.** -/
theorem places_sublist :
    ((matchedValues (scanFrom keyword nameOptional before ts)).flatMap Block.places).Sublist
      (ts.map Token.position) := by
  fun_induction scanFrom keyword nameOptional before ts with
  | case1 => simp
  | case2 before t r hk hh ih => exact ih.cons _
  | case3 before t r hk header opener inner hh hbody ih =>
    obtain ⟨run, rfl, -⟩ := exists_of_readHeader hh
    refine List.Sublist.cons _ ?_
    rw [matchedValues_skipped, List.map_append, List.map_cons]
    exact (ih.cons _).trans (List.sublist_append_right _ _)
  | case4 before t r hk header opener inner hh body closer rest hbody ih =>
    obtain ⟨run, rfl, -⟩ := exists_of_readHeader hh
    have hinner := eq_of_splitBody hbody
    subst hinner
    rw [matchedValues_matched, List.flatMap_cons, Block.places, List.cons_append, List.cons_append,
      List.map_cons, List.map_append, List.map_cons, List.map_append, List.map_cons]
    refine List.Sublist.cons_cons _ ?_
    refine List.Sublist.trans ?_ (List.sublist_append_right _ _)
    exact (List.Sublist.append (List.Sublist.refl _) (ih.cons _)).cons_cons _
  | case5 before t r hk ih => exact ih.cons _

/-- Where a token stands, as a report tells it. -/
def Token.place (t : Token) : Nat × Nat := (t.position.line, t.position.column)

/-- Where the first token of a skipped run stands. -/
def Skipped.place (s : Skipped) : Nat × Nat := (s.line, s.column)

theorem Skipped.place_ofTokens (reason : SkipReason) (t : Token) (r : List Token) :
    (Skipped.ofTokens reason (t :: r)).place = t.place := rfl

/-- **What a scan leaves out starts with different keywords, in order.** -/
theorem skipped_sublist :
    ((skippedRuns (scanFrom keyword nameOptional before ts)).map Skipped.place).Sublist
      ((ts.filter (·.isWord keyword)).map Token.place) := by
  fun_induction scanFrom keyword nameOptional before ts with
  | case1 => simp
  | case2 before t r hk hh ih =>
    rw [List.filter_cons, if_pos hk]
    exact ih.cons _
  | case3 before t r hk header opener inner hh hbody ih =>
    obtain ⟨run, rfl, -⟩ := exists_of_readHeader hh
    have hsub : inner.Sublist (run ++ opener :: inner) :=
      ((List.Sublist.refl inner).cons opener).trans (List.sublist_append_right _ _)
    rw [List.filter_cons, if_pos hk, skippedRuns_skipped, List.map_cons, List.map_cons,
      Skipped.place_ofTokens]
    exact (ih.trans ((hsub.filter _).map _)).cons_cons _
  | case4 before t r hk header opener inner hh body closer rest hbody ih =>
    obtain ⟨run, rfl, -⟩ := exists_of_readHeader hh
    have hinner := eq_of_splitBody hbody
    have hsub : rest.Sublist (run ++ opener :: inner) := by
      rw [hinner]
      exact (((List.Sublist.refl rest).cons closer).trans (List.sublist_append_right _ _)).cons _
        |>.trans (List.sublist_append_right _ _)
    rw [List.filter_cons, if_pos hk, skippedRuns_matched]
    exact (ih.trans ((hsub.filter _).map _)).cons _
  | case5 before t r hk ih =>
    rw [List.filter_cons, if_neg hk]
    exact ih

/-- What a scan leaves out is a run of its tokens that starts with the keyword. -/
theorem exists_run_of_mem_scanFrom {e : Skipped}
    (he : e ∈ skippedRuns (scanFrom keyword nameOptional before ts)) :
    ∃ t r, t.isWord keyword = true ∧ t :: r <:+: ts
      ∧ e = .ofTokens .unterminatedBlock (t :: r) := by
  fun_induction scanFrom keyword nameOptional before ts with
  | case1 => simp at he
  | case2 before t r hk hh ih =>
    obtain ⟨u, run, hu, hrun, heq⟩ := ih he
    exact ⟨u, run, hu, hrun.trans (List.suffix_cons t r).isInfix, heq⟩
  | case3 before t r hk header opener inner hh hbody ih =>
    rw [skippedRuns_skipped] at he
    rcases List.mem_cons.mp he with rfl | he'
    · refine ⟨t, _, hk, ?_, rfl⟩
      exact (List.cons_prefix_cons.mpr ⟨rfl, List.take_prefix _ r⟩).isInfix
    · obtain ⟨clauses, rfl, -⟩ := exists_of_readHeader hh
      obtain ⟨u, run, hu, hrun, heq⟩ := ih he'
      refine ⟨u, run, hu, hrun.trans ?_, heq⟩
      exact ⟨t :: (clauses ++ [opener]), [], by simp⟩
  | case4 before t r hk header opener inner hh body closer rest hbody ih =>
    obtain ⟨clauses, rfl, -⟩ := exists_of_readHeader hh
    have hinner := eq_of_splitBody hbody
    obtain ⟨u, run, hu, hrun, heq⟩ := ih he
    refine ⟨u, run, hu, hrun.trans ?_, heq⟩
    exact ⟨t :: (clauses ++ opener :: (body ++ [closer])), [], by simp [hinner]⟩
  | case5 before t r hk ih =>
    obtain ⟨u, run, hu, hrun, heq⟩ := ih he
    exact ⟨u, run, hu, hrun.trans (List.suffix_cons t r).isInfix, heq⟩

end

/-! ## 4. Blocks in blocks -/

/-- A block that a scan of some tokens finds, or a scan inside such a block, and so on at any depth.
`nameOptional` is what the last of these scans was told. -/
inductive Block.FoundIn (ts : List Token) : Bool → Block → Prop
  | scan {keyword : String} {nameOptional : Bool} {b : Block}
      (h : b ∈ matchedValues (scanBlocks keyword nameOptional ts)) : FoundIn ts nameOptional b
  | nested {keyword : String} {outerOptional nameOptional : Bool} {outer b : Block}
      (houter : FoundIn ts outerOptional outer)
      (h : b ∈ matchedValues (outer.scan keyword nameOptional)) : FoundIn ts nameOptional b

/-- At whatever depth a block is found, it stands among all the tokens. -/
theorem Block.FoundIn.exists_site {ts : List Token} {nameOptional : Bool} {b : Block}
    (h : b.FoundIn ts nameOptional) : Nonempty (b.Site nameOptional ts) := by
  induction h with
  | scan h => exact (exists_site_of_mem_scanFrom h).2
  | @nested keyword outerOptional nameOptional outer b houter h ih =>
    obtain ⟨site⟩ := ih
    obtain ⟨-, ⟨inner⟩⟩ := exists_site_of_mem_scanFrom h
    obtain ⟨front, back, hts⟩ := site.body_infix
    exact ⟨hts ▸ inner.append front back⟩

end ContextAtlas
