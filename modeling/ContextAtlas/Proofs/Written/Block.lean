/-
# Reading written blocks

A written block is found by the scan for its keyword and by no other, and it ends where it should:
its body is balanced.  What stands in front of an opening brace is no line of the block around it,
so contexts and aggregates have no own lines, and the own lines of a domain object are its fields.

* `scanBlocks_blockRows`: the scan for its keyword finds a written block;
* `selfContained_blockRows`: and leaves nothing of it to what follows;
* `ownTokensFrom_blockRows`: a nested block leaves nothing to the block around it.
-/
import ContextAtlas.Proofs.Block.Lines
import ContextAtlas.Proofs.Written.Field

namespace ContextAtlas

open Source

/-! ## 1. Headers -/

section

variable {isAbstract : Bool} {keyword : String} {name : Name} {parent : Option Name}

/-- The lexemes of a header in front of its brace: words, and the sigil of a parent. -/
theorem mem_headerWords {x : Lexeme} (h : x ∈ headerWords isAbstract keyword name parent) :
    x = .word "abstract" ∨ x = .word keyword ∨ (∃ n : Name, x = .word n.text)
      ∨ x = .word "extends" ∨ x = .mark .sigil := by
  rw [headerWords, List.mem_append, List.mem_cons, List.mem_cons] at h
  rcases h with h | rfl | rfl | h
  · cases isAbstract with
    | false => simp at h
    | true => exact .inl (by simpa using h)
  · exact .inr (.inl rfl)
  · exact .inr (.inr (.inl ⟨name, rfl⟩))
  · cases parent with
    | none => simp [extendsClause] at h
    | some p =>
      simp only [extendsClause, List.mem_cons, List.not_mem_nil, or_false] at h
      rcases h with rfl | rfl | rfl
      · exact .inr (.inr (.inr (.inl rfl)))
      · exact .inr (.inr (.inr (.inr rfl)))
      · exact .inr (.inr (.inl ⟨p, rfl⟩))

theorem no_brace_headerWords {line : Nat} {t : Token}
    (h : t ∈ laidRow line (headerWords isAbstract keyword name parent)) :
    t.is .openBrace = false ∧ t.is .closeBrace = false := by
  rcases mem_headerWords (exists_of_mem_laidRow h).1 with hx | hx | ⟨n, hx⟩ | hx | hx <;>
    simp [Token.is, hx]

/-- What stands behind the keyword of a written header is read back. -/
theorem readHeader_laidRow (name : Name) (parent : Option Name) (line : Nat)
    (rest : List Token) :
    Header.read? false (laidRow line (.word name.text :: extendsClause parent)
        ++ ⟨.mark .openBrace, .ofLine line⟩ :: rest)
      = some (⟨some name.text, parent.map Name.text⟩, ⟨.mark .openBrace, .ofLine line⟩, rest) := by
  have hname : ∀ r, readBlockName false (⟨.word name.text, .ofLine line⟩ :: r)
      = some (some name.text, r) := by
    have hn : name.text ∉ clauseWords := fun h => name.not_reserved (by simp [reservedWords, h])
    intro r
    simp [readBlockName, Token.word?, hn]
  have hbrace : ∀ found : Option String,
      readClauses found (⟨.mark .openBrace, .ofLine line⟩ :: rest)
        = some (found, ⟨.mark .openBrace, .ofLine line⟩ :: rest) := by
    intro found
    rw [readClauses]
    rfl
  have hclauses : readClauses none (laidRow line (extendsClause parent)
      ++ ⟨.mark .openBrace, .ofLine line⟩ :: rest)
      = some (parent.map Name.text, ⟨.mark .openBrace, .ofLine line⟩ :: rest) := by
    cases parent with
    | none => exact hbrace none
    | some p =>
      have hp : (Token.mk (.word p.text) (.ofLine line)).is .sigil = false := by simp [Token.is]
      have hlast : ∀ u s, (⟨.mark .openBrace, .ofLine line⟩ :: rest : List Token) = u :: s →
          u.is .comma = false := by
        intro u s hus
        obtain ⟨rfl, -⟩ := List.cons.inj hus
        rfl
      have hnames : commaRun Token.word? (⟨.mark .sigil, .ofLine line⟩
          :: ⟨.word p.text, .ofLine line⟩ :: ⟨.mark .openBrace, .ofLine line⟩ :: rest)
          = ([p.text], ⟨.mark .openBrace, .ofLine line⟩ :: rest) := by
        rw [commaRun_of_sigil rfl, commaRun_of_last (a := p.text) hp rfl hlast]
      have hextends : "extends" ∈ clauseWords := by decide
      rw [extendsClause, laidRow_cons, List.cons_append, readClauses]
      simp only [Token.word?, laidRow_cons, laidRow_nil, List.cons_append, List.nil_append,
        hextends, if_true, hnames, hbrace]
      rfl
  rw [laidRow_cons, List.cons_append, Header.read?]
  simp only [hname, hclauses, Option.bind_eq_bind, Option.bind_some]
  rfl

end

/-! ## 2. Blocks -/

/-- The block that is found where a written one is laid out. -/
def blockAt (line : Nat) (isAbstract : Bool) (keyword : String) (name : Name)
    (parent : Option Name) (inner : List (List Lexeme)) : Block where
  keyword := keyword
  header := ⟨some name.text, parent.map Name.text⟩
  isAbstract := isAbstract
  start := .ofLine line
  opener := .ofLine line
  closer := .ofLine (line + 1 + inner.length)
  body := laid (line + 1) inner

section

variable {isAbstract : Bool} {keyword : String} {name : Name} {parent : Option Name}
  {inner : List (List Lexeme)}

theorem laid_blockRows (line : Nat) :
    laid line (blockRows (headerRow isAbstract keyword name parent) inner)
      = laidRow line (headerWords isAbstract keyword name parent)
        ++ ⟨.mark .openBrace, .ofLine line⟩
          :: (laid (line + 1) inner
            ++ [⟨.mark .closeBrace, .ofLine (line + 1 + inner.length)⟩]) := by
  rw [blockRows, laid, laid_append, headerRow, laidRow_append, List.append_assoc]
  rfl

/-- A scan for another keyword finds nothing. -/
theorem scanFrom_of_not_mem {nameOptional : Bool} : ∀ {before : Option Token} {ts : List Token},
    (∀ t ∈ ts, t.isWord keyword = false) → scanFrom keyword nameOptional before ts = []
  | _, [], _ => scanFrom_nil
  | _, t :: r, h => by
    rw [scanFrom_of_not_keyword (h t List.mem_cons_self)]
    exact scanFrom_of_not_mem fun u hu => h u (List.mem_cons_of_mem t hu)

/-- **The scan for its keyword finds a written block.** -/
theorem scanBlocks_blockRows (line : Nat) (hkeyword : keyword ≠ "abstract")
    (hinner : Balanced (laid (line + 1) inner)) :
    scanBlocks keyword false
        (laid line (blockRows (headerRow isAbstract keyword name parent) inner))
      = [.matched (blockAt line isAbstract keyword name parent inner)] := by
  have hbody : splitBody 0 (laid (line + 1) inner
      ++ [⟨.mark .closeBrace, .ofLine (line + 1 + inner.length)⟩]) = _ := hinner.splitBody rfl
  have hheader := readHeader_laidRow name parent line
    (laid (line + 1) inner ++ [⟨.mark .closeBrace, .ofLine (line + 1 + inner.length)⟩])
  have hblock : ∀ before : Option Token, before.any (·.isWord "abstract") = isAbstract →
      scanFrom keyword false before (⟨.word keyword, .ofLine line⟩
        :: (laidRow line (.word name.text :: extendsClause parent)
          ++ ⟨.mark .openBrace, .ofLine line⟩
            :: (laid (line + 1) inner ++ [⟨.mark .closeBrace, .ofLine (line + 1 + inner.length)⟩])))
        = [.matched (blockAt line isAbstract keyword name parent inner)] := by
    intro before hbefore
    rw [scanFrom_of_block (by simp [Token.isWord]) hheader hbody, scanFrom_nil, hbefore]
    rfl
  rw [laid_blockRows, scanBlocks, headerWords]
  cases isAbstract with
  | false => exact hblock none rfl
  | true =>
    have hskip : (Token.mk (.word "abstract") (.ofLine line)).isWord keyword = false := by
      simp [Token.isWord, hkeyword.symm]
    exact (scanFrom_of_not_keyword hskip).trans (hblock _ rfl)

theorem balanced_blockRows (line : Nat) (hinner : Balanced (laid (line + 1) inner)) :
    Balanced (laid line (blockRows (headerRow isAbstract keyword name parent) inner)) := by
  rw [laid_blockRows]
  refine (balanced_of_no_brace fun t ht => no_brace_headerWords ht).append ?_
  exact hinner.group rfl rfl

theorem selfContained_blockRows (line : Nat) (hinner : Balanced (laid (line + 1) inner)) :
    SelfContained (laid line (blockRows (headerRow isAbstract keyword name parent) inner)) where
  closed := (balanced_blockRows line hinner).closed
  ends := by
    rw [laid_blockRows]
    intro t ht
    simp only [List.getLast?_append, List.getLast?_cons, List.getLast?_nil, Option.mem_def] at ht
    obtain rfl := Option.some.inj ht
    rfl

/-! ## 3. Own lines -/

/-- Nothing in a nested group is an own token. -/
theorem ownTokensFrom_nested {braceLine : Nat} : ∀ {depth e : Nat} {ts : List Token}
    (us : List Token), openAfter? depth ts = some e →
    ownTokensFrom braceLine (depth + 1) (ts ++ us) = ownTokensFrom braceLine (e + 1) us
  | depth, e, [], us, h => by
    obtain rfl := Option.some.inj h
    rfl
  | depth, e, t :: r, us, h => by
    rw [List.cons_append, ownTokensFrom]
    by_cases ho : t.is .openBrace = true
    · rw [openAfter?_open ho] at h
      rw [if_pos ho]
      exact ownTokensFrom_nested us h
    · by_cases hc : t.is .closeBrace = true
      · rw [if_neg ho, if_pos hc]
        cases depth with
        | zero => simp [openAfter?_close_zero hc] at h
        | succ d =>
          rw [openAfter?_close hc] at h
          exact ownTokensFrom_nested us h
      · rw [if_neg ho, if_neg hc]
        rw [Bool.not_eq_true] at ho hc
        rw [openAfter?_other ho hc] at h
        simp only [Nat.succ_ne_zero, decide_false, Bool.false_and, Bool.false_eq_true, if_false]
        exact ownTokensFrom_nested us h

/-- Nothing on a line in front of an opening brace is an own token. -/
theorem ownTokensFrom_header {braceLine line : Nat} {o : Token} (ho : o.is .openBrace = true)
    (hol : o.line = line) (us : List Token) : ∀ {ts : List Token}, (∀ t ∈ ts, t.line = line) →
    (∀ t ∈ ts, t.is .openBrace = false ∧ t.is .closeBrace = false) →
    ownTokensFrom braceLine 0 (ts ++ o :: us) = ownTokensFrom braceLine 1 us
  | [], _, _ => by rw [List.nil_append, ownTokensFrom, if_pos ho]
  | t :: r, hline, hbrace => by
    have ht := hbrace t List.mem_cons_self
    have hr : ∀ u ∈ r, u.line = line := fun u hu => hline u (List.mem_cons_of_mem t hu)
    have hopens : opensGroup 0 ((r ++ o :: us).takeWhile fun u => u.line == t.line) = true := by
      rw [hline t List.mem_cons_self, opensGroup_zero,
        List.takeWhile_append_of_pos fun u hu => by simp [hr u hu],
        List.takeWhile_cons_of_pos (by simp [hol])]
      simp [ho]
    rw [List.cons_append, ownTokensFrom, hopens]
    simp only [ht.1, ht.2, Bool.not_true, Bool.and_false, Bool.false_eq_true, if_false]
    exact ownTokensFrom_header ho hol us hr fun u hu => hbrace u (List.mem_cons_of_mem t hu)

/-- A written block is nested as a whole. -/
theorem ownTokensFrom_blockRows {braceLine : Nat} (line : Nat) (us : List Token)
    (hinner : Balanced (laid (line + 1) inner)) :
    ownTokensFrom braceLine 0
        (laid line (blockRows (headerRow isAbstract keyword name parent) inner) ++ us)
      = ownTokensFrom braceLine 0 us := by
  have hopening : (Token.mk (.mark .openBrace) (.ofLine line)).line = line := rfl
  rw [laid_blockRows, List.append_assoc, List.cons_append, List.append_assoc,
    ownTokensFrom_header rfl hopening _ (fun t ht => (exists_of_mem_laidRow ht).2)
      (fun t ht => no_brace_headerWords ht),
    ownTokensFrom_nested _ hinner]
  rfl

/-- Without braces everything on the lines below the opening brace is an own token. -/
theorem ownTokensFrom_eq_self {braceLine : Nat} : ∀ {ts : List Token},
    (∀ t ∈ ts, t.line ≠ braceLine ∧ t.is .openBrace = false ∧ t.is .closeBrace = false) →
    ownTokensFrom braceLine 0 ts = ts
  | [], _ => rfl
  | t :: r, h => by
    have ⟨hline, ho, hc⟩ := h t List.mem_cons_self
    have hr : ∀ u ∈ r, u.line ≠ braceLine ∧ u.is .openBrace = false ∧ u.is .closeBrace = false :=
      fun u hu => h u (List.mem_cons_of_mem t hu)
    have hopens : opensGroup 0 (r.takeWhile fun u => u.line == t.line) = false := by
      rw [opensGroup_zero, List.any_eq_false]
      intro u hu
      simp [(hr u (List.takeWhile_subset _ hu)).2.1]
    rw [ownTokensFrom, hopens, ownTokensFrom_eq_self hr]
    simp [ho, hc, hline]

end

end ContextAtlas
