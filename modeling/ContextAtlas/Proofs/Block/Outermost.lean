/-
# The scan finds the outermost blocks

The scan jumps: over one token when nothing starts there, behind an opening brace when the block
never closes, behind a closing brace when it does.  Its result is said here without any walk, by
indices.  A candidate is a keyword with a readable header; it is closed where the braces counted
from its opening brace return to zero for the first time.

* `closedAt_iff`: the closing brace is the one at which `splitBody` splits;
* `Candidate.eq_of_within`: a candidate in the header of another opens at the same brace;
* `scanBlocks_finds_outermost`: one outcome, in order, for each candidate that stands neither in the
  span of a closed candidate nor in the header of one that is never closed; so no closed candidate
  is missed that is outermost.

A header can only hold a second candidate if the keyword is one of the words that open a clause, as
in `extends Foo extends Bar {`; `scanBlocks_passes_over_clause` is that input.  If the first
candidate is closed, then the second stands in its span; if not, then neither is closed.
-/
import ContextAtlas.Proofs.Block.Scan

namespace ContextAtlas

/-! ## 1. Headers hold no braces -/

/-- Whether a token is a brace. -/
def Token.isBrace (t : Token) : Bool := t.is .openBrace || t.is .closeBrace

theorem Token.isBrace_of_word {t : Token} {w : String} (h : t.word? = some w) :
    t.isBrace = false := by
  obtain ⟨x, p⟩ := t
  cases x <;> simp [Token.word?, Token.isBrace, Token.is] at h ⊢

theorem Token.isBrace_of_is {t : Token} {m : Mark} (ho : m ≠ .openBrace) (hc : m ≠ .closeBrace)
    (h : t.is m = true) : t.isBrace = false := by
  have ht : t.lexeme = .mark m := by simpa [Token.is] using h
  simp [Token.isBrace, Token.is, ht, ho, hc]

theorem countP_isBrace_commaRun (ts : List Token) :
    (commaRun Token.word? ts).2.countP Token.isBrace = ts.countP Token.isBrace := by
  fun_induction commaRun Token.word? ts with
  | case1 => rfl
  | case2 t r ht ih =>
    rw [ih, List.countP_cons_of_neg]
    simp [Token.isBrace_of_is (by decide) (by decide) ht]
  | case3 => rfl
  | case4 t ht w p s hw ih =>
    rw [ih, List.countP_cons_of_neg (by simp [Token.isBrace_of_word hw]),
      List.countP_cons_of_neg (by simp [Token.isBrace, Token.is])]
  | case5 t r ht w hw => rw [List.countP_cons_of_neg (by simp [Token.isBrace_of_word hw])]

theorem countP_isBrace_readClauses {parent found : Option String} {ts rest : List Token}
    (h : readClauses parent ts = some (found, rest)) :
    rest.countP Token.isBrace = ts.countP Token.isBrace := by
  fun_induction readClauses parent ts with
  | case1 => simp_all
  | case2 => simp_all
  | case3 => simp at h
  | case4 parent t r w hw _ target _ _ ih =>
    rw [ih h, countP_isBrace_commaRun,
      List.countP_cons_of_neg (by simp [Token.isBrace_of_word hw])]
  | case5 => simp_all

theorem countP_isBrace_readBlockName {nameOptional : Bool} {name : Option String}
    {ts rest : List Token} (h : readBlockName nameOptional ts = some (name, rest)) :
    rest.countP Token.isBrace = ts.countP Token.isBrace := by
  unfold readBlockName at h
  split at h
  · rename_i w hw
    split at h
    · obtain ⟨-, rfl⟩ := by simpa using h
      cases ts with
      | nil => rfl
      | cons t r =>
        rw [List.tail_cons, List.countP_cons_of_neg (by simp [Token.isBrace_of_word hw])]
    · split at h <;> simp_all
  · split at h <;> simp_all

/-- Between a keyword and the opening brace of its header there is no brace. -/
theorem no_brace_of_readHeader {nameOptional : Bool} {header : Header} {run inner : List Token}
    {o : Token}
    (h : Header.read? nameOptional (run ++ o :: inner) = some (header, o, inner)) :
    ∀ t ∈ run, t.isBrace = false := by
  simp only [Header.read?, Option.bind_eq_bind, Option.bind_eq_some_iff] at h
  obtain ⟨⟨name, afterName⟩, hname, ⟨parent, afterClauses⟩, hclauses, h⟩ := h
  have hrest : afterClauses = o :: inner := by
    cases afterClauses with
    | nil => simp at h
    | cons t r => by_cases ht : t.is .openBrace = true <;> simp_all
  have hcount : (run ++ o :: inner).countP Token.isBrace = (o :: inner).countP Token.isBrace := by
    rw [← countP_isBrace_readBlockName hname, ← countP_isBrace_readClauses hclauses, hrest]
  rw [List.countP_append] at hcount
  have hzero : run.countP Token.isBrace = 0 := by omega
  intro t ht
  simpa using List.countP_eq_zero.mp hzero t ht

/-! ## 2. Candidates and their ends, by index -/

/-- A keyword at index `i` with a readable header behind it, whose opening brace stands at index
`o`. -/
structure Candidate (keyword : String) (ts : List Token) (i : Nat) (header : Header) (o : Nat) :
    Prop where
  isKeyword : ∃ t, ts[i]? = some t ∧ t.isWord keyword = true
  hasHeader : ∃ t, ts[o]? = some t
    ∧ Header.read? false (ts.drop (i + 1)) = some (header, t, ts.drop (o + 1))

/-- The braces counted from index `o` to index `k`, an opening one up and a closing one down. -/
def braceDepth (ts : List Token) (o k : Nat) : Int :=
  (((ts.drop o).take (k + 1 - o)).countP (·.is .openBrace) : Int)
    - ((ts.drop o).take (k + 1 - o)).countP (·.is .closeBrace)

/-- Index `c` is the first behind `o` at which the braces counted from `o` return to zero. -/
structure ClosedAt (ts : List Token) (o c : Nat) : Prop where
  behind : o < c
  returns : braceDepth ts o c = 0
  first : ∀ k, o ≤ k → k < c → braceDepth ts o k ≠ 0

section

variable {keyword : String} {ts : List Token} {i j o o' c c' k : Nat} {header header' : Header}
  {t u : Token}

/-- The token at an index and the tokens behind it. -/
theorem drop_eq_cons_iff {r : List Token} :
    ts.drop i = t :: r ↔ ts[i]? = some t ∧ r = ts.drop (i + 1) := by
  constructor
  · intro h
    refine ⟨?_, ?_⟩
    · rw [← Nat.add_zero i, ← List.getElem?_drop, h]
      rfl
    · rw [← List.drop_drop, h]
      rfl
  · rintro ⟨h, rfl⟩
    obtain ⟨hi, rfl⟩ := List.getElem?_eq_some_iff.mp h
    exact List.drop_eq_getElem_cons hi

theorem braceDepth_eq (ho : ts[o]? = some t) (hopen : t.is .openBrace = true) (n : Nat) :
    braceDepth ts o (o + n)
      = 1 + (((ts.drop (o + 1)).take n).countP (·.is .openBrace) : Int)
        - ((ts.drop (o + 1)).take n).countP (·.is .closeBrace) := by
  have hdrop : ts.drop o = t :: ts.drop (o + 1) := drop_eq_cons_iff.mpr ⟨ho, rfl⟩
  have hlen : o + n + 1 - o = n + 1 := by omega
  rw [braceDepth, hdrop, hlen, List.take_succ_cons, List.countP_cons, List.countP_cons,
    if_pos hopen, Token.not_close_of_open hopen, if_neg Bool.false_ne_true]
  push_cast
  omega

/-- Inside a body the count never returns to zero, and at its closing brace it does. -/
theorem closedAt_of_splitBody {body rest : List Token} (ho : ts[o]? = some t)
    (hopen : t.is .openBrace = true)
    (hs : splitBody 0 (ts.drop (o + 1)) = some (body, u, rest)) :
    ClosedAt ts o (o + 1 + body.length) := by
  obtain ⟨hinner, hclose, hbalanced⟩ := splitBody_eq_some_iff.mp hs
  have hcount := openAfter?_count hbalanced
  have hnot : u.is .openBrace = false := by
    rw [← Bool.not_eq_true]
    intro h
    simp [Token.not_close_of_open h] at hclose
  refine ⟨by omega, ?_, ?_⟩
  · rw [Nat.add_assoc, braceDepth_eq ho hopen, hinner, Nat.add_comm 1, List.take_length_add_append,
      List.take_succ_cons, List.take_zero, List.countP_append, List.countP_append,
      List.countP_singleton, List.countP_singleton, hclose, hnot]
    push_cast
    simp
    omega
  · intro k hk hkc
    obtain ⟨n, rfl⟩ := Nat.exists_eq_add_of_le hk
    have htake : (ts.drop (o + 1)).take n = body.take n := by
      rw [hinner, List.take_append_of_le_length (by omega)]
    have hprefix : openAfter? 0 (body.take n ++ body.drop n) = some 0 := by
      rwa [List.take_append_drop]
    rw [openAfter?_append] at hprefix
    obtain ⟨e, he, -⟩ := Option.bind_eq_some_iff.mp hprefix
    have := openAfter?_count he
    rw [braceDepth_eq ho hopen, htake]
    omega

theorem ClosedAt.unique (h : ClosedAt ts o c) (h' : ClosedAt ts o c') : c = c' := by
  rcases Nat.lt_trichotomy c c' with hlt | heq | hgt
  · exact absurd h.returns (h'.first c (Nat.le_of_lt h.behind) hlt)
  · exact heq
  · exact absurd h'.returns (h.first c' (Nat.le_of_lt h'.behind) hgt)

/-- **A group is closed at the brace that splits its body off.** -/
theorem closedAt_iff (ho : ts[o]? = some t) (hopen : t.is .openBrace = true) :
    ClosedAt ts o c ↔ ∃ body u rest, splitBody 0 (ts.drop (o + 1)) = some (body, u, rest)
      ∧ c = o + 1 + body.length := by
  constructor
  · intro h
    obtain ⟨n, rfl⟩ := Nat.exists_eq_add_of_lt h.behind
    have hreturns := h.returns
    rw [Nat.add_assoc, braceDepth_eq ho hopen] at hreturns
    have hcloses : Closes (ts.drop (o + 1)) :=
      ⟨(ts.drop (o + 1)).take (n + 1), List.take_prefix _ _, by omega⟩
    obtain ⟨⟨body, u, rest⟩, hs⟩ :=
      Option.ne_none_iff_exists'.mp (splitBody_ne_none_iff.mpr hcloses)
    exact ⟨body, u, rest, hs, h.unique (closedAt_of_splitBody ho hopen hs)⟩
  · rintro ⟨body, u, rest, hs, rfl⟩
    exact closedAt_of_splitBody ho hopen hs

/-! ## 3. Candidates in one another -/

theorem Candidate.of_readHeader {r inner : List Token} (ht : ts.drop i = t :: r)
    (hk : t.isWord keyword = true) (hh : Header.read? false r = some (header, u, inner)) :
    ∃ o, i < o ∧ Candidate keyword ts i header o ∧ ts[o]? = some u ∧ inner = ts.drop (o + 1) := by
  obtain ⟨hti, rfl⟩ := drop_eq_cons_iff.mp ht
  obtain ⟨run, hrun, -⟩ := exists_of_readHeader hh
  have hdrop : ts.drop (i + 1 + run.length) = u :: inner := by
    rw [← List.drop_drop, hrun, List.drop_left]
  obtain ⟨hu, rfl⟩ := drop_eq_cons_iff.mp hdrop
  exact ⟨i + 1 + run.length, by omega, ⟨⟨t, hti, hk⟩, ⟨u, hu, hh⟩⟩, hu, rfl⟩

theorem Candidate.lt (h : Candidate keyword ts i header o) : i < o := by
  obtain ⟨t, ho, hh⟩ := h.hasHeader
  have := length_lt_of_readHeader hh
  have := (List.getElem?_eq_some_iff.mp ho).1
  simp only [List.length_drop] at *
  omega

theorem Candidate.opens (h : Candidate keyword ts i header o) :
    ∃ t, ts[o]? = some t ∧ t.is .openBrace = true := by
  obtain ⟨t, ho, hh⟩ := h.hasHeader
  obtain ⟨-, -, hopen, -⟩ := exists_of_readHeader hh
  exact ⟨t, ho, hopen⟩

theorem Candidate.isBrace_eq_false (h : Candidate keyword ts i header o) (hk : ts[i]? = some t) :
    t.isBrace = false := by
  obtain ⟨u, hu, hword⟩ := h.isKeyword
  obtain rfl : u = t := by simpa [hu] using hk
  have hword' : u.lexeme = .word keyword := by simpa [Token.isWord] using hword
  exact Token.isBrace_of_word (w := keyword) (by simp [Token.word?, hword'])

/-- The tokens of a header, between its keyword and its opening brace. -/
theorem Candidate.exists_run (h : Candidate keyword ts i header o) :
    ∃ t, ts[o]? = some t
      ∧ ts.drop (i + 1) = (ts.drop (i + 1)).take (o - (i + 1)) ++ t :: ts.drop (o + 1)
      ∧ Header.read? false (ts.drop (i + 1)) = some (header, t, ts.drop (o + 1)) := by
  obtain ⟨t, ho, hh⟩ := h.hasHeader
  refine ⟨t, ho, ?_, hh⟩
  have hlt := h.lt
  conv_lhs => rw [← List.take_append_drop (o - (i + 1)) (ts.drop (i + 1))]
  rw [List.drop_drop, show i + 1 + (o - (i + 1)) = o by omega, drop_eq_cons_iff.mpr ⟨ho, rfl⟩]

theorem Candidate.isBrace_within (h : Candidate keyword ts i header o) (hik : i ≤ k) (hko : k < o)
    (hk : ts[k]? = some t) : t.isBrace = false := by
  rcases Nat.eq_or_lt_of_le hik with rfl | hlt
  · exact h.isBrace_eq_false hk
  · obtain ⟨u, -, hsplit, hh⟩ := h.exists_run
    rw [hsplit] at hh
    refine no_brace_of_readHeader hh t ?_
    obtain ⟨n, rfl⟩ := Nat.exists_eq_add_of_lt hlt
    refine List.mem_of_getElem? (i := n) ?_
    rw [List.getElem?_take_of_lt (by omega), List.getElem?_drop, ← hk]
    congr 1
    omega

/-- **A candidate in the header of another opens at the same brace.** -/
theorem Candidate.eq_of_within (h : Candidate keyword ts i header o)
    (h' : Candidate keyword ts j header' o') (hij : i ≤ j) (hjo : j ≤ o) : o' = o := by
  obtain ⟨t, ht, hopen⟩ := h.opens
  obtain ⟨t', ht', hopen'⟩ := h'.opens
  have hbrace : t.isBrace = true := by simp [Token.isBrace, hopen]
  have hbrace' : t'.isBrace = true := by simp [Token.isBrace, hopen']
  rcases Nat.lt_trichotomy o' o with hlt | heq | hgt
  · have := h.isBrace_within (Nat.le_trans hij (Nat.le_of_lt h'.lt)) hlt ht'
    simp [hbrace'] at this
  · exact heq
  · have := h'.isBrace_within hjo hgt ht
    simp [hbrace] at this

/-- A candidate inside a closed group opens and closes inside it. -/
theorem Candidate.closed_within (hc : ClosedAt ts o c) (ho : ts[o]? = some t)
    (hopen : t.is .openBrace = true) (h' : Candidate keyword ts j header' o') (hoj : o < j)
    (hjc : j ≤ c) : o' < c ∧ ∀ c', ClosedAt ts o' c' → c' < c := by
  obtain ⟨body, u, rest, hs, rfl⟩ := (closedAt_iff ho hopen).mp hc
  obtain ⟨hinner, hclose, hbalanced⟩ := splitBody_eq_some_iff.mp hs
  have hu : ts[o + 1 + body.length]? = some u := by
    rw [← List.getElem?_drop, hinner, List.getElem?_append_right (Nat.le_refl _), Nat.sub_self]
    rfl
  have hubrace : u.isBrace = true := by simp [Token.isBrace, hclose]
  obtain ⟨t', ht', hopen'⟩ := h'.opens
  -- A header holds no brace, so it ends in front of the closing one.
  have hlt : o' < o + 1 + body.length := by
    by_contra hge
    rcases Nat.eq_or_lt_of_le (Nat.le_of_not_lt hge) with heq | hgt
    · obtain rfl : u = t' := by simpa [← heq, hu] using ht'
      simp [Token.not_close_of_open hopen'] at hclose
    · have := h'.isBrace_within hjc hgt hu
      simp [hubrace] at this
  refine ⟨hlt, fun c' hc' => ?_⟩
  have hlt' := h'.lt
  obtain ⟨n, rfl⟩ := Nat.exists_eq_add_of_le (show o + 1 ≤ o' by omega)
  have hn : n < body.length := by omega
  have hat : body[n]? = some t' := by
    have happend : (body ++ u :: rest)[n]? = body[n]? := List.getElem?_append_left hn
    rw [← happend, ← hinner, List.getElem?_drop, ht']
  obtain ⟨hn', rfl⟩ := List.getElem?_eq_some_iff.mp hat
  have hbody : body = body.take n ++ body[n] :: body.drop (n + 1) := by
    rw [← List.drop_eq_getElem_cons hn', List.take_append_drop]
  have hcloses : Closes (body.drop (n + 1)) :=
    Balanced.closed (show Balanced body from hbalanced) _ _ _ hbody hopen'
  obtain ⟨⟨body', u', rest'⟩, hs'⟩ :=
    Option.ne_none_iff_exists'.mp (splitBody_ne_none_iff.mpr hcloses)
  have hdrop : ts.drop (o + 1 + n + 1) = body.drop (n + 1) ++ u :: rest := by
    rw [Nat.add_assoc, ← List.drop_drop, hinner, List.drop_append_of_le_length (by omega)]
  have hsplit := splitBody_append hs' (u :: rest)
  rw [← hdrop] at hsplit
  have heq := hc'.unique (closedAt_of_splitBody ht' hopen' hsplit)
  have hlength := congrArg List.length (eq_of_splitBody hs')
  simp only [List.length_append, List.length_cons, List.length_drop] at hlength
  omega

end

/-! ## 4. What a scan reports -/

/-- Whether index `i` stands in the span of an earlier candidate that is closed. -/
def InSpan (keyword : String) (ts : List Token) (i : Nat) : Prop :=
  ∃ j header o c, j < i ∧ Candidate keyword ts j header o ∧ ClosedAt ts o c ∧ i ≤ c

/-- Whether index `i` stands in the header of an earlier candidate that is never closed. -/
def InOpenHeader (keyword : String) (ts : List Token) (i : Nat) : Prop :=
  ∃ j header o, j < i ∧ Candidate keyword ts j header o ∧ (∀ c, ¬ ClosedAt ts o c) ∧ i ≤ o

/-- What the candidate at an index has to become: a block with the tokens between its braces, or a
skipped run of its keyword and header. -/
inductive FoundAt (keyword : String) (ts : List Token) (i : Nat) : Outcome Block → Prop
  | closed {header : Header} {o c : Nat} {word opener closer : Token}
      (candidate : Candidate keyword ts i header o) (closedAt : ClosedAt ts o c)
      (word_at : ts[i]? = some word) (opener_at : ts[o]? = some opener)
      (closer_at : ts[c]? = some closer) :
      FoundAt keyword ts i
        (.matched
          { keyword := keyword
            header := header
            isAbstract := (if i = 0 then none else ts[i - 1]?).any (·.isWord "abstract")
            start := word.position
            opener := opener.position
            closer := closer.position
            body := (ts.drop (o + 1)).take (c - (o + 1)) })
  | unterminated {header : Header} {o : Nat} (candidate : Candidate keyword ts i header o)
      (never : ∀ c, ¬ ClosedAt ts o c) :
      FoundAt keyword ts i
        (.skipped (.ofTokens .unterminatedBlock ((ts.drop i).take (o + 1 - i))))

/-- Every candidate in front of index `k` has its header and its group in front of it, too: a scan
that goes on there has nothing behind it to look back at. -/
def Settled (keyword : String) (ts : List Token) (k : Nat) : Prop :=
  ∀ i header o, i < k → Candidate keyword ts i header o → o < k ∧ ∀ c, ClosedAt ts o c → c < k

section

variable {keyword : String} {ts : List Token} {i k o c : Nat} {header : Header}

theorem Settled.succ (h : Settled keyword ts k)
    (hk : ∀ header o, ¬ Candidate keyword ts k header o) : Settled keyword ts (k + 1) := by
  intro i header o hi hc
  rcases Nat.lt_succ_iff_lt_or_eq.mp hi with hi | rfl
  · obtain ⟨ho, hclosed⟩ := h i header o hi hc
    exact ⟨Nat.lt_succ_of_lt ho, fun c hc => Nat.lt_succ_of_lt (hclosed c hc)⟩
  · exact absurd hc (hk header o)

/-- Behind the opening brace of a candidate that is never closed, nothing is left to look back
at. -/
theorem Settled.of_open (h : Settled keyword ts k) (hk : Candidate keyword ts k header o)
    (hnever : ∀ c, ¬ ClosedAt ts o c) : Settled keyword ts (o + 1) := by
  intro i header' o' hi hc
  rcases Nat.lt_or_ge i k with hik | hki
  · obtain ⟨ho, hclosed⟩ := h i header' o' hik hc
    have := hk.lt
    exact ⟨by omega, fun c hc => by have := hclosed c hc; omega⟩
  · obtain rfl := hk.eq_of_within hc hki (Nat.le_of_lt_succ hi)
    exact ⟨Nat.lt_succ_self _, fun c hc => absurd hc (hnever c)⟩

/-- And neither is anything behind the closing brace of one that is closed. -/
theorem Settled.of_closed (h : Settled keyword ts k) (hk : Candidate keyword ts k header o)
    (hclosed : ClosedAt ts o c) : Settled keyword ts (c + 1) := by
  intro i header' o' hi hc
  have hlt := hk.lt
  have hbehind := hclosed.behind
  rcases Nat.lt_or_ge i k with hik | hki
  · obtain ⟨ho, hends⟩ := h i header' o' hik hc
    exact ⟨by omega, fun c' hc' => by have := hends c' hc'; omega⟩
  · rcases Nat.lt_or_ge o i with hoi | hio
    · obtain ⟨t, ht, hopen⟩ := hk.opens
      obtain ⟨ho, hends⟩ := hc.closed_within hclosed ht hopen hoi (Nat.le_of_lt_succ hi)
      exact ⟨by omega, fun c' hc' => by have := hends c' hc'; omega⟩
    · obtain rfl := hk.eq_of_within hc hki hio
      exact ⟨by omega, fun c' hc' => by rw [hc'.unique hclosed]; omega⟩

theorem Settled.not_inSpan (h : Settled keyword ts k) : ¬ InSpan keyword ts k := by
  rintro ⟨j, header, o, c, hj, hc, hclosed, hle⟩
  have := (h j header o hj hc).2 c hclosed
  omega

theorem Settled.not_inOpenHeader (h : Settled keyword ts k) : ¬ InOpenHeader keyword ts k := by
  rintro ⟨j, header, o, hj, hc, -, hle⟩
  have := (h j header o hj hc).1
  omega

/-- A closed candidate stands in no header that is never closed: it would open at the same brace. -/
theorem Candidate.not_inOpenHeader (h : Candidate keyword ts i header o)
    (hclosed : ClosedAt ts o c) : ¬ InOpenHeader keyword ts i := by
  rintro ⟨j, header', o', hji, hc, hnever, hio⟩
  obtain rfl := hc.eq_of_within h (Nat.le_of_lt hji) hio
  exact hnever c hclosed

/-- Whether index `i` is one that a scan reports. -/
def Reported (keyword : String) (ts : List Token) (i : Nat) : Prop :=
  (∃ header o, Candidate keyword ts i header o) ∧ ¬ InSpan keyword ts i
    ∧ ¬ InOpenHeader keyword ts i

/-- The indices from `k` on that a scan reports, in order. -/
structure StartsFrom (keyword : String) (ts : List Token) (k : Nat) (starts : List Nat) : Prop where
  sorted : starts.Pairwise (· < ·)
  mem_iff : ∀ i, i ∈ starts ↔ k ≤ i ∧ Reported keyword ts i

theorem StartsFrom.of_succ {starts : List Nat} (h : StartsFrom keyword ts (k + 1) starts)
    (hk : ∀ header o, ¬ Candidate keyword ts k header o) : StartsFrom keyword ts k starts := by
  refine ⟨h.sorted, fun i => ?_⟩
  rw [h.mem_iff]
  refine ⟨fun ⟨hi, hr⟩ => ⟨Nat.le_of_succ_le hi, hr⟩, fun ⟨hi, hr⟩ => ⟨?_, hr⟩⟩
  obtain ⟨⟨header, o, hc⟩, -⟩ := hr
  rcases Nat.eq_or_lt_of_le hi with rfl | hlt
  · exact absurd hc (hk header o)
  · exact hlt

/-- A reported index is put in front when the scan goes on behind everything that it covers. -/
theorem StartsFrom.cons {e : Nat} {starts : List Nat} (h : StartsFrom keyword ts e starts)
    (hk : Reported keyword ts k) (hke : k < e)
    (hcovered : ∀ i, k < i → i < e → InSpan keyword ts i ∨ InOpenHeader keyword ts i) :
    StartsFrom keyword ts k (k :: starts) := by
  refine ⟨List.pairwise_cons.mpr ⟨fun i hi => ?_, h.sorted⟩, fun i => ?_⟩
  · have := ((h.mem_iff i).mp hi).1
    omega
  · rw [List.mem_cons, h.mem_iff]
    constructor
    · rintro (rfl | ⟨hi, hr⟩)
      · exact ⟨Nat.le_refl i, hk⟩
      · exact ⟨by omega, hr⟩
    · rintro ⟨hi, hr⟩
      rcases Nat.eq_or_lt_of_le hi with rfl | hlt
      · exact .inl rfl
      · refine .inr ⟨?_, hr⟩
        by_contra hie
        rcases hcovered i hlt (Nat.lt_of_not_le hie) with hspan | hheader
        · exact hr.2.1 hspan
        · exact hr.2.2 hheader

/-- **The scan from index `k` on reports what is to be reported from there on.** -/
theorem exists_starts_scanFrom {before : Option Token} {rest : List Token}
    (hrest : ts.drop k = rest) (hbefore : before = if k = 0 then none else ts[k - 1]?)
    (hk : Settled keyword ts k) :
    ∃ starts, StartsFrom keyword ts k starts
      ∧ List.Forall₂ (FoundAt keyword ts) starts (scanFrom keyword false before rest) := by
  fun_induction scanFrom keyword false before rest generalizing k with
  | case1 before =>
    refine ⟨[], ⟨.nil, fun i => ?_⟩, .nil⟩
    simp only [List.not_mem_nil, false_iff]
    rintro ⟨hki, ⟨header, o, ⟨t, ht, -⟩, -⟩, -⟩
    have hi := (List.getElem?_eq_some_iff.mp ht).1
    have := List.drop_eq_nil_iff.mp hrest
    omega
  | case2 before t r hword hh ih =>
    obtain ⟨ht, rfl⟩ := drop_eq_cons_iff.mp hrest
    have hnot : ∀ header o, ¬ Candidate keyword ts k header o := by
      rintro header o ⟨-, u, -, hu⟩
      simp [hh] at hu
    obtain ⟨starts, hstarts, hfound⟩ := ih rfl (by simp [ht]) (hk.succ hnot)
    exact ⟨starts, hstarts.of_succ hnot, hfound⟩
  | case3 before t r hword header opener inner hh hbody ih =>
    obtain ⟨o, hko, hc, ho, rfl⟩ := Candidate.of_readHeader hrest hword hh
    obtain ⟨ht, rfl⟩ := drop_eq_cons_iff.mp hrest
    obtain ⟨u, hu, hopen⟩ := hc.opens
    have hnever : ∀ c, ¬ ClosedAt ts o c := by
      intro c hclosed
      obtain ⟨body, u, rest, hs, -⟩ := (closedAt_iff hu hopen).mp hclosed
      simp [hbody] at hs
    obtain ⟨starts, hstarts, hfound⟩ := ih rfl (by simp [ho]) (hk.of_open hc hnever)
    have hreported : Reported keyword ts k := ⟨⟨header, o, hc⟩, hk.not_inSpan, hk.not_inOpenHeader⟩
    have hrun : t :: (ts.drop (k + 1)).take ((ts.drop (k + 1)).length - (ts.drop (o + 1)).length)
        = (ts.drop k).take (o + 1 - k) := by
      have := (List.getElem?_eq_some_iff.mp ho).1
      rw [hrest, List.length_drop, List.length_drop, show o + 1 - k = (o - k) + 1 by omega,
        List.take_succ_cons]
      congr 2
      omega
    refine ⟨k :: starts, hstarts.cons hreported (by omega) fun i hki hio => ?_, ?_⟩
    · exact .inr ⟨k, header, o, hki, hc, hnever, Nat.le_of_lt_succ hio⟩
    · rw [hrun]
      exact .cons (.unterminated hc hnever) hfound
  | case4 before t r hword header opener inner hh body closer rest hbody ih =>
    obtain ⟨o, hko, hc, ho, rfl⟩ := Candidate.of_readHeader hrest hword hh
    obtain ⟨ht, rfl⟩ := drop_eq_cons_iff.mp hrest
    obtain ⟨u, hu, hopen⟩ := hc.opens
    have hclosed : ClosedAt ts o (o + 1 + body.length) := closedAt_of_splitBody hu hopen hbody
    have hinner := eq_of_splitBody hbody
    have hcloser : ts.drop (o + 1 + body.length) = closer :: rest := by
      rw [← List.drop_drop, hinner, List.drop_left]
    obtain ⟨hat, rfl⟩ := drop_eq_cons_iff.mp hcloser
    obtain ⟨starts, hstarts, hfound⟩ := ih rfl (by simp [hat]) (hk.of_closed hc hclosed)
    have hreported : Reported keyword ts k := ⟨⟨header, o, hc⟩, hk.not_inSpan, hk.not_inOpenHeader⟩
    have hbody : body = (ts.drop (o + 1)).take (o + 1 + body.length - (o + 1)) := by
      rw [Nat.add_sub_cancel_left, hinner, List.take_left]
    refine ⟨k :: starts, hstarts.cons hreported (by omega) fun i hki hie => ?_, ?_⟩
    · exact .inl ⟨k, header, o, _, hki, hc, hclosed, Nat.le_of_lt_succ hie⟩
    · have hblock := FoundAt.closed hc hclosed ht ho hat
      rw [← hbody, ← hbefore] at hblock
      exact .cons hblock hfound
  | case5 before t r hword ih =>
    obtain ⟨ht, rfl⟩ := drop_eq_cons_iff.mp hrest
    have hnot : ∀ header o, ¬ Candidate keyword ts k header o := by
      rintro header o ⟨⟨u, hu, hword'⟩, -⟩
      obtain rfl : t = u := by simpa [ht] using hu
      exact hword hword'
    obtain ⟨starts, hstarts, hfound⟩ := ih rfl (by simp [ht]) (hk.succ hnot)
    exact ⟨starts, hstarts.of_succ hnot, hfound⟩

/-! ## 5. The outermost blocks -/

/-- A candidate for a keyword that opens no clause stands in the header of no other: it would be a
name with a name behind it. -/
theorem Candidate.not_within (h : Candidate keyword ts i header o) (hclause : keyword ∉ clauseWords)
    {j o' : Nat} {header' : Header} (hji : j < i) (hc : Candidate keyword ts j header' o') :
    ¬ i ≤ o' := by
  intro hio
  obtain rfl := hc.eq_of_within h (Nat.le_of_lt hji) hio
  obtain ⟨t, ht, hword⟩ := h.isKeyword
  obtain ⟨u, hu, hh⟩ := h.hasHeader
  obtain ⟨u', hu', hh'⟩ := hc.hasHeader
  obtain rfl : u = u' := by simpa [hu] using hu'
  obtain ⟨run, hrun, hopen, -, hnamed⟩ := exists_of_readHeader hh
  obtain ⟨run', hrun', -, hchain, -⟩ := exists_of_readHeader hh'
  obtain ⟨v, hv, hname⟩ := hnamed rfl
  obtain ⟨s, rfl⟩ : ∃ s, run = v :: s := by
    cases run with
    | nil => simp at hv
    | cons w s => exact ⟨s, by simpa using hv⟩
  -- The header in front is what stands before the keyword, the keyword, and the header behind.
  obtain ⟨n, rfl⟩ := Nat.exists_eq_add_of_lt hji
  have hsplit : ts.drop (j + 1)
      = ((ts.drop (j + 1)).take n ++ t :: v :: s) ++ u :: ts.drop (o + 1) := by
    have hdrop : (ts.drop (j + 1)).drop n = t :: ts.drop (j + n + 1 + 1) := by
      rw [List.drop_drop, show j + 1 + n = j + n + 1 by omega]
      exact drop_eq_cons_iff.mpr ⟨ht, rfl⟩
    conv_lhs => rw [← List.take_append_drop n (ts.drop (j + 1)), hdrop, hrun]
    simp
  rw [(List.append_inj' (hrun'.symm.trans hsplit) rfl).1] at hchain
  have hpair := List.isChain_cons_cons.mp (List.isChain_append.mp hchain).2.1
  have hword' : t.lexeme = .word keyword := by simpa [Token.isWord] using hword
  exact hpair.1 ⟨by simp [Token.isBlockName, Token.word?, hword', hclause], hname⟩

/-- **The outermost candidates, and no others.**  A scan reports, in order and once each, the
candidates that stand neither in the span of an earlier closed one nor in the header of an earlier
one that is never closed.  For a closed candidate the spans alone decide, so no outermost block is
missed, also behind those that are never closed; and a keyword that opens no clause stands in no
header of its own.  No two blocks that are found share a token, and their bodies are balanced. -/
theorem scanBlocks_finds_outermost (keyword : String) (ts : List Token) :
    ∃ starts : List Nat, starts.Pairwise (· < ·)
      ∧ (∀ i, i ∈ starts ↔ (∃ header o, Candidate keyword ts i header o)
          ∧ ¬ InSpan keyword ts i ∧ ¬ InOpenHeader keyword ts i)
      ∧ (∀ i header o c, Candidate keyword ts i header o → ClosedAt ts o c →
          (i ∈ starts ↔ ¬ InSpan keyword ts i))
      ∧ List.Forall₂ (FoundAt keyword ts) starts (scanBlocks keyword false ts)
      ∧ (keyword ∉ clauseWords → ∀ i header o j header' o', j < i →
          Candidate keyword ts i header o → Candidate keyword ts j header' o' → o' < i)
      ∧ (∀ i ∈ starts, ∀ j ∈ starts, ∀ header o c, i < j → Candidate keyword ts i header o →
          ClosedAt ts o c → c < j)
      ∧ ∀ b ∈ matchedValues (scanBlocks keyword false ts), Balanced b.body := by
  have hstart : Settled keyword ts 0 := fun i _ _ hi => absurd hi (Nat.not_lt_zero i)
  obtain ⟨starts, hstarts, hfound⟩ : ∃ starts, StartsFrom keyword ts 0 starts
      ∧ List.Forall₂ (FoundAt keyword ts) starts (scanBlocks keyword false ts) :=
    exists_starts_scanFrom List.drop_zero rfl hstart
  have hmem : ∀ i, i ∈ starts ↔ Reported keyword ts i := fun i =>
    (hstarts.mem_iff i).trans (and_iff_right (Nat.zero_le i))
  refine ⟨starts, hstarts.sorted, hmem, ?_, hfound, ?_, ?_, ?_⟩
  · intro i header o c hc hclosed
    rw [hmem i]
    exact ⟨fun hreported => hreported.2.1,
      fun hspan => ⟨⟨header, o, hc⟩, hspan, hc.not_inOpenHeader hclosed⟩⟩
  · intro hclause i header o j header' o' hji hc hc'
    exact Nat.lt_of_not_le (hc.not_within hclause hji hc')
  · intro i _ j hj header o c hij hc hclosed
    have hspan : ¬ InSpan keyword ts j := ((hmem j).mp hj).2.1
    by_contra hle
    exact hspan ⟨i, header, o, c, hij, hc, hclosed, Nat.le_of_not_lt hle⟩
  · intro b hb
    obtain ⟨-, ⟨site⟩⟩ := exists_site_of_mem_scanFrom hb
    exact site.balanced

/-- **Spans alone do not decide.**  An open clause names the next: its second word has a header of
its own behind it and stands in no span, but the scan has passed over it with the header of the
first. -/
theorem scanBlocks_passes_over_clause :
    ¬ ∃ starts : List Nat, starts.Pairwise (· < ·)
      ∧ (∀ i, i ∈ starts ↔
          (∃ header o, Candidate "extends" (lex "extends Foo extends Bar \x7b".toList) i header o)
            ∧ ¬ InSpan "extends" (lex "extends Foo extends Bar \x7b".toList) i)
      ∧ List.Forall₂ (FoundAt "extends" (lex "extends Foo extends Bar \x7b".toList)) starts
          (scanBlocks "extends" false (lex "extends Foo extends Bar \x7b".toList)) := by
  generalize hts : lex "extends Foo extends Bar \x7b".toList = ts
  rintro ⟨starts, hsorted, hmem, hfound⟩
  have hlength : (scanBlocks "extends" false ts).length = 1 := by
    rw [← hts]
    decide +kernel
  have hfirst : Candidate "extends" ts 0 ⟨some "Foo", some "Bar"⟩ 4 := by
    rw [← hts]
    exact ⟨⟨⟨.word "extends", ⟨1, 1, 0⟩⟩, by decide +kernel⟩,
      ⟨⟨.mark .openBrace, ⟨1, 25, 24⟩⟩, by decide +kernel⟩⟩
  have hsecond : Candidate "extends" ts 2 ⟨some "Bar", none⟩ 4 := by
    rw [← hts]
    exact ⟨⟨⟨.word "extends", ⟨1, 13, 12⟩⟩, by decide +kernel⟩,
      ⟨⟨.mark .openBrace, ⟨1, 25, 24⟩⟩, by decide +kernel⟩⟩
  have hopen : ∀ i, ¬ InSpan "extends" ts i := by
    rintro i ⟨j, header, o, c, -, hc, hclosed, -⟩
    obtain ⟨t, ht, hbrace⟩ := hc.opens
    obtain ⟨body, u, rest, hs, -⟩ := (closedAt_iff ht hbrace).mp hclosed
    -- The only opening brace is the last token.
    have hlast : ts.drop (o + 1) = [] := by
      have hbraces : ∀ k < ts.length, ∀ t, ts[k]? = some t → t.is .openBrace = true → k = 4 := by
        rw [← hts]
        decide +kernel
      obtain rfl := hbraces o (List.getElem?_eq_some_iff.mp ht).1 t ht hbrace
      rw [← hts]
      decide +kernel
    rw [hlast, splitBody] at hs
    exact absurd hs (by simp)
  have h0 : 0 ∈ starts := (hmem 0).mpr ⟨⟨_, _, hfirst⟩, hopen 0⟩
  have h2 : 2 ∈ starts := (hmem 2).mpr ⟨⟨_, _, hsecond⟩, hopen 2⟩
  obtain ⟨i, rfl⟩ := List.length_eq_one_iff.mp (hfound.length_eq.trans hlength)
  simp only [List.mem_singleton] at h0 h2
  omega

end

end ContextAtlas
