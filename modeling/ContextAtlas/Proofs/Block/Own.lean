/-
# Which tokens of a body are its own

The own lines of a block are said here without any walk, by indices: a token of the body is an own
token if it is no brace, if no group is open in front of it, if it is not on the line of the block's
opening brace, and if no group opens behind it on its line.

* `OwnAt`: those four conditions, and `mem_ownTokensFrom_iff`: the tokens that satisfy them are
  kept;
* `emptyGroups`: a body without what stands inside its nested groups, and
  `Block.lines_of_emptyGroups`: that makes no difference to the own lines;
* `gather`: one pass that keeps every token outside nested groups and takes back what it kept of a
  line when a group opens there, and `gather_eq`: it ends with the own tokens;
* `Block.OwnLines`: all that the own lines of a block are, and `Block.lines_of_foundIn`: the lines
  of a block that is found in a text are exactly those.
-/
import ContextAtlas.Proofs.Block.Lines
import ContextAtlas.Proofs.Layout.Block

namespace ContextAtlas

/-! ## 1. Own tokens by index -/

/-- Whether token `t` stands at index `k` of a run and is one of its own, with `depth` groups open
in front of the run. -/
structure OwnAt (braceLine depth : Nat) (ts : List Token) (k : Nat) (t : Token) : Prop where
  here : ts[k]? = some t
  not_brace : t.is .openBrace = false ∧ t.is .closeBrace = false
  outside : openAfter? depth (ts.take k) = some 0
  below : t.line ≠ braceLine
  alone : ∀ j o, k < j → ts[j]? = some o → o.is .openBrace = true →
    openAfter? depth (ts.take j) = some 0 → o.line ≠ t.line

section

variable {braceLine depth depth' e k : Nat} {t u o : Token} {ts r : List Token}

/-- Behind the first token of a run the indices are one less, and the groups are those that are open
behind it. -/
theorem OwnAt.succ_iff (hstep : ∀ s, openAfter? depth (u :: s) = openAfter? depth' s) :
    OwnAt braceLine depth (u :: r) (k + 1) t ↔ OwnAt braceLine depth' r k t := by
  constructor
  · intro h
    refine ⟨by simpa using h.here, h.not_brace, ?_, h.below, fun j o hj hr ho hout => ?_⟩
    · rw [← hstep, ← List.take_succ_cons]
      exact h.outside
    · refine h.alone (j + 1) o (by omega) (by simpa using hr) ho ?_
      rw [List.take_succ_cons, hstep]
      exact hout
  · intro h
    refine ⟨by simpa using h.here, h.not_brace, ?_, h.below, fun j o hj hr ho hout => ?_⟩
    · rw [List.take_succ_cons, hstep]
      exact h.outside
    · obtain ⟨i, rfl⟩ : ∃ i, j = i + 1 := ⟨j - 1, by omega⟩
      refine h.alone i o (by omega) (by simpa using hr) ho ?_
      rw [← hstep, ← List.take_succ_cons]
      exact hout

/-- Up to the first brace that opens, nothing is open. -/
theorem openAfter?_of_not_open {front back : List Token}
    (hfront : ∀ v ∈ front, v.is .openBrace = false) (h : openAfter? 0 (front ++ back) = some e) :
    openAfter? 0 front = some 0 := by
  rw [openAfter?_append] at h
  obtain ⟨d, hd, -⟩ := Option.bind_eq_some_iff.mp h
  have hcount := openAfter?_count hd
  have hzero : front.countP (·.is .openBrace) = 0 :=
    List.countP_eq_zero.mpr fun v hv => by simp [hfront v hv]
  obtain rfl : d = 0 := by omega
  exact hd

/-- A group opens on the line of a token, behind it. -/
theorem opensGroup_line_iff (hordered : Ordered (t :: r)) (hopen : openAfter? 0 r = some e) :
    opensGroup 0 (r.takeWhile fun u => u.line == t.line) = true
      ↔ ∃ j o, r[j]? = some o ∧ o.is .openBrace = true ∧ openAfter? 0 (r.take j) = some 0
        ∧ o.line = t.line := by
  rw [opensGroup_zero]
  constructor
  · intro hany
    rcases exists_first_or_none .openBrace (r.takeWhile fun u => u.line == t.line) with
      hnone | ⟨front, o, rest, hline, ho, hfront⟩
    · obtain ⟨o, ho, hopens⟩ := List.any_eq_true.mp hany
      rw [hnone o ho] at hopens
      cases hopens
    -- The first brace that opens on the line has nothing open in front of it.
    have hr : r = front ++ o :: (rest ++ r.dropWhile fun u => u.line == t.line) := by
      conv_lhs => rw [← List.takeWhile_append_dropWhile (p := fun u => u.line == t.line) (l := r),
        hline]
      simp
    have htake : r.take front.length = front := by
      rw [hr, List.take_left]
    refine ⟨front.length, o, ?_, ho, ?_, ?_⟩
    · rw [hr, List.getElem?_append_right (Nat.le_refl _), Nat.sub_self]
      rfl
    · rw [hr] at hopen
      rw [htake]
      exact openAfter?_of_not_open hfront hopen
    · have hmem : o ∈ r.takeWhile fun u => u.line == t.line := by
        rw [hline]
        exact List.mem_append_right _ List.mem_cons_self
      simpa using List.mem_takeWhile_imp hmem
  · rintro ⟨j, o, hj, ho, -, hline⟩
    obtain ⟨hlt, rfl⟩ := List.getElem?_eq_some_iff.mp hj
    have hr : r = r.take j ++ r[j] :: r.drop (j + 1) := by
      rw [← List.drop_eq_getElem_cons hlt, List.take_append_drop]
    have hfront : ∀ u ∈ r.take j, (u.line == t.line) = true := by
      intro u hu
      have h1 := hordered.line_le u (List.mem_of_mem_take hu)
      have hsorted := hordered.tail
      rw [hr, Ordered, List.pairwise_append] at hsorted
      have h2 := (hsorted.2.2 u hu r[j] List.mem_cons_self).line_le
      have h3 : u.line = t.line := Nat.le_antisymm (hline ▸ h2) h1
      simpa using h3
    rw [hr, List.takeWhile_append_of_pos hfront, List.takeWhile_cons_of_pos (by simpa using hline)]
    simp [ho]

/-- The first token of a run is an own token if no group is open in front of it, and none opens on
its line. -/
theorem ownAt_zero_iff (hordered : Ordered (u :: r)) (hopen : openAfter? depth (u :: r) = some e)
    (ho : u.is .openBrace = false) (hc : u.is .closeBrace = false) :
    OwnAt braceLine depth (u :: r) 0 t
      ↔ t = u ∧ (depth = 0 && u.line != braceLine
        && !opensGroup 0 (r.takeWhile fun v => v.line == u.line)) = true := by
  have houtside : openAfter? depth ((u :: r).take 0) = some 0 ↔ depth = 0 := by
    simp [openAfter?]
  rw [openAfter?_other ho hc] at hopen
  simp only [Bool.and_eq_true, decide_eq_true_eq, bne_iff_ne, ne_eq, Bool.not_eq_true']
  constructor
  · intro h
    obtain rfl : u = t := by simpa using h.here
    obtain rfl := houtside.mp h.outside
    refine ⟨rfl, ⟨rfl, h.below⟩, ?_⟩
    rw [← Bool.not_eq_true, opensGroup_line_iff hordered hopen]
    rintro ⟨j, o, hj, hbrace, hout, hline⟩
    refine h.alone (j + 1) o (Nat.succ_pos j) (by simpa using hj) hbrace ?_ hline
    rw [List.take_succ_cons, openAfter?_other ho hc]
    exact hout
  · rintro ⟨rfl, ⟨rfl, hbelow⟩, hnone⟩
    rw [← Bool.not_eq_true, opensGroup_line_iff hordered hopen] at hnone
    refine ⟨rfl, ⟨ho, hc⟩, houtside.mpr rfl, hbelow, fun j o hj hr hbrace hout hline => hnone ?_⟩
    obtain ⟨i, rfl⟩ : ∃ i, j = i + 1 := ⟨j - 1, by omega⟩
    rw [List.take_succ_cons, openAfter?_other ho hc] at hout
    exact ⟨i, o, by simpa using hr, hbrace, hout, hline⟩

/-- A brace is no own token. -/
theorem not_ownAt_zero (h : u.is .openBrace = true ∨ u.is .closeBrace = true) :
    ¬ OwnAt braceLine depth (u :: r) 0 t := by
  intro hown
  obtain rfl : u = t := by simpa using hown.here
  have ⟨ho, hc⟩ := hown.not_brace
  rcases h with h | h
  · rw [ho] at h
    cases h
  · rw [hc] at h
    cases h

/-- The own tokens are those that satisfy the four conditions. -/
theorem mem_ownTokensFrom_iff : ∀ {depth e : Nat} {ts : List Token}, Ordered ts →
    openAfter? depth ts = some e →
    (t ∈ ownTokensFrom braceLine depth ts ↔ ∃ k, OwnAt braceLine depth ts k t)
  | _, _, [], _, _ => by
    refine ⟨fun h => absurd h List.not_mem_nil, ?_⟩
    rintro ⟨k, hk⟩
    exact absurd hk.here (by simp)
  | depth, e, u :: r, hordered, hopen => by
    rw [← Nat.or_exists_add_one]
    by_cases ho : u.is .openBrace = true
    · have hstep : ∀ s, openAfter? depth (u :: s) = openAfter? (depth + 1) s :=
        fun _ => openAfter?_open ho
      rw [hstep] at hopen
      rw [ownTokensFrom, if_pos ho, mem_ownTokensFrom_iff hordered.tail hopen]
      simp only [not_ownAt_zero (.inl ho), false_or, OwnAt.succ_iff hstep]
    · by_cases hc : u.is .closeBrace = true
      · cases depth with
        | zero => simp [openAfter?_close_zero hc] at hopen
        | succ d =>
          have hstep : ∀ s, openAfter? (d + 1) (u :: s) = openAfter? d s :=
            fun _ => openAfter?_close hc
          rw [hstep] at hopen
          rw [ownTokensFrom, if_neg ho, if_pos hc, Nat.add_sub_cancel,
            mem_ownTokensFrom_iff hordered.tail hopen]
          simp only [not_ownAt_zero (.inr hc), false_or, OwnAt.succ_iff hstep]
      · rw [ownTokensFrom, if_neg ho, if_neg hc]
        rw [Bool.not_eq_true] at ho hc
        have hstep : ∀ s, openAfter? depth (u :: s) = openAfter? depth s :=
          fun _ => openAfter?_other ho hc
        rw [ownAt_zero_iff hordered hopen ho hc]
        rw [hstep] at hopen
        have hrest : t ∈ ownTokensFrom braceLine depth r ↔ ∃ k, OwnAt braceLine depth r k t :=
          mem_ownTokensFrom_iff hordered.tail hopen
        simp only [OwnAt.succ_iff hstep, ← hrest]
        split
        · simp [*]
        · simp [*]

end

/-! ## 2. Nested groups -/

/-- A run of tokens with `depth` groups open in front of it, its nested groups emptied: of each only
the two braces are left. -/
def emptyGroups : Nat → List Token → List Token
  | _, [] => []
  | 0, t :: r => t :: emptyGroups (if t.is .openBrace then 1 else 0) r
  | d + 1, t :: r =>
    if t.is .openBrace then emptyGroups (d + 2) r
    else if t.is .closeBrace then (if d = 0 then [t] else []) ++ emptyGroups d r
    else emptyGroups (d + 1) r

section

variable {braceLine : Nat}

/-- The first brace that opens on a line opens a group there, and that brace is not emptied away. -/
theorem any_openBrace_emptyGroups (p : Token → Bool) : ∀ ts : List Token,
    ((emptyGroups 0 ts).takeWhile p).any (·.is .openBrace) = (ts.takeWhile p).any (·.is .openBrace)
  | [] => rfl
  | t :: r => by
    rw [emptyGroups]
    by_cases hp : p t = true
    · rw [List.takeWhile_cons_of_pos hp, List.takeWhile_cons_of_pos hp, List.any_cons,
        List.any_cons]
      by_cases ho : t.is .openBrace = true
      · rw [ho, Bool.true_or, Bool.true_or]
      · rw [if_neg ho, any_openBrace_emptyGroups p r]
    · rw [List.takeWhile_cons_of_neg hp, List.takeWhile_cons_of_neg hp]

/-- The own tokens of a run are those of the run with its nested groups emptied. -/
theorem ownTokensFrom_emptyGroups : ∀ (depth : Nat) (ts : List Token),
    ownTokensFrom braceLine (min depth 1) (emptyGroups depth ts) = ownTokensFrom braceLine depth ts
  | 0, [] => rfl
  | _ + 1, [] => rfl
  | 0, t :: r => by
    rw [emptyGroups, Nat.zero_min, ownTokensFrom, ownTokensFrom]
    by_cases ho : t.is .openBrace = true
    · rw [if_pos ho, if_pos ho, if_pos ho]
      exact ownTokensFrom_emptyGroups 1 r
    · have hr := ownTokensFrom_emptyGroups 0 r
      rw [Nat.zero_min] at hr
      simp only [ho, if_false, hr, opensGroup_zero, any_openBrace_emptyGroups, Nat.zero_sub,
        Bool.false_eq_true]
  | d + 1, t :: r => by
    have hmin : min (d + 1) 1 = 1 := by omega
    rw [emptyGroups, hmin, ownTokensFrom]
    by_cases ho : t.is .openBrace = true
    · have hr := ownTokensFrom_emptyGroups (d + 2) r
      rw [if_pos ho, if_pos ho, ← hr]
      congr 1
    · rw [if_neg ho, if_neg ho]
      by_cases hc : t.is .closeBrace = true
      · have hr := ownTokensFrom_emptyGroups d r
        rw [if_pos hc, if_pos hc, Nat.add_sub_cancel, ← hr]
        by_cases hd : d = 0
        · subst hd
          rw [if_pos rfl, List.singleton_append, ownTokensFrom, if_neg ho, if_pos hc]
          rfl
        · rw [if_neg hd, List.nil_append]
          congr 1
          omega
      · have hr := ownTokensFrom_emptyGroups (d + 1) r
        rw [hmin] at hr
        rw [if_neg hc, if_neg hc, hr]
        simp

end

/-- Nothing inside a nested group makes a difference to the lines around it, as long as what stands
around the groups shares lines as before. -/
theorem Block.lines_of_emptyGroups {b b' : Block} {m : Position → Position} (hm : KeepsLines m)
    (hline : b'.opener.line = (m b.opener).line)
    (hbody : emptyGroups 0 b'.body = (emptyGroups 0 b.body).map (Token.moved m)) :
    b'.lines = b.lines.map (List.map (Token.moved m)) := by
  have hown : b'.ownTokens = b.ownTokens.map (Token.moved m) :=
    calc
      b'.ownTokens = ownTokensFrom b'.opener.line 0 (emptyGroups 0 b'.body) :=
        (ownTokensFrom_emptyGroups 0 b'.body).symm
      _ = ownTokensFrom (m b.opener).line 0 ((emptyGroups 0 b.body).map (Token.moved m)) := by
        rw [hline, hbody]
      _ = (ownTokensFrom b.opener.line 0 (emptyGroups 0 b.body)).map (Token.moved m) :=
        ownTokensFrom_moved hm b.opener 0 _
      _ = b.ownTokens.map (Token.moved m) :=
        congrArg _ (ownTokensFrom_emptyGroups 0 b.body)
  rw [lines, hown, groupLines_moved hm, lines]

/-! ## 3. Gathering -/

/-- How far the own tokens of a body are gathered: how many nested groups are open, and what was
kept so far. -/
structure Gathering where
  depth : Nat := 0
  own : List Token := []

/-- One token more.  Where a group opens, what was kept of its line is taken back. -/
def Gathering.step (braceLine : Nat) (g : Gathering) (t : Token) : Gathering :=
  if t.is .openBrace then
    ⟨g.depth + 1, if g.depth = 0 then g.own.filter (·.line != t.line) else g.own⟩
  else if t.is .closeBrace then ⟨g.depth - 1, g.own⟩
  else if g.depth = 0 && t.line != braceLine then ⟨g.depth, g.own ++ [t]⟩
  else g

/-- What is gathered from a run of tokens. -/
def gather (braceLine : Nat) (ts : List Token) : Gathering :=
  ts.foldl (Gathering.step braceLine) {}

section

variable {braceLine depth e : Nat} {t u : Token} {ts : List Token}

/-- A token behind a run that opens no group, or stands on another line, makes no difference to the
groups that open on the first line of the run. -/
theorem any_openBrace_concat {p : Token → Bool} (ht : p t = false ∨ t.is .openBrace = false)
    (r : List Token) :
    ((r ++ [t]).takeWhile p).any (·.is .openBrace) = (r.takeWhile p).any (·.is .openBrace) := by
  induction r with
  | nil =>
    rw [List.nil_append, List.takeWhile_nil, List.any_nil, List.takeWhile_cons]
    rcases ht with ht | ht <;> simp [ht]
  | cons u r ih =>
    rw [List.cons_append, List.takeWhile_cons, List.takeWhile_cons]
    by_cases hp : p u = true
    · rw [if_pos hp, if_pos hp, List.any_cons, List.any_cons, ih]
    · rw [if_neg hp, if_neg hp]

/-- An opening brace behind a run takes back what the run keeps of its line. -/
theorem ownTokensFrom_concat_open (ht : t.is .openBrace = true) : ∀ {depth : Nat} {ts : List Token},
    Ordered (ts ++ [t]) → ownTokensFrom braceLine depth (ts ++ [t])
      = (ownTokensFrom braceLine depth ts).filter (·.line != t.line)
  | depth, [], _ => by simp [ownTokensFrom, ht]
  | depth, u :: r, hordered => by
    have ih : ∀ d, ownTokensFrom braceLine d (r ++ [t])
        = (ownTokensFrom braceLine d r).filter (·.line != t.line) :=
      fun d => ownTokensFrom_concat_open ht hordered.tail
    rw [List.cons_append, ownTokensFrom, ownTokensFrom, ih, ih, ih, opensGroup_zero,
      opensGroup_zero]
    by_cases hline : u.line = t.line
    · -- Everything up to the brace is on the line of `u`, so it is taken back.
      have hr : ∀ v ∈ r ++ [t], (v.line == u.line) = true := by
        intro v hv
        have h1 := hordered.line_le v hv
        have h2 : v.line ≤ t.line := by
          rcases List.mem_append.mp hv with hv | hv
          · exact ((List.pairwise_append.mp hordered.tail).2.2 v hv t (by simp)).line_le
          · rw [List.mem_singleton.mp hv]
        have h3 : v.line = u.line := by omega
        simpa using h3
      have hopens : ((r ++ [t]).takeWhile fun v => v.line == u.line).any (·.is .openBrace)
          = true := by
        rw [List.takeWhile_eq_self_iff.mpr hr]
        simp [ht]
      have hdropped : (u.line != t.line) = false := by simp [hline]
      simp only [hopens, Bool.not_true, Bool.and_false, Bool.false_eq_true, if_false]
      split
      · rfl
      · split
        · rfl
        · split
          · rw [List.filter_cons, hdropped, if_neg Bool.false_ne_true]
          · rfl
    · have hp : (t.line == u.line) = false := by simpa using fun h : t.line = u.line => hline h.symm
      have hkept : (u.line != t.line) = true := by simpa using hline
      rw [any_openBrace_concat (.inl hp)]
      split
      · rfl
      · split
        · rfl
        · split
          · rw [List.filter_cons, if_pos hkept]
          · rfl

/-- Any other token behind a run is kept or not, and changes nothing in front of it. -/
theorem ownTokensFrom_concat_other (ht : t.is .openBrace = false) : ∀ {depth e : Nat}
    {ts : List Token}, openAfter? depth ts = some e → ownTokensFrom braceLine depth (ts ++ [t])
      = ownTokensFrom braceLine depth ts ++ ownTokensFrom braceLine e [t]
  | depth, e, [], h => by
    obtain rfl := Option.some.inj h
    rfl
  | depth, e, u :: r, h => by
    rw [List.cons_append, ownTokensFrom, ownTokensFrom.eq_def braceLine depth (u :: r)]
    by_cases ho : u.is .openBrace = true
    · rw [openAfter?_open ho] at h
      simp only [ho, if_true]
      exact ownTokensFrom_concat_other ht h
    · by_cases hc : u.is .closeBrace = true
      · cases depth with
        | zero => simp [openAfter?_close_zero hc] at h
        | succ d =>
          rw [openAfter?_close hc] at h
          simp only [ho, hc, if_true, Bool.false_eq_true, if_false, Nat.add_sub_cancel]
          exact ownTokensFrom_concat_other ht h
      · rw [Bool.not_eq_true] at ho hc
        rw [openAfter?_other ho hc] at h
        simp only [ho, hc, Bool.false_eq_true, if_false, opensGroup_zero,
          any_openBrace_concat (.inr ht), ownTokensFrom_concat_other ht h]
        split
        · rw [List.cons_append]
        · rfl

/-- While a nested group is open, no own token in front of it is on the line that is reached. -/
theorem line_ne_of_open {d : Nat} (hordered : Ordered (ts ++ [t]))
    (hopen : openAfter? 0 ts = some (d + 1)) :
    ∀ u ∈ ownTokensFrom braceLine 0 ts, u.line ≠ t.line := by
  intro u hu hline
  have hts : Ordered ts := hordered.of_sublist (List.sublist_append_left ts [t])
  obtain ⟨k, hk⟩ := (mem_ownTokensFrom_iff hts hopen).mp hu
  obtain ⟨hlt, rfl⟩ := List.getElem?_eq_some_iff.mp hk.here
  have hsplit : ts = ts.take k ++ ts[k] :: ts.drop (k + 1) := by
    rw [← List.drop_eq_getElem_cons hlt, List.take_append_drop]
  have hbehind : openAfter? 0 (ts.drop (k + 1)) = some (d + 1) := by
    rw [hsplit, openAfter?_append, hk.outside, Option.bind_some,
      openAfter?_other hk.not_brace.1 hk.not_brace.2] at hopen
    exact hopen
  -- The group that is open was opened behind the token, and so on its line.
  rcases exists_first_or_none .openBrace (ts.drop (k + 1)) with
    hnone | ⟨front, o, rest, hdrop, ho, hfront⟩
  · have hcount := openAfter?_count hbehind
    have hzero : (ts.drop (k + 1)).countP (·.is .openBrace) = 0 :=
      List.countP_eq_zero.mpr fun v hv => by simp [hnone v hv]
    omega
  · have hts' : ts = (ts.take k ++ ts[k] :: front) ++ o :: rest := by
      conv_lhs => rw [hsplit, hdrop]
      simp
    have hlength : (ts.take k ++ ts[k] :: front).length = k + (front.length + 1) := by
      rw [List.length_append, List.length_take, List.length_cons]
      omega
    refine hk.alone (k + (front.length + 1)) o (by omega) ?_ ho ?_ ?_
    · rw [hts', ← hlength, List.getElem?_append_right (Nat.le_refl _), Nat.sub_self]
      rfl
    · rw [hdrop] at hbehind
      have htake : ts.take (k + (front.length + 1)) = ts.take k ++ ts[k] :: front := by
        conv_lhs => rw [hts', ← hlength, List.take_left]
      rw [htake, openAfter?_append, hk.outside, Option.bind_some,
        openAfter?_other hk.not_brace.1 hk.not_brace.2]
      exact openAfter?_of_not_open hfront hbehind
    · have hmem : o ∈ ts.drop (k + 1) := by
        rw [hdrop]
        exact List.mem_append_right _ List.mem_cons_self
      have h1 : ts[k].line ≤ o.line := by
        rw [hsplit, Ordered, List.pairwise_append] at hts
        exact Ordered.line_le hts.2.1 o hmem
      have h2 : o.line ≤ t.line :=
        ((List.pairwise_append.mp hordered).2.2 o (List.mem_of_mem_drop hmem) t (by simp)).line_le
      omega

/-- The pass ends with the own tokens. -/
theorem gather_eq : ∀ {ts : List Token} {e : Nat}, Ordered ts → openAfter? 0 ts = some e →
    gather braceLine ts = ⟨e, ownTokensFrom braceLine 0 ts⟩ := by
  intro ts
  induction ts using List.reverseRecOn with
  | nil =>
    intro e _ h
    obtain rfl := Option.some.inj h
    rfl
  | append_singleton ts t ih =>
    intro e hordered h
    rw [openAfter?_append] at h
    obtain ⟨d, hd, ht⟩ := Option.bind_eq_some_iff.mp h
    have hts : Ordered ts := hordered.of_sublist (List.sublist_append_left ts [t])
    have hgathered : gather braceLine (ts ++ [t])
        = Gathering.step braceLine ⟨d, ownTokensFrom braceLine 0 ts⟩ t := by
      rw [← ih hts hd, gather, List.foldl_concat]
      rfl
    rw [hgathered, Gathering.step]
    by_cases ho : t.is .openBrace = true
    · rw [openAfter?_open ho, openAfter?, Option.some.injEq] at ht
      rw [if_pos ho, ownTokensFrom_concat_open ho hordered, ← ht]
      cases d with
      | zero => rfl
      | succ d =>
        have hkept : (ownTokensFrom braceLine 0 ts).filter (·.line != t.line)
            = ownTokensFrom braceLine 0 ts :=
          List.filter_eq_self.mpr fun u hu => by simpa using line_ne_of_open hordered hd u hu
        rw [if_neg (Nat.succ_ne_zero d), hkept]
    · rw [if_neg ho, ownTokensFrom_concat_other (by simpa using ho) hd]
      by_cases hc : t.is .closeBrace = true
      · cases d with
        | zero => simp [openAfter?_close_zero hc] at ht
        | succ d =>
          rw [openAfter?_close hc, openAfter?, Option.some.injEq] at ht
          simp [ownTokensFrom, ho, hc, ht]
      · rw [Bool.not_eq_true] at ho hc
        rw [openAfter?_other ho hc, openAfter?, Option.some.injEq] at ht
        subst ht
        by_cases hown : (d = 0 && t.line != braceLine) = true
        · rw [if_neg (by simp [hc]), if_pos hown]
          simp only [Bool.and_eq_true, decide_eq_true_eq] at hown
          simp [ownTokensFrom, ho, hc, hown, opensGroup]
        · rw [if_neg (by simp [hc]), if_neg hown]
          rw [Bool.not_eq_true] at hown
          simp [ownTokensFrom, ho, hc, hown]

end

/-! ## 4. Own lines -/

/-- What the own lines of a block are: the own tokens of its body, each once and in order, cut where
the line changes. -/
structure Block.OwnLines (b : Block) (lines : List (List Token)) : Prop where
  mem_iff : ∀ k t, b.body[k]? = some t →
    (t ∈ lines.flatten ↔ OwnAt b.opener.line 0 b.body k t)
  in_order : lines.flatten.Sublist b.body
  ne_nil : ∀ line ∈ lines, line ≠ []
  one_line : ∀ line ∈ lines, ∃ n, ∀ t ∈ line, t.line = n
  stretch : ∀ line ∈ lines, line <:+: b.body
  increasing : lines.Pairwise fun line line' => ∀ t ∈ line, ∀ u ∈ line', t.line < u.line

section

variable {b : Block} {lines : List (List Token)}

/-- Lines that are cut where the line changes have increasing numbers, if the tokens are in order.
-/
theorem pairwise_line_lt : ∀ {groups : List (List Token)},
    (groups.flatten.Pairwise fun t u => t.line ≤ u.line) →
    (∀ g ∈ groups, ∃ n, ∀ t ∈ g, t.line = n) →
    (groups.IsChain fun g h => ∃ hg hh, ((g.getLast hg).line == (h.head hh).line) = false) →
    groups.Pairwise fun g h => ∀ t ∈ g, ∀ u ∈ h, t.line < u.line
  | [], _, _, _ => .nil
  | [g], _, _, _ => List.pairwise_singleton _ g
  | g :: h :: groups, hle, hone, hchain => by
    obtain ⟨⟨hg, hh, hne⟩, hrest⟩ := List.isChain_cons_cons.mp hchain
    rw [List.flatten_cons, List.pairwise_append] at hle
    refine List.pairwise_cons.mpr ⟨fun g' hg' t ht u hu => ?_,
      pairwise_line_lt hle.2.1 (fun x hx => hone x (List.mem_cons_of_mem g hx)) hrest⟩
    obtain ⟨n, hn⟩ := hone g List.mem_cons_self
    have hlast : (g.getLast hg).line = t.line := by
      rw [hn _ (List.getLast_mem hg), hn t ht]
    have h1 : t.line ≤ (h.head hh).line :=
      hle.2.2 t ht (h.head hh) (List.mem_flatten_of_mem List.mem_cons_self (List.head_mem hh))
    have h2 : (h.head hh).line ≤ u.line := by
      have hmem : u ∈ (h :: groups).flatten := List.mem_flatten_of_mem hg' hu
      obtain ⟨v, r, rfl⟩ := List.exists_cons_of_ne_nil hh
      rcases List.mem_cons.mp hmem with rfl | hmem
      · exact Nat.le_refl _
      · exact (List.pairwise_cons.mp hle.2.1).1 u hmem
    have h3 : (g.getLast hg).line ≠ (h.head hh).line := by simpa using hne
    omega

/-- The lines of a block are its own lines. -/
theorem Block.ownLines_lines (hordered : Ordered b.body) (hbalanced : Balanced b.body) :
    b.OwnLines b.lines := by
  have hsublist : b.lines.flatten.Sublist b.body := by
    rw [flatten_lines]
    exact sublist_ownTokensFrom b.opener.line 0 b.body
  have hone : ∀ line ∈ b.lines, ∃ n, ∀ t ∈ line, t.line = n := fun line hline =>
    line_eq_of_mem_groupLines hline
  refine ⟨fun k t hk => ?_, hsublist, fun line hline => List.ne_nil_of_mem_splitBy hline, hone,
    fun line hline => infix_of_mem_lines hordered hbalanced hline, ?_⟩
  · rw [flatten_lines, ownTokens, mem_ownTokensFrom_iff hordered hbalanced]
    refine ⟨?_, fun hown => ⟨k, hown⟩⟩
    rintro ⟨j, hj⟩
    -- No two tokens of a text are the same.
    have hjk : j = k := by
      obtain ⟨hlt, rfl⟩ := List.getElem?_eq_some_iff.mp hk
      exact hordered.nodup.getElem_inj_iff.mp
        ((List.getElem?_eq_some_iff.mp hj.here).2.trans rfl)
    rwa [← hjk]
  · have hcut := List.isChain_getLast_head_splitBy (fun t u : Token => t.line == u.line) b.ownTokens
    exact pairwise_line_lt ((hordered.of_sublist hsublist).imp fun htu => htu.line_le) hone hcut

/-- A block has no other own lines. -/
theorem Block.OwnLines.eq_lines (h : b.OwnLines lines) (hordered : Ordered b.body)
    (hbalanced : Balanced b.body) : lines = b.lines := by
  have hlines := b.ownLines_lines hordered hbalanced
  have hmem : ∀ t, t ∈ lines.flatten ↔ t ∈ b.lines.flatten := by
    intro t
    constructor
    · intro ht
      obtain ⟨k, hk⟩ := List.mem_iff_getElem?.mp (h.in_order.subset ht)
      exact (hlines.mem_iff k t hk).mpr ((h.mem_iff k t hk).mp ht)
    · intro ht
      obtain ⟨k, hk⟩ := List.mem_iff_getElem?.mp (hlines.in_order.subset ht)
      exact (h.mem_iff k t hk).mpr ((hlines.mem_iff k t hk).mp ht)
  have hperm : lines.flatten.Perm b.lines.flatten :=
    (List.perm_ext_iff_of_nodup (hordered.of_sublist h.in_order).nodup
      (hordered.of_sublist hlines.in_order).nodup).mpr hmem
  have hflatten : lines.flatten = b.lines.flatten :=
    hperm.eq_of_pairwise
      (fun t u _ _ htu hut => absurd (htu.trans hut) (Position.not_before_self _))
      (hordered.of_sublist h.in_order) (hordered.of_sublist hlines.in_order)
  refine (List.splitBy_eq_iff.mpr ⟨?_, fun hnil => h.ne_nil [] hnil rfl, ?_, ?_⟩).symm
  · rw [hflatten, flatten_lines]
  · intro line hline
    obtain ⟨n, hn⟩ := h.one_line line hline
    refine List.Pairwise.isChain (List.pairwise_of_forall_mem_list fun t ht u hu => ?_)
    simp [hn t ht, hn u hu]
  · refine (List.Pairwise.isChain h.increasing).imp_of_mem_imp fun line line' hl hl' hlt => ?_
    have hne := h.ne_nil line hl
    have hne' := h.ne_nil line' hl'
    have hline := hlt _ (List.getLast_mem hne) _ (List.head_mem hne')
    exact ⟨hne, hne', by simpa using Nat.ne_of_lt hline⟩

end

/-- **A block has its own lines and no others.**  So it is for every block that is found in a text.
A block that only differs inside nested groups has the same lines, also where that moves what stands
behind them to other lines, and one pass over the body gathers the lines. -/
theorem Block.lines_of_foundIn {text : List Char} {nameOptional : Bool} {b : Block}
    (h : b.FoundIn (lex text) nameOptional) :
    (∀ lines, lines = b.lines ↔ b.OwnLines lines)
      ∧ (∀ (b' : Block) (m : Position → Position), KeepsLines m →
        b'.opener.line = (m b.opener).line →
        emptyGroups 0 b'.body = (emptyGroups 0 b.body).map (Token.moved m) →
        b'.lines = b.lines.map (List.map (Token.moved m)))
      ∧ groupLines (gather b.opener.line b.body).own = b.lines := by
  obtain ⟨site⟩ := h.exists_site
  have hordered : Ordered b.body := Ordered.of_infix (ordered_lex text) site.body_infix
  refine ⟨fun lines => ?_, fun b' m => lines_of_emptyGroups, ?_⟩
  · constructor
    · rintro rfl
      exact b.ownLines_lines hordered site.balanced
    · exact fun hlines => hlines.eq_lines hordered site.balanced
  · rw [gather_eq hordered site.balanced]
    rfl

/-- A document with a header over two lines, several groups on one line, and words behind closing
braces. -/
def sampleGroups : List Char :=
  ("Domain D\n extends E \x7b lost\n a = 1 b\n X \x7b in \x7d c Y \x7b d\n"
    ++ " \x7d e \x7b f \x7d g\n Z\n \x7b k \x7d h i\n\x7d").toList

/-- What stands in front of a group on its line is lost, and what stands behind one is not; a word
on the line above a brace is no part of its header. -/
theorem Block.lines_of_sampleGroups : ∃ b : Block, b.FoundIn (lex sampleGroups) false
    ∧ b.OwnLines b.lines
    ∧ b.lines.map (·.map Token.value) = [["a", "=", "1", "b"], ["g"], ["Z"], ["h", "i"]] := by
  have hfirst : (matchedValues (scanBlocks "Domain" false (lex sampleGroups))).head?.map
      (fun b => b.lines.map (·.map Token.value))
        = some [["a", "=", "1", "b"], ["g"], ["Z"], ["h", "i"]] := by decide +kernel
  obtain ⟨b, hb, hlines⟩ := Option.map_eq_some_iff.mp hfirst
  have hfound : b.FoundIn (lex sampleGroups) false := .scan (List.mem_of_head? hb)
  exact ⟨b, hfound, ((lines_of_foundIn hfound).1 b.lines).mp rfl, hlines⟩

end ContextAtlas
