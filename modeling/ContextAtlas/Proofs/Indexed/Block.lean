/-
# Finding blocks by index

The scan for blocks goes over all tokens of a run by index: from a keyword over its header to the
opening brace, from there to the brace that closes it, and behind that brace again.  The lines of a
body are grouped by the last token of the last group.

* `itemRun`, `readHeader`, `closingBrace`, `findBlocks`: the parts of the scan.
* `groupTokens`: grouping tokens by line.
* `findBlocks_eq`, `groupTokens_eq`: they give what `scanBlocks` and `groupLines` give.
-/
import ContextAtlas.Proofs.Block.Header
import ContextAtlas.Proofs.Indexed.Access
import Mathlib.Data.List.SplitBy

namespace ContextAtlas.Indexed

/-! ## 1. The scan -/

/-- Whether a token starts a clause of a header. -/
def startsClause (t : Token) : Bool := t.word?.any (· ∈ clauseWords)

/-- Whether a token can be the name of a block. -/
def namesBlock (t : Token) : Bool := t.word?.any (· ∉ clauseWords)

section

variable {α : Type} (item? : Token → Option α) (keyword : String) (nameOptional : Bool)
  (ts : List Token)

/-- One round over a run of items between commas, with the items so far and the index. -/
def itemStep : List α × Nat → Run ((List α × Nat) ⊕ (List α × Nat))
  | (found, i) => do
    if i < ts.length then
      let t ← fetch ts i
      if t.is .sigil then return .inl (found, i + 1)
      else
        match item? t with
        | none => return .inr (found, i)
        | some a =>
          if ← holdsAt (·.is .comma) ts (i + 1) then return .inl (found ++ [a], i + 2)
          else return .inr (found ++ [a], i + 1)
    else return .inr (found, i)

/-- The items of a run between commas, and the index behind the run. -/
def itemRun (i : Nat) : Run (List α × Nat) := loop (itemStep item? ts) (ts.length + 1) ([], i)

/-- One round over the clauses of a header, with the target so far and the index. -/
def clauseStep : Option String × Nat →
    Run ((Option String × Nat) ⊕ Option (Option String × Nat))
  | (parent, i) => do
    if ← holdsAt startsClause ts i then
      let clause ← fetch ts i
      let (targets, j) ← itemRun Token.word? ts (i + 1)
      if targets.isEmpty then return .inr none
      else if clause.isWord "extends" then
        let target ← fetch targets 0
        return .inl (some target, j)
      else return .inl (parent, j)
    else return .inr (some (parent, i))

/-- The clauses of a header. -/
def readClauseRun (i : Nat) : Run (Option (Option String × Nat)) :=
  loop (clauseStep ts) (ts.length + 1) (none, i)

/-- The header with a name, from behind the name on, and the index of its opening brace. -/
def readHeaderBehind (name : Option String) (i : Nat) : Run (Option (Header × Nat)) := do
  match ← readClauseRun ts i with
  | none => return none
  | some (parent, j) =>
    if ← holdsAt (·.is .openBrace) ts j then return some (⟨name, parent⟩, j) else return none

/-- The header that starts at an index, and the index of its opening brace. -/
def readHeader (i : Nat) : Run (Option (Header × Nat)) := do
  if ← holdsAt namesBlock ts i then
    let t ← fetch ts i
    readHeaderBehind ts t.word? (i + 1)
  else if nameOptional then readHeaderBehind ts none i
  else return none

/-- One round over the braces of a group, with how many are open and the index. -/
def braceStep : Int × Nat → Run ((Int × Nat) ⊕ Option Nat)
  | (depth, i) => do
    if i < ts.length then
      let t ← fetch ts i
      if t.is .openBrace then return .inl (depth + 1, i + 1)
      else if t.is .closeBrace then
        if depth - 1 = 0 then return .inr (some i) else return .inl (depth - 1, i + 1)
      else return .inl (depth, i + 1)
    else return .inr none

/-- The index of the brace that closes the group which opens at an index. -/
def closingBrace (i : Nat) : Run (Option Nat) := loop (braceStep ts) (ts.length + 1) (0, i)

/-- A run of tokens that is left out; its place is that of its first token. -/
def leaveOut (reason : SkipReason) (run : List Token) : Run Skipped := do
  if run.isEmpty then return ⟨reason, "", 0, 0⟩
  else
    let first ← fetch run 0
    return ⟨reason, fragmentText run, first.position.line, first.position.column⟩

/-- One round of the scan for blocks, with the outcomes so far and the index. -/
def findStep : List (Outcome Block) × Nat →
    Run ((List (Outcome Block) × Nat) ⊕ List (Outcome Block))
  | (found, i) => do
    if i < ts.length then
      let t ← fetch ts i
      if t.isWord keyword then
        match ← readHeader nameOptional ts (i + 1) with
        | none => return .inl (found, i + 1)
        | some (header, o) =>
          match ← closingBrace ts o with
          | none =>
            let run ← leaveOut .unterminatedBlock (slice ts i (o + 1))
            return .inl (found ++ [.skipped run], o + 1)
          | some c =>
            let isAbstract ← holdsBefore (·.isWord "abstract") ts i
            let opener ← fetch ts o
            let closer ← fetch ts c
            return .inl (found ++ [.matched
              { keyword := keyword
                header := header
                isAbstract := isAbstract
                start := t.position
                opener := opener.position
                closer := closer.position
                body := slice ts (o + 1) c }], c + 1)
      else return .inl (found, i + 1)
    else return .inr found

/-- The outcomes for the blocks of a keyword. -/
def findBlocks : Run (List (Outcome Block)) :=
  loop (findStep keyword nameOptional ts) (ts.length + 1) ([], 0)

/-- Puts a token into the last group if it stands on the line of that group's last token. -/
def groupStep (groups : List (List Token)) (t : Token) : Run (List (List Token)) := do
  if groups.isEmpty then return [[t]]
  else
    let group ← fetchLast groups
    let last ← fetchLast group
    if last.line = t.line then return groups.dropLast ++ [group ++ [t]]
    else return groups ++ [[t]]

/-- Groups tokens by line. -/
def groupTokens : Run (List (List Token)) := ts.foldlM groupStep []

end

/-! ## 2. Items between commas -/

section

variable {α : Type} {item? : Token → Option α} {ts rest : List Token} {i : Nat}

theorem loop_itemStep (found : List α) {rounds : Nat} (h : ts.drop i = rest)
    (hrounds : rest.length < rounds) :
    ∃ j, loop (itemStep item? ts) rounds (found, i) = .ok (found ++ (commaRun item? rest).1, j)
      ∧ ts.drop j = (commaRun item? rest).2 := by
  induction rounds generalizing found i rest with
  | zero => exact absurd hrounds (Nat.not_lt_zero _)
  | succ rounds ih =>
    fun_cases commaRun item? rest with
    | case1 =>
      refine ⟨i, ?_, h⟩
      rw [loop_of_inr (a := (found, i)) (by simp [itemStep, not_lt_length_of_drop h])]
      simp
    | case2 t r ht =>
      simp only [List.length_cons] at hrounds
      obtain ⟨j, hloop, hj⟩ := ih found (drop_succ_of_drop h) (by omega)
      refine ⟨j, ?_, hj⟩
      rw [loop_of_inl (t := (found, i + 1)), hloop]
      simp [itemStep, lt_length_of_drop h, fetch_of_drop h, ht]
    | case3 t r ht hi =>
      refine ⟨i, ?_, h⟩
      rw [loop_of_inr (a := (found, i))]
      · simp
      · simp [itemStep, lt_length_of_drop h, fetch_of_drop h, ht, hi]
    | case4 t ht a p s hi =>
      simp only [List.length_cons] at hrounds
      have hcomma : holdsAt (·.is .comma) ts (i + 1) = .ok true :=
        holdsAt_of_drop _ (drop_succ_of_drop h)
      obtain ⟨j, hloop, hj⟩ := ih (found ++ [a]) (drop_succ_of_drop (drop_succ_of_drop h))
        (by omega)
      refine ⟨j, ?_, hj⟩
      rw [loop_of_inl (t := (found ++ [a], i + 2)), hloop]
      · simp
      · simp [itemStep, lt_length_of_drop h, fetch_of_drop h, ht, hi, hcomma]
    | case5 t r ht a hi hr =>
      have hcomma := holdsAt_of_drop (·.is .comma) (drop_succ_of_drop h)
      have hlast : r.head?.any (·.is .comma) = false := by
        rcases r with _ | ⟨⟨x, p⟩, s⟩
        · rfl
        · have hx : x ≠ .mark .comma := fun e => hr p s (by rw [e])
          simpa [Token.is] using hx
      refine ⟨i + 1, ?_, drop_succ_of_drop h⟩
      rw [loop_of_inr (a := (found ++ [a], i + 1))]
      simp [itemStep, lt_length_of_drop h, fetch_of_drop h, ht, hi, hcomma, hlast]

theorem itemRun_of_drop (item? : Token → Option α) (h : ts.drop i = rest) :
    ∃ j, itemRun item? ts i = .ok ((commaRun item? rest).1, j)
      ∧ ts.drop j = (commaRun item? rest).2 := by
  obtain ⟨j, hloop, hj⟩ := loop_itemStep [] h (length_lt_of_drop h)
  exact ⟨j, hloop, hj⟩

end

/-! ## 3. Headers -/

section

variable {ts rest : List Token} {i : Nat}

theorem isWord_of_word? {t : Token} {w : String} (h : t.word? = some w) (x : String) :
    t.isWord x = decide (w = x) := by
  obtain ⟨y, p⟩ := t
  cases y <;> simp_all [Token.word?, Token.isWord]

theorem loop_clauseStep (parent : Option String) {rounds : Nat} (h : ts.drop i = rest)
    (hrounds : rest.length < rounds) :
    Reads ts (loop (clauseStep ts) rounds (parent, i)) (readClauses parent rest) := by
  induction rounds generalizing parent i rest with
  | zero => exact absurd hrounds (Nat.not_lt_zero _)
  | succ rounds ih =>
    have hclause := holdsAt_of_drop startsClause h
    fun_cases readClauses parent rest with
    | case1 =>
      refine ⟨i, loop_of_inr ?_, h⟩
      simp [clauseStep, hclause]
    | case2 t r ht =>
      refine ⟨i, loop_of_inr ?_, h⟩
      simp [clauseStep, hclause, startsClause, ht]
    | case3 t r w ht hw hrun =>
      obtain ⟨j, hitems, -⟩ := itemRun_of_drop Token.word? (drop_succ_of_drop h)
      refine loop_of_inr ?_
      simp [clauseStep, hclause, startsClause, ht, hw, fetch_of_drop h, hitems, hrun]
    | case4 t r w ht hw target more hrun =>
      obtain ⟨j, hitems, hj⟩ := itemRun_of_drop Token.word? (drop_succ_of_drop h)
      have hle := length_commaRun_le Token.word? r
      simp only [List.length_cons] at hrounds
      have hstep : clauseStep ts (parent, i)
          = .ok (.inl (if w = "extends" then some target else parent, j)) := by
        have htarget : fetch (target :: more) 0 = .ok target := rfl
        simp only [clauseStep, hclause, List.head?_cons, Option.any_some, startsClause, ht, hw,
          decide_true, bind_ok, if_true, fetch_of_drop h, hitems, hrun, List.isEmpty_cons,
          Bool.false_eq_true, if_false, isWord_of_word? ht, decide_eq_true_eq, htarget, pure_eq_ok]
        split <;> rfl
      rw [loop_of_inl hstep]
      exact ih _ hj (by omega)
    | case5 t r w ht hw =>
      refine ⟨i, loop_of_inr ?_, h⟩
      simp [clauseStep, hclause, startsClause, ht, hw]

theorem readClauseRun_of_drop (h : ts.drop i = rest) :
    Reads ts (readClauseRun ts i) (readClauses none rest) :=
  loop_clauseStep none h (length_lt_of_drop h)

/-- The header behind its name: its clauses, and an opening brace. -/
theorem readHeaderBehind_of_drop (name : Option String) (h : ts.drop i = rest) :
    Reads ts (readHeaderBehind ts name i)
      ((readClauses none rest).bind fun (parent, afterClauses) =>
        match afterClauses with
        | t :: r => if t.is .openBrace then some (⟨name, parent⟩, t :: r) else none
        | [] => none) := by
  refine (readClauseRun_of_drop h).bind rfl fun parent j afterClauses _ hj => ?_
  have hbrace := holdsAt_of_drop (·.is .openBrace) hj
  rcases afterClauses with _ | ⟨t, r⟩
  · simp [Reads, hbrace]
  · by_cases ht : t.is .openBrace = true <;> simp [Reads, hbrace, ht, hj]

theorem readHeader_of_drop (nameOptional : Bool) (h : ts.drop i = rest) :
    Reads ts (readHeader nameOptional ts i)
      ((Header.read? nameOptional rest).map fun (header, o, inner) => (header, o :: inner)) := by
  have hread : (Header.read? nameOptional rest).map (fun (header, o, inner) => (header, o :: inner))
      = (readBlockName nameOptional rest).bind fun (name, afterName) =>
          (readClauses none afterName).bind fun (parent, afterClauses) =>
            match afterClauses with
            | t :: r => if t.is .openBrace then some (⟨name, parent⟩, t :: r) else none
            | [] => none := by
    simp only [Header.read?, Option.bind_eq_bind, Option.map_bind, Function.comp_def]
    congr 1
    funext ⟨name, afterName⟩
    congr 1
    funext ⟨parent, afterClauses⟩
    cases afterClauses with
    | nil => rfl
    | cons t r => by_cases ht : t.is .openBrace = true <;> simp [ht]
  rw [hread]
  have hname := holdsAt_of_drop namesBlock h
  have hunnamed (hn : rest.head?.any namesBlock = false) :
      readBlockName nameOptional rest = if nameOptional then some (none, rest) else none := by
    rcases rest with _ | ⟨t, r⟩
    · rfl
    · rcases hw : t.word? with _ | w <;> simp_all [readBlockName, namesBlock]
  by_cases hn : rest.head?.any namesBlock = true
  · obtain ⟨t, r, rfl⟩ : ∃ t r, rest = t :: r := by
      cases rest with
      | nil => simp at hn
      | cons t r => exact ⟨t, r, rfl⟩
    rcases hw : t.word? with _ | w
    · simp [namesBlock, hw] at hn
    · have hnot : w ∉ clauseWords := by simpa [namesBlock, hw] using hn
      have htail := readHeaderBehind_of_drop (some w) (drop_succ_of_drop h)
      simpa [readHeader, hname, namesBlock, fetch_of_drop h, hw, readBlockName, hnot] using htail
  · have hfalse := Bool.eq_false_iff.mpr hn
    rw [hunnamed hfalse]
    cases nameOptional with
    | false => simp [Reads, readHeader, hname, hfalse]
    | true => simpa [readHeader, hname, hfalse] using readHeaderBehind_of_drop none h

end

/-! ## 4. Groups -/

section

variable {ts rest inner : List Token} {i : Nat} {o : Token}

/-- The braces are counted from one below the group, so `depth` further groups count as one more. -/
theorem loop_braceStep (depth : Nat) {rounds : Nat} (h : ts.drop i = rest)
    (hrounds : rest.length < rounds) :
    loop (braceStep ts) rounds ((depth : Int) + 1, i)
      = .ok ((splitBody depth rest).map fun (body, _, _) => i + body.length) := by
  induction rounds generalizing depth i rest with
  | zero => exact absurd hrounds (Nat.not_lt_zero _)
  | succ rounds ih =>
    fun_cases splitBody depth rest with
    | case1 depth =>
      exact loop_of_inr (by simp [braceStep, not_lt_length_of_drop h])
    | case2 depth t r ht =>
      simp only [List.length_cons] at hrounds
      rw [loop_of_inl (t := (((depth + 1 : Nat) : Int) + 1, i + 1)),
        ih _ (drop_succ_of_drop h) (by omega)]
      · cases splitBody (depth + 1) r <;> simp
        omega
      · simp [braceStep, lt_length_of_drop h, fetch_of_drop h, ht]
    | case3 t r ho hc =>
      refine loop_of_inr ?_
      simp [braceStep, lt_length_of_drop h, fetch_of_drop h, ho, hc]
    | case4 t r ho hc d =>
      simp only [List.length_cons] at hrounds
      have hopen : ((d : Int) + 1) ≠ 0 := by omega
      rw [loop_of_inl (t := ((d : Int) + 1, i + 1)), ih _ (drop_succ_of_drop h) (by omega)]
      · cases splitBody d r <;> simp
        omega
      · simp [braceStep, lt_length_of_drop h, fetch_of_drop h, ho, hc, hopen]
    | case5 depth t r ho hc =>
      simp only [List.length_cons] at hrounds
      rw [loop_of_inl (t := ((depth : Int) + 1, i + 1)), ih _ (drop_succ_of_drop h) (by omega)]
      · cases splitBody depth r <;> simp
        omega
      · simp [braceStep, lt_length_of_drop h, fetch_of_drop h, ho, hc]

theorem closingBrace_of_drop (h : ts.drop i = o :: inner) (ho : o.is .openBrace = true) :
    closingBrace ts i = .ok ((splitBody 0 inner).map fun (body, _, _) => i + 1 + body.length) := by
  have hbehind := drop_succ_of_drop h
  have hlength := length_of_drop h (Nat.le_of_lt (lt_length_of_drop h))
  simp only [List.length_cons] at hlength
  have hfirst : braceStep ts (0, i) = .ok (.inl (((0 : Nat) : Int) + 1, i + 1)) := by
    simp [braceStep, lt_length_of_drop h, fetch_of_drop h, ho]
  rw [closingBrace, loop_of_inl hfirst, loop_braceStep 0 hbehind (by omega)]

/-- The tokens of a group stand between its braces, and the closing brace where it was found. -/
theorem group_of_drop {body rest : List Token} {closer : Token} (h : ts.drop i = o :: inner)
    (hsplit : splitBody 0 inner = some (body, closer, rest)) :
    ts.drop (i + 1 + body.length) = closer :: rest
      ∧ slice ts (i + 1) (i + 1 + body.length) = body := by
  have hbehind := drop_succ_of_drop h
  rw [eq_of_splitBody hsplit] at hbehind
  have hcloser : ts.drop (i + 1 + body.length) = closer :: rest := by
    rw [← List.drop_drop, hbehind, List.drop_left]
  refine ⟨hcloser, ?_⟩
  rw [slice, List.drop_take, hbehind]
  simp

theorem leaveOut_eq (reason : SkipReason) (run : List Token) :
    leaveOut reason run = .ok (Skipped.ofTokens reason run) := by
  cases run with
  | nil => rfl
  | cons t r => simp [leaveOut, Skipped.ofTokens, fetch]

end

/-! ## 5. The whole scan -/

section

variable {keyword : String} {nameOptional : Bool} {ts rest : List Token} {i : Nat}

/-- The scan from an index on finds what is to be found in the tokens from there on. -/
theorem loop_findStep (found : List (Outcome Block)) {before : Option Token} {rounds : Nat}
    (h : ts.drop i = rest) (hbefore : before? ts i = before) (hrounds : rest.length < rounds) :
    loop (findStep keyword nameOptional ts) rounds (found, i)
      = .ok (found ++ scanFrom keyword nameOptional before rest) := by
  induction rounds generalizing found i before rest with
  | zero => exact absurd hrounds (Nat.not_lt_zero _)
  | succ rounds ih =>
    fun_cases scanFrom keyword nameOptional before rest with
    | case1 =>
      rw [loop_of_inr (a := found)]
      · simp
      · simp [findStep, not_lt_length_of_drop h]
    | case2 t r hk hh =>
      simp only [List.length_cons] at hrounds
      have hheader := readHeader_of_drop nameOptional (drop_succ_of_drop h)
      rw [hh] at hheader
      simp only [Option.map_none, Reads] at hheader
      rw [loop_of_inl (t := (found, i + 1)),
        ih found (drop_succ_of_drop h) (before?_succ_of_drop h) (by omega)]
      simp [findStep, lt_length_of_drop h, fetch_of_drop h, hheader]
    | case3 t r hk header opener inner hh hb =>
      have hlt := length_lt_of_readHeader hh
      simp only [List.length_cons] at hrounds
      obtain ⟨-, -, ho, -⟩ := exists_of_readHeader hh
      have hheader := readHeader_of_drop nameOptional (drop_succ_of_drop h)
      rw [hh] at hheader
      obtain ⟨o, hrun, hdrop⟩ := hheader
      have hi := length_of_drop h (Nat.le_of_lt (lt_length_of_drop h))
      have hj := length_of_drop hdrop (Nat.le_of_lt (lt_length_of_drop hdrop))
      simp only [List.length_cons] at hi hj
      have hslice : slice ts i (o + 1) = t :: r.take (r.length - inner.length) := by
        rw [slice_of_drop h (drop_succ_of_drop hdrop) (by omega) (by omega), List.length_cons,
          Nat.succ_sub (Nat.le_of_lt hlt), List.take_succ_cons]
      rw [loop_of_inl (t := (found ++ [.skipped (.ofTokens .unterminatedBlock
          (t :: r.take (r.length - inner.length)))], o + 1)),
        ih _ (drop_succ_of_drop hdrop) (before?_succ_of_drop hdrop) (by omega)]
      · simp
      · simp [findStep, lt_length_of_drop h, fetch_of_drop h, hk, hrun,
          closingBrace_of_drop hdrop ho, hb, leaveOut_eq, hslice]
    | case4 t r hk header opener inner hh body closer rest hb =>
      have hlt := length_lt_of_readHeader hh
      have hlt' := length_lt_of_splitBody hb
      simp only [List.length_cons] at hrounds
      obtain ⟨-, -, ho, -⟩ := exists_of_readHeader hh
      have hheader := readHeader_of_drop nameOptional (drop_succ_of_drop h)
      rw [hh] at hheader
      obtain ⟨o, hrun, hdrop⟩ := hheader
      obtain ⟨hcloser, hbody⟩ := group_of_drop hdrop hb
      have habstract := holdsBefore_of_le (·.isWord "abstract") (Nat.le_of_lt (lt_length_of_drop h))
      rw [hbefore] at habstract
      rw [loop_of_inl (t := (found ++ [.matched
          { keyword := keyword
            header := header
            isAbstract := before.any (·.isWord "abstract")
            start := t.position
            opener := opener.position
            closer := closer.position
            body := body }], o + 1 + body.length + 1)),
        ih _ (drop_succ_of_drop hcloser) (before?_succ_of_drop hcloser) (by omega)]
      · simp
      · simp [findStep, lt_length_of_drop h, fetch_of_drop h, hk, hrun,
          closingBrace_of_drop hdrop ho, hb, habstract, fetch_of_drop hdrop, fetch_of_drop hcloser,
          hbody]
    | case5 t r hk =>
      simp only [List.length_cons] at hrounds
      rw [loop_of_inl (t := (found, i + 1)),
        ih found (drop_succ_of_drop h) (before?_succ_of_drop h) (by omega)]
      simp [findStep, lt_length_of_drop h, fetch_of_drop h, hk]

theorem findBlocks_eq (keyword : String) (nameOptional : Bool) (ts : List Token) :
    findBlocks keyword nameOptional ts = .ok (scanBlocks keyword nameOptional ts) := by
  have hstart : ts.drop 0 = ts := rfl
  rw [findBlocks, loop_findStep [] hstart rfl (length_lt_of_drop hstart)]
  rfl

end

/-! ## 6. Lines -/

/-- A token joins the last group or starts the next one. -/
theorem groupStep_groupLines (run : List Token) (t : Token) :
    groupStep (groupLines run) t = .ok (groupLines (run ++ [t])) := by
  rcases List.eq_nil_or_concat' (groupLines run) with hnil | ⟨groups, g, hgroups⟩
  · obtain rfl : run = [] := List.splitBy_eq_nil.mp hnil
    rfl
  obtain ⟨hflat, hne, hline, hnext⟩ := List.splitBy_eq_iff.mp hgroups
  rcases List.eq_nil_or_concat' g with rfl | ⟨init, u, rfl⟩
  · simp at hne
  by_cases h : u.line = t.line
  · have hjoined : groupLines (run ++ [t]) = groups ++ [init ++ [u] ++ [t]] := by
      refine List.splitBy_eq_iff.mpr ⟨by simp [hflat], by simpa using hne, ?_, ?_⟩
      · intro m hm
        rcases List.mem_append.mp hm with hm | hm
        · exact hline m (List.mem_append_left _ hm)
        · obtain rfl := List.mem_singleton.mp hm
          have hlast := hline (init ++ [u]) (by simp)
          exact List.isChain_append.mpr ⟨hlast, .singleton t, by simpa using h⟩
      · obtain ⟨hgroups', -, hjoin⟩ := List.isChain_append.mp hnext
        refine List.isChain_append.mpr ⟨hgroups', .singleton _, fun x hx y hy => ?_⟩
        obtain ⟨ha, hb, hxy⟩ := hjoin x hx (init ++ [u]) (by simp)
        obtain rfl : y = init ++ [u] ++ [t] := by simpa [eq_comm] using hy
        refine ⟨ha, by simp, ?_⟩
        rwa [List.head_append_of_ne_nil (by simp)]
    simp [groupStep, hgroups, fetchLast_concat, h, hjoined]
  · have hnew : groupLines (run ++ [t]) = groupLines run ++ [[t]] := by
      refine List.splitBy_append_cons [] fun x hx => ?_
      simp [hflat] at hx
      simpa [← hx] using h
    simp [groupStep, hgroups, fetchLast_concat, h, hnew]

theorem groupTokens_eq (run : List Token) : groupTokens run = .ok (groupLines run) := by
  induction run using List.reverseRecOn with
  | nil => rfl
  | append_singleton run t ih =>
    rw [groupTokens] at ih ⊢
    rw [List.foldlM_append, ih, bind_ok, List.foldlM_cons, groupStep_groupLines]
    rfl

end ContextAtlas.Indexed
