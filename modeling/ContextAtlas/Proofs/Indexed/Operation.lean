/-
# Reading operations by index

An operation is found by its parentheses.  The name is the token in front of the first one, which
is fetched as soon as there is a parenthesis: it lies behind the modifiers, so that a token stands
in front of it.  The trailer is read in two passes, of which one looks back by an index and the
other takes the only arrow out of a list of all arrows.

* `findMark`: the index of a mark.
* `parametersOf`, `readOnlyMarked`, `transitionOf`: the parts of an operation.
* `operationOf`: the whole line.
* `operationOf_eq`: it gives what the reader of lists gives.
-/
import ContextAtlas.Member.Operation
import ContextAtlas.Proofs.Indexed.Member
import Mathlib.Data.List.ReduceOption

namespace ContextAtlas.Indexed

/-! ## 1. The readers -/

section

variable (m : Mark) (ts line : List Token)

/-- One round of the search for a mark. -/
def markStep (i : Nat) : Run (Nat ⊕ Option Nat) := do
  if i < ts.length then
    let t ← fetch ts i
    if t.is m then return .inr (some i) else return .inl (i + 1)
  else return .inr none

/-- The index of the first mark of a kind from an index on. -/
def findMark : Nat → Run (Option Nat) := loop (markStep m ts) (ts.length + 1)

/-- The type that starts a run of tokens. -/
def typeOf : Run (Option TypeRef) := do
  match ← typeRef ts 0 0 with
  | none => return none
  | some (type, _) => return some type

/-- The parameter that a group of tokens without sigils is. -/
def parameterOf : Run (Option Parameter) := do
  if ts.length < 2 then return none
  else
    let last ← fetchLast ts
    match last.word? with
    | none => return none
    | some name =>
      match ← typeOf ts.dropLast with
      | none => return none
      | some type => return some ⟨name, type⟩

/-- The parameters in a list. -/
def parametersOf : Run (List Parameter) := do
  let found ← (splitParameters 0 [] ts).mapM fun group => parameterOf (group.filter (!·.is .sigil))
  return found.reduceOption

/-- The type of the result. -/
def returnTypeOf : Run (Option TypeRef) := do
  if ts.isEmpty then return some (.primitive .void) else typeOf ts

/-- Whether two tokens are a minus and the word `only`. -/
def isHyphenOnly : Run Bool := do
  if ts.length = 2 then
    let t ← fetch ts 0
    let u ← fetch ts 1
    return t.is .minus && u.value == "only"
  else return false

/-- One round of the search for a mark of reading. -/
def readOnlyStep (i : Nat) : Run (Nat ⊕ Bool) := do
  if i < ts.length then
    let t ← fetch ts i
    if t.isWord "read" then
      if ← isHyphenOnly (slice ts (i + 1) (i + 3)) then return .inr true
      else if ← holdsBefore (·.is .colon) ts i then return .inr true
      else return .inl (i + 1)
    else return .inl (i + 1)
  else return .inr false

/-- Whether a trailer marks the operation as read-only. -/
def readOnlyMarked : Run Bool := loop (readOnlyStep ts) (ts.length + 1) 0

/-- The transition between the brackets of a trailer. -/
def transitionOf : Run (Option StateTransition) := do
  match ← findMark .openBracket ts 0 with
  | none => return none
  | some o =>
    match ← findMark .closeBracket ts o with
    | none => return none
    | some c =>
      let inner := slice ts (o + 1) c
      let arrows := inner.findIdxs (·.is .arrow)
      if arrows.length = 1 then
        let a ← fetch arrows 0
        return some (.ofSides (inner.take a) (inner.drop (a + 1)))
      else return none

/-- The operation on a line. -/
def operationOf : Run (Outcome Operation) := do
  let run ← stripTerminators line
  let afterDef ← skipIf Token.announcesOperation run 0
  let (visibility, afterVisibility) ← visibilityAt run afterDef
  let i ← skipIf (·.isWord "abstract") run afterVisibility
  match ← findMark .openParen run i with
  | none => return .skipped (← leaveOut .notAnOperation run)
  | some o =>
    if o = i then return .skipped (← leaveOut .notAnOperation run)
    else
      let named ← fetchBefore run o
      match named.word? with
      | none => return .skipped (← leaveOut .notAnOperation run)
      | some name =>
        match ← findMark .closeParen run o with
        | none => return .skipped (← leaveOut .unclosedParameterList run)
        | some c =>
          match ← returnTypeOf (slice run i (o - 1)) with
          | none => return .skipped (← leaveOut .unreadableReturnType run)
          | some returnType =>
            let parameters ← parametersOf (slice run (o + 1) c)
            let isReadOnly ← readOnlyMarked (run.drop (c + 1))
            let transition ← transitionOf (run.drop (c + 1))
            return .matched
              { name := name
                returnType := returnType
                parameters := parameters
                visibility := visibility
                isReadOnly := isReadOnly
                transition := transition }

end

/-! ## 2. Marks -/

section

variable {m : Mark} {ts rest : List Token} {i : Nat}

/-- A mark is found behind the tokens that are other ones. -/
theorem loop_markStep {rounds : Nat} (h : ts.drop i = rest) (hrounds : rest.length < rounds) :
    loop (markStep m ts) rounds i
      = .ok (if rest.dropWhile (!·.is m) = [] then none
        else some (i + (rest.takeWhile (!·.is m)).length)) := by
  induction rounds generalizing i rest with
  | zero => exact absurd hrounds (Nat.not_lt_zero _)
  | succ rounds ih =>
    cases rest with
    | nil =>
      exact loop_of_inr (by simp [markStep, not_lt_length_of_drop h])
    | cons t r =>
      by_cases ht : t.is m = true
      · refine loop_of_inr ?_
        simp [markStep, lt_length_of_drop h, fetch_of_drop h, ht]
      · rw [loop_of_inl (t := i + 1), ih (drop_succ_of_drop h) (by simpa using hrounds)]
        · simp [ht, Nat.add_assoc, Nat.add_comm 1]
        · simp [markStep, lt_length_of_drop h, fetch_of_drop h, ht]

theorem findMark_none (h : ts.drop i = rest) (hnone : rest.dropWhile (!·.is m) = []) :
    findMark m ts i = .ok none := by
  rw [findMark, loop_markStep h (length_lt_of_drop h), if_pos hnone]

/-- Where a mark is found, the tokens in front of it are those that are other ones. -/
theorem findMark_some {t : Token} {behind : List Token} (h : ts.drop i = rest)
    (hsome : rest.dropWhile (!·.is m) = t :: behind) :
    ∃ j, findMark m ts i = .ok (some j)
      ∧ j = i + (rest.takeWhile (!·.is m)).length ∧ ts.drop j = t :: behind := by
  refine ⟨_, ?_, rfl, ?_⟩
  · rw [findMark, loop_markStep h (length_lt_of_drop h), if_neg (by simp [hsome])]
  · rw [← List.drop_drop, h, drop_length_takeWhile, hsome]

/-- A mark that closes what another one opens is looked for from the opening one on. -/
theorem findMark_closing {opener t : Token} {inner behind : List Token}
    (h : ts.drop i = opener :: inner) (hopener : opener.is m = false)
    (hsome : inner.dropWhile (!·.is m) = t :: behind) :
    ∃ j, findMark m ts i = .ok (some j) ∧ ts.drop j = t :: behind
      ∧ slice ts (i + 1) j = inner.takeWhile (!·.is m) := by
  obtain ⟨j, hrun, -, hj⟩ := findMark_some (m := m) h (by simpa [hopener] using hsome)
  have hinner : ts.drop (i + 1) = inner.takeWhile (!·.is m) ++ t :: behind := by
    rw [drop_succ_of_drop h, ← hsome, List.takeWhile_append_dropWhile]
  exact ⟨j, hrun, hj, slice_of_append hinner hj (lt_length_of_drop h)
    (Nat.le_of_lt (lt_length_of_drop hj))⟩

end

/-! ## 3. Parameters -/

theorem typeOf_eq (ts : List Token) : typeOf ts = .ok ((TypeRef.read? ts).map (·.1)) := by
  have hstart : ts.drop 0 = ts := rfl
  have htype : Reads ts (typeRef ts 0 0) (TypeRef.read? ts) :=
    typeRef_of_drop hstart (Nat.zero_le _)
  rcases hread : TypeRef.read? ts with _ | ⟨type, rest⟩
  · rw [hread] at htype
    simp only [Reads] at htype
    simp [typeOf, htype]
  · rw [hread] at htype
    obtain ⟨j, hrun, -⟩ := htype
    simp [typeOf, hrun]

theorem parameterOf_eq (group : List Token) :
    parameterOf (group.filter (!·.is .sigil)) = .ok (Parameter.read? group) := by
  unfold Parameter.read?
  generalize group.filter (!·.is .sigil) = tokens
  rcases List.eq_nil_or_concat' tokens with rfl | ⟨init, last, rfl⟩
  · rfl
  by_cases hinit : init = []
  · subst hinit
    cases last.word? <;>
      simp [parameterOf, TypeRef.read?, TypeRef.readWithin, TypeRef.afterSigil]
  have hlength : ¬ (init ++ [last]).length < 2 := by
    have hpos := List.length_pos_iff.mpr hinit
    simp only [List.length_append, List.length_singleton]
    omega
  rw [parameterOf, if_neg hlength, fetchLast_concat, bind_ok, List.dropLast_concat, typeOf_eq]
  rcases hname : last.word? with _ | name
  · simp [hname]
  · cases hread : TypeRef.read? init <;> simp [hname, hread]

theorem parametersOf_eq (ts : List Token) : parametersOf ts = .ok (readParameters ts) := by
  have hgroups := mapM_ok parameterOf_eq (splitParameters 0 [] ts)
  simp [parametersOf, hgroups, readParameters, List.reduceOption]

theorem returnTypeOf_eq (ts : List Token) :
    returnTypeOf ts = .ok (Operation.readReturnType ts) := by
  rw [returnTypeOf, Operation.readReturnType, typeOf_eq]
  split <;> rfl

/-! ## 4. Trailers -/

section

variable {ts rest : List Token} {i : Nat}

/-- Whether a run starts with a minus and the word `only`. -/
def startsWithOnly (run : List Token) : Bool :=
  run.head?.any (·.is .minus) && run.tail.head?.any (·.value == "only")

theorem isReadOnlyTrailer_cons (t : Token) (r : List Token) :
    Operation.isReadOnlyTrailer (t :: r)
      = (t.is .colon && r.head?.any (·.isWord "read")
        || t.isWord "read" && startsWithOnly r || Operation.isReadOnlyTrailer r) := by
  rw [Operation.isReadOnlyTrailer, Bool.and_assoc, ← startsWithOnly]
  split
  · next h => simp [h]
  · next h =>
    rw [Bool.eq_false_iff.mpr h]
    split
    · next h' => simp [h']
    · next h' => simp [Bool.eq_false_iff.mpr h']

theorem isHyphenOnly_of_drop (h : ts.drop i = rest) :
    isHyphenOnly (slice ts i (i + 2)) = .ok (startsWithOnly rest) := by
  have hslice : slice ts i (i + 2) = rest.take 2 := by
    rw [slice, List.drop_take, h, Nat.add_sub_cancel_left]
  rw [hslice]
  rcases rest with _ | ⟨t, _ | ⟨u, r⟩⟩
  · rfl
  · simp [isHyphenOnly, startsWithOnly]
  · simp [isHyphenOnly, startsWithOnly, fetch]

theorem readOnlyStep_of_drop {t : Token} (h : ts.drop i = t :: rest) :
    readOnlyStep ts i
      = .ok (if t.isWord "read" && (startsWithOnly rest || (before? ts i).any (·.is .colon)) then
          .inr true
        else .inl (i + 1)) := by
  have honly := isHyphenOnly_of_drop (drop_succ_of_drop h)
  have hcolon := holdsBefore_of_le (·.is .colon) (Nat.le_of_lt (lt_length_of_drop h))
  rw [readOnlyStep, if_pos (lt_length_of_drop h), fetch_of_drop h, bind_ok, honly, hcolon]
  cases t.isWord "read" <;> cases startsWithOnly rest <;>
    cases (before? ts i).any (·.is .colon) <;> rfl

/-- What stands in front of the trailer counts if the trailer starts with `read`. -/
theorem loop_readOnlyStep {before : Option Token} {rounds : Nat} (h : ts.drop i = rest)
    (hbefore : before? ts i = before) (hrounds : rest.length < rounds) :
    loop (readOnlyStep ts) rounds i
      = .ok (before.any (·.is .colon) && rest.head?.any (·.isWord "read")
          || Operation.isReadOnlyTrailer rest) := by
  induction rounds generalizing before i rest with
  | zero => exact absurd hrounds (Nat.not_lt_zero _)
  | succ rounds ih =>
    cases rest with
    | nil =>
      refine loop_of_inr ?_
      simp [readOnlyStep, not_lt_length_of_drop h, Operation.isReadOnlyTrailer]
    | cons t r =>
      have next := ih (drop_succ_of_drop h) (before?_succ_of_drop h) (by simpa using hrounds)
      have hstep := readOnlyStep_of_drop h
      rw [hbefore] at hstep
      rw [isReadOnlyTrailer_cons, List.head?_cons, Option.any_some]
      by_cases hmarked : (t.isWord "read" && (startsWithOnly r || before.any (·.is .colon))) = true
      · rw [if_pos hmarked] at hstep
        rw [loop_of_inr hstep]
        cases hread : t.isWord "read" <;> cases hfollows : startsWithOnly r <;> simp_all
      · rw [if_neg hmarked] at hstep
        rw [loop_of_inl hstep, next, Option.any_some]
        cases hread : t.isWord "read" <;> simp_all

theorem readOnlyMarked_eq (ts : List Token) :
    readOnlyMarked ts = .ok (Operation.isReadOnlyTrailer ts) := by
  have hstart : ts.drop 0 = ts := rfl
  rw [readOnlyMarked, loop_readOnlyStep hstart rfl (length_lt_of_drop hstart)]
  rfl

/-- The first index in a list of all is that behind the elements without the property. -/
theorem fetch_findIdxs {α : Type} {p : α → Bool} {xs : List α} (s : Nat) (h : 0 < xs.countP p) :
    fetch (xs.findIdxs p s) 0 = .ok (s + (xs.takeWhile (!p ·)).length) := by
  induction xs generalizing s with
  | nil => simp at h
  | cons a xs ih =>
    by_cases ha : p a = true
    · simp [ha, fetch]
    · simp only [List.countP_cons_of_neg ha] at h
      simp [ha, ih (s + 1) h, Nat.add_assoc, Nat.add_comm 1]

theorem transitionOf_eq (ts : List Token) : transitionOf ts = .ok (StateTransition.read? ts) := by
  have hstart : ts.drop 0 = ts := rfl
  unfold transitionOf StateTransition.read?
  rcases hopen : ts.dropWhile (!·.is .openBracket) with _ | ⟨opener, r⟩
  · simp only [findMark_none hstart hopen, hopen, bind_ok, pure_eq_ok]
  have hopener : opener.is .closeBracket = false :=
    not_is_of_is (exists_span_until hopen).2.1 (by decide)
  obtain ⟨o, hrun, -, ho⟩ := findMark_some hstart hopen
  have hsplit := List.takeWhile_append_dropWhile (p := (!·.is .closeBracket)) (l := r)
  simp only [hopen, hrun, bind_ok]
  rcases hclose : r.dropWhile (!·.is .closeBracket) with _ | ⟨closer, behind⟩
  · have hnone : (opener :: r).dropWhile (!·.is .closeBracket) = [] := by
      rw [List.dropWhile_cons_of_pos (by simp [hopener]), hclose]
    rw [hclose, List.append_nil] at hsplit
    simp only [findMark_none ho hnone, hsplit, bind_ok, pure_eq_ok, if_true]
  obtain ⟨c, hrun', -, hinner⟩ := findMark_closing ho hopener hclose
  have hlength : ¬ (r.takeWhile (!·.is .closeBracket)).length = r.length := by
    intro hlength
    have hlen := congrArg List.length hsplit
    rw [List.length_append, hlength, hclose, List.length_cons] at hlen
    omega
  generalize r.takeWhile (!·.is .closeBracket) = inner at hinner hlength
  simp only [hrun', hinner, bind_ok, List.length_findIdxs, ← List.countP_eq_length_filter,
    if_neg hlength]
  by_cases harrows : inner.countP (·.is .arrow) = 1
  · simp [harrows, fetch_findIdxs 0 (Nat.lt_of_lt_of_eq Nat.one_pos harrows.symm),
      take_length_takeWhile, ← drop_length_takeWhile]
  · simp [harrows]

end

/-! ## 5. Lines -/

section

variable {run signature : List Token} {i : Nat}

/-- Modifiers are skipped by index as they are in a list. -/
theorem modifiers_of_start (run : List Token) :
    ∃ j k i, skipIf Token.announcesOperation run 0 = .ok j
      ∧ visibilityAt run j = .ok ((Operation.readModifiers run).1, k)
      ∧ skipIf (·.isWord "abstract") run k = .ok i
      ∧ run.drop i = (Operation.readModifiers run).2 := by
  have hstart : run.drop 0 = run := rfl
  obtain ⟨j, hdef, hj⟩ := skipIf_of_drop Token.announcesOperation hstart
  obtain ⟨k, hvisibility, hk⟩ := visibilityAt_of_drop hj
  obtain ⟨i, habstract, hi⟩ := skipIf_of_drop (·.isWord "abstract") hk
  exact ⟨j, k, i, hdef, hvisibility, habstract, hi⟩

/-- The name is the last of the tokens in front of the parenthesis, and those in front of it are
the type of the result. -/
theorem fetchBefore_of_append {init behind : List Token} {named : Token}
    (h : run.drop i = (init ++ [named]) ++ behind) :
    fetchBefore run (i + (init ++ [named]).length) = .ok named
      ∧ slice run i (i + (init ++ [named]).length - 1) = init := by
  have hnamed : run.drop (i + init.length) = named :: behind := by
    rw [← List.drop_drop, h, List.append_assoc, List.drop_left, List.singleton_append]
  have hlength : i + (init ++ [named]).length = i + init.length + 1 := by
    rw [List.length_append, List.length_singleton, Nat.add_assoc]
  rw [hlength]
  have hlt := lt_length_of_drop hnamed
  have hinit : run.drop i = init ++ (named :: behind) := by simpa using h
  exact ⟨fetch_of_drop hnamed, slice_of_append hinit hnamed (by omega) (Nat.le_of_lt hlt)⟩

theorem operationOf_eq (line : List Token) : operationOf line = .ok (Operation.ofLine line) := by
  obtain ⟨j, k, i, hdef, hvisibility, habstract, hi⟩ := modifiers_of_start (withoutTerminators line)
  simp only [operationOf, stripTerminators_eq, leaveOut_eq, readOnlyMarked_eq, transitionOf_eq,
    returnTypeOf_eq, parametersOf_eq, bind_ok, pure_eq_ok, hdef, hvisibility, habstract,
    Operation.ofLine, Operation.read?]
  generalize withoutTerminators line = run at *
  generalize (Operation.readModifiers run).1 = visibility
  generalize (Operation.readModifiers run).2 = signature at hi ⊢
  rcases hopen : signature.dropWhile (!·.is .openParen) with _ | ⟨opener, afterOpen⟩
  · simp only [findMark_none hi hopen, hopen, bind_ok]
    rfl
  have hopener : opener.is .closeParen = false :=
    not_is_of_is (exists_span_until hopen).2.1 (by decide)
  obtain ⟨o, hrun, ho, hdrop⟩ := findMark_some hi hopen
  have hsplit := List.takeWhile_append_dropWhile (p := (!·.is .openParen)) (l := signature)
  rw [hopen] at hsplit
  simp only [hrun, hopen, bind_ok]
  rcases List.eq_nil_or_concat' (signature.takeWhile (!·.is .openParen)) with
    hhead | ⟨init, named, hhead⟩
  · have hoi : o = i := by rw [ho, hhead]; rfl
    simp [hoi, hhead, Outcome.ofRun]
  rw [hhead] at ho hsplit
  have hoi : o ≠ i := by
    rw [List.length_append, List.length_singleton] at ho
    omega
  obtain ⟨hnamed, hresult⟩ := fetchBefore_of_append (hi.trans hsplit.symm)
  rw [← ho] at hnamed hresult
  simp only [if_neg hoi, hnamed, hresult, hhead, bind_ok, List.getLast?_concat, Option.bind_some,
    List.dropLast_concat]
  rcases named.word? with _ | name
  · rfl
  rcases hclose : afterOpen.dropWhile (!·.is .closeParen) with _ | ⟨closer, trailer⟩
  · have hnone : (opener :: afterOpen).dropWhile (!·.is .closeParen) = [] := by
      rw [List.dropWhile_cons_of_pos (by simp [hopener]), hclose]
    simp only [findMark_none hdrop hnone, hclose, bind_ok]
    rfl
  obtain ⟨c, hrun', hc, hparameters⟩ := findMark_closing hdrop hopener hclose
  simp only [hrun', hparameters, hclose, drop_succ_of_drop hc, bind_ok]
  cases Operation.readReturnType init <;> rfl

end

end ContextAtlas.Indexed
