/-
# Reading attributes and references by index

The line of a member loses its semicolons from the end, and is then read from the start: an index
moves over the modifiers, the type and the name, and behind the name the constraints are read in
steps of one to three tokens.

* `stripTerminators`: a line without its trailing semicolons.
* `constraintsOf`, `assignmentOf`, `wordAfter`: the trailers.
* `attributeOf`, `referenceOf`: whole lines.
* `attributeOf_eq`, `referenceOf_eq`: they give what the readers of lists give.
-/
import ContextAtlas.Member.Lines
import ContextAtlas.Proofs.Indexed.Block
import ContextAtlas.Proofs.Indexed.TypeRef
import ContextAtlas.Proofs.Skipped.Line
import ContextAtlas.Setting

namespace ContextAtlas.Indexed

/-! ## 1. The readers -/

section

variable (key : String) (line : List Token)

/-- How many of so many first tokens are left without the semicolons at their end. -/
def lineEnd : Nat → Run Nat
  | 0 => return 0
  | n + 1 => do
    let t ← fetchBefore line (n + 1)
    if t.is .semicolon then lineEnd n else return n + 1

/-- A line without its trailing semicolons. -/
def stripTerminators : Run (List Token) := do
  let n ← lineEnd line line.length
  return line.take n

/-- The visibility at an index, if more tokens follow, and the index behind it. -/
def visibilityAt (i : Nat) : Run (Option Visibility × Nat) := do
  if i + 1 < line.length then
    let t ← fetch line i
    match t.word?.bind Spelled.read? with
    | some visibility => return (some visibility, i + 1)
    | none => return (none, i)
  else return (none, i)

/-- The collection that opens at an index, and the index behind its angle. -/
def wrapperAt (i : Nat) : Run (Option CollectionType × Nat) := do
  if i + 1 < line.length then
    let t ← fetch line i
    match t.word?.bind Spelled.read? with
    | some wrapper =>
      let u ← fetch line (i + 1)
      if u.is .openAngle then return (some wrapper, i + 2) else return (none, i)
    | none => return (none, i)
  else return (none, i)

/-- One round over constraints, with those so far and the index. -/
def constraintStep : List Constraint × Nat →
    Run ((List Constraint × Nat) ⊕ List Constraint)
  | (found, i) => do
    if i < line.length then
      let t ← fetch line i
      if t.lexeme = .symbol '!' then return .inl (found, i + 2)
      else
        match t.word? with
        | none => return .inl (found, i + 1)
        | some word =>
          if ← holdsAt (·.is .equals) line (i + 1) then
            match ← readAt Setting.value? line (i + 2) with
            | some v => return .inl (found ++ [.value word v.value], i + 3)
            | none => return .inl (found, i + 2)
          else return .inl (found ++ [.flag word], i + 1)
    else return .inr found

/-- The constraints in a trailer. -/
def constraintsOf : Run (List Constraint) :=
  loop (constraintStep line) (line.length + 1) ([], 0)

/-- One round of the search for a key with a value. -/
def assignmentStep (i : Nat) : Run (Nat ⊕ Option String) := do
  if i + 2 < line.length then
    let t ← fetch line i
    let u ← fetch line (i + 1)
    let v ← fetch line (i + 2)
    if t.isWord key && u.is .equals then
      match v.lexeme with
      | .string s => return .inr (some s)
      | .word s => return .inr (some s)
      | _ => return .inl (i + 1)
    else return .inl (i + 1)
  else return .inr none

/-- The value of a key in a trailer. -/
def assignmentOf : Run (Option String) := loop (assignmentStep key line) (line.length + 1) 0

/-- The token that a keyword at an index names: the one behind it, or the one behind a sigil. -/
def pointedTo (i : Nat) : Run Token := do
  let t ← fetch line (i + 1)
  if t.is .sigil && i + 2 < line.length then fetch line (i + 2) else return t

/-- One round of the search for a key with a word behind it. -/
def wordAfterStep (i : Nat) : Run (Nat ⊕ Option String) := do
  if i + 1 < line.length then
    let t ← fetch line i
    if t.isWord key then
      let named ← pointedTo line i
      match named.word? with
      | some w => return .inr (some w)
      | none => return .inl (i + 1)
    else return .inl (i + 1)
  else return .inr none

/-- The word behind a key in a trailer. -/
def wordAfter : Run (Option String) := loop (wordAfterStep key line) (line.length + 1) 0

/-- The attribute on a line. -/
def attributeOf : Run (Outcome Attribute) := do
  let run ← stripTerminators line
  let (visibility, i) ← visibilityAt run 0
  match ← typeRef run i 0 with
  | none => return .skipped (← leaveOut .notAnAttribute run)
  | some (type, j) =>
    match ← readAt Token.word? run j with
    | none => return .skipped (← leaveOut .attributeWithoutName run)
    | some name =>
      let constraints ← constraintsOf (run.drop (j + 1))
      return .matched (.ofConstraints visibility type name constraints)

/-- The reference on a line. -/
def referenceOf : Run (Outcome Reference) := do
  let run ← stripTerminators line
  let start ← skipIf (·.is .minus) run 0
  let (visibility, i) ← visibilityAt run start
  let (wrapper, j) ← wrapperAt run i
  let k ← skipIf (·.is .sigil) run j
  match ← readAt Token.word? run k with
  | none => return .skipped (← leaveOut .referenceWithoutTarget run)
  | some target =>
    let l ← skipIf (·.is .closeAngle) run (k + 1)
    match ← readAt Token.word? run l with
    | none => return .skipped (← leaveOut .referenceWithoutName run)
    | some name =>
      let trailer := run.drop (l + 1)
      let constraints ← constraintsOf trailer
      let cascade ← assignmentOf "cascade" trailer
      let opposite ← wordAfter "opposite" trailer
      return .matched
        { name := name
          target := target
          wrapper := wrapper
          visibility := visibility
          required := Constraint.isFlagged constraints "required"
          nullable := Constraint.isFlagged constraints "nullable"
          cascade := cascade
          opposite := opposite }

end

/-! ## 2. Modifiers -/

section

variable {line rest : List Token} {i : Nat}

theorem withoutTerminators_concat (run : List Token) (t : Token) :
    withoutTerminators (run ++ [t])
      = if t.is .semicolon then withoutTerminators run else run ++ [t] := by
  by_cases ht : t.is .semicolon = true <;> simp [withoutTerminators, ht]

theorem lineEnd_of_le : ∀ {n : Nat}, n ≤ line.length →
    lineEnd line n = .ok (withoutTerminators (line.take n)).length
  | 0, _ => rfl
  | n + 1, h => by
    obtain ⟨t, hget, hfetch⟩ := exists_fetch_of_lt h
    rw [lineEnd, fetchBefore, hfetch, bind_ok, List.take_add_one, hget, Option.toList_some,
      withoutTerminators_concat]
    split
    · exact lineEnd_of_le (Nat.le_of_lt h)
    · simp only [List.length_append, List.length_take, List.length_singleton, pure_eq_ok,
        Except.ok.injEq]
      omega

theorem stripTerminators_eq (line : List Token) :
    stripTerminators line = .ok (withoutTerminators line) := by
  have hend := lineEnd_of_le (Nat.le_refl line.length)
  rw [List.take_length] at hend
  rw [stripTerminators, hend, bind_ok,
    ← List.prefix_iff_eq_take.mp (isPrefix_withoutTerminators line)]
  rfl

theorem visibilityAt_of_drop (h : line.drop i = rest) :
    ∃ j, visibilityAt line i = .ok ((readVisibility rest).1, j)
      ∧ line.drop j = (readVisibility rest).2 := by
  rcases rest with _ | ⟨t, _ | ⟨u, r⟩⟩
  · exact ⟨i, by simp [visibilityAt, add_lt_length_of_drop h, readVisibility], h⟩
  · exact ⟨i, by simp [visibilityAt, add_lt_length_of_drop h, readVisibility], h⟩
  · rcases hv : (t.word?.bind Spelled.read? : Option Visibility) with _ | v
    · refine ⟨i, ?_, by simpa [readVisibility, hv] using h⟩
      simp [visibilityAt, add_lt_length_of_drop h, fetch_of_drop h, readVisibility, hv]
    · refine ⟨i + 1, ?_, by simpa [readVisibility, hv] using drop_succ_of_drop h⟩
      simp [visibilityAt, add_lt_length_of_drop h, fetch_of_drop h, readVisibility, hv]

theorem wrapperAt_of_drop (h : line.drop i = rest) :
    ∃ j, wrapperAt line i = .ok ((Reference.readWrapper rest).1, j)
      ∧ line.drop j = (Reference.readWrapper rest).2 := by
  rcases rest with _ | ⟨t, _ | ⟨u, r⟩⟩
  · exact ⟨i, by simp [wrapperAt, add_lt_length_of_drop h, Reference.readWrapper], h⟩
  · exact ⟨i, by simp [wrapperAt, add_lt_length_of_drop h, Reference.readWrapper], h⟩
  · have hu := fetch_of_drop (drop_succ_of_drop h)
    rcases hw : (t.word?.bind Spelled.read? : Option CollectionType) with _ | w
    · refine ⟨i, ?_, by simpa [Reference.readWrapper, hw] using h⟩
      simp [wrapperAt, add_lt_length_of_drop h, fetch_of_drop h, Reference.readWrapper, hw]
    by_cases ho : u.is .openAngle = true
    · refine ⟨i + 2, ?_, ?_⟩
      · simp [wrapperAt, add_lt_length_of_drop h, fetch_of_drop h, Reference.readWrapper, hw, hu,
          ho]
      · simpa [Reference.readWrapper, hw, ho] using drop_succ_of_drop (drop_succ_of_drop h)
    · refine ⟨i, ?_, by simpa [Reference.readWrapper, hw, ho] using h⟩
      simp [wrapperAt, add_lt_length_of_drop h, fetch_of_drop h, Reference.readWrapper, hw, hu, ho]

end

/-! ## 3. Trailers -/

section

variable {key : String} {line rest : List Token} {i : Nat}

/-- A round takes one to three tokens and reads from them what the reader of lists does. -/
theorem constraintStep_of_drop (found : List Constraint) {t : Token}
    (h : line.drop i = t :: rest) :
    ∃ found' j behind, constraintStep line (found, i) = .ok (.inl (found', j))
      ∧ line.drop j = behind ∧ behind.length ≤ rest.length
      ∧ found' ++ Constraint.readAll behind = found ++ Constraint.readAll (t :: rest) := by
  have hi := lt_length_of_drop h
  have ht := fetch_of_drop h
  have hrest := drop_succ_of_drop h
  have hequals := holdsAt_of_drop (·.is .equals) hrest
  obtain ⟨x, p⟩ := t
  -- Marks, strings and numbers are passed over; a symbol may take the word behind it away.
  cases x with
  | mark m =>
    refine ⟨found, i + 1, rest, ?_, hrest, Nat.le_refl _, by cases rest <;> rfl⟩
    simp [constraintStep, hi, ht, Token.word?]
  | string s =>
    refine ⟨found, i + 1, rest, ?_, hrest, Nat.le_refl _, by cases rest <;> rfl⟩
    simp [constraintStep, hi, ht, Token.word?]
  | number s =>
    refine ⟨found, i + 1, rest, ?_, hrest, Nat.le_refl _, by cases rest <;> rfl⟩
    simp [constraintStep, hi, ht, Token.word?]
  | symbol c =>
    by_cases hc : c = '!'
    · have hbehind : line.drop (i + 2) = rest.tail := by rw [← hrest, List.tail_drop]
      refine ⟨found, i + 2, rest.tail, ?_, hbehind, by simp, ?_⟩
      · simp [constraintStep, hi, ht, hc]
      · cases rest <;> simp [Constraint.readAll, hc]
    · refine ⟨found, i + 1, rest, ?_, hrest, Nat.le_refl _, ?_⟩
      · simp [constraintStep, hi, ht, hc, Token.word?]
      · cases rest <;> simp [Constraint.readAll, hc]
  | word w =>
    rcases rest with _ | ⟨u, s⟩
    · refine ⟨found ++ [.flag w], i + 1, [], ?_, hrest, Nat.le_refl _, by simp [Constraint.readAll]⟩
      simp [constraintStep, hi, ht, hequals, Token.word?]
    by_cases hu : u.is .equals = true
    · have hbehind := drop_succ_of_drop hrest
      have hvalue := readAt_of_drop Setting.value? hbehind
      rcases s with _ | ⟨v, s⟩
      · refine ⟨found, i + 2, [], ?_, hbehind, by simp, by simp [Constraint.readAll, hu]⟩
        simp [constraintStep, hi, ht, hequals, hu, hvalue, Token.word?]
      by_cases hv : v.isValue = true
      · have hlength : s.length ≤ (u :: v :: s).length := by simp; omega
        refine ⟨found ++ [.value w v.value], i + 3, s, ?_, drop_succ_of_drop hbehind, hlength,
          by simp [Constraint.readAll, hu, hv]⟩
        simp [constraintStep, hi, ht, hequals, hu, hvalue, hv, Setting.value?, Token.word?]
      · refine ⟨found, i + 2, v :: s, ?_, hbehind, by simp, by simp [Constraint.readAll, hu, hv]⟩
        simp [constraintStep, hi, ht, hequals, hu, hvalue, hv, Setting.value?, Token.word?]
    · refine ⟨found ++ [.flag w], i + 1, u :: s, ?_, hrest, Nat.le_refl _,
        by simp [Constraint.readAll, hu]⟩
      simp [constraintStep, hi, ht, hequals, hu, Token.word?]

theorem loop_constraintStep (found : List Constraint) {rounds : Nat} (h : line.drop i = rest)
    (hrounds : rest.length < rounds) :
    loop (constraintStep line) rounds (found, i) = .ok (found ++ Constraint.readAll rest) := by
  induction rounds generalizing found i rest with
  | zero => exact absurd hrounds (Nat.not_lt_zero _)
  | succ rounds ih =>
    rcases rest with _ | ⟨t, r⟩
    · rw [loop_of_inr (a := found) (by simp [constraintStep, not_lt_length_of_drop h])]
      simp [Constraint.readAll]
    · obtain ⟨found', j, behind, hstep, hj, hlength, hread⟩ := constraintStep_of_drop found h
      rw [loop_of_inl hstep, ih found' hj (by simp at hrounds; omega), hread]

theorem constraintsOf_eq (line : List Token) :
    constraintsOf line = .ok (Constraint.readAll line) := by
  have hstart : line.drop 0 = line := rfl
  rw [constraintsOf, loop_constraintStep [] hstart (length_lt_of_drop hstart), List.nil_append]

theorem assignmentStep_of_drop {t u v : Token} (h : line.drop i = t :: u :: v :: rest) :
    assignmentStep key line i = .ok (if t.isWord key && u.is .equals then
      match v.lexeme with
      | .string s => .inr (some s)
      | .word s => .inr (some s)
      | _ => .inl (i + 1)
    else .inl (i + 1)) := by
  have hu := drop_succ_of_drop h
  simp only [assignmentStep, add_lt_length_of_drop h, List.length_cons, Nat.lt_add_left_iff_pos,
    Nat.zero_lt_succ, if_true, fetch_of_drop h, fetch_of_drop hu,
    fetch_of_drop (drop_succ_of_drop hu), bind_ok, pure_eq_ok]
  split
  · split <;> rfl
  · rfl

theorem loop_assignmentStep {rounds : Nat} (h : line.drop i = rest)
    (hrounds : rest.length < rounds) :
    loop (assignmentStep key line) rounds i = .ok (Reference.assigned? key rest) := by
  induction rounds generalizing i rest with
  | zero => exact absurd hrounds (Nat.not_lt_zero _)
  | succ rounds ih =>
    fun_cases Reference.assigned? key rest with
    | case1 t u v r hkey s hv =>
      exact loop_of_inr (by rw [assignmentStep_of_drop h, if_pos hkey, hv])
    | case2 t u v r hkey s hv =>
      exact loop_of_inr (by rw [assignmentStep_of_drop h, if_pos hkey, hv])
    | case3 t u v r hkey hstring hword =>
      rw [loop_of_inl (t := i + 1), ih (drop_succ_of_drop h) (by simpa using hrounds)]
      rw [assignmentStep_of_drop h, if_pos hkey]
      split
      · next s hs => exact (hstring s hs).elim
      · next s hs => exact (hword s hs).elim
      · rfl
    | case4 t u v r hkey =>
      rw [loop_of_inl (t := i + 1), ih (drop_succ_of_drop h) (by simpa using hrounds)]
      rw [assignmentStep_of_drop h, if_neg hkey]
    | case5 _ hshort =>
      have hlength : ¬ 2 < rest.length := by
        rcases rest with _ | ⟨t, _ | ⟨u, _ | ⟨v, r⟩⟩⟩
        · simp
        · simp
        · simp
        · exact (hshort t u v r rfl).elim
      exact loop_of_inr (by simp [assignmentStep, add_lt_length_of_drop h, hlength])

theorem assignmentOf_eq (key : String) (line : List Token) :
    assignmentOf key line = .ok (Reference.assigned? key line) := by
  have hstart : line.drop 0 = line := rfl
  rw [assignmentOf, loop_assignmentStep hstart (length_lt_of_drop hstart)]

theorem pointedTo_of_drop {t u : Token} (h : line.drop i = t :: u :: rest) :
    ∃ v, pointedTo line i = .ok v ∧ Reference.pointedAt? (u :: rest) = some v := by
  have hu := drop_succ_of_drop h
  rcases rest with _ | ⟨v, r⟩
  · exact ⟨u, by simp [pointedTo, fetch_of_drop hu, add_lt_length_of_drop h], rfl⟩
  · have hv := fetch_of_drop (drop_succ_of_drop hu)
    by_cases hsigil : u.is .sigil = true
    · refine ⟨v, ?_, by simp [Reference.pointedAt?, hsigil]⟩
      simp [pointedTo, fetch_of_drop hu, add_lt_length_of_drop h, hsigil, hv]
    · refine ⟨u, ?_, by simp [Reference.pointedAt?, hsigil]⟩
      simp [pointedTo, fetch_of_drop hu, hsigil]

theorem wordAfterStep_of_drop {t u : Token} (h : line.drop i = t :: u :: rest) :
    wordAfterStep key line i = .ok (if t.isWord key then
      match (Reference.pointedAt? (u :: rest)).bind Token.word? with
      | some w => .inr (some w)
      | none => .inl (i + 1)
    else .inl (i + 1)) := by
  obtain ⟨v, hrun, hv⟩ := pointedTo_of_drop h
  simp only [wordAfterStep, add_lt_length_of_drop h, List.length_cons, Nat.lt_add_left_iff_pos,
    Nat.zero_lt_succ, if_true, fetch_of_drop h, bind_ok, hrun, hv, Option.bind_some, pure_eq_ok]
  split
  · split <;> rfl
  · rfl

theorem loop_wordAfterStep {rounds : Nat} (h : line.drop i = rest)
    (hrounds : rest.length < rounds) :
    loop (wordAfterStep key line) rounds i = .ok (Reference.wordAfter? key rest) := by
  induction rounds generalizing i rest with
  | zero => exact absurd hrounds (Nat.not_lt_zero _)
  | succ rounds ih =>
    cases rest with
    | nil =>
      exact loop_of_inr (by simp [wordAfterStep, add_lt_length_of_drop h, Reference.wordAfter?])
    | cons t r =>
      have next : loop (wordAfterStep key line) rounds (i + 1) = .ok (Reference.wordAfter? key r) :=
        ih (drop_succ_of_drop h) (by simpa using hrounds)
      rcases r with _ | ⟨u, s⟩
      · exact loop_of_inr (by
          simp [wordAfterStep, add_lt_length_of_drop h, Reference.wordAfter?, Reference.pointedAt?])
      by_cases hkey : t.isWord key = true
      · rcases hword : (Reference.pointedAt? (u :: s)).bind Token.word? with _ | w
        · rw [loop_of_inl (t := i + 1), next]
          · simp [Reference.wordAfter?, hkey, hword]
          · rw [wordAfterStep_of_drop h, if_pos hkey, hword]
        · rw [loop_of_inr (a := some w)]
          · simp [Reference.wordAfter?, hkey, hword]
          · rw [wordAfterStep_of_drop h, if_pos hkey, hword]
      · rw [loop_of_inl (t := i + 1), next]
        · simp [Reference.wordAfter?, hkey]
        · rw [wordAfterStep_of_drop h, if_neg hkey]

theorem wordAfter_eq (key : String) (line : List Token) :
    wordAfter key line = .ok (Reference.wordAfter? key line) := by
  have hstart : line.drop 0 = line := rfl
  rw [wordAfter, loop_wordAfterStep hstart (length_lt_of_drop hstart)]

end

/-! ## 4. Lines -/

theorem attributeOf_eq (line : List Token) : attributeOf line = .ok (Attribute.ofLine line) := by
  have hstart : (withoutTerminators line).drop 0 = withoutTerminators line := rfl
  simp only [attributeOf, stripTerminators_eq, bind_ok, leaveOut_eq, constraintsOf_eq, pure_eq_ok,
    Attribute.ofLine, Attribute.read?]
  obtain ⟨i, hvisibility, hi⟩ := visibilityAt_of_drop hstart
  have htype := typeRef_of_drop hi (Nat.zero_le _)
  simp only [hvisibility, bind_ok]
  rw [Nat.sub_zero] at htype
  rcases hread : TypeRef.readWithin (maxTypeDepth + 1) (readVisibility (withoutTerminators line)).2
    with _ | ⟨type, afterType⟩
  · rw [hread] at htype
    simp only [Reads] at htype
    simp [htype, TypeRef.read?, hread, Outcome.ofRun]
  rw [hread] at htype
  obtain ⟨j, hrun, hj⟩ := htype
  simp only [hrun, bind_ok, readAt_of_drop Token.word? hj, TypeRef.read?, hread]
  rcases afterType with _ | ⟨t, r⟩
  · rfl
  rcases hname : t.word? with _ | name
  · simp [hname, Outcome.ofRun]
  · simp [hname, Outcome.ofRun, drop_succ_of_drop hj]

theorem referenceOf_eq (line : List Token) : referenceOf line = .ok (Reference.ofLine line) := by
  have hstart : (withoutTerminators line).drop 0 = withoutTerminators line := rfl
  obtain ⟨first, hminus, hfirst⟩ := skipIf_of_drop (·.is .minus) hstart
  obtain ⟨i, hvisibility, hi⟩ := visibilityAt_of_drop hfirst
  obtain ⟨j, hwrapper, hj⟩ := wrapperAt_of_drop hi
  obtain ⟨k, hsigil, hk⟩ := skipIf_of_drop (·.is .sigil) hj
  simp only [referenceOf, stripTerminators_eq, bind_ok, leaveOut_eq, constraintsOf_eq,
    assignmentOf_eq, wordAfter_eq, pure_eq_ok, hminus, hvisibility, hwrapper, hsigil,
    readAt_of_drop Token.word? hk, Reference.ofLine, Reference.read?]
  rcases htarget : afterOptional (·.is .sigil) (Reference.readWrapper
    (readVisibility (afterOptional (·.is .minus) (withoutTerminators line))).2).2 with _ | ⟨t, r⟩
  · rfl
  rw [htarget] at hk
  rcases ht : t.word? with _ | target
  · simp [ht, Outcome.ofRun]
  obtain ⟨l, hangle, hl⟩ := skipIf_of_drop (·.is .closeAngle) (drop_succ_of_drop hk)
  simp only [List.head?_cons, Option.bind_some, ht, hangle, bind_ok, readAt_of_drop Token.word? hl]
  rcases hname : afterOptional (·.is .closeAngle) r with _ | ⟨u, trailer⟩
  · rfl
  rw [hname] at hl
  rcases hu : u.word? with _ | name
  · simp [hu, Outcome.ofRun]
  · simp [hu, Outcome.ofRun, drop_succ_of_drop hl]

end ContextAtlas.Indexed
