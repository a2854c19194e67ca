/-
# Reading relationships by index

A relationship is read around its connector in two directions.  To the left an index goes down
until it meets a bracket or the start of the list, to the right one goes up, and a body is taken
between the braces that were found.  A place to the left is given by the number of tokens in front
of it, so that going down ends at zero.

* `connectorAt`, `leftSide`, `rightSide`: the parts around a connector.
* `build`: the relationship that they make.
* `relationshipsOf`: all relationships in a run of tokens.
* `relationshipsOf_eq`: they are those of the reader of lists.
-/
import ContextAtlas.Proofs.Indexed.Operation
import ContextAtlas.Proofs.Indexed.Setting
import ContextAtlas.Relationship.Reader

namespace ContextAtlas.Indexed

/-! ## 1. The readers -/

section

variable (ts : List Token)

/-- The connector at an index, and the index behind it. -/
def connectorAt (i : Nat) : Run (Option (Connector × Nat)) := do
  let t ← fetch ts i
  match t.lexeme with
  | .mark .doubleArrow => return some (.symmetric, i + 1)
  | .mark .arrow => return some (.leftUpstream, i + 1)
  | .mark .backArrow => return some (.rightUpstream, i + 1)
  | .word first =>
    if first = "Partnership" then return some (.partnership, i + 1)
    else if i + 2 < ts.length then
      let u ← fetch ts (i + 1)
      if u.is .minus then
        let v ← fetch ts (i + 2)
        return (v.word?.bind (Connector.ofWords? first)).map fun c => (c, i + 3)
      else return none
    else return none
  | _ => return none

/-- One round of the search for an opening bracket to the left. -/
def bracketStep (k : Nat) : Run (Nat ⊕ Nat) := do
  if 0 < k then
    let t ← fetchBefore ts k
    if t.is .openBracket then return .inr k else return .inl (k - 1)
  else return .inr 0

/-- The index behind the last opening bracket in front of an index, or zero. -/
def behindBracket : Nat → Run Nat := loop (bracketStep ts) (ts.length + 1)

/-- The word in front of an index. -/
def wordBefore (k : Nat) : Run (Option String) := do
  if 0 < k then
    let t ← fetchBefore ts k
    return t.word?
  else return none

/-- The side in front of a connector. -/
def leftSide (i : Nat) : Run (Option Side) := do
  if ← holdsBefore (·.is .closeBracket) ts i then
    let o ← behindBracket ts (i - 1)
    if o = 0 then return none
    else
      let context ← wordBefore ts (o - 1)
      return context.map fun context => ⟨context, wordsOf (slice ts o (i - 1))⟩
  else
    let context ← wordBefore ts i
    return context.map fun context => ⟨context, []⟩

/-- The context at an index as a side, and the index behind it. -/
def contextAt (roles : List String) (i : Nat) : Run (Option (Side × Nat)) := do
  let j ← skipIf (·.is .sigil) ts i
  match ← readAt Token.word? ts j with
  | none => return none
  | some context => return some (⟨context, roles⟩, j + 1)

/-- The side behind a connector, and the index behind it. -/
def rightSide (i : Nat) : Run (Option (Side × Nat)) := do
  if ← holdsAt (·.is .openBracket) ts i then
    match ← findMark .closeBracket ts (i + 1) with
    | none => return none
    | some c => contextAt ts (wordsOf (slice ts (i + 1) c)) (c + 1)
  else contextAt ts [] i

/-- The name of a relationship behind a colon, and the index behind it. -/
def nameAt (i : Nat) : Run (Option String × Nat) := do
  if i + 1 < ts.length then
    let t ← fetch ts i
    if t.is .colon then
      let u ← fetch ts (i + 1)
      match u.word? with
      | some name => return (some name, i + 2)
      | none => return (none, i)
    else return (none, i)
  else return (none, i)

/-- The index behind the group that opens at an index; without a closing brace it is the end. -/
def behindGroup (i : Nat) : Run Nat := do
  match ← closingBrace ts i with
  | some c => return c + 1
  | none => return ts.length

/-- The body between braces at an index, and the index behind it. -/
def bodyAt (i : Nat) : Run (List Token × Nat) := do
  if ← holdsAt (·.is .openBrace) ts i then
    let j ← behindGroup ts i
    return (slice ts (i + 1) (j - 1), j)
  else return ([], i)

/-- The relationship that a connector, its sides, a name and a body make. -/
def build (connector : Connector) (left right : Side) (name : Option String)
    (body : List Token) : Run Relationship := do
  let technology ← stringSetting "implementationTechnology" body
  let shape :=
    if connector = .symmetric then
      if left.roles.contains "SK" || right.roles.contains "SK" then .sharedKernel else .partnership
    else connector
  if shape = .partnership then
    return .partnership ⟨left.context, right.context, name, technology⟩
  else if shape = .sharedKernel then
    return .sharedKernel ⟨left.context, right.context, name, technology⟩
  else
    let betweenCustomers :=
      if shape = .leftUpstream ∨ shape = .rightUpstream then
        isCustomerSupplier left.roles right.roles
      else shape = .customerSupplier ∨ shape = .supplierCustomer
    let leftIsUpstream :=
      shape = .leftUpstream ∨ shape = .upstreamDownstream ∨ shape = .supplierCustomer
    let (upstream, downstream) := if leftIsUpstream then (left, right) else (right, left)
    let exposed ← listSetting "exposedAggregates" body
    let rights ← memberSetting "downstreamRights" body GovernanceRights
    let terms : Directed :=
      { upstream := upstream.context
        downstream := downstream.context
        upstreamRoles := upstreamRoles upstream.roles
        downstreamRoles := downstreamRoles downstream.roles
        exposedAggregates := exposed
        rights := rights
        name := name
        technology := technology }
    return if betweenCustomers then .customerSupplier terms else .upstreamDownstream terms

/-- The relationship around the connector between two indices, and the index from which to go
on. -/
def relationshipAt (connector : Connector) (start stop : Nat) :
    Run (Outcome Relationship × Nat) := do
  let left? ← leftSide ts start
  let right? ← rightSide ts stop
  match left?, right? with
  | some left, some (right, i) =>
    let (name, j) ← nameAt ts i
    let (body, k) ← bodyAt ts j
    return (.matched (← build connector left right name body), k)
  | _, _ =>
    return (.skipped (← leaveOut .missingParticipant (slice ts start stop)), stop)

/-- One round of the search for relationships, with the outcomes so far and the index. -/
def relationshipStep : List (Outcome Relationship) × Nat →
    Run ((List (Outcome Relationship) × Nat) ⊕ List (Outcome Relationship))
  | (found, i) => do
    if i < ts.length then
      let t ← fetch ts i
      if t.is .openBrace then
        let j ← behindGroup ts i
        return .inl (found, j)
      else
        match ← connectorAt ts i with
        | none => return .inl (found, i + 1)
        | some (connector, stop) =>
          let (outcome, j) ← relationshipAt ts connector i stop
          return .inl (found ++ [outcome], j)
    else return .inr found

/-- The outcomes for the connectors in a run of tokens. -/
def relationshipsOf : Run (List (Outcome Relationship)) :=
  loop (relationshipStep ts) (ts.length + 1) ([], 0)

end

/-! ## 2. Connectors -/

section

variable {ts r before rest : List Token} {t : Token} {i j k : Nat}

theorem connectorAt_of_drop (h : ts.drop i = t :: r) :
    connectorAt ts i = .ok ((Connector.read? t r).map fun (c, n) => (c, i + 1 + n)) := by
  rw [connectorAt, fetch_of_drop h, bind_ok]
  obtain ⟨x, p⟩ := t
  cases x with
  | mark m => cases m <;> rfl
  | string s => rfl
  | number s => rfl
  | symbol c => rfl
  | word first =>
    by_cases hfirst : first = "Partnership"
    · simp [Connector.read?, hfirst]
    rcases r with _ | ⟨u, _ | ⟨v, s⟩⟩
    · simp [Connector.read?, hfirst, add_lt_length_of_drop h]
    · simp [Connector.read?, hfirst, add_lt_length_of_drop h]
    have hu := drop_succ_of_drop h
    by_cases hminus : u.is .minus = true
    · simp [Connector.read?, hfirst, add_lt_length_of_drop h, fetch_of_drop hu,
        fetch_of_drop (drop_succ_of_drop hu), hminus, Function.comp_def]
    · simp [Connector.read?, hfirst, add_lt_length_of_drop h, fetch_of_drop hu, hminus]

/-! ## 3. The left side -/

theorem eq_zero_of_take (h : (ts.take i).reverse = []) (hi : i ≤ ts.length) : i = 0 := by
  have hlength := congrArg List.length h
  rwa [List.length_reverse, List.length_take_of_le hi] at hlength

/-- The token in front of an index is the first of those in front of it, from the last one on. -/
theorem exists_of_take (h : (ts.take i).reverse = t :: r) (hi : i ≤ ts.length) :
    ∃ k, i = k + 1 ∧ fetchBefore ts i = .ok t ∧ (ts.take k).reverse = r := by
  cases i with
  | zero => simp at h
  | succ k =>
    obtain ⟨u, hget, hfetch⟩ := exists_fetch_of_lt hi
    rw [List.take_add_one, hget, Option.toList_some, List.reverse_concat] at h
    obtain ⟨rfl, hr⟩ := List.cons.inj h
    exact ⟨k, rfl, hfetch, hr⟩

/-- What is read of the token in front of an index, if there is one, is read of the first of those in
front of it. -/
theorem readBefore_of_take {β : Type} {read : Nat → Run β} {f : Option Token → β}
    (hnone : read 0 = .ok (f none))
    (hsome : ∀ k t, fetchBefore ts (k + 1) = .ok t → read (k + 1) = .ok (f (some t)))
    (h : (ts.take i).reverse = before) (hi : i ≤ ts.length) : read i = .ok (f before.head?) := by
  cases before with
  | nil =>
    obtain rfl := eq_zero_of_take h hi
    exact hnone
  | cons t r =>
    obtain ⟨k, rfl, hfetch, -⟩ := exists_of_take h hi
    exact hsome k t hfetch

theorem holdsBefore_of_take (p : Token → Bool) (h : (ts.take i).reverse = before)
    (hi : i ≤ ts.length) : holdsBefore p ts i = .ok (before.head?.any p) :=
  readBefore_of_take (f := Option.any p) rfl
    (fun k t hfetch => by simp [holdsBefore, hfetch]) h hi

theorem wordBefore_of_take (h : (ts.take i).reverse = before) (hi : i ≤ ts.length) :
    wordBefore ts i = .ok (before.head?.bind Token.word?) :=
  readBefore_of_take (f := fun t => t.bind Token.word?) rfl
    (fun k t hfetch => by simp [wordBefore, hfetch]) h hi

/-- The tokens between two places, from those in front of each. -/
theorem slice_of_take {run : List Token} {o : Nat} (h : (ts.take k).reverse = run ++ before)
    (ho : (ts.take o).reverse = before) (hle : o ≤ ts.length) : slice ts o k = run.reverse := by
  have hlength := congrArg List.length ho
  rw [List.length_reverse, List.length_take_of_le hle] at hlength
  rw [slice, ← List.reverse_reverse (ts.take k), h, List.reverse_append, hlength,
    List.drop_left' List.length_reverse]

/-- An index goes down to the first of the tokens in front of it that is an opening bracket. -/
theorem loop_bracketStep {rounds : Nat} (h : (ts.take k).reverse = before) (hk : k ≤ ts.length)
    (hrounds : before.length < rounds) :
    ∃ o ≤ k, loop (bracketStep ts) rounds k = .ok o
      ∧ (ts.take o).reverse = before.dropWhile (!·.is .openBracket) := by
  induction rounds generalizing k before with
  | zero => exact absurd hrounds (Nat.not_lt_zero _)
  | succ rounds ih =>
    cases before with
    | nil =>
      obtain rfl := eq_zero_of_take h hk
      exact ⟨0, Nat.le_refl 0, loop_of_inr rfl, rfl⟩
    | cons t r =>
      obtain ⟨k, rfl, hfetch, hr⟩ := exists_of_take h hk
      by_cases ht : t.is .openBracket = true
      · refine ⟨k + 1, Nat.le_refl _, loop_of_inr ?_, by simpa [ht] using h⟩
        simp [bracketStep, hfetch, ht]
      · obtain ⟨o, hok, hloop, ho⟩ := ih hr (Nat.le_of_lt hk) (by simpa using hrounds)
        refine ⟨o, Nat.le_succ_of_le hok, ?_, by simpa [ht] using ho⟩
        rw [loop_of_inl (t := k), hloop]
        simp [bracketStep, hfetch, ht]

theorem leftSide_of_take (h : (ts.take i).reverse = before) (hi : i ≤ ts.length) :
    leftSide ts i = .ok (Side.readLeft? before) := by
  have hbracket := holdsBefore_of_take (·.is .closeBracket) h hi
  have hword := wordBefore_of_take h hi
  rcases before with _ | ⟨t, r⟩
  · simp [leftSide, hbracket, hword, Side.readLeft?]
  by_cases ht : t.is .closeBracket = true
  · obtain ⟨k, rfl, -, hr⟩ := exists_of_take h hi
    have hrounds : r.length < ts.length + 1 := by
      rw [← hr, List.length_reverse, List.length_take]
      omega
    obtain ⟨o, hok, hrun, ho⟩ := loop_bracketStep hr (Nat.le_of_lt hi) hrounds
    have hsplit := List.takeWhile_append_dropWhile (p := (!·.is .openBracket)) (l := r)
    have hroles := slice_of_take (hr.trans hsplit.symm) ho (by omega)
    have hbehind : behindBracket ts k = .ok o := hrun
    simp only [leftSide, hbracket, List.head?_cons, Option.any_some, ht, bind_ok, if_true,
      Nat.add_sub_cancel, hbehind, hroles, Side.readLeft?]
    rcases hopen : r.dropWhile (!·.is .openBracket) with _ | ⟨u, s⟩
    · rw [hopen] at ho
      simp only [eq_zero_of_take ho (by omega), hopen, if_true, pure_eq_ok]
    · rw [hopen] at ho
      obtain ⟨o, rfl, -, hs⟩ := exists_of_take ho (by omega)
      simp [hopen, wordBefore_of_take hs (by omega)]
  · simp [leftSide, hbracket, hword, Side.readLeft?, ht]

/-! ## 4. The right side -/

theorem contextAt_of_drop (roles : List String) (h : ts.drop i = rest) :
    Reads ts (contextAt ts roles i) (Side.readContext? roles rest) := by
  obtain ⟨j, hskip, hj⟩ := skipIf_of_drop (·.is .sigil) h
  have hword := readAt_of_drop Token.word? hj
  have hread : Side.readContext? roles rest
      = ((afterOptional (·.is .sigil) rest).head?.bind Token.word?).map
          fun context => (⟨context, roles⟩, (afterOptional (·.is .sigil) rest).tail) := by
    rcases rest with _ | ⟨t, r⟩
    · rfl
    · by_cases ht : t.is .sigil = true
      · cases r <;> simp [Side.readContext?, afterOptional, ht]
      · simp [Side.readContext?, afterOptional, ht]
  rw [hread]
  generalize afterOptional (·.is .sigil) rest = behind at hj hword
  rcases behind with _ | ⟨t, r⟩
  · simp [Reads, contextAt, hskip, hword]
  · cases ht : t.word? <;> simp [Reads, contextAt, hskip, hword, ht, drop_succ_of_drop hj]

theorem rightSide_of_drop (h : ts.drop i = rest) :
    Reads ts (rightSide ts i) (Side.readRight? rest) := by
  have hopen := holdsAt_of_drop (·.is .openBracket) h
  rcases rest with _ | ⟨t, r⟩
  · simpa [rightSide, hopen, Side.readRight?, Side.readContext?] using contextAt_of_drop [] h
  by_cases ht : t.is .openBracket = true
  · have hr := drop_succ_of_drop h
    rcases hclose : r.dropWhile (!·.is .closeBracket) with _ | ⟨u, s⟩
    · simp only [Side.readRight?, ht, if_true, hclose]
      simp [Reads, rightSide, hopen, ht, findMark_none hr hclose]
    · obtain ⟨c, hrun, -, hc⟩ := findMark_some hr hclose
      have hroles : slice ts (i + 1) c = r.takeWhile (!·.is .closeBracket) := by
        rw [← List.takeWhile_append_dropWhile (p := (!·.is .closeBracket)) (l := r), hclose] at hr
        exact slice_of_append hr hc (lt_length_of_drop h) (Nat.le_of_lt (lt_length_of_drop hc))
      have hcontext := contextAt_of_drop (wordsOf (slice ts (i + 1) c)) (drop_succ_of_drop hc)
      simp only [rightSide, hopen, List.head?_cons, Option.any_some, ht, bind_ok, if_true, hrun,
        Side.readRight?, hclose]
      rwa [hroles] at hcontext ⊢
  · simpa [rightSide, hopen, Side.readRight?, ht] using contextAt_of_drop [] h

theorem nameAt_of_drop (h : ts.drop i = rest) :
    ∃ j, nameAt ts i = .ok ((readRelationshipName rest).1, j)
      ∧ ts.drop j = (readRelationshipName rest).2 := by
  rcases rest with _ | ⟨t, _ | ⟨u, r⟩⟩
  · exact ⟨i, by simp [nameAt, add_lt_length_of_drop h, readRelationshipName], h⟩
  · exact ⟨i, by simp [nameAt, add_lt_length_of_drop h, readRelationshipName], h⟩
  have hu := drop_succ_of_drop h
  by_cases ht : t.is .colon = true
  · rcases hname : u.word? with _ | name
    · refine ⟨i, ?_, by simpa [readRelationshipName, ht, hname] using h⟩
      simp [nameAt, add_lt_length_of_drop h, fetch_of_drop h, fetch_of_drop hu,
        readRelationshipName, ht, hname]
    · refine ⟨i + 2, ?_, by simpa [readRelationshipName, ht, hname] using drop_succ_of_drop hu⟩
      simp [nameAt, add_lt_length_of_drop h, fetch_of_drop h, fetch_of_drop hu,
        readRelationshipName, ht, hname]
  · refine ⟨i, ?_, by simpa [readRelationshipName, ht] using h⟩
    simp [nameAt, add_lt_length_of_drop h, fetch_of_drop h, readRelationshipName, ht]

theorem behindGroup_of_drop (h : ts.drop i = t :: r) (ht : t.is .openBrace = true) :
    ∃ j, behindGroup ts i = .ok j ∧ ts.drop j = (splitGroup r).2
      ∧ slice ts (i + 1) (j - 1) = (splitGroup r).1 := by
  have hclose := closingBrace_of_drop h ht
  rcases hsplit : splitBody 0 r with _ | ⟨body, closer, rest⟩
  · refine ⟨ts.length, by simp [behindGroup, hclose, hsplit], by simp [splitGroup, hsplit], ?_⟩
    rw [slice, List.drop_take, drop_succ_of_drop h, splitGroup, hsplit, List.dropLast_eq_take]
    have hlength := length_of_drop h (Nat.le_of_lt (lt_length_of_drop h))
    simp only [List.length_cons] at hlength
    congr 1
    omega
  · obtain ⟨hcloser, hbody⟩ := group_of_drop h hsplit
    refine ⟨i + 1 + body.length + 1, by simp [behindGroup, hclose, hsplit], ?_, ?_⟩
    · simpa [splitGroup, hsplit] using drop_succ_of_drop hcloser
    · simpa [splitGroup, hsplit] using hbody

theorem bodyAt_of_drop (h : ts.drop i = rest) :
    ∃ j, bodyAt ts i = .ok ((readRelationshipBody rest).1, j)
      ∧ ts.drop j = (readRelationshipBody rest).2 := by
  have hbrace := holdsAt_of_drop (·.is .openBrace) h
  rcases rest with _ | ⟨t, r⟩
  · exact ⟨i, by simp [bodyAt, hbrace, readRelationshipBody], h⟩
  by_cases ht : t.is .openBrace = true
  · obtain ⟨j, hrun, hj, hbody⟩ := behindGroup_of_drop h ht
    refine ⟨j, ?_, by simpa [readRelationshipBody, ht] using hj⟩
    simp [bodyAt, hbrace, ht, hrun, hbody, readRelationshipBody]
  · refine ⟨i, ?_, by simpa [readRelationshipBody, ht] using h⟩
    simp [bodyAt, hbrace, ht, readRelationshipBody]

/-! ## 5. Relationships -/

theorem build_eq (connector : Connector) (left right : Side) (name : Option String)
    (body : List Token) :
    build connector left right name body
      = .ok (.ofSides connector left right name body) := by
  simp only [build, stringSetting_eq, listSetting_eq, memberSetting_eq, bind_ok, pure_eq_ok]
  cases connector with
  | symmetric =>
    simp only [Relationship.ofSides, if_true]
    split <;> rfl
  | partnership => rfl
  | sharedKernel => rfl
  | leftUpstream =>
    cases hcustomer : isCustomerSupplier left.roles right.roles <;>
      simp [Relationship.ofSides, hcustomer]
  | rightUpstream =>
    cases hcustomer : isCustomerSupplier left.roles right.roles <;>
      simp [Relationship.ofSides, hcustomer]
  | upstreamDownstream => rfl
  | downstreamUpstream => rfl
  | customerSupplier => rfl
  | supplierCustomer => rfl

/-- The relationship around a connector, or the connector alone where a side is missing. -/
theorem relationshipAt_of_drop (connector : Connector) (n : Nat) (h : ts.drop i = t :: r)
    (hbefore : (ts.take i).reverse = before) :
    match Relationship.read? connector before (r.drop n) with
    | none => relationshipAt ts connector i (i + 1 + n)
        = .ok (.skipped (.ofTokens .missingParticipant (t :: r.take n)), i + 1 + n)
    | some (relationship, rest) =>
      ∃ j, relationshipAt ts connector i (i + 1 + n) = .ok (.matched relationship, j)
        ∧ ts.drop j = rest := by
  have hleft := leftSide_of_take hbefore (Nat.le_of_lt (lt_length_of_drop h))
  have hstop : ts.drop (i + 1 + n) = r.drop n := by
    rw [← List.drop_drop, drop_succ_of_drop h]
  have hright := rightSide_of_drop hstop
  have hslice : slice ts i (i + 1 + n) = t :: r.take n := by
    rw [slice, List.drop_take, h, Nat.add_assoc, Nat.add_sub_cancel_left, Nat.add_comm,
      List.take_succ_cons]
  simp only [relationshipAt, hleft, bind_ok, Relationship.read?]
  rcases Side.readLeft? before with _ | left
  · obtain ⟨right?, hrun⟩ := exists_ok_of_reads hright
    simp [hrun, leaveOut_eq, hslice]
  rcases hread : Side.readRight? (r.drop n) with _ | ⟨right, afterRight⟩
  · rw [hread] at hright
    simp only [Reads] at hright
    simp [hright, leaveOut_eq, hslice]
  rw [hread] at hright
  obtain ⟨j, hrun, hj⟩ := hright
  obtain ⟨k, hname, hk⟩ := nameAt_of_drop hj
  obtain ⟨l, hbody, hl⟩ := bodyAt_of_drop hk
  refine ⟨l, ?_, hl⟩
  simp [hrun, hname, hbody, build_eq]

/-- Between two indices the tokens pass from those behind to those in front. -/
theorem reverse_take_of_drop (hi : ts.drop i = r) (hj : ts.drop j = rest)
    (hle : rest.length ≤ r.length) (hjle : j ≤ ts.length) :
    (ts.take j).reverse = (r.take (r.length - rest.length)).reverse ++ (ts.take i).reverse := by
  have hlength := length_of_drop hj hjle
  have hr : r.length = ts.length - i := by rw [← hi, List.length_drop]
  rcases Nat.lt_or_ge j i with hji | hij
  · have hall : ts.take i = ts.take j := by
      rw [List.take_of_length_le (by omega), List.take_of_length_le (by omega)]
    have hzero : r.length - rest.length = 0 := by omega
    rw [hall, hzero, List.take_zero, List.reverse_nil, List.nil_append]
  · obtain ⟨n, rfl⟩ := Nat.exists_eq_add_of_le hij
    have hn : r.length - rest.length = n := by omega
    rw [List.take_add, hi, hn, List.reverse_append]

/-- Behind a connector stand its further tokens, and in front of them the connector. -/
theorem reverse_take_connector (h : ts.drop i = t :: r) (hbefore : (ts.take i).reverse = before)
    (n : Nat) : (ts.take (i + 1 + n)).reverse = (r.take n).reverse ++ t :: before := by
  rw [Nat.add_assoc, List.take_add, h, List.reverse_append, hbefore, Nat.add_comm 1,
    List.take_succ_cons, List.reverse_cons, List.append_assoc, List.singleton_append]

/-- The outcomes from an index on are those of the tokens from there on, behind the tokens in front
of it. -/
theorem loop_relationshipStep (found : List (Outcome Relationship)) {rounds : Nat}
    (h : ts.drop i = rest) (hbefore : i ≤ ts.length → (ts.take i).reverse = before)
    (hrounds : rest.length < rounds) :
    loop (relationshipStep ts) rounds (found, i)
      = .ok (found ++ readRelationshipsFrom before rest) := by
  induction rounds generalizing found i before rest with
  | zero => exact absurd hrounds (Nat.not_lt_zero _)
  | succ rounds ih =>
    fun_cases readRelationshipsFrom before rest with
    | case1 =>
      rw [loop_of_inr (a := found)]
      · simp
      · simp [relationshipStep, not_lt_length_of_drop h]
    | case2 t r ht _ =>
      simp only [List.length_cons] at hrounds
      have hfront : (ts.take (i + 1)).reverse = t :: before :=
        reverse_take_connector h (hbefore (Nat.le_of_lt (lt_length_of_drop h))) 0
      have hle := length_splitGroup_le r
      obtain ⟨j, hrun, hj, -⟩ := behindGroup_of_drop h ht
      have hbehind (hjle : j ≤ ts.length) :
          (ts.take j).reverse
            = (r.take (r.length - (splitGroup r).2.length)).reverse ++ t :: before := by
        rw [reverse_take_of_drop (drop_succ_of_drop h) hj hle hjle, hfront]
      rw [loop_of_inl (t := (found, j)), ih found hj hbehind (by omega)]
      simp [relationshipStep, lt_length_of_drop h, fetch_of_drop h, ht, hrun]
    | case3 t r ht hc =>
      simp only [List.length_cons] at hrounds
      have hfront : (ts.take (i + 1)).reverse = t :: before :=
        reverse_take_connector h (hbefore (Nat.le_of_lt (lt_length_of_drop h))) 0
      rw [loop_of_inl (t := (found, i + 1)),
        ih found (drop_succ_of_drop h) (fun _ => hfront) (by omega)]
      simp [relationshipStep, lt_length_of_drop h, fetch_of_drop h, ht, connectorAt_of_drop h, hc]
    | case4 t r ht connector n hc behind hread =>
      simp only [List.length_cons] at hrounds
      have hfront := hbefore (Nat.le_of_lt (lt_length_of_drop h))
      have hbehind : (ts.take (i + 1 + n)).reverse = behind := reverse_take_connector h hfront n
      have hrun := relationshipAt_of_drop connector n h hfront
      have hstop : ts.drop (i + 1 + n) = r.drop n := by
        rw [← List.drop_drop, drop_succ_of_drop h]
      simp only [hread] at hrun
      rw [loop_of_inl (t := (found ++ [.skipped (.ofTokens .missingParticipant (t :: r.take n))],
        i + 1 + n)), ih _ hstop (fun _ => hbehind) (by rw [List.length_drop]; omega)]
      · simp
      · simp [relationshipStep, lt_length_of_drop h, fetch_of_drop h, ht, connectorAt_of_drop h, hc,
          hrun]
    | case5 t r ht connector n hc behind relationship rest hread taken =>
      simp only [List.length_cons] at hrounds
      have hfront := hbefore (Nat.le_of_lt (lt_length_of_drop h))
      have hbehind : (ts.take (i + 1 + n)).reverse = behind := reverse_take_connector h hfront n
      have hrun := relationshipAt_of_drop connector n h hfront
      have hstop : ts.drop (i + 1 + n) = r.drop n := by
        rw [← List.drop_drop, drop_succ_of_drop h]
      simp only [hread] at hrun
      obtain ⟨j, hrun, hj⟩ := hrun
      have hle := length_le_of_readRelationship hread
      have hlater (hjle : j ≤ ts.length) : (ts.take j).reverse = taken.reverse ++ behind := by
        rw [reverse_take_of_drop hstop hj hle hjle, hbehind]
      have hlength : rest.length < rounds := by
        rw [List.length_drop] at hle
        omega
      rw [loop_of_inl (t := (found ++ [.matched relationship], j)), ih _ hj hlater hlength]
      · simp
      · simp [relationshipStep, lt_length_of_drop h, fetch_of_drop h, ht, connectorAt_of_drop h, hc,
          hrun]

theorem relationshipsOf_eq (ts : List Token) :
    relationshipsOf ts = .ok (readRelationships ts) := by
  have hstart : ts.drop 0 = ts := rfl
  rw [relationshipsOf, loop_relationshipStep [] hstart (fun _ => rfl) (length_lt_of_drop hstart)]
  rfl

end

end ContextAtlas.Indexed
