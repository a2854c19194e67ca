/-
# Reading tokens by index

A text is gone over with a place that counts lines and columns on the way.  Every character that is
taken is fetched at the place, so that each step of the lexer relies on there being one.

* `advance`: takes one character.
* `scanWhile`, `scanNumber`, `scanLiteral`, `scanToken`: the lexemes.
* `lexText`: the tokens of a text.
* `lexText_eq`: they are those of `lex`, and no character is missed.
-/
import ContextAtlas.Proofs.Indexed.Access
import ContextAtlas.Proofs.Token.Spaced

namespace ContextAtlas.Indexed

open Text

/-! ## 1. The lexer -/

section

variable (text : List Char)

/-- Takes the character at a place: the character and the place behind it. -/
def advance (p : Position) : Run (Char × Position) := do
  let c ← fetch text p.offset
  return (c, p.past c)

/-- The place behind so many characters. -/
def advanceBy : Nat → Position → Run Position
  | 0, p => return p
  | n + 1, p => do
    let (_, q) ← advance text p
    advanceBy n q

/-- The place behind the characters that have a property. -/
def scanWhile (p : Char → Bool) : Position → Run Position :=
  loop (fun here => do
    if ← holdsAt p text here.offset then
      let (_, next) ← advance text here
      return .inl next
    else return .inr here) (text.length + 1)

/-- The place behind a number. -/
def scanNumber (start : Position) : Run Position := do
  let whole ← scanWhile text isDigit start
  if ← holdsAt (· == '.') text whole.offset then
    if ← holdsAt isDigit text (whole.offset + 1) then
      let (_, point) ← advance text whole
      scanWhile text isDigit point
    else return whole
  else return whole

/-- One round inside a string literal, with its content so far and the place. -/
def literalStep :
    List Char × Position → Run ((List Char × Position) ⊕ (List Char × Position))
  | (content, here) => do
    match ← readAt some text here.offset with
    | none => return .inr (content, here)
    | some c =>
      if c = '"' then
        let (_, next) ← advance text here
        return .inr (content, next)
      else if c = '\n' then return .inr (content, here)
      else
        let ahead ← readAt some text (here.offset + 1)
        if c = '\\' ∧ ahead ≠ none ∧ ahead ≠ some '\n' then
          let (_, behind) ← advance text here
          let (escaped, next) ← advance text behind
          match unescape? escaped with
          | some d => return .inl (content ++ [d], next)
          | none => return .inl (content ++ ['\\', escaped], next)
        else
          let (d, next) ← advance text here
          return .inl (content ++ [d], next)

/-- The content of a string literal behind its opening quote, and the place behind the literal. -/
def scanLiteral (start : Position) : Run (List Char × Position) :=
  loop (literalStep text) (text.length + 1) ([], start)

/-- The token at a place, and the place behind it. -/
def scanToken (start : Position) : Run (Token × Position) := do
  match ← readAt some text start.offset with
  | none =>
    let (c, next) ← advance text start
    return (⟨.symbol c, start⟩, next)
  | some c =>
    match Mark.ofChar? c with
    | some m => return (⟨.mark m, start⟩, ← advanceBy text 1 start)
    | none =>
      if c = '<' then
        if ← holdsAt (· == '-') text (start.offset + 1) then
          if ← holdsAt (· == '>') text (start.offset + 2) then
            return (⟨.mark .doubleArrow, start⟩, ← advanceBy text 3 start)
          else return (⟨.mark .backArrow, start⟩, ← advanceBy text 2 start)
        else return (⟨.mark .openAngle, start⟩, ← advanceBy text 1 start)
      else if c = '-' then
        if ← holdsAt (· == '>') text (start.offset + 1) then
          return (⟨.mark .arrow, start⟩, ← advanceBy text 2 start)
        else return (⟨.mark .minus, start⟩, ← advanceBy text 1 start)
      else if c = '"' then
        let (_, behind) ← advance text start
        let (content, next) ← scanLiteral text behind
        return (⟨.string (String.ofList content), start⟩, next)
      else if isDigit c then
        let next ← scanNumber text start
        return (⟨.number (String.ofList (slice text start.offset next.offset)), start⟩, next)
      else if isWordStart c then
        let next ← scanWhile text isWordPart start
        return (⟨.word (String.ofList (slice text start.offset next.offset)), start⟩, next)
      else return (⟨.symbol c, start⟩, ← advanceBy text 1 start)

/-- One round of the lexer, with the tokens so far and the place. -/
def lexStep : List Token × Position → Run ((List Token × Position) ⊕ List Token)
  | (found, here) => do
    if here.offset < text.length then
      let start ← scanWhile text isBlank here
      if start.offset < text.length then
        let (token, next) ← scanToken text start
        return .inl (found ++ [token], next)
      else return .inr found
    else return .inr found

/-- The tokens of a text. -/
def lexText : Run (List Token) := loop (lexStep text) (text.length + 1) ([], .start)

end

/-! ## 2. Characters -/

section

variable {text rest run : List Char} {here : Position} {c : Char}

theorem offset_past (here : Position) (c : Char) : (here.past c).offset = here.offset + 1 := by
  simpa using Position.offset_foldl_past [c] here

theorem advance_of_drop (h : text.drop here.offset = c :: rest) :
    advance text here = .ok (c, here.past c) := by
  simp [advance, fetch_of_drop h]

theorem drop_past (h : text.drop here.offset = c :: rest) :
    text.drop (here.past c).offset = rest := by
  rw [offset_past]
  exact drop_succ_of_drop h

theorem drop_foldl_past (h : text.drop here.offset = run ++ rest) :
    text.drop (run.foldl Position.past here).offset = rest := by
  rw [Position.offset_foldl_past, ← List.drop_drop, h, List.drop_left]

theorem advanceBy_of_drop : ∀ {run : List Char} {here : Position},
    text.drop here.offset = run ++ rest →
      advanceBy text run.length here = .ok (run.foldl Position.past here)
  | [], _, _ => rfl
  | c :: run, here, h => by
    have ih := advanceBy_of_drop (drop_past h)
    simp [advanceBy, advance_of_drop h, ih]

/-- Text between two places is what was taken on the way. -/
theorem slice_foldl_past (h : text.drop here.offset = run ++ rest) :
    slice text here.offset (run.foldl Position.past here).offset = run := by
  rw [Position.offset_foldl_past, slice, List.drop_take, h]
  simp

end

/-! ## 3. Lexemes -/

section

variable {text rest : List Char} {here : Position}

theorem scanWhile_of_drop {p : Char → Bool} (h : text.drop here.offset = rest) :
    scanWhile text p here = .ok ((rest.takeWhile p).foldl Position.past here) := by
  have hrounds := length_lt_of_drop h
  unfold scanWhile
  generalize text.length + 1 = rounds at hrounds
  induction rounds generalizing here rest with
  | zero => exact absurd hrounds (Nat.not_lt_zero _)
  | succ rounds ih =>
    cases rest with
    | nil => exact loop_of_inr (by simp [holdsAt_of_drop p h])
    | cons c rest =>
      cases hc : p c with
      | false =>
        rw [loop_of_inr (a := here) (by simp [holdsAt_of_drop p h, hc])]
        simp [hc]
      | true =>
        rw [loop_of_inl (t := here.past c) (by simp [holdsAt_of_drop p h, hc, advance_of_drop h]),
          ih (drop_past h) (by simpa using hrounds)]
        simp [hc]

theorem literalStep_of_drop {c : Char} {content : List Char} (h : text.drop here.offset = c :: rest)
    (hquote : c ≠ '"') (hline : c ≠ '\n')
    (hescape : c = '\\' → rest.head? = none ∨ rest.head? = some '\n') :
    literalStep text (content, here) = .ok (.inl (content ++ [c], here.past c)) := by
  have hahead := readAt_of_drop some (drop_succ_of_drop h)
  have hverbatim : ¬ (c = '\\' ∧ rest.head? ≠ none ∧ rest.head? ≠ some '\n') :=
    fun ⟨hc, hnone, hnewline⟩ => (hescape hc).elim hnone hnewline
  simp only [literalStep, readAt_of_drop some h, List.head?_cons, bind_ok, hquote, hline,
    if_false, hahead, Option.bind_fun_some, hverbatim, advance_of_drop h, pure_eq_ok]

theorem literalStep_of_escape {c : Char} {content : List Char}
    (h : text.drop here.offset = '\\' :: c :: rest) (hline : c ≠ '\n') :
    literalStep text (content, here) = .ok (.inl
      (content ++ (match unescape? c with | some d => [d] | none => ['\\', c]),
        (here.past '\\').past c)) := by
  have hahead := readAt_of_drop some (drop_succ_of_drop h)
  simp [literalStep, readAt_of_drop some h, hahead, hline, advance_of_drop h,
    advance_of_drop (drop_past h)]
  split <;> rfl

/-- The rounds inside a string literal read what the literal says. -/
theorem loop_literalStep {content : List Char} {rounds : Nat} (h : text.drop here.offset = rest)
    (hrounds : rest.length < rounds) :
    loop (literalStep text) rounds (content, here)
      = .ok (content ++ (readLiteral rest).1,
          (rest.take (readLiteral rest).2).foldl Position.past here) := by
  induction rounds generalizing content here rest with
  | zero => exact absurd hrounds (Nat.not_lt_zero _)
  | succ rounds ih =>
    fun_cases readLiteral rest with
    | case1 =>
      rw [loop_of_inr (a := (content, here)) (by simp [literalStep, readAt_of_drop some h])]
      simp
    | case2 r =>
      -- a backslash at the end of its line stands for itself, and the line feed ends the literal
      simp only [List.length_cons] at hrounds
      rw [loop_of_inl (literalStep_of_drop h (by decide) (by decide) (by simp)),
        ih (drop_past h) (by simp only [List.length_cons]; omega)]
      simp [readLiteral]
    | case3 c r hc inner n hr d hd =>
      simp only [List.length_cons] at hrounds
      rw [loop_of_inl (literalStep_of_escape h hc), hd,
        ih (drop_past (drop_past h)) (by omega), hr]
      simp
    | case4 c r hc inner n hr hd =>
      simp only [List.length_cons] at hrounds
      rw [loop_of_inl (literalStep_of_escape h hc), hd,
        ih (drop_past (drop_past h)) (by omega), hr]
      simp
    | case5 r hesc =>
      rw [loop_of_inr (a := (content, here.past '"'))
        (by simp [literalStep, readAt_of_drop some h, advance_of_drop h])]
      simp
    | case6 r hq hesc =>
      rw [loop_of_inr (a := (content, here)) (by simp [literalStep, readAt_of_drop some h])]
      simp
    | case7 c r hesc hq hc inner n hr =>
      simp only [List.length_cons] at hrounds
      have hlast : c = '\\' → r.head? = none ∨ r.head? = some '\n' := by
        cases r with
        | nil => simp
        | cons d s => exact fun h => (hesc d s h rfl).elim
      rw [loop_of_inl (literalStep_of_drop h hq hc hlast), ih (drop_past h) (by omega), hr]
      simp

theorem scanLiteral_of_drop (h : text.drop here.offset = rest) :
    scanLiteral text here = .ok ((readLiteral rest).1,
      (rest.take (readLiteral rest).2).foldl Position.past here) := by
  rw [scanLiteral, loop_literalStep h (length_lt_of_drop h), List.nil_append]

theorem scanNumber_of_drop {c : Char} (h : text.drop here.offset = c :: rest)
    (hc : isDigit c = true) :
    scanNumber text here = .ok ((c :: readNumber rest).foldl Position.past here) := by
  have hwhole := scanWhile_of_drop (p := isDigit) h
  have hbehind : text.drop (((c :: rest).takeWhile isDigit).foldl Position.past here).offset
      = rest.dropWhile isDigit := by
    refine drop_foldl_past ?_
    rw [h, List.takeWhile_cons_of_pos hc, List.cons_append, List.takeWhile_append_dropWhile]
  rw [List.takeWhile_cons_of_pos hc, List.foldl_cons] at hwhole hbehind
  simp only [scanNumber, hwhole, bind_ok]
  rcases hd : rest.dropWhile isDigit with _ | ⟨x, _ | ⟨d, s⟩⟩
  · rw [hd] at hbehind
    simp [holdsAt_of_drop _ hbehind, readNumber, hd]
  · rw [hd] at hbehind
    have hnext := holdsAt_of_drop isDigit (drop_succ_of_drop hbehind)
    by_cases hx : x = '.' <;> simp [holdsAt_of_drop _ hbehind, hnext, readNumber, hd, hx]
  · rw [hd] at hbehind
    have hnext := holdsAt_of_drop isDigit (drop_succ_of_drop hbehind)
    by_cases hx : x = '.'
    · subst hx
      by_cases hdigit : isDigit d = true
      · have hpoint := scanWhile_of_drop (p := isDigit) (drop_past hbehind)
        simp [holdsAt_of_drop _ hbehind, hnext, readNumber, hd, hdigit, advance_of_drop hbehind,
          hpoint]
      · simp [holdsAt_of_drop _ hbehind, hnext, readNumber, hd, hdigit]
    · simp [holdsAt_of_drop _ hbehind, readNumber, hd, hx]

/-- An arrow that starts with an angle takes up to three characters. -/
theorem scanToken_of_angle (h : text.drop here.offset = '<' :: rest) :
    scanToken text here = .ok (⟨(Lexeme.read '<' rest).1, here⟩,
      ('<' :: rest.take (Lexeme.read '<' rest).2).foldl Position.past here) := by
  have hone : advanceBy text 1 here = _ :=
    advanceBy_of_drop (show text.drop here.offset = ['<'] ++ rest from h)
  have hmark : Mark.ofChar? '<' = none := rfl
  have hminus := holdsAt_of_drop (· == '-') (drop_succ_of_drop h)
  rcases rest with _ | ⟨d, s⟩
  · simp [scanToken, readAt_of_drop some h, Lexeme.read, hmark, hminus, hone]
  by_cases hd : d = '-'
  · subst hd
    have htwo : advanceBy text 2 here = _ :=
      advanceBy_of_drop (show text.drop here.offset = ['<', '-'] ++ s from h)
    have harrow := holdsAt_of_drop (· == '>') (drop_succ_of_drop (drop_succ_of_drop h))
    rcases s with _ | ⟨e, s⟩
    · simp [scanToken, readAt_of_drop some h, Lexeme.read, hmark, hminus, harrow, htwo]
    by_cases he : e = '>'
    · subst he
      have hthree : advanceBy text 3 here = _ :=
        advanceBy_of_drop (show text.drop here.offset = ['<', '-', '>'] ++ s from h)
      simp [scanToken, readAt_of_drop some h, Lexeme.read, hmark, hminus, harrow, hthree]
    · simp [scanToken, readAt_of_drop some h, Lexeme.read, hmark, hminus, harrow, htwo, he]
  · simp [scanToken, readAt_of_drop some h, Lexeme.read, hmark, hminus, hone, hd]

/-- A minus may start an arrow. -/
theorem scanToken_of_minus (h : text.drop here.offset = '-' :: rest) :
    scanToken text here = .ok (⟨(Lexeme.read '-' rest).1, here⟩,
      ('-' :: rest.take (Lexeme.read '-' rest).2).foldl Position.past here) := by
  have hone : advanceBy text 1 here = _ :=
    advanceBy_of_drop (show text.drop here.offset = ['-'] ++ rest from h)
  have hmark : Mark.ofChar? '-' = none := rfl
  have harrow := holdsAt_of_drop (· == '>') (drop_succ_of_drop h)
  rcases rest with _ | ⟨d, s⟩
  · simp [scanToken, readAt_of_drop some h, Lexeme.read, hmark, harrow, hone]
  by_cases hd : d = '>'
  · subst hd
    have htwo : advanceBy text 2 here = _ :=
      advanceBy_of_drop (show text.drop here.offset = ['-', '>'] ++ s from h)
    simp [scanToken, readAt_of_drop some h, Lexeme.read, hmark, harrow, htwo]
  · simp [scanToken, readAt_of_drop some h, Lexeme.read, hmark, harrow, hone, hd]

/-- The token at a place is the lexeme there, and takes as many characters. -/
theorem scanToken_of_drop {c : Char} (h : text.drop here.offset = c :: rest) :
    scanToken text here = .ok (⟨(Lexeme.read c rest).1, here⟩,
      (c :: rest.take (Lexeme.read c rest).2).foldl Position.past here) := by
  by_cases hangle : c = '<'
  · subst hangle
    exact scanToken_of_angle h
  by_cases hminus : c = '-'
  · subst hminus
    exact scanToken_of_minus h
  have hone : advanceBy text 1 here = _ :=
    advanceBy_of_drop (show text.drop here.offset = [c] ++ rest from h)
  simp only [scanToken, readAt_of_drop some h, List.head?_cons, Option.bind_some, bind_ok, hangle,
    hminus, if_false]
  unfold Lexeme.read
  cases Mark.ofChar? c with
  | some m => simp [hone]
  | none =>
    simp only [hangle, hminus, if_false]
    split_ifs with hquote hdigit hword
    · simp [advance_of_drop h, scanLiteral_of_drop (drop_past h)]
    · have hprefix : c :: rest = (c :: readNumber rest) ++ rest.drop (readNumber rest).length := by
        rw [List.cons_append, List.prefix_iff_eq_append.mp (isPrefix_readNumber rest)]
      have hslice := slice_foldl_past (h.trans hprefix)
      have htake := List.prefix_iff_eq_take.mp (isPrefix_readNumber rest)
      rw [← htake]
      simp only [scanNumber_of_drop h hdigit, bind_ok, hslice]
      rfl
    · have hpart : isWordPart c = true := isWordPart_of_isWordStart hword
      have hprefix : c :: rest = (c :: rest.takeWhile isWordPart) ++ rest.dropWhile isWordPart := by
        rw [List.cons_append, List.takeWhile_append_dropWhile]
      have hslice := slice_foldl_past (h.trans hprefix)
      have hscan := scanWhile_of_drop (p := isWordPart) h
      have htake := List.prefix_iff_eq_take.mp (List.takeWhile_prefix isWordPart (l := rest))
      rw [List.takeWhile_cons_of_pos hpart] at hscan
      rw [← htake]
      simp only [hscan, bind_ok, hslice]
      rfl
    · simp [hone]

end

/-! ## 4. Texts -/

section

variable {text : List Char} {here : Position} {rest : List Char}

theorem lexFrom_dropWhile_isBlank (here : Position) (rest : List Char) :
    lexFrom ((rest.takeWhile isBlank).foldl Position.past here) (rest.dropWhile isBlank)
      = lexFrom here rest := by
  induction rest generalizing here with
  | nil => rfl
  | cons c r ih =>
    cases hc : isBlank c with
    | false => simp [hc]
    | true => simp [hc, lexFrom_of_blank hc, ih]

/-- Each round reads one token, and the rounds read what is left of the text. -/
theorem loop_lexStep {found : List Token} {rounds : Nat} (h : text.drop here.offset = rest)
    (hrounds : rest.length < rounds) :
    loop (lexStep text) rounds (found, here) = .ok (found ++ lexFrom here rest) := by
  induction rounds generalizing found here rest with
  | zero => exact absurd hrounds (Nat.not_lt_zero _)
  | succ rounds ih =>
    rw [← lexFrom_dropWhile_isBlank]
    have hblank := scanWhile_of_drop (p := isBlank) h
    have hstart : text.drop ((rest.takeWhile isBlank).foldl Position.past here).offset
        = rest.dropWhile isBlank :=
      drop_foldl_past (by rw [h, List.takeWhile_append_dropWhile])
    have hle : (rest.dropWhile isBlank).length ≤ rest.length := (List.dropWhile_sublist _).length_le
    generalize (rest.takeWhile isBlank).foldl Position.past here = start at hblank hstart ⊢
    rcases hrest : rest.dropWhile isBlank with _ | ⟨c, r⟩
    · rw [hrest] at hstart
      rw [loop_of_inr (a := found)]
      · simp [lexFrom]
      · simp [lexStep, hblank, not_lt_length_of_drop hstart]
    · rw [hrest] at hstart hle
      have hc : isBlank c = false := by
        simpa [hrest] using List.head?_dropWhile_not isBlank rest
      have hlt : here.offset < text.length := by
        obtain ⟨d, s, rfl⟩ : ∃ d s, rest = d :: s := by
          cases rest with
          | nil => simp at hrest
          | cons d s => exact ⟨d, s, rfl⟩
        exact lt_length_of_drop h
      have hbehind : text.drop ((c :: r.take (Lexeme.read c r).2).foldl Position.past start).offset
          = r.drop (Lexeme.read c r).2 :=
        drop_foldl_past (by rw [hstart, List.cons_append, List.take_append_drop])
      have htoken := scanToken_of_drop hstart
      rw [foldl_past_taken (ne_newline_of_not_blank hc)] at htoken hbehind
      rw [loop_of_inl (t := (found ++ [⟨(Lexeme.read c r).1, start⟩],
          start.right ((Lexeme.read c r).2 + 1))), ih hbehind, lexFrom_of_not_blank hc]
      · simp
      · simp only [List.length_cons, List.length_drop] at hle ⊢
        omega
      · simp [lexStep, hblank, hlt, lt_length_of_drop hstart, htoken]

theorem lexText_eq (text : List Char) : lexText text = .ok (lex text) := by
  have hstart : text.drop Position.start.offset = text := rfl
  rw [lexText, loop_lexStep hstart (Nat.lt_succ_self _)]
  rfl

end

end ContextAtlas.Indexed
