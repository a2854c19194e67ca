/-
# Reading tokens line by line

No lexeme extends over a line feed, so the tokens of a text are the tokens of its lines, each read
as if it stood alone.  What is still open at the end of a line, a string literal above all, ends
there and says nothing about the next line.

* `EndsLexeme`, `Lexeme.read_append_of_ends`: reading a lexeme that is no string literal does not
  look behind a character that ends it;
* `Lexeme.read_append_newline`, `Lexeme.read_within_line`: reading one lexeme neither looks behind a
  line feed nor takes one;
* `Lexeme.WrittenAs`, `lexFrom_of_writtenAs`: how a lexeme is written, and the token that it gives;
* `lexFrom_shift`: a text that starts further down has the same tokens further down;
* `lex_append_newline`, `lex_apart`, `lex_append_at_line_start`: the tokens of two texts on
  different lines, and their end;
* `pairwise_before_lexFrom`: tokens stand in the order of their places, no two at one place.
-/
import ContextAtlas.Token.Lexer
import Mathlib.Data.List.TakeWhile

namespace ContextAtlas

open Text

/-! ## 1. Places -/

namespace Position

/-- A place that comes earlier in the order of reading. -/
def Before (p q : Position) : Prop :=
  p.line < q.line ∨ p.line = q.line ∧ p.column < q.column

instance (p q : Position) : Decidable (p.Before q) :=
  inferInstanceAs (Decidable (p.line < q.line ∨ p.line = q.line ∧ p.column < q.column))

/-- The place `lines` lines further down in the same column. -/
def shift (lines offset : Nat) (p : Position) : Position :=
  ⟨p.line + lines, p.column, p.offset + offset⟩

theorem Before.trans {p q r : Position} (h1 : p.Before q) (h2 : q.Before r) : p.Before r := by
  unfold Before at *
  omega

theorem not_before_self (p : Position) : ¬ p.Before p := by
  unfold Before
  omega

/-- The order of places is total. -/
theorem Before.trans_not_before {p q r : Position} (h1 : p.Before q) (h2 : ¬ r.Before q) :
    p.Before r := by
  unfold Before at *
  omega

theorem before_past (p : Position) (c : Char) : p.Before (p.past c) := by
  unfold Before past
  split <;> simp

theorem before_right (p : Position) (n : Nat) : p.Before (p.right (n + 1)) := by
  simp [Before, right]

theorem Before.line_le {p q : Position} (h : p.Before q) : p.line ≤ q.line := by
  unfold Before at h
  omega

theorem past_shift (l o : Nat) (p : Position) (c : Char) :
    (p.shift l o).past c = (p.past c).shift l o := by
  unfold past shift
  split <;> simp <;> omega

theorem right_shift (l o n : Nat) (p : Position) :
    (p.shift l o).right n = (p.right n).shift l o := by
  simp [right, shift]
  omega

theorem foldl_past_shift (l o : Nat) : ∀ (text : List Char) (p : Position),
    text.foldl past (p.shift l o) = (text.foldl past p).shift l o
  | [], p => rfl
  | c :: r, p => by rw [List.foldl_cons, past_shift, foldl_past_shift l o r, List.foldl_cons]

/-- Without a line feed a text only leads to the right. -/
theorem foldl_past_eq_right : ∀ {text : List Char} (p : Position), '\n' ∉ text →
    text.foldl past p = p.right text.length
  | [], p, _ => rfl
  | c :: r, p, h => by
    have hc : c ≠ '\n' := fun e => h (by simp [e])
    have hr : '\n' ∉ r := fun e => h (by simp [e])
    rw [List.foldl_cons, foldl_past_eq_right _ hr, past, if_neg hc]
    simp only [right, List.length_cons, mk.injEq, true_and]
    omega

theorem line_foldl_past : ∀ (text : List Char) (p : Position),
    (text.foldl past p).line = p.line + text.count '\n'
  | [], p => by simp
  | c :: r, p => by
    rw [List.foldl_cons, line_foldl_past r, List.count_cons, past]
    split
    · simp_all
      omega
    · simp_all

theorem offset_foldl_past : ∀ (text : List Char) (p : Position),
    (text.foldl past p).offset = p.offset + text.length
  | [], p => by simp
  | c :: r, p => by
    rw [List.foldl_cons, offset_foldl_past r, List.length_cons, past]
    split <;> simp <;> omega

end Position

/-- A token at another place. -/
def Token.moved (m : Position → Position) (t : Token) : Token := ⟨t.lexeme, m t.position⟩

/-! ## 2. One lexeme -/

/-- A character that ends every lexeme but a string literal in front of it: it goes on with none. -/
structure EndsLexeme (c : Char) : Prop where
  not_part : isWordPart c = false
  not_joined : c ∉ ['.', '-', '>']

theorem EndsLexeme.not_digit {c : Char} (h : EndsLexeme c) : isDigit c = false := by
  rw [← Bool.not_eq_true]
  intro hd
  have hpart : isWordPart c = true := by simp [isWordPart, isAlphanumeric_of_isDigit hd]
  exact absurd hpart (by simp [h.not_part])

theorem endsLexeme_newline : EndsLexeme '\n' := ⟨by decide +kernel, by decide⟩

/-- A run that ends within its text ends at the same place in front of whatever stops it. -/
theorem takeWhile_append_of_stop {α : Type} {p : α → Bool} {x : α} (hx : p x = false)
    (b : List α) : ∀ s : List α, (s ++ x :: b).takeWhile p = s.takeWhile p
  | [] => by simp [hx]
  | c :: s => by
    rw [List.cons_append, List.takeWhile_cons, List.takeWhile_cons, takeWhile_append_of_stop hx b s]

theorem dropWhile_append_of_stop {α : Type} {p : α → Bool} {x : α} (hx : p x = false)
    (b : List α) : ∀ s : List α, (s ++ x :: b).dropWhile p = s.dropWhile p ++ x :: b
  | [] => by simp [hx]
  | c :: s => by
    rw [List.cons_append, List.dropWhile_cons, List.dropWhile_cons, dropWhile_append_of_stop hx b s]
    split <;> rfl

theorem readLiteral_append_newline (b r : List Char) :
    readLiteral (r ++ '\n' :: b) = readLiteral r := by
  fun_induction readLiteral r with
  | case7 c r _ hq hn content n hr ih =>
    -- a backslash at the very end of the text is followed by the line feed
    cases r with
    | nil => by_cases hc : c = '\\' <;> simp_all [readLiteral]
    | cons d r =>
      have hc : c ≠ '\\' := fun e => by simp_all
      rw [List.cons_append, readLiteral, ih, hr]
      · simp [hq, hn]
      · exact fun _ _ e _ => hc e
  | _ => simp_all [readLiteral]

theorem Lexeme.read_quote (r : List Char) :
    Lexeme.read '"' r = (.string (String.ofList (readLiteral r).1), (readLiteral r).2) := rfl

theorem readNumber_append_of_stop {x : Char} (hx : isDigit x = false) (hpoint : x ≠ '.')
    (b r : List Char) : readNumber (r ++ x :: b) = readNumber r := by
  unfold readNumber
  rw [takeWhile_append_of_stop hx, dropWhile_append_of_stop hx]
  rcases hd : r.dropWhile isDigit with _ | ⟨c, _ | ⟨d, s⟩⟩
  · simp [hpoint]
  · by_cases hc : c = '.' <;> simp [hc, hx]
  · by_cases hc : c = '.'
    · simp [hc, takeWhile_append_of_stop hx]
    · simp [hc]

theorem Lexeme.read_append_of_ends {c d : Char} (hc : c ≠ '"') (hd : EndsLexeme d)
    (b r : List Char) : Lexeme.read c (r ++ d :: b) = Lexeme.read c r := by
  have hjoined := hd.not_joined
  simp only [List.mem_cons, List.not_mem_nil, or_false, not_or] at hjoined
  unfold Lexeme.read
  rw [readNumber_append_of_stop hd.not_digit hjoined.1, takeWhile_append_of_stop hd.not_part]
  rcases r with _ | ⟨e, _ | ⟨f, s⟩⟩
  · simp [hc, hjoined]
  · by_cases h1 : e = '-' <;> by_cases h2 : e = '>' <;> simp_all
  · by_cases h1 : e = '-' <;> by_cases h2 : e = '>' <;> by_cases h3 : f = '>' <;> simp_all

/-- **Reading a lexeme does not look behind a line feed.** -/
theorem Lexeme.read_append_newline (c : Char) (b r : List Char) :
    Lexeme.read c (r ++ '\n' :: b) = Lexeme.read c r := by
  by_cases hc : c = '"'
  · subst hc
    rw [read_quote, read_quote, readLiteral_append_newline]
  · exact Lexeme.read_append_of_ends hc endsLexeme_newline b r

theorem length_literal_le (r : List Char) : (readLiteral r).2 ≤ r.length := by
  fun_induction readLiteral r with
  | _ => simp_all

theorem newline_not_mem_literal (r : List Char) : '\n' ∉ r.take (readLiteral r).2 := by
  fun_induction readLiteral r with
  | _ => simp_all [eq_comm]

/-- The text of a number behind its first digit stands at the start of the text. -/
theorem isPrefix_readNumber (r : List Char) : readNumber r <+: r := by
  have hr : r.takeWhile isDigit ++ r.dropWhile isDigit = r := List.takeWhile_append_dropWhile
  unfold readNumber
  simp only
  split
  · rename_i d s hd
    split
    · have hp : r.takeWhile isDigit ++ '.' :: d :: s.takeWhile isDigit
          <+: r.takeWhile isDigit ++ '.' :: d :: s := by
        rw [List.prefix_append_right_inj, List.cons_prefix_cons, List.cons_prefix_cons]
        exact ⟨rfl, rfl, List.takeWhile_prefix _⟩
      rwa [← hd, hr] at hp
    · exact List.takeWhile_prefix _
  · exact List.takeWhile_prefix _

theorem mem_readNumber {r : List Char} {c : Char} (h : c ∈ readNumber r) :
    isDigit c = true ∨ c = '.' := by
  have hw : ∀ {s : List Char}, c ∈ s.takeWhile isDigit → isDigit c = true := fun hc =>
    (List.mem_takeWhile_imp hc)
  unfold readNumber at h
  simp only at h
  split at h
  · split at h
    · rename_i hd
      simp only [List.mem_append, List.mem_cons] at h
      rcases h with h | rfl | rfl | h
      · exact .inl (hw h)
      · exact .inr rfl
      · exact .inl hd
      · exact .inl (hw h)
    · exact .inl (hw h)
  · exact .inl (hw h)

/-- A lexeme ends within its text, in front of the next line feed. -/
theorem Lexeme.read_within_line (c : Char) (r : List Char) :
    (Lexeme.read c r).2 ≤ r.length ∧ '\n' ∉ r.take (Lexeme.read c r).2 := by
  have hnumber : '\n' ∉ readNumber r := fun h => by
    rcases mem_readNumber h with h | h
    · exact absurd h (by simp [endsLexeme_newline.not_digit])
    · exact absurd h (by decide)
  have hword : '\n' ∉ r.takeWhile isWordPart := fun h =>
    absurd (List.mem_takeWhile_imp h) (by simp [endsLexeme_newline.not_part])
  unfold Lexeme.read
  split
  · simp
  · split
    · split <;> simp
    · split
      · split <;> simp
      · split
        · exact ⟨length_literal_le r, newline_not_mem_literal r⟩
        · split
          · rw [← List.prefix_iff_eq_take.mp (isPrefix_readNumber r)]
            exact ⟨(isPrefix_readNumber r).length_le, hnumber⟩
          · split
            · rw [← List.prefix_iff_eq_take.mp (List.takeWhile_prefix isWordPart)]
              exact ⟨(List.takeWhile_prefix isWordPart).length_le, hword⟩
            · simp

/-! ## 3. Whole texts -/

theorem lexFrom_of_blank {c : Char} (h : isBlank c = true) (p : Position) (r : List Char) :
    lexFrom p (c :: r) = lexFrom (p.past c) r := by
  rw [lexFrom, if_pos h]

theorem lexFrom_of_not_blank {c : Char} (h : isBlank c = false) (p : Position) (r : List Char) :
    lexFrom p (c :: r) = ⟨(Lexeme.read c r).1, p⟩
      :: lexFrom (p.right ((Lexeme.read c r).2 + 1)) (r.drop (Lexeme.read c r).2) := by
  rw [lexFrom, if_neg (by simp [h])]

/-- The characters of a lexeme lead to the right. -/
theorem foldl_past_taken {c : Char} (hc : c ≠ '\n') (p : Position) (r : List Char) :
    (c :: r.take (Lexeme.read c r).2).foldl Position.past p
      = p.right ((Lexeme.read c r).2 + 1) := by
  obtain ⟨hle, hnot⟩ := Lexeme.read_within_line c r
  rw [Position.foldl_past_eq_right p (by simp [hnot, eq_comm, hc])]
  simp [hle]

/-- The place behind a lexeme that was read is the place behind its characters. -/
theorem foldl_past_lexeme {c : Char} (hc : c ≠ '\n') (p : Position) (r : List Char) :
    (r.drop (Lexeme.read c r).2).foldl Position.past (p.right ((Lexeme.read c r).2 + 1))
      = (c :: r).foldl Position.past p := by
  rw [← foldl_past_taken hc, ← List.foldl_append, List.cons_append, List.take_append_drop]

theorem ne_newline_of_not_blank {c : Char} (h : isBlank c = false) : c ≠ '\n' := by
  rintro rfl
  exact absurd isBlank_newline (by simp [h])

/-- The tokens of two texts on different lines: those of the first, then those of the second from
the start of the next line on. -/
theorem lexFrom_append_newline (p : Position) (a b : List Char) :
    lexFrom p (a ++ '\n' :: b)
      = lexFrom p a ++ lexFrom ((a.foldl Position.past p).past '\n') b := by
  fun_induction lexFrom p a with
  | case1 p => simp [lexFrom_of_blank isBlank_newline]
  | case2 p c r hc ih => rw [List.cons_append, lexFrom_of_blank hc, ih, List.foldl_cons]
  | case3 p c r hc x ih =>
    have hb : isBlank c = false := by simpa using hc
    have hle : (Lexeme.read c r).2 ≤ r.length := (Lexeme.read_within_line c r).1
    rw [List.cons_append, lexFrom_of_not_blank hb, Lexeme.read_append_newline,
      List.drop_append_of_le_length hle, ih, foldl_past_lexeme (ne_newline_of_not_blank hb)]
    rfl

/-- In front of `rest` a text is read as the lexeme, up to its end. -/
def Lexeme.WrittenAs (x : Lexeme) (text rest : List Char) : Prop :=
  ∃ c s, text = c :: s ∧ isBlank c = false ∧ Lexeme.read c (s ++ rest) = (x, s.length)

section

variable {x : Lexeme} {text rest : List Char}

theorem lexFrom_of_writtenAs (h : x.WrittenAs text rest) (p : Position) :
    lexFrom p (text ++ rest) = ⟨x, p⟩ :: lexFrom (p.right text.length) rest := by
  obtain ⟨c, s, rfl, hb, hread⟩ := h
  rw [List.cons_append, lexFrom_of_not_blank hb, hread, List.drop_left, List.length_cons]

theorem foldl_past_of_writtenAs (h : x.WrittenAs text rest) (p : Position) :
    text.foldl Position.past p = p.right text.length := by
  obtain ⟨c, s, rfl, hb, hread⟩ := h
  have htaken := foldl_past_taken (ne_newline_of_not_blank hb) p (s ++ rest)
  rwa [hread, List.take_left] at htaken

end

/-- **A text that starts further down has the same tokens further down.** -/
theorem lexFrom_shift (l o : Nat) (p : Position) (text : List Char) :
    lexFrom (p.shift l o) text = (lexFrom p text).map (Token.moved (Position.shift l o)) := by
  fun_induction lexFrom p text with
  | case1 p => simp [lexFrom]
  | case2 p c r hc ih => rw [lexFrom_of_blank hc, Position.past_shift, ih]
  | case3 p c r hc x ih =>
    rw [lexFrom_of_not_blank (by simpa using hc), Position.right_shift, ih]
    rfl

/-- Behind a text and a line feed a line starts. -/
theorem Position.past_newline_after (a : List Char) :
    (Position.after a).past '\n' = Position.start.shift (1 + a.count '\n') (a.length + 1) := by
  have hl := Position.line_foldl_past a .start
  have ho := Position.offset_foldl_past a .start
  simp only [Position.start] at hl ho
  simp [Position.after, Position.past, Position.shift, Position.start, hl, ho]
  omega

/-- **The tokens of two texts on different lines, each read from its own start.** -/
theorem lex_append_newline (a b : List Char) :
    lex (a ++ '\n' :: b)
      = lex a ++ (lex b).map
          (Token.moved (Position.shift (1 + a.count '\n') (a.length + 1))) := by
  have hp := Position.past_newline_after a
  rw [Position.after] at hp
  rw [lex, lexFrom_append_newline, hp, lexFrom_shift, lex, lex]

/-- What starts on a line of its own is read from there on. -/
theorem lex_append_at_line_start {a : List Char} (h : a = [] ∨ a.getLast? = some '\n')
    (b : List Char) : lex (a ++ b) = lex a ++ lexFrom (Position.after a) b := by
  rcases h with rfl | h
  · simp [lex, lexFrom, Position.after]
  · obtain ⟨s, rfl⟩ := List.getLast?_eq_some_iff.mp h
    have hafter : Position.after (s ++ ['\n']) = (s.foldl Position.past .start).past '\n' := by
      rw [Position.after, List.foldl_append]
      rfl
    have hfront : lex (s ++ ['\n']) = lex s := by
      rw [lex, lexFrom_append_newline, lexFrom, List.append_nil, lex]
    rw [hfront, hafter, lex, List.append_assoc, List.singleton_append, lexFrom_append_newline, lex]

/-- **Two texts on different lines are read apart.**  The second has the tokens and the end it has
on its own, so many lines and characters further down, whatever is left open in the first. -/
theorem lex_apart (a b : List Char) :
    lex (a ++ '\n' :: b)
        = lex a ++ (lex b).map
            (Token.moved (Position.shift (1 + a.count '\n') (a.length + 1)))
      ∧ Position.after (a ++ '\n' :: b)
        = (Position.after b).shift (1 + a.count '\n') (a.length + 1) := by
  refine ⟨lex_append_newline a b, ?_⟩
  have hafter : Position.after (a ++ '\n' :: b)
      = b.foldl Position.past ((Position.after a).past '\n') := by
    rw [Position.after, List.foldl_append, List.foldl_cons, Position.after]
  rw [hafter, Position.past_newline_after, Position.foldl_past_shift, Position.after]

/-! ## 4. The order of tokens -/

/-- No token stands in front of the start of its text. -/
theorem not_before_of_mem_lexFrom (p : Position) (text : List Char) :
    ∀ t ∈ lexFrom p text, ¬ t.position.Before p := by
  fun_induction lexFrom p text with
  | case1 p => simp
  | case2 p c r _ ih => exact fun t ht hb => ih t ht (hb.trans (p.before_past c))
  | case3 p c r _ x ih =>
    intro t ht hb
    rcases List.mem_cons.mp ht with rfl | ht
    · exact absurd hb (Position.not_before_self p)
    · exact ih t ht (hb.trans (p.before_right _))

/-- Lines count from one. -/
theorem one_le_line_of_mem_lex {text : List Char} {t : Token} (h : t ∈ lex text) : 1 ≤ t.line := by
  have hb := not_before_of_mem_lexFrom .start text t h
  unfold Position.Before at hb
  simp only [Position.start] at hb
  unfold Token.line
  omega

/-- Columns count from one. -/
theorem one_le_column_of_mem_lexFrom (p : Position) (text : List Char) (hp : 1 ≤ p.column) :
    ∀ t ∈ lexFrom p text, 1 ≤ t.position.column := by
  fun_induction lexFrom p text with
  | case1 p => simp
  | case2 p c r _ ih =>
    have hpast : 1 ≤ (p.past c).column := by
      unfold Position.past
      split <;> simp
    exact ih hpast
  | case3 p c r _ x ih =>
    intro t ht
    rcases List.mem_cons.mp ht with rfl | ht
    · exact hp
    · exact ih (Nat.le_trans hp (Nat.le_add_right _ _)) t ht

/-- **Tokens stand in the order of their places, and no two stand at one place.** -/
theorem pairwise_before_lexFrom (p : Position) (text : List Char) :
    (lexFrom p text).Pairwise fun t u => t.position.Before u.position := by
  fun_induction lexFrom p text with
  | case1 p => exact .nil
  | case2 p c r _ ih => exact ih
  | case3 p c r _ x ih =>
    refine .cons (fun t ht => ?_) ih
    exact (p.before_right x.2).trans_not_before (not_before_of_mem_lexFrom _ _ t ht)

/-- No token stands below the end of its text. -/
theorem line_le_of_mem_lexFrom (p : Position) (text : List Char) :
    ∀ t ∈ lexFrom p text, t.line ≤ (text.foldl Position.past p).line := by
  fun_induction lexFrom p text with
  | case1 p => simp
  | case2 p c r _ ih => exact ih
  | case3 p c r hc x ih =>
    have hb : isBlank c = false := by simpa using hc
    rw [foldl_past_lexeme (ne_newline_of_not_blank hb)] at ih
    intro t ht
    rcases List.mem_cons.mp ht with rfl | ht
    · rw [Position.line_foldl_past]
      exact Nat.le_add_right _ _
    · exact ih t ht

end ContextAtlas
