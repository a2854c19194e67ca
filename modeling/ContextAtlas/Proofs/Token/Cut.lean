/-
# Parts of a text

A part of a text that starts where a token starts, and ends at a closing brace, holds the same
tokens as that stretch of the text.  Reading a lexeme depends on nothing in front of it, and does
not look behind a closing brace unless it takes the brace, as a string literal may.

* `exists_split_of_lexFrom`: a text splits where one of its tokens starts, and is read on from there
  as if it started there;
* `Lexeme.read_cut`: a lexeme that ends in front of a closing brace ends there whatever follows;
* `lexFrom_cut`, `exists_cut_of_lexFrom`: so a text can be cut at each of its closing braces;
* `Lexeme.startsWith_read`: what the first character of a lexeme says of it;
* `lexFrom_eq_moved`: a part is read as a text of its own, with places counted from its start.
-/
import ContextAtlas.Proofs.Token.Line

namespace ContextAtlas

open Text

/-! ## 1. Where tokens start -/

section

variable {p : Position} {text : List Char} {front rest : List Token} {t : Token}

/-- A text splits where one of its tokens starts. -/
theorem exists_split_of_lexFrom (h : lexFrom p text = front ++ t :: rest) :
    ∃ passed c r, text = passed ++ c :: r ∧ passed.foldl Position.past p = t.position
      ∧ isBlank c = false ∧ lexFrom t.position (c :: r) = t :: rest := by
  fun_induction lexFrom p text generalizing front with
  | case1 p => simp at h
  | case2 p c r hc ih =>
    obtain ⟨passed, d, s, rfl, hplace, hd, hread⟩ := ih h
    exact ⟨c :: passed, d, s, rfl, hplace, hd, hread⟩
  | case3 p c r hc x =>
    rename_i ih
    have hb : isBlank c = false := by simpa using hc
    cases front with
    | nil =>
      obtain ⟨rfl, rfl⟩ := List.cons.inj h
      exact ⟨[], c, r, rfl, rfl, hb, lexFrom_of_not_blank hb p r⟩
    | cons u front =>
      obtain ⟨passed, d, s, hr, hplace, hd, hread⟩ := ih (List.cons.inj h).2
      refine ⟨c :: r.take x.2 ++ passed, d, s, ?_, ?_, hd, hread⟩
      · rw [List.append_assoc, ← hr, List.cons_append, List.take_append_drop]
      · rw [List.foldl_append, foldl_past_taken (ne_newline_of_not_blank hb), hplace]

theorem offset_le_of_lexFrom_eq (h : lexFrom p text = front ++ t :: rest) :
    p.offset ≤ t.position.offset := by
  obtain ⟨passed, c, r, rfl, hplace, -⟩ := exists_split_of_lexFrom h
  rw [← hplace, Position.offset_foldl_past]
  omega

theorem offset_lt_of_mem_lexFrom (h : t ∈ lexFrom p text) :
    t.position.offset < p.offset + text.length := by
  obtain ⟨front, rest, hsplit⟩ := List.append_of_mem h
  obtain ⟨passed, c, r, rfl, hplace, -⟩ := exists_split_of_lexFrom hsplit
  rw [← hplace, Position.offset_foldl_past, List.length_append, List.length_cons]
  omega

end

/-! ## 2. In front of a closing brace -/

theorem endsLexeme_closeBrace : EndsLexeme '}' := ⟨by decide +kernel, by decide⟩

/-- A string literal that ends in front of a closing brace ends there whatever follows. -/
theorem readLiteral_cut {a b : List Char} (rest : List Char)
    (h : (readLiteral (a ++ '}' :: b)).2 ≤ a.length) :
    readLiteral (a ++ rest) = readLiteral (a ++ '}' :: b) := by
  fun_induction readLiteral a with
  | case1 => simp [readLiteral] at h
  | case7 c r _ hq hn content n hr ih =>
    cases r with
    | nil =>
      -- Nothing but the brace can follow here, as itself or behind a backslash.
      by_cases hc : c = '\\'
      · subst hc
        simp [readLiteral, unescape?] at h
      · simp_all [readLiteral]
    | cons d r =>
      have hc : c ≠ '\\' := fun e => by simp_all
      simp_all [readLiteral]
  | _ => simp_all [readLiteral]

/-- **A lexeme that ends in front of a closing brace ends there whatever follows.** -/
theorem Lexeme.read_cut {c : Char} {a b rest : List Char} (hrest : ∀ d ∈ rest.head?, d = '}')
    (h : (Lexeme.read c (a ++ '}' :: b)).2 ≤ a.length) :
    Lexeme.read c (a ++ rest) = Lexeme.read c (a ++ '}' :: b) := by
  by_cases hc : c = '"'
  · subst hc
    rw [Lexeme.read_quote] at h
    rw [Lexeme.read_quote, Lexeme.read_quote, readLiteral_cut rest h]
  · rw [Lexeme.read_append_of_ends hc endsLexeme_closeBrace b a]
    cases rest with
    | nil => rw [List.append_nil]
    | cons d s =>
      obtain rfl := hrest d rfl
      exact Lexeme.read_append_of_ends hc endsLexeme_closeBrace s a

/-- **A text can be cut in front of a closing brace that is a token: what stands in front of it has
the same tokens whatever follows.** -/
theorem lexFrom_cut {p : Position} {a b rest : List Char} {run behind : List Token} {t : Token}
    (h : lexFrom p (a ++ '}' :: b) = run ++ t :: behind)
    (ht : t.position.offset = p.offset + a.length) (hrest : ∀ d ∈ rest.head?, d = '}') :
    lexFrom p (a ++ rest) = run ++ lexFrom (a.foldl Position.past p) rest := by
  generalize htext : a ++ '}' :: b = text at h
  fun_induction lexFrom p text generalizing a run with
  | case1 p => simp at htext
  | case2 p c r hc ih =>
    cases a with
    | nil =>
      obtain ⟨rfl, -⟩ := List.cons.inj htext
      exact absurd hc (by decide)
    | cons d a =>
      obtain ⟨rfl, hr⟩ := List.cons.inj htext
      have hplace : t.position.offset = (p.past d).offset + a.length := by
        rw [ht, List.length_cons, ← Position.offset_foldl_past a, ← List.foldl_cons,
          Position.offset_foldl_past, List.length_cons]
      rw [List.cons_append, lexFrom_of_blank hc, List.foldl_cons]
      exact ih hplace hr h
  | case3 p c r hc x =>
    rename_i ih
    have hb : isBlank c = false := by simpa using hc
    cases a with
    | nil =>
      -- The brace itself is the token, so nothing stands in front of it.
      cases run with
      | nil => rfl
      | cons u run =>
        have hbehind : lexFrom (p.right (x.2 + 1)) (r.drop x.2) = run ++ t :: behind :=
          (List.cons.inj h).2
        have hle := offset_le_of_lexFrom_eq hbehind
        simp only [Position.right, List.length_nil] at hle ht
        omega
    | cons d a =>
      obtain ⟨rfl, rfl⟩ : d = c ∧ a ++ '}' :: b = r := by simpa using htext
      cases run with
      | nil =>
        obtain ⟨rfl, -⟩ := List.cons.inj h
        simp at ht
      | cons u run =>
        obtain ⟨rfl, hbehind⟩ : ⟨x.1, p⟩ = u
            ∧ lexFrom (p.right (x.2 + 1)) ((a ++ '}' :: b).drop x.2) = run ++ t :: behind :=
          List.cons.inj h
        have hle := offset_le_of_lexFrom_eq hbehind
        have hwithin : x.2 ≤ a.length := by
          simp only [Position.right, List.length_cons] at hle ht
          omega
        have hread : ∀ s : List Char, (∀ e ∈ s.head?, e = '}') → Lexeme.read d (a ++ s) = x :=
          fun s hs => Lexeme.read_cut hs hwithin
        have halone : Lexeme.read d a = x := by
          rw [← hread [] (by simp), List.append_nil]
        have hplace : t.position.offset = (p.right (x.2 + 1)).offset + (a.drop x.2).length := by
          simp only [Position.right, List.length_drop]
          rw [ht, List.length_cons]
          omega
        have hrun := ih hplace (List.drop_append_of_le_length hwithin).symm hbehind
        have hfold := foldl_past_lexeme (ne_newline_of_not_blank hb) p a
        rw [halone] at hfold
        rw [hfold] at hrun
        rw [List.cons_append, lexFrom_of_not_blank hb, hread rest hrest,
          List.drop_append_of_le_length hwithin, hrun, List.cons_append]

/-! ## 3. What a lexeme starts with -/

/-- The marks that are no single character, or start one that is not. -/
def joinedMarks : List Mark := [.openAngle, .backArrow, .doubleArrow, .minus, .arrow]

namespace Lexeme

/-- A lexeme can start with a character: what the character says of it, and for a word all of its
text. -/
inductive StartsWith (c : Char) : Lexeme → Prop
  | single {m : Mark} (h : Mark.ofChar? c = some m) : StartsWith c (mark m)
  | joined {m : Mark} (h : m ∈ joinedMarks) : StartsWith c (mark m)
  | string {s : String} (h : c = '"') : StartsWith c (string s)
  | number {s : String} (h : isDigit c = true) : StartsWith c (number s)
  | word {rest : List Char} (h : isWordStart c = true) (hrest : ∀ d ∈ rest, isWordPart d = true) :
      StartsWith c (word (String.ofList (c :: rest)))
  | symbol : StartsWith c (symbol c)

theorem startsWith_read (c : Char) (r : List Char) : (read c r).1.StartsWith c := by
  unfold read
  split
  · next m h => exact .single h
  split
  · split <;> exact .joined (by decide)
  split
  · split <;> exact .joined (by decide)
  split
  · next h => exact .string h
  split
  · next h => exact .number h
  split
  · next h => exact .word h fun d => List.mem_takeWhile_imp
  · exact .symbol

/-- Any mark that is not a joined one is read as the one character that it is. -/
theorem ofChar?_of_read {c : Char} {r : List Char} {m : Mark} (hm : m ∉ joinedMarks)
    (h : (read c r).1 = mark m) : Mark.ofChar? c = some m := by
  have hstart := startsWith_read c r
  rw [h] at hstart
  cases hstart with
  | single hc => exact hc
  | joined hjoined => exact absurd hjoined hm

end Lexeme

/-! ## 4. Braces -/

theorem eq_closeBrace_of_ofChar? {c : Char} (h : Mark.ofChar? c = some .closeBrace) : c = '}' := by
  unfold Mark.ofChar? at h
  split at h <;> simp_all

section

variable {p : Position} {text : List Char} {run behind : List Token} {t : Token}

/-- A token that is a mark of one character takes that character and no other. -/
theorem eq_of_lexFrom_mark {c : Char} {r : List Char} {m : Mark}
    (h : lexFrom p (c :: r) = t :: behind) (hb : isBlank c = false) (hm : m ∉ joinedMarks)
    (ht : t.is m = true) :
    Mark.ofChar? c = some m ∧ t = ⟨.mark m, p⟩ ∧ lexFrom (p.right 1) r = behind := by
  rw [lexFrom_of_not_blank hb] at h
  obtain ⟨rfl, hbehind⟩ := List.cons.inj h
  have hlexeme : (Lexeme.read c r).1 = .mark m := by simpa [Token.is] using ht
  have hchar := Lexeme.ofChar?_of_read hm hlexeme
  have htaken : (Lexeme.read c r).2 = 0 := by simp [Lexeme.read, hchar]
  rw [htaken] at hbehind
  exact ⟨hchar, by rw [hlexeme], hbehind⟩

/-- **A text can be cut in front of each of its closing braces, and behind it.** -/
theorem exists_cut_of_lexFrom (h : lexFrom p text = run ++ t :: behind)
    (ht : t.is .closeBrace = true) :
    ∃ part back, text = part ++ '}' :: back ∧ part.foldl Position.past p = t.position
      ∧ lexFrom p part = run ∧ lexFrom p (part ++ ['}']) = run ++ [t] := by
  obtain ⟨part, c, back, rfl, hplace, hb, hread⟩ := exists_split_of_lexFrom h
  obtain ⟨hchar, hbrace, -⟩ := eq_of_lexFrom_mark hread hb (by decide) ht
  obtain rfl := eq_closeBrace_of_ofChar? hchar
  have hoffset : t.position.offset = p.offset + part.length := by
    rw [← hplace, Position.offset_foldl_past]
  refine ⟨part, back, rfl, hplace, ?_, ?_⟩
  · have halone : lexFrom p (part ++ []) = run ++ lexFrom (part.foldl Position.past p) [] :=
      lexFrom_cut h hoffset (by simp)
    simpa [lexFrom] using halone
  · have hlast : lexFrom t.position ['}'] = [⟨.mark .closeBrace, t.position⟩] := by
      rw [lexFrom_of_not_blank hb]
      simp [Lexeme.read, Mark.ofChar?, lexFrom]
    rw [lexFrom_cut h hoffset (by simp), hplace, hlast, ← hbrace]

/-- Behind an opening brace a text is read on as if it started there. -/
theorem exists_split_behind_brace (h : lexFrom p text = run ++ t :: behind)
    (ht : t.is .openBrace = true) :
    ∃ passed r, text = passed ++ r ∧ passed.foldl Position.past p = t.position.right 1
      ∧ lexFrom (t.position.right 1) r = behind := by
  obtain ⟨passed, c, r, rfl, hplace, hb, hread⟩ := exists_split_of_lexFrom h
  obtain ⟨-, -, hbehind⟩ := eq_of_lexFrom_mark hread hb (by decide) ht
  refine ⟨passed ++ [c], r, by simp, ?_, hbehind⟩
  rw [List.foldl_append, hplace, List.foldl_cons, List.foldl_nil, Position.past,
    if_neg (ne_newline_of_not_blank hb), Position.right]

end

/-! ## 5. Places in a part -/

namespace Position

/-- The place in a text that is `p` in a part of it that starts at `origin`.  Only on the first line
of the part do the columns differ. -/
def inside (origin p : Position) : Position :=
  ⟨origin.line - 1 + p.line, if p.line = 1 then origin.column - 1 + p.column else p.column,
    origin.offset + p.offset⟩

theorem inside_start {origin : Position} (hl : 1 ≤ origin.line) (hc : 1 ≤ origin.column) :
    origin.inside .start = origin := by
  obtain ⟨l, c, o⟩ := origin
  simp only [inside, start, if_true, mk.injEq] at hl hc ⊢
  omega

theorem past_inside {origin p : Position} (hp : 1 ≤ p.line) (c : Char) :
    (origin.inside p).past c = origin.inside (p.past c) := by
  unfold past inside
  by_cases hc : c = '\n'
  · simp [hc]
    omega
  · simp only [hc, if_false]
    split <;> simp <;> omega

theorem foldl_past_inside {origin : Position} : ∀ (text : List Char) {p : Position}, 1 ≤ p.line →
    text.foldl past (origin.inside p) = origin.inside (text.foldl past p)
  | [], _, _ => rfl
  | c :: r, p, hp => by
    rw [List.foldl_cons, List.foldl_cons, past_inside hp]
    exact foldl_past_inside r (Nat.le_trans hp (p.before_past c).line_le)

theorem right_inside {origin p : Position} (n : Nat) :
    (origin.inside p).right n = origin.inside (p.right n) := by
  unfold right inside
  split <;> simp <;> omega

end Position

/-- A part of a text has the tokens it has on its own, with places counted from its start. -/
theorem lexFrom_inside {origin p : Position} (hp : 1 ≤ p.line) (text : List Char) :
    lexFrom (origin.inside p) text = (lexFrom p text).map (Token.moved origin.inside) := by
  fun_induction lexFrom p text with
  | case1 p => simp [lexFrom]
  | case2 p c r hc ih =>
    have hpast : 1 ≤ (p.past c).line := Nat.le_trans hp (p.before_past c).line_le
    rw [lexFrom_of_blank hc, Position.past_inside hp, ih hpast]
  | case3 p c r hc x ih =>
    rw [lexFrom_of_not_blank (by simpa using hc), Position.right_inside, ih hp]
    rfl

theorem lexFrom_eq_moved {origin : Position} (hl : 1 ≤ origin.line) (hc : 1 ≤ origin.column)
    (text : List Char) : lexFrom origin text = (lex text).map (Token.moved origin.inside) := by
  rw [lex, ← lexFrom_inside (Nat.le_refl 1), Position.inside_start hl hc]

end ContextAtlas
