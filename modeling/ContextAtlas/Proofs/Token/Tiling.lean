/-
# Where tokens start and end

The tokens of a text stand apart in it, and between them there are only blanks: together they tile
the text.  So every offset leads back to what was written there, and every line and column to the
line feeds in front.

* `LiteralEnds`: where a string literal ends, said of its text alone; `literalEnds_iff`: that is how
  far it is read;
* `Lexeme.Spans`, `Lexeme.StopsBefore`: how many characters a lexeme covers, and what cannot stand
  behind it because it would have been taken as well;
* `Lexeme.covers_read`: a lexeme that is read covers as many characters as it can;
* `lex_tiles`: the tokens of a text tile it.
-/
import ContextAtlas.Proofs.Indexed.Lexer
import ContextAtlas.Proofs.Token.Cut
import Mathlib.Data.List.DropRight

namespace ContextAtlas

open Text

/-! ## 1. String literals -/

/-- The written content of a string literal: quotes and backslashes stand in escapes only, and a
line feed nowhere. -/
inductive LiteralContent : List Char → Prop
  | nil : LiteralContent []
  | plain {c : Char} {r : List Char} : c ≠ '"' → c ≠ '\\' → c ≠ '\n' → LiteralContent r →
      LiteralContent (c :: r)
  | escape {c : Char} {r : List Char} : c ≠ '\n' → LiteralContent r →
      LiteralContent ('\\' :: c :: r)

/-- A line ends in front of a text, or the whole text does. -/
def AtLineEnd (rest : List Char) : Prop := ∀ c ∈ rest.head?, c = '\n'

/-- How far a string literal goes behind its opening quote: up to the closing quote, which belongs
to it; without one, up to the end of the line.  In front of the end a backslash can be left that
escapes nothing. -/
inductive LiteralEnds : List Char → Nat → Prop
  | closed {content rest : List Char} : LiteralContent content →
      LiteralEnds (content ++ '"' :: rest) (content.length + 1)
  | cut {content rest : List Char} : LiteralContent content → AtLineEnd rest →
      LiteralEnds (content ++ rest) content.length
  | cutBackslash {content rest : List Char} : LiteralContent content → AtLineEnd rest →
      LiteralEnds (content ++ '\\' :: rest) (content.length + 1)

theorem LiteralEnds.plain {c : Char} {r : List Char} {n : Nat} (hq : c ≠ '"') (hb : c ≠ '\\')
    (hn : c ≠ '\n') (h : LiteralEnds r n) : LiteralEnds (c :: r) (n + 1) := by
  cases h with
  | closed hc => exact .closed (.plain hq hb hn hc)
  | cut hc hend => exact .cut (.plain hq hb hn hc) hend
  | cutBackslash hc hend => exact .cutBackslash (.plain hq hb hn hc) hend

theorem LiteralEnds.escape {c : Char} {r : List Char} {n : Nat} (hn : c ≠ '\n')
    (h : LiteralEnds r n) : LiteralEnds ('\\' :: c :: r) (n + 2) := by
  cases h with
  | closed hc => exact .closed (.escape hn hc)
  | cut hc hend => exact .cut (.escape hn hc) hend
  | cutBackslash hc hend => exact .cutBackslash (.escape hn hc) hend

theorem literalEnds_readLiteral (r : List Char) : LiteralEnds r (readLiteral r).2 := by
  fun_induction readLiteral r with
  | case1 => exact .cut .nil (by simp [AtLineEnd])
  | case2 r => exact .cutBackslash .nil (by simp [AtLineEnd])
  | case3 c r hc content n hr d hd ih => exact .escape hc (by simpa [hr] using ih)
  | case4 c r hc content n hr hd ih => exact .escape hc (by simpa [hr] using ih)
  | case5 c r => exact .closed .nil
  | case6 c r hq => exact .cut .nil (by simp [AtLineEnd])
  | case7 c r hesc hq hn content n hr ih =>
    rw [hr] at ih
    by_cases hb : c = '\\'
    · subst hb
      cases r with
      | nil =>
        obtain ⟨-, rfl⟩ := Prod.mk.inj hr
        exact .cutBackslash .nil (by simp [AtLineEnd])
      | cons d s => exact absurd rfl (hesc d s rfl)
    · exact .plain hq hb hn ih

theorem readLiteral_plain {c : Char} (hq : c ≠ '"') (hb : c ≠ '\\') (hn : c ≠ '\n')
    (r : List Char) : (readLiteral (c :: r)).2 = (readLiteral r).2 + 1 := by
  rw [readLiteral]
  · simp [hq, hn]
  · exact fun _ _ h _ => hb h

theorem readLiteral_escape {c : Char} (hn : c ≠ '\n') (r : List Char) :
    (readLiteral ('\\' :: c :: r)).2 = (readLiteral r).2 + 2 := by
  rw [readLiteral, if_neg hn]
  cases unescape? c <;> rfl

/-- Behind the content of a literal it is read on as if there were none. -/
theorem readLiteral_content {content : List Char} (h : LiteralContent content) (rest : List Char) :
    (readLiteral (content ++ rest)).2 = content.length + (readLiteral rest).2 := by
  induction h with
  | nil => simp
  | plain hq hb hn _ ih =>
    rw [List.cons_append, readLiteral_plain hq hb hn, ih, List.length_cons]
    omega
  | escape hn _ ih =>
    rw [List.cons_append, List.cons_append, readLiteral_escape hn, ih, List.length_cons,
      List.length_cons]
    omega

theorem readLiteral_of_atLineEnd {rest : List Char} (h : AtLineEnd rest) :
    (readLiteral rest).2 = 0 ∧ (readLiteral ('\\' :: rest)).2 = 1 := by
  cases rest with
  | nil => exact ⟨rfl, rfl⟩
  | cons c r =>
    obtain rfl := h c rfl
    exact ⟨by simp [readLiteral], by simp [readLiteral]⟩

/-- A literal is read just as far as it goes. -/
theorem literalEnds_iff {r : List Char} {n : Nat} : LiteralEnds r n ↔ n = (readLiteral r).2 := by
  constructor
  · intro h
    cases h with
    | closed hc =>
      rw [readLiteral_content hc]
      simp [readLiteral]
    | cut hc hend => rw [readLiteral_content hc, (readLiteral_of_atLineEnd hend).1, Nat.add_zero]
    | cutBackslash hc hend => rw [readLiteral_content hc, (readLiteral_of_atLineEnd hend).2]
  · rintro rfl
    exact literalEnds_readLiteral r

/-! ## 2. Lexemes -/

namespace Lexeme

/-- How many characters a lexeme covers at the start of a text.  A string literal goes as far as its
text says; every other lexeme is as long as its value. -/
def Spans : Lexeme → List Char → Nat → Prop
  | .string _, text, n => ∃ rest k, text = '"' :: rest ∧ LiteralEnds rest k ∧ n = k + 1
  | x, _, n => n = x.value.length

/-- What stands behind a lexeme does not go on with it: no word goes on with a word character, no
number with a digit, nor a whole one with a point and a digit, and no mark with the rest of a longer
one. -/
def StopsBefore : Lexeme → List Char → Prop
  | .word _, rest => ∀ c ∈ rest.head?, isWordPart c = false
  | .number s, rest => (∀ c ∈ rest.head?, isDigit c = false)
      ∧ ('.' ∉ s.toList → ∀ d r, rest = '.' :: d :: r → isDigit d = false)
  | .mark .minus, rest => rest.head? ≠ some '>'
  | .mark .openAngle, rest => rest.head? ≠ some '-'
  | .mark .backArrow, rest => rest.head? ≠ some '>'
  | _, _ => True

/-- A lexeme covers the first characters of a text, and cannot cover more of them. -/
structure Covers (x : Lexeme) (text : List Char) (n : Nat) : Prop where
  spans : ∀ k, x.Spans text k ↔ k = n
  written : (∀ s, x ≠ .string s) → text.take n = x.value.toList
  stops : x.StopsBefore (text.drop n)

end Lexeme

theorem head?_dropWhile {p : Char → Bool} {r : List Char} :
    ∀ c ∈ (r.dropWhile p).head?, p c = false := by
  intro c hc
  have h := List.head?_dropWhile_not p r
  rw [hc] at h
  exact h

theorem toList_text_of_ofChar? {c : Char} {m : Mark} (h : Mark.ofChar? c = some m) :
    m.text.toList = [c] ∧ m ∉ joinedMarks := by
  unfold Mark.ofChar? at h
  split at h <;> simp_all [Mark.text, joinedMarks] <;> subst h <;> simp

/-- A number ends in front of the first character that cannot belong to it. -/
theorem stopsBefore_readNumber (c : Char) (r : List Char) :
    (Lexeme.number (String.ofList (c :: readNumber r))).StopsBefore
      (r.drop (readNumber r).length) := by
  have hwhole : r.drop (r.takeWhile isDigit).length = r.dropWhile isDigit :=
    Indexed.drop_length_takeWhile isDigit r
  unfold readNumber
  simp only
  split
  · next d s hd =>
    rw [hd] at hwhole
    split
    · next hdigit =>
      have hrest : r.drop (r.takeWhile isDigit ++ '.' :: d :: s.takeWhile isDigit).length
          = s.dropWhile isDigit := by
        rw [List.length_append, ← List.drop_drop, hwhole, ← Indexed.drop_length_takeWhile]
        rfl
      rw [hrest]
      exact ⟨head?_dropWhile, fun hpoint => absurd hpoint (by simp)⟩
    · next hdigit =>
      rw [hwhole]
      refine ⟨hd ▸ head?_dropWhile, fun _ e t he => ?_⟩
      obtain ⟨-, rfl, -⟩ : '.' = '.' ∧ d = e ∧ s = t := by simpa using he
      simpa using hdigit
  · next hno =>
    rw [hwhole]
    refine ⟨head?_dropWhile, fun _ d s hd => ?_⟩
    exact absurd hd (hno d s)

namespace Lexeme

/-- Any lexeme but a string literal is written as its value. -/
theorem Covers.of_written {x : Lexeme} {text rest : List Char} {n : Nat} (hx : ∀ s, x ≠ .string s)
    (htext : x.value.toList ++ rest = text) (hn : x.value.toList.length = n)
    (hstops : x.StopsBefore rest) : x.Covers text n := by
  subst htext hn
  refine ⟨fun k => ?_, fun _ => List.take_left, by rwa [List.drop_left]⟩
  rw [String.length_toList]
  cases x with
  | string s => exact absurd rfl (hx s)
  | _ => exact Iff.rfl

/-- A string literal covers its opening quote and all up to its end. -/
theorem covers_string (s : String) (r : List Char) :
    (string s).Covers ('"' :: r) ((readLiteral r).2 + 1) := by
  refine ⟨fun k => ?_, fun h => absurd rfl (h s), trivial⟩
  constructor
  · rintro ⟨rest, n, htext, hn, rfl⟩
    obtain ⟨-, rfl⟩ := List.cons.inj htext
    rw [literalEnds_iff.mp hn]
  · rintro rfl
    exact ⟨r, _, rfl, literalEnds_readLiteral r, rfl⟩

/-- **The lexeme that is read at the start of a text covers it as far as it can.** -/
theorem covers_read (c : Char) (r : List Char) :
    (read c r).1.Covers (c :: r) ((read c r).2 + 1) := by
  unfold read
  split
  · next m hm =>
    obtain ⟨htext, hjoined⟩ := toList_text_of_ofChar? hm
    have hstops : (mark m).StopsBefore r := by
      unfold joinedMarks at hjoined
      unfold StopsBefore
      split <;> simp_all
    exact .of_written (by simp) (by simp [value, htext]) (by simp [value, htext]) hstops
  split
  · next hc =>
    subst hc
    split
    · exact .of_written (by simp) rfl rfl trivial
    · next s hs =>
      exact .of_written (by simp) rfl rfl fun h => by
        obtain ⟨t, rfl⟩ := List.head?_eq_some_iff.mp h
        exact hs t rfl
    · next hr =>
      exact .of_written (by simp) rfl rfl fun h => by
        obtain ⟨t, rfl⟩ := List.head?_eq_some_iff.mp h
        exact hr t rfl
  split
  · next hc =>
    subst hc
    split
    · exact .of_written (by simp) rfl rfl trivial
    · next hr =>
      exact .of_written (by simp) rfl rfl fun h => by
        obtain ⟨t, rfl⟩ := List.head?_eq_some_iff.mp h
        exact hr t rfl
  split
  · next hc =>
    subst hc
    exact covers_string _ r
  split
  · have hr : readNumber r ++ r.drop (readNumber r).length = r :=
      (List.prefix_iff_eq_append.mp (isPrefix_readNumber r))
    exact .of_written (by simp) (by simp [value, hr]) (by simp [value]) (stopsBefore_readNumber c r)
  split
  · have hstops : (word (String.ofList (c :: r.takeWhile isWordPart))).StopsBefore
        (r.dropWhile isWordPart) := head?_dropWhile
    exact .of_written (by simp) (by simp [value]) (by simp [value]) hstops
  · have hstops : (symbol c).StopsBefore r := trivial
    exact .of_written (by simp) (by simp [value]) (by simp [value]) hstops

end Lexeme

/-! ## 3. Places -/

/-- The place of an offset: the line feeds in front of it count the lines, and the characters behind
the last of these the columns. -/
def placeOf (text : List Char) (offset : Nat) : Position :=
  let passed := text.take offset
  ⟨1 + passed.count '\n', 1 + (passed.rtakeWhile (· ≠ '\n')).length, offset⟩

theorem after_eq_placeOf (text : List Char) : Position.after text = placeOf text text.length := by
  rw [placeOf, List.take_length]
  induction text using List.reverseRecOn with
  | nil => rfl
  | append_singleton text c ih =>
    have hafter : Position.after (text ++ [c]) = (Position.after text).past c := by
      rw [Position.after, List.foldl_append, List.foldl_cons, List.foldl_nil, Position.after]
    rw [hafter, ih, Position.past]
    by_cases hc : c = '\n'
    · simp [hc, List.rtakeWhile_concat_neg, Nat.add_assoc]
    · simp [hc, List.rtakeWhile_concat_pos, Nat.add_assoc]

/-! ## 4. Tiles -/

/-- Some tokens tile a text, where `stop` says for each of them in front of which offset it ends. -/
structure Tiles (text : List Char) (ts : List Token) (stop : Token → Nat) : Prop where
  spans : ∀ t ∈ ts, ∀ n, t.lexeme.Spans (text.drop t.position.offset) n
    ↔ stop t = t.position.offset + n
  nonempty : ∀ t ∈ ts, t.position.offset < stop t
  inside : ∀ t ∈ ts, stop t ≤ text.length
  apart : ts.Pairwise fun t u => stop t ≤ u.position.offset
  blank : ∀ i (h : i < text.length), (∀ t ∈ ts, ¬ (t.position.offset ≤ i ∧ i < stop t)) →
    isBlank text[i] = true
  written : ∀ t ∈ ts, (∀ s, t.lexeme ≠ .string s) →
    (text.take (stop t)).drop t.position.offset = t.value.toList
  placed : ∀ t ∈ ts, t.position = placeOf text t.position.offset
  longest : ∀ t ∈ ts, t.lexeme.StopsBefore (text.drop (stop t))

/-- The offset in front of which a token of a text ends: as far behind its start as reading goes. -/
def Token.stop (text : List Char) (t : Token) : Nat :=
  match text.drop t.position.offset with
  | [] => t.position.offset
  | c :: r => t.position.offset + ((Lexeme.read c r).2 + 1)

section

variable {text rest : List Char} {p : Position} {t : Token}

theorem Token.stop_of_drop {c : Char} (h : text.drop t.position.offset = c :: rest) :
    t.stop text = t.position.offset + ((Lexeme.read c rest).2 + 1) := by
  rw [Token.stop, h]

/-- What is left behind a lexeme that was read. -/
theorem drop_lexeme {c : Char} (h : text.drop p.offset = c :: rest) :
    text.drop (p.right ((Lexeme.read c rest).2 + 1)).offset = rest.drop (Lexeme.read c rest).2 := by
  rw [Position.right, ← List.drop_drop, h, List.drop_succ_cons]

theorem offset_le_of_mem_lexFrom (h : t ∈ lexFrom p rest) : p.offset ≤ t.position.offset := by
  obtain ⟨front, behind, hsplit⟩ := List.append_of_mem h
  exact offset_le_of_lexFrom_eq hsplit

/-- Each token ends in front of the next. -/
theorem apart_lexFrom (h : text.drop p.offset = rest) :
    (lexFrom p rest).Pairwise fun t u => t.stop text ≤ u.position.offset := by
  fun_induction lexFrom p rest with
  | case1 p => exact .nil
  | case2 p c r _ ih => exact ih (Indexed.drop_past h)
  | case3 p c r _ x ih =>
    refine .cons (fun u hu => ?_) (ih (drop_lexeme h))
    rw [Token.stop_of_drop h]
    exact offset_le_of_mem_lexFrom hu

/-- What no token covers is blank. -/
theorem blank_lexFrom (h : text.drop p.offset = rest) {i : Nat} (hp : p.offset ≤ i)
    (hi : i < text.length)
    (hout : ∀ t ∈ lexFrom p rest, ¬ (t.position.offset ≤ i ∧ i < t.stop text)) :
    isBlank text[i] = true := by
  fun_induction lexFrom p rest with
  | case1 p =>
    have hend := Indexed.not_lt_length_of_drop h
    omega
  | case2 p c r hc ih =>
    rcases Nat.eq_or_lt_of_le hp with rfl | hlt
    · have hget : text[p.offset] = c := by
        rw [List.drop_eq_getElem_cons hi] at h
        exact (List.cons.inj h).1
      rw [hget]
      exact hc
    · have hpast : (p.past c).offset ≤ i := by
        rw [Indexed.offset_past]
        exact hlt
      exact ih (Indexed.drop_past h) hpast hout
  | case3 p c r _ x ih =>
    have hnot := hout ⟨x.1, p⟩ List.mem_cons_self
    rw [Token.stop_of_drop h] at hnot
    have hbehind : (p.right (x.2 + 1)).offset ≤ i := Nat.le_of_not_lt fun hlt => hnot ⟨hp, hlt⟩
    exact ih (drop_lexeme h) hbehind fun t ht => hout t (List.mem_cons_of_mem _ ht)

/-- A token of a text stands where its lexeme is read. -/
theorem exists_read_of_mem_lex (h : t ∈ lex text) :
    ∃ c r, text.drop t.position.offset = c :: r ∧ t.lexeme = (Lexeme.read c r).1
      ∧ t.position = placeOf text t.position.offset := by
  obtain ⟨front, behind, hsplit⟩ := List.append_of_mem h
  obtain ⟨passed, c, r, rfl, hplace, hc, hread⟩ := exists_split_of_lexFrom hsplit
  have hoffset : t.position.offset = passed.length := by
    rw [← hplace, Position.offset_foldl_past]
    exact Nat.zero_add _
  rw [lexFrom_of_not_blank hc] at hread
  refine ⟨c, r, ?_, ?_, ?_⟩
  · rw [hoffset, List.drop_left]
  · exact (congrArg Token.lexeme (List.cons.inj hread).1).symm
  · rw [hoffset, ← hplace, placeOf, List.take_left]
    have hafter := after_eq_placeOf passed
    rwa [placeOf, List.take_length] at hafter

end

/-- **The tokens of a text tile it**, and its end is the place behind all of its characters. -/
theorem lex_tiles (text : List Char) :
    (∃ stop, Tiles text (lex text) stop) ∧ Position.after text = placeOf text text.length := by
  refine ⟨⟨Token.stop text, ?_⟩, after_eq_placeOf text⟩
  have hcovers : ∀ t ∈ lex text, ∃ n, t.lexeme.Covers (text.drop t.position.offset) (n + 1)
      ∧ t.stop text = t.position.offset + (n + 1) := by
    intro t ht
    obtain ⟨c, r, hdrop, hlexeme, -⟩ := exists_read_of_mem_lex ht
    refine ⟨(Lexeme.read c r).2, ?_, Token.stop_of_drop hdrop⟩
    rw [hdrop, hlexeme]
    exact Lexeme.covers_read c r
  constructor
  case spans =>
    intro t ht
    obtain ⟨n, hn, hstop⟩ := hcovers t ht
    intro k
    rw [hn.spans, hstop, Nat.add_left_cancel_iff]
    exact eq_comm
  case nonempty =>
    intro t ht
    obtain ⟨n, -, hstop⟩ := hcovers t ht
    omega
  case inside =>
    intro t ht
    obtain ⟨c, r, hdrop, -⟩ := exists_read_of_mem_lex ht
    have hlength := Indexed.length_of_drop hdrop (Nat.le_of_lt (Indexed.lt_length_of_drop hdrop))
    have hwithin := (Lexeme.read_within_line c r).1
    rw [Token.stop_of_drop hdrop]
    rw [List.length_cons] at hlength
    omega
  case apart => exact apart_lexFrom rfl
  case blank =>
    intro i hi hout
    exact blank_lexFrom rfl (Nat.zero_le i) hi hout
  case written =>
    intro t ht hstring
    obtain ⟨n, hn, hstop⟩ := hcovers t ht
    rw [hstop, List.drop_take, Nat.add_sub_cancel_left]
    exact hn.written hstring
  case placed =>
    intro t ht
    obtain ⟨c, r, -, -, hplace⟩ := exists_read_of_mem_lex ht
    exact hplace
  case longest =>
    intro t ht
    obtain ⟨n, hn, hstop⟩ := hcovers t ht
    rw [hstop, ← List.drop_drop]
    exact hn.stops

end ContextAtlas
