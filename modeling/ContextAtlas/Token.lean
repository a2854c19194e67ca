/-
# Tokens

A document is a sequence of tokens separated by blanks. A token is a lexeme, which says what was
written, and the position of its first character. Everything that is read from a document depends
on the lexemes and on which tokens share a line; positions serve to say where something is.

The construct keywords of the language are no lexemes of their own: a keyword is a word that
stands where one is expected.
-/

namespace ContextAtlas

/-! ## 1. Lexemes -/

/-- The fixed punctuation of the language. -/
inductive Mark where
  | openBrace
  | closeBrace
  | openBracket
  | closeBracket
  | openParen
  | closeParen
  | openAngle
  | closeAngle
  | comma
  | colon
  | semicolon
  | equals
  | sigil
  | star
  | minus
  | arrow
  | backArrow
  | doubleArrow
deriving DecidableEq

/-- How a mark is written. -/
def Mark.text : Mark → String
  | .openBrace => "\x7b"
  | .closeBrace => "\x7d"
  | .openBracket => "["
  | .closeBracket => "]"
  | .openParen => "("
  | .closeParen => ")"
  | .openAngle => "<"
  | .closeAngle => ">"
  | .comma => ","
  | .colon => ":"
  | .semicolon => ";"
  | .equals => "="
  | .sigil => "@"
  | .star => "*"
  | .minus => "-"
  | .arrow => "->"
  | .backArrow => "<-"
  | .doubleArrow => "<->"

/-- What a token says: a mark, a string literal with its decoded content, a number, a word, or
any other single character. -/
inductive Lexeme where
  | mark (mark : Mark)
  | string (value : String)
  | number (text : String)
  | word (text : String)
  | symbol (char : Char)
deriving DecidableEq

/-- The content of a string literal, and the written text of every other lexeme. -/
def Lexeme.value : Lexeme → String
  | .mark m => m.text
  | .string s => s
  | .number s => s
  | .word s => s
  | .symbol c => String.singleton c

/-- The text of a lexeme in a message: as its value, but a string literal between quotes. Its
content is not escaped again. -/
def Lexeme.quoted : Lexeme → String
  | .string s => "\"" ++ s ++ "\""
  | x => x.value

/-! ## 2. Positions -/

/-- A place in a text: line and column count from one, the offset in characters from zero. -/
structure Position where
  line : Nat
  column : Nat
  offset : Nat
deriving DecidableEq

/-- The start of a text. -/
def Position.start : Position := ⟨1, 1, 0⟩

/-- The place behind one character. Only a line feed starts a new line. -/
def Position.past (p : Position) (c : Char) : Position :=
  if c = '\n' then ⟨p.line + 1, 1, p.offset + 1⟩ else ⟨p.line, p.column + 1, p.offset + 1⟩

/-- The place `n` characters further on the same line. -/
def Position.right (p : Position) (n : Nat) : Position :=
  ⟨p.line, p.column + n, p.offset + n⟩

/-- The place behind a text. -/
def Position.after (text : List Char) : Position := text.foldl Position.past .start

/-! ## 3. Tokens -/

/-- A lexeme and the position of its first character. -/
structure Token where
  lexeme : Lexeme
  position : Position
deriving DecidableEq

namespace Token

/-- The line on which a token starts. -/
def line (t : Token) : Nat := t.position.line

/-- The value of a token's lexeme. -/
def value (t : Token) : String := t.lexeme.value

/-- Whether a token is the given mark. -/
def is (t : Token) (m : Mark) : Bool := t.lexeme = .mark m

/-- Whether a token is the given word. -/
def isWord (t : Token) (w : String) : Bool := t.lexeme = .word w

/-- The text of a token that is a word. -/
def word? (t : Token) : Option String :=
  match t.lexeme with
  | .word w => some w
  | _ => none

/-- The content of a token that is a string literal. -/
def string? (t : Token) : Option String :=
  match t.lexeme with
  | .string s => some s
  | _ => none

/-- Whether a token can be the value of a setting or a constraint: a string, a number, a word. -/
def isValue (t : Token) : Bool :=
  match t.lexeme with
  | .string _ | .number _ | .word _ => true
  | _ => false

end Token

section

variable {t : Token}

theorem Token.lexeme_of_is {m : Mark} (h : t.is m = true) : t.lexeme = .mark m := by
  simpa [Token.is] using h

theorem not_is_of_is {m n : Mark} (h : t.is m = true) (hmn : m ≠ n) : t.is n = false := by
  simp [Token.is, Token.lexeme_of_is h, hmn]

theorem Token.lexeme_of_word? {w : String} (h : t.word? = some w) : t.lexeme = .word w := by
  unfold Token.word? at h
  split at h <;> simp_all

theorem head?_lexemes {ts : List Token} {row : List Lexeme} (h : ts.map Token.lexeme = row) :
    ∀ t ∈ ts.head?, row.head? = some t.lexeme := by
  intro t ht
  rw [← h, List.head?_map, Option.mem_def.mp ht]
  rfl

/-- A run without a mark in front of it is taken up to the mark. -/
theorem span_until {m : Mark} {run : List Token} (hrun : ∀ u ∈ run, u.is m = false)
    (ht : t.is m = true) (rest : List Token) :
    (run ++ t :: rest).takeWhile (!·.is m) = run
      ∧ (run ++ t :: rest).dropWhile (!·.is m) = t :: rest := by
  have hrun' : ∀ u ∈ run, (!u.is m) = true := fun u hu => by simp [hrun u hu]
  constructor
  · rw [List.takeWhile_append_of_pos hrun', List.takeWhile_cons_of_neg (by simp [ht]),
      List.append_nil]
  · rw [List.dropWhile_append_of_pos hrun', List.dropWhile_cons_of_neg (by simp [ht])]

/-- Where a mark is found, the run in front of it is without it. -/
theorem exists_span_until {m : Mark} {ts rest : List Token}
    (h : ts.dropWhile (!·.is m) = t :: rest) :
    ts = ts.takeWhile (!·.is m) ++ t :: rest ∧ t.is m = true
      ∧ ∀ u ∈ ts.takeWhile (!·.is m), u.is m = false := by
  have hhead := List.head?_dropWhile_not (!·.is m) ts
  rw [h] at hhead
  refine ⟨?_, by simpa using hhead, fun u hu => ?_⟩
  · rw [← h, List.takeWhile_append_dropWhile]
  · simpa using List.all_eq_true.mp List.all_takeWhile u hu

/-- A mark is in a run somewhere first, or nowhere. -/
theorem exists_first_or_none (m : Mark) (ts : List Token) :
    (∀ u ∈ ts, u.is m = false)
      ∨ ∃ front t rest, ts = front ++ t :: rest ∧ t.is m = true ∧ ∀ u ∈ front, u.is m = false := by
  rcases h : ts.dropWhile (!·.is m) with _ | ⟨t, rest⟩
  · have hall := List.takeWhile_append_dropWhile (p := (!·.is m)) (l := ts)
    rw [h, List.append_nil] at hall
    refine .inl fun u hu => ?_
    rw [← hall] at hu
    simpa using List.all_eq_true.mp List.all_takeWhile u hu
  · exact .inr ⟨_, t, rest, exists_span_until h⟩

end

/-! ## 4. Runs of items between commas -/

/-- Reads a run of items separated by commas, where the sigil `@` is ignored before an item and
after a comma. Gives the items and the tokens behind the run; a comma that ends the run belongs
to it. -/
def commaRun {α : Type} (item? : Token → Option α) : List Token → List α × List Token
  | [] => ([], [])
  | t :: r =>
    if t.is .sigil then commaRun item? r
    else match item? t, r with
      | none, _ => ([], t :: r)
      | some a, ⟨.mark .comma, _⟩ :: s => (a :: (commaRun item? s).1, (commaRun item? s).2)
      | some a, _ => ([a], r)

section

variable {α : Type} {item? : Token → Option α} {t : Token} {r : List Token}

theorem commaRun_of_sigil (ht : t.is .sigil = true) :
    commaRun item? (t :: r) = commaRun item? r := by
  rw [commaRun.eq_def]
  exact if_pos ht

theorem commaRun_of_none (ht : t.is .sigil = false) (hi : item? t = none) :
    commaRun item? (t :: r) = ([], t :: r) := by
  rw [commaRun.eq_def]
  simp [ht, hi]

theorem commaRun_of_comma {u : Token} {a : α} (ht : t.is .sigil = false) (hi : item? t = some a)
    (hu : u.is .comma = true) :
    commaRun item? (t :: u :: r) = (a :: (commaRun item? r).1, (commaRun item? r).2) := by
  obtain ⟨x, p⟩ := u
  obtain rfl : x = .mark .comma := by simpa [Token.is] using hu
  rw [commaRun.eq_def]
  simp [ht, hi]

theorem commaRun_of_last {a : α} (ht : t.is .sigil = false) (hi : item? t = some a)
    (hr : ∀ u s, r = u :: s → u.is .comma = false) : commaRun item? (t :: r) = ([a], r) := by
  rw [commaRun.eq_def]
  simp only [ht, hi, Bool.false_eq_true, if_false]
  split
  · rename_i h
    exact absurd h (by simp)
  · rename_i h
    exact absurd (hr _ _ rfl) (by simp [Token.is])
  · rename_i h _
    rw [Option.some.injEq] at h
    rw [h]

end

theorem length_commaRun_le {α : Type} (item? : Token → Option α) (ts : List Token) :
    (commaRun item? ts).2.length ≤ ts.length := by
  fun_induction commaRun item? ts <;> simp_all <;> omega

/-- The tokens before the trailing semicolons of a line. -/
def withoutTerminators (line : List Token) : List Token :=
  (line.reverse.dropWhile (·.is .semicolon)).reverse

theorem withoutTerminators_append {run terminators : List Token}
    (hterminators : ∀ t ∈ terminators, t.is .semicolon = true)
    (hrun : ∀ t ∈ run.getLast?, t.is .semicolon = false) :
    withoutTerminators (run ++ terminators) = run := by
  have hreverse : ∀ t ∈ terminators.reverse, t.is .semicolon = true := fun t ht =>
    hterminators t (List.mem_reverse.mp ht)
  rw [withoutTerminators, List.reverse_append, List.dropWhile_append_of_pos hreverse]
  rcases List.eq_nil_or_concat run with rfl | ⟨init, last, rfl⟩
  · rfl
  · have hlast : last.is .semicolon = false := hrun last (by simp)
    simp [hlast]

theorem getLast?_ne_semicolon {front row : List Lexeme} {x : Lexeme}
    (h : .mark .semicolon ∉ x :: row) : (front ++ x :: row).getLast? ≠ some (.mark .semicolon) := by
  intro hlast
  rw [List.getLast?_append, Option.or_eq_some_iff] at hlast
  rcases hlast with hlast | ⟨hnone, -⟩
  · exact h (List.mem_of_getLast? hlast)
  · simp at hnone

/-- A run is left of it and some semicolons, if it does not end with one. -/
theorem withoutTerminators_spelled {run terminators : List Token} {n : Nat}
    (hrun : (run.map Token.lexeme).getLast? ≠ some (.mark .semicolon))
    (hterminators : terminators.map Token.lexeme = .replicate n (.mark .semicolon)) :
    withoutTerminators (run ++ terminators) = run := by
  refine withoutTerminators_append (fun t ht => ?_) fun t ht => ?_
  · have hmem : t.lexeme ∈ terminators.map Token.lexeme := List.mem_map_of_mem ht
    rw [hterminators] at hmem
    simp [Token.is, List.eq_of_mem_replicate hmem]
  · rw [List.getLast?_map] at hrun
    rw [Token.is, decide_eq_false_iff_not]
    exact fun hlexeme => hrun (Option.map_eq_some_iff.mpr ⟨t, ht, hlexeme⟩)

end ContextAtlas
