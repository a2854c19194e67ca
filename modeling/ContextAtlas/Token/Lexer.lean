/-
# Reading tokens

`Lexeme.read` reads the lexeme that starts with a given character and says how many further
characters it takes; `lexFrom` walks over a text with it, skipping blanks. Every text has tokens:
a character that starts nothing else is a symbol.

A lexeme takes as many characters as it can. None extends over a line feed: a string literal that
is still open at the end of its line ends there.
-/
import ContextAtlas.Text.Numeral
import ContextAtlas.Token

namespace ContextAtlas

open Text

/-! ## 1. Character classes of the language -/

/-- The marks that are one character and start no longer mark. -/
def Mark.ofChar? : Char → Option Mark
  | '{' => some .openBrace
  | '}' => some .closeBrace
  | '[' => some .openBracket
  | ']' => some .closeBracket
  | '(' => some .openParen
  | ')' => some .closeParen
  | '>' => some .closeAngle
  | ',' => some .comma
  | ':' => some .colon
  | ';' => some .semicolon
  | '=' => some .equals
  | '@' => some .sigil
  | '*' => some .star
  | _ => none

/-- Whether a character can start a word. -/
def isWordStart (c : Char) : Bool := isLetter c || c == '_'

/-- Whether a character can continue a word. -/
def isWordPart (c : Char) : Bool := isAlphanumeric c || c == '_'

/-- A word of the language: a letter or an underscore, then letters, numerals and underscores. -/
def IsIdentifier (s : String) : Prop :=
  ∃ c r, s.toList = c :: r ∧ isWordStart c = true ∧ ∀ d ∈ r, isWordPart d = true

/-! ## 2. String literals -/

/-- The character that an escape stands for. -/
def unescape? : Char → Option Char
  | 'n' => some '\n'
  | 't' => some '\t'
  | '\\' => some '\\'
  | '"' => some '"'
  | _ => none

/-- The escape of a character that is written as one. -/
def escape? : Char → Option Char
  | '\n' => some 'n'
  | '\t' => some 't'
  | '\\' => some '\\'
  | '"' => some '"'
  | _ => none

/-- Reads a string literal behind its opening quote: its content, and how many characters it
takes with its closing quote. The line feed that cuts an open literal is not taken. An unknown
escape stands for itself, backslash included. -/
def readLiteral : List Char → List Char × Nat
  | [] => ([], 0)
  | '\\' :: c :: r =>
    if c = '\n' then (['\\'], 1)
    else
      let (content, n) := readLiteral r
      match unescape? c with
      | some d => (d :: content, n + 2)
      | none => ('\\' :: c :: content, n + 2)
  | c :: r =>
    if c = '"' then ([], 1)
    else if c = '\n' then ([], 0)
    else
      let (content, n) := readLiteral r
      (c :: content, n + 1)

/-- Writes the content of a string literal so that reading gives it back. -/
def escapeLiteral (content : List Char) : List Char :=
  content.flatMap fun c =>
    match escape? c with
    | some d => ['\\', d]
    | none => [c]

/-! ## 3. Numbers -/

/-- Reads a number behind its first digit: the rest of its text. A point belongs to it only with
a digit behind. -/
def readNumber (text : List Char) : List Char :=
  let whole := text.takeWhile isDigit
  match text.dropWhile isDigit with
  | '.' :: d :: r => if isDigit d then whole ++ '.' :: d :: r.takeWhile isDigit else whole
  | _ => whole

/-! ## 4. Lexemes -/

/-- Reads the lexeme that starts with a character that is not blank, and says how many further
characters it takes. -/
def Lexeme.read (c : Char) (r : List Char) : Lexeme × Nat :=
  match Mark.ofChar? c with
  | some m => (.mark m, 0)
  | none =>
    if c = '<' then
      match r with
      | '-' :: '>' :: _ => (.mark .doubleArrow, 2)
      | '-' :: _ => (.mark .backArrow, 1)
      | _ => (.mark .openAngle, 0)
    else if c = '-' then
      match r with
      | '>' :: _ => (.mark .arrow, 1)
      | _ => (.mark .minus, 0)
    else if c = '"' then
      let (content, n) := readLiteral r
      (.string (String.ofList content), n)
    else if isDigit c then
      let rest := readNumber r
      (.number (String.ofList (c :: rest)), rest.length)
    else if isWordStart c then
      let rest := r.takeWhile isWordPart
      (.word (String.ofList (c :: rest)), rest.length)
    else (.symbol c, 0)

/-! ## 5. Texts -/

/-- The tokens of a text whose first character stands at `p`. -/
def lexFrom (p : Position) : List Char → List Token
  | [] => []
  | c :: r =>
    if isBlank c then lexFrom (p.past c) r
    else
      let x := Lexeme.read c r
      ⟨x.1, p⟩ :: lexFrom (p.right (x.2 + 1)) (r.drop x.2)
termination_by text => text.length
decreasing_by
  · simp only [List.length_cons]
    omega
  · simp only [List.length_cons, List.length_drop]
    omega

/-- The tokens of a text. -/
def lex (text : List Char) : List Token := lexFrom .start text

end ContextAtlas
