/-
# Texts that hold given lines

A document is given by its lines, each a row of words and marks.  A text that holds these lines may
indent them, space them and put blank lines between them as it likes; its report is that of the
rows laid out on consecutive lines.

* `Written`: a text that holds some rows, one on a line, and `writeRows`: one such text;
* `laid`: rows of lexemes as tokens on consecutive lines;
* `Report.ofText_written`: the report on such a text.
-/
import ContextAtlas.Proofs.Layout.Sharing
import ContextAtlas.Proofs.Token.Spaced

namespace ContextAtlas

open Text

/-! ## 1. Texts and rows -/

/-- A text that holds some rows of lexemes in order, each on a line of its own.  Between them, in
front and behind there may be blank lines. -/
inductive Written : List (List Lexeme) → List Char → Prop
  | nil {gap : List Char} (hg : Spaced [] gap) : Written [] gap
  | last {row : List Lexeme} {text : List Char} (h : Spaced row text) : Written [row] text
  | blank {gap : List Char} {rows : List (List Lexeme)} {text : List Char} (hg : Spaced [] gap)
      (h : Written rows text) : Written rows (gap ++ '\n' :: text)
  | line {row : List Lexeme} {front : List Char} {rows : List (List Lexeme)} {text : List Char}
      (hf : Spaced row front) (h : Written rows text) :
      Written (row :: rows) (front ++ '\n' :: text)

/-- A row as text, with a blank in front of every lexeme. -/
def writeRow (row : List Lexeme) : List Char := row.flatMap fun x => ' ' :: x.value.toList

/-- Rows as text. -/
def writeRows (rows : List (List Lexeme)) : List Char :=
  rows.flatMap fun row => writeRow row ++ ['\n']

theorem spaced_writeRow : ∀ row : List Lexeme, Spaced row (writeRow row)
  | [] => .nil (by simp [writeRow, IsGap])
  | x :: row => by
    have hgap : IsGap [' '] := by
      intro c hc
      obtain rfl := List.mem_singleton.mp hc
      exact ⟨by decide, by decide⟩
    refine .cons hgap (spaced_writeRow row) fun _ _ c hc => ?_
    cases row with
    | nil => simp at hc
    | cons y row =>
      obtain rfl : ' ' = c := by simpa [writeRow] using hc
      decide +kernel

/-- All rows can be written. -/
theorem written_writeRows : ∀ rows : List (List Lexeme), Written rows (writeRows rows)
  | [] => .nil (.nil (by simp [writeRows, IsGap]))
  | row :: rows => by
    rw [writeRows, List.flatMap_cons, List.append_assoc]
    exact .line (spaced_writeRow row) (written_writeRows rows)

/-- A row that something is written in: some words and marks. -/
def IsRow (row : List Lexeme) : Prop := row ≠ [] ∧ ∀ x ∈ row, Plain x

/-- The tokens of a row on a line. -/
def laidRow (line : Nat) (row : List Lexeme) : List Token := row.map fun x => ⟨x, .ofLine line⟩

/-- The tokens of rows on consecutive lines. -/
def laid : Nat → List (List Lexeme) → List Token
  | _, [] => []
  | line, row :: rows => laidRow line row ++ laid (line + 1) rows

theorem laid_append : ∀ (line : Nat) (rows rows' : List (List Lexeme)),
    laid line (rows ++ rows') = laid line rows ++ laid (line + rows.length) rows'
  | line, [], rows' => rfl
  | line, row :: rows, rows' => by
    rw [List.cons_append, laid, laid, laid_append, List.append_assoc, List.length_cons,
      Nat.add_right_comm, Nat.add_assoc]

/-! ## 2. Numbering the lines of a text -/

theorem numberedFrom_same_line {line number : Nat} : ∀ {ts : List Token} (us : List Token),
    (∀ t ∈ ts, t.line = line) →
    numberedFrom number line (ts ++ us)
      = laidRow number (ts.map Token.lexeme) ++ numberedFrom number line us
  | [], _, _ => rfl
  | t :: r, us, h => by
    rw [List.cons_append, numberedFrom, if_pos (h t List.mem_cons_self),
      numberedFrom_same_line us fun u hu => h u (List.mem_cons_of_mem t hu)]
    rfl

theorem numberedFrom_next_line {line line' number : Nat} {ts : List Token} (us : List Token)
    (hne : ts ≠ []) (hts : ∀ t ∈ ts, t.line = line') (hline : line < line') :
    numberedFrom number line (ts ++ us)
      = laidRow (number + 1) (ts.map Token.lexeme) ++ numberedFrom (number + 1) line' us := by
  cases ts with
  | nil => exact absurd rfl hne
  | cons t r =>
    have ht : t.line = line' := hts t List.mem_cons_self
    have hnew : ¬ t.line = line := by omega
    rw [List.cons_append, numberedFrom, if_neg hnew, ht,
      numberedFrom_same_line us fun u hu => hts u (List.mem_cons_of_mem t hu)]
    rfl

/-- Numbered without gaps, the lines of a text are its rows. -/
theorem numberedFrom_written {rows : List (List Lexeme)} {text : List Char} (h : Written rows text)
    (hrows : ∀ row ∈ rows, IsRow row) {p : Position} {number line : Nat} (hp : line < p.line) :
    numberedFrom number line (lexFrom p text) = laid (number + 1) rows := by
  have htokens : ∀ {row : List Lexeme} {front : List Char} (q : Position), Spaced row front →
      IsRow row → lexFrom q front ≠ [] := by
    intro row front q hf hrow hnil
    have hlexemes := (lexFrom_spaced hf hrow.2 q).1
    rw [hnil] at hlexemes
    exact hrow.1 hlexemes.symm
  have hnext : ∀ (q : Position) (front : List Char),
      q.line < ((front.foldl Position.past q).past '\n').line := by
    intro q front
    rw [Position.past, if_pos rfl, Position.line_foldl_past]
    exact Nat.lt_succ_of_le (Nat.le_add_right _ _)
  induction h generalizing p number line with
  | @nil gap hg =>
    have hgap := (lexFrom_spaced hg (by simp) p).1
    rw [List.map_eq_nil_iff.mp hgap]
    rfl
  | @last row text hf =>
    have hrow := hrows row List.mem_cons_self
    obtain ⟨hlexemes, hlines⟩ := lexFrom_spaced hf hrow.2 p
    have hnumbered : numberedFrom number line (lexFrom p text ++ []) = _ :=
      numberedFrom_next_line [] (htokens p hf hrow) hlines hp
    rw [List.append_nil, hlexemes] at hnumbered
    exact hnumbered
  | @blank gap rows text hg h ih =>
    have hgap := (lexFrom_spaced hg (by simp) p).1
    rw [lexFrom_append_newline, List.map_eq_nil_iff.mp hgap, List.nil_append]
    exact ih hrows (hp.trans (hnext p gap))
  | @line row front rows text hf h ih =>
    have hrow := hrows row List.mem_cons_self
    obtain ⟨hlexemes, hlines⟩ := lexFrom_spaced hf hrow.2 p
    rw [lexFrom_append_newline, numberedFrom_next_line _ (htokens p hf hrow) hlines hp, hlexemes,
      ih (fun r hr => hrows r (List.mem_cons_of_mem row hr)) (hnext p front)]
    rfl

/-! ## 3. Reports -/

/-- Words and marks hold no slash, so nothing in such a text is a comment. -/
theorem Written.uncommented {rows : List (List Lexeme)} {text : List Char} (h : Written rows text)
    (hrows : ∀ row ∈ rows, IsRow row) : Uncommented text := by
  have hline : ∀ {row : List Lexeme} {front : List Char}, Spaced row front →
      (∀ x ∈ row, Plain x) → '/' ∉ front := fun hf hrow =>
    hf.not_mem hrow (by decide) (by decide +kernel) (by decide)
  refine uncommented_of_not_mem ?_
  induction h with
  | nil hg => exact hline hg (by simp)
  | last hf => exact hline hf (hrows _ List.mem_cons_self).2
  | blank hg h ih =>
    simp only [List.mem_append, List.mem_cons, not_or]
    exact ⟨hline hg (by simp), by decide, ih hrows⟩
  | line hf h ih =>
    simp only [List.mem_append, List.mem_cons, not_or]
    exact ⟨hline hf (hrows _ List.mem_cons_self).2, by decide,
      ih fun r hr => hrows r (List.mem_cons_of_mem _ hr)⟩

/-- **A text is read like its rows on consecutive lines.** -/
theorem Report.ofText_written {rows : List (List Lexeme)} {text : String}
    (h : Written rows text.toList) (hrows : ∀ row ∈ rows, IsRow row) :
    (ofText text).model = (ofTokens (laid 1 rows)).model
      ∧ (ofText text).notes.map Note.unplaced
        = (ofTokens (laid 1 rows)).notes.map Note.unplaced := by
  have hlaid : numberedFrom 0 0 (lex text.toList) = laid 1 rows :=
    numberedFrom_written h hrows Nat.one_pos
  rw [ofText, stripComments_eq_self (h.uncommented hrows), ← hlaid]
  exact ofTokens_numberedFrom text.toList

end ContextAtlas
