/-
# Lexemes on a line

Words and marks may be written on a line with any blanks between them, or none, as long as no word
runs into the next.  Reading such a line gives them back.

* `isDigit_of_isLetter`, `isBlank_of_isWordPart`: what starts or continues a word is no blank, and
  what starts one is no digit;
* `Spaced`: a line that holds some words and marks;
* `lexFrom_spaced`: the tokens of such a line.
-/
import ContextAtlas.Proofs.Token.Line
import Mathlib.Data.List.Chain

namespace ContextAtlas

open Text

/-! ## 1. Classes of characters -/

namespace Text

theorem within_iff {ranges : List CodeRange} {c : Char} :
    within ranges c = true ↔ ∃ r ∈ ranges, r.1 ≤ c.toNat ∧ c.toNat ≤ r.2 := by
  simp [within]

/-- Whether no range of one list meets a range of the other.  Both are in order, so what ends in
front of one range is of no use for the next. -/
def apart : List CodeRange → List CodeRange → Bool
  | _, [] => true
  | rs, s :: ss =>
    match rs.dropWhile (·.2 < s.1) with
    | [] => true
    | r :: later => s.2 < r.1 && apart (r :: later) ss

/-- Ranges in the order of their starts. -/
def StartsInOrder (ranges : List CodeRange) : Prop := ranges.IsChain fun r s => r.1 ≤ s.1

instance (ranges : List CodeRange) : Decidable (StartsInOrder ranges) :=
  inferInstanceAs (Decidable (ranges.IsChain fun r s => r.1 ≤ s.1))

theorem StartsInOrder.pairwise {ranges : List CodeRange} (h : StartsInOrder ranges) :
    ranges.Pairwise fun r s => r.1 ≤ s.1 :=
  List.isChain_iff_pairwise.mp h

theorem not_within_of_apart {c : Char} : ∀ {rs ss : List CodeRange}, StartsInOrder rs →
    StartsInOrder ss → apart rs ss = true → within rs c = true → within ss c = false
  | _, [], _, _, _, _ => rfl
  | rs, s :: ss, hrs, hss, h, hc => by
    have hsuffix : rs.dropWhile (·.2 < s.1) <:+ rs := List.dropWhile_suffix _
    have hsplit : rs.takeWhile (·.2 < s.1) ++ rs.dropWhile (·.2 < s.1) = rs :=
      List.takeWhile_append_dropWhile
    obtain ⟨r, hr, h1, h2⟩ := within_iff.mp hc
    rw [← hsplit] at hr
    rcases List.mem_append.mp hr with hr | hr
    · -- The character lies in front of `s`, and so in front of all ranges behind `s`.
      have hrs' : r.2 < s.1 := by simpa using List.mem_takeWhile_imp hr
      rw [← Bool.not_eq_true]
      intro hc'
      obtain ⟨s', hs', h3, h4⟩ := within_iff.mp hc'
      rcases List.mem_cons.mp hs' with rfl | hs'
      · omega
      · have hle := (List.pairwise_cons.mp hss.pairwise).1 s' hs'
        omega
    · cases hdrop : rs.dropWhile (·.2 < s.1) with
      | nil => simp [hdrop] at hr
      | cons first later =>
        rw [hdrop] at hr hsuffix
        have hlater : StartsInOrder (first :: later) := List.IsChain.suffix hrs hsuffix
        rw [apart, hdrop, Bool.and_eq_true, decide_eq_true_eq] at h
        have hfirst : first.1 ≤ r.1 := by
          rcases List.mem_cons.mp hr with rfl | hr
          · exact Nat.le_refl _
          · exact (List.pairwise_cons.mp hlater.pairwise).1 r hr
        have hbehind : within ss c = false :=
          not_within_of_apart hlater hss.tail h.2 (within_iff.mpr ⟨r, hr, h1, h2⟩)
        rw [within_cons, hbehind, Bool.or_false, ← Bool.not_eq_true]
        intro hcs
        simp only [Bool.and_eq_true, decide_eq_true_eq] at hcs
        omega

theorem isAlpha_range {c : Char} (h : c.isAlpha = true) :
    65 ≤ c.toNat ∧ c.toNat ≤ 90 ∨ 97 ≤ c.toNat ∧ c.toNat ≤ 122 := by
  unfold Char.isAlpha Char.isUpper Char.isLower at h
  simp only [Bool.or_eq_true, Bool.and_eq_true, decide_eq_true_eq, ge_iff_le,
    UInt32.le_iff_toNat_le] at h
  exact h

theorem isDigit_range {c : Char} (h : c.isDigit = true) : 48 ≤ c.toNat ∧ c.toNat ≤ 57 := by
  simp only [Char.isDigit, Bool.and_eq_true, decide_eq_true_eq, ge_iff_le,
    UInt32.le_iff_toNat_le] at h
  exact h

theorem isDigit_of_isLetter {c : Char} (h : isLetter c = true) : isDigit c = false := by
  unfold isLetter at h
  unfold isDigit
  split at h
  · rename_i hc
    have hl := isAlpha_range h
    rw [if_pos hc, ← Bool.not_eq_true]
    intro hd
    have hd' := isDigit_range hd
    omega
  · rename_i hc
    rw [if_neg hc]
    exact not_within_of_apart (by decide +kernel) (by decide +kernel) (by decide +kernel) h

theorem isBlank_of_isAlphanumeric {c : Char} (h : isAlphanumeric c = true) : isBlank c = false := by
  have hascii : 48 ≤ c.toNat → c.toNat < 0x80 → isBlank c = false := by
    intro h1 h2
    rw [← Bool.not_eq_true]
    intro hb
    obtain ⟨r, hr, h3, h4⟩ := within_iff.mp hb
    simp only [blankRanges, List.mem_cons, List.not_mem_nil, or_false] at hr
    rcases hr with rfl | rfl | rfl | rfl | rfl | rfl | rfl | rfl | rfl | rfl <;>
      simp only at h3 h4 <;> omega
  simp only [isAlphanumeric, Bool.or_eq_true] at h
  rcases h with (h | h) | h
  · unfold isLetter at h
    split at h
    · rename_i hc
      have hl := isAlpha_range h
      exact hascii (by omega) hc
    · exact not_within_of_apart (by decide +kernel) (by decide +kernel) (by decide +kernel) h
  · unfold isDigit at h
    split at h
    · rename_i hc
      exact hascii (isDigit_range h).1 hc
    · exact not_within_of_apart (by decide +kernel) (by decide +kernel) (by decide +kernel) h
  · exact not_within_of_apart (by decide +kernel) (by decide +kernel) (by decide +kernel) h

end Text

theorem isBlank_of_isWordPart {c : Char} (h : isWordPart c = true) : isBlank c = false := by
  simp only [isWordPart, Bool.or_eq_true, beq_iff_eq] at h
  rcases h with h | rfl
  · exact isBlank_of_isAlphanumeric h
  · decide

theorem isWordPart_of_isWordStart {c : Char} (h : isWordStart c = true) : isWordPart c = true := by
  simp only [isWordStart, isWordPart, Bool.or_eq_true] at h ⊢
  exact h.imp_left isAlphanumeric_of_isLetter

theorem isDigit_of_isWordStart {c : Char} (h : isWordStart c = true) : isDigit c = false := by
  simp only [isWordStart, Bool.or_eq_true, beq_iff_eq] at h
  rcases h with h | rfl
  · exact isDigit_of_isLetter h
  · decide

/-! ## 2. Lines of words and marks -/

/-- The marks that stand in headers and types, each a single character. -/
def writtenMarks : List Mark := [.openBrace, .closeBrace, .openAngle, .closeAngle, .comma, .sigil]

/-- A lexeme that is written as it is. -/
inductive Plain : Lexeme → Prop
  | word {w : String} (h : IsIdentifier w) : Plain (.word w)
  | mark {m : Mark} (h : m ∈ writtenMarks) : Plain (.mark m)

/-- Blanks within a line. -/
def IsGap (text : List Char) : Prop := ∀ c ∈ text, isBlank c = true ∧ c ≠ '\n'

/-- Some lexemes on one line, with any blanks around them; behind a word stands nothing that would
continue it. -/
inductive Spaced : List Lexeme → List Char → Prop
  | nil {gap : List Char} (hg : IsGap gap) : Spaced [] gap
  | cons {gap : List Char} {x : Lexeme} {row : List Lexeme} {rest : List Char} (hg : IsGap gap)
      (hrest : Spaced row rest)
      (hapart : ∀ w, x = .word w → ∀ c ∈ rest.head?, isWordPart c = false) :
      Spaced (x :: row) (gap ++ (x.value.toList ++ rest))

/-- The characters of a line are blanks, characters of words, and the marks. -/
theorem Spaced.not_mem {row : List Lexeme} {text : List Char} (h : Spaced row text)
    (hplain : ∀ x ∈ row, Plain x) {c : Char} (hblank : isBlank c = false)
    (hpart : isWordPart c = false) (hmark : c ∉ ['{', '}', '<', '>', ',', '@']) : c ∉ text := by
  have hgap : ∀ {gap : List Char}, IsGap gap → c ∉ gap := by
    intro gap hg hc
    exact absurd (hg c hc).1 (by simp [hblank])
  induction h with
  | nil hg => exact hgap hg
  | @cons gap x row rest hg hrest hapart ih =>
    have hx : c ∉ x.value.toList := by
      cases hplain x List.mem_cons_self with
      | @word w hw =>
        obtain ⟨d, r, hw, hd, hr⟩ := hw
        intro hc
        have hc' : c ∈ d :: r := by
          rw [← hw]
          exact hc
        rcases List.mem_cons.mp hc' with rfl | hc'
        · simp [isWordPart_of_isWordStart hd] at hpart
        · simp [hr c hc'] at hpart
      | @mark m hm =>
        simp only [writtenMarks, List.mem_cons, List.not_mem_nil, or_false] at hm
        intro hc
        rcases hm with rfl | rfl | rfl | rfl | rfl | rfl <;>
          exact hmark (by simp_all [Lexeme.value, Mark.text])
    simp only [List.mem_append, not_or]
    exact ⟨hgap hg, hx, ih fun y hy => hplain y (List.mem_cons_of_mem x hy)⟩

/-! ## 3. Reading a line -/

theorem read_word {w : String} {c : Char} {r rest : List Char} (hw : w.toList = c :: r)
    (hc : isWordStart c = true) (hr : ∀ d ∈ r, isWordPart d = true)
    (hrest : ∀ d ∈ rest.head?, isWordPart d = false) :
    Lexeme.read c (r ++ rest) = (.word w, r.length) := by
  have hmark : Mark.ofChar? c = none := by
    unfold Mark.ofChar?
    split <;> first | rfl | exact absurd hc (by decide)
  have hangle : c ≠ '<' := by
    rintro rfl
    exact absurd hc (by decide)
  have hminus : c ≠ '-' := by
    rintro rfl
    exact absurd hc (by decide)
  have hquote : c ≠ '"' := by
    rintro rfl
    exact absurd hc (by decide)
  have htake : (r ++ rest).takeWhile isWordPart = r := by
    rw [List.takeWhile_append_of_pos hr]
    cases rest with
    | nil => simp
    | cons d s => simp [hrest d rfl]
  unfold Lexeme.read
  rw [hmark]
  simp only [hangle, hminus, hquote, isDigit_of_isWordStart hc, hc, if_false, if_true, htake,
    Bool.false_eq_true]
  rw [← hw, String.ofList_toList]

theorem read_mark {m : Mark} (hm : m ∈ writtenMarks) {rest : List Char} (hrest : '-' ∉ rest) :
    ∃ c, m.text.toList = [c] ∧ isBlank c = false ∧ Lexeme.read c rest = (.mark m, 0) := by
  simp only [writtenMarks, List.mem_cons, List.not_mem_nil, or_false] at hm
  rcases hm with rfl | rfl | rfl | rfl | rfl | rfl
  · exact ⟨'{', rfl, by decide, rfl⟩
  · exact ⟨'}', rfl, by decide, rfl⟩
  · refine ⟨'<', rfl, by decide, ?_⟩
    -- The angle is the only mark of these that starts longer ones, all of them with a minus.
    cases rest with
    | nil => rfl
    | cons d r =>
      have hd : d ≠ '-' := by
        rintro rfl
        exact hrest List.mem_cons_self
      have hangle : Mark.ofChar? '<' = none := rfl
      unfold Lexeme.read
      rw [hangle]
      simp only [if_true]
      split
      · rename_i heq
        exact absurd (List.cons.inj heq).1 hd
      · rename_i heq
        exact absurd (List.cons.inj heq).1 hd
      · rfl
  · exact ⟨'>', rfl, by decide, rfl⟩
  · exact ⟨',', rfl, by decide, rfl⟩
  · exact ⟨'@', rfl, by decide, rfl⟩

theorem exists_lexFrom_gap : ∀ {gap : List Char} (p : Position) (rest : List Char), IsGap gap →
    ∃ q : Position, q.line = p.line ∧ lexFrom p (gap ++ rest) = lexFrom q rest
  | [], p, _, _ => ⟨p, rfl, rfl⟩
  | c :: gap, p, rest, hg => by
    have ⟨hb, hn⟩ := hg c List.mem_cons_self
    obtain ⟨q, hq, hlex⟩ := exists_lexFrom_gap (p.past c) rest fun d hd =>
      hg d (List.mem_cons_of_mem c hd)
    refine ⟨q, ?_, ?_⟩
    · rw [hq, Position.past, if_neg hn]
    · rw [List.cons_append, lexFrom_of_blank hb, hlex]

/-- **The tokens of a line are its words and marks.** -/
theorem lexFrom_spaced {row : List Lexeme} {text : List Char} (h : Spaced row text)
    (hplain : ∀ x ∈ row, Plain x) (p : Position) :
    (lexFrom p text).map Token.lexeme = row ∧ ∀ t ∈ lexFrom p text, t.line = p.line := by
  induction h generalizing p with
  | @nil gap hg =>
    obtain ⟨q, -, hlex⟩ := exists_lexFrom_gap p [] hg
    rw [List.append_nil, lexFrom] at hlex
    rw [hlex]
    exact ⟨rfl, by simp⟩
  | @cons gap x row rest hg hrest hapart ih =>
    have hrow : ∀ y ∈ row, Plain y := fun y hy => hplain y (List.mem_cons_of_mem x hy)
    have hminus : '-' ∉ rest := hrest.not_mem hrow (by decide) (by decide) (by decide)
    obtain ⟨q, hq, hlex⟩ := exists_lexFrom_gap p (x.value.toList ++ rest) hg
    have hwritten : x.WrittenAs x.value.toList rest := by
      cases hplain x List.mem_cons_self with
      | @word w hw =>
        obtain ⟨c, r, hw, hc, hr⟩ := hw
        exact ⟨c, r, hw, isBlank_of_isWordPart (isWordPart_of_isWordStart hc),
          read_word hw hc hr (hapart w rfl)⟩
      | @mark m hm =>
        obtain ⟨c, hm, hc, hread⟩ := read_mark hm hminus
        exact ⟨c, [], hm, hc, hread⟩
    rw [hlex, lexFrom_of_writtenAs hwritten]
    obtain ⟨hlexemes, hlines⟩ := ih hrow (q.right x.value.toList.length)
    refine ⟨by rw [List.map_cons, hlexemes], ?_⟩
    intro t ht
    rcases List.mem_cons.mp ht with rfl | ht
    · exact hq
    · exact (hlines t ht).trans hq

end ContextAtlas
