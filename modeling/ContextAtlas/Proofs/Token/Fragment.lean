/-
# Fragments as texts

The text of a run of tokens, as a report shows it, has each lexeme between single blanks.  A blank
ends every lexeme, and no lexeme looks behind what belongs to it, so reading the text of a run gives
the run's lexemes again.  Only a string literal can be lost in it, since its value is not escaped.

* `Lexeme.read_taken`: what a lexeme takes is enough to read it;
* `Lexeme.writtenAs_quoted`: what a report shows for a lexeme can be read in front of a blank;
* `lexemes_lexFrom_fragment`: the lexemes of a fragment;
* `fragment_reads_back`: and so two runs with one text are the same lexemes.
-/
import ContextAtlas.Proofs.Token.Literal
import ContextAtlas.Skipped

namespace ContextAtlas

open Text

/-! ## 1. What a lexeme takes is enough for it -/

theorem readNumber_of_digits {whole : List Char} (h : ∀ c ∈ whole, isDigit c = true) :
    readNumber whole = whole := by
  have hrest : whole.dropWhile isDigit = [] := List.dropWhile_eq_nil_iff.mpr h
  simp only [readNumber, hrest]
  exact List.takeWhile_eq_self_iff.mpr h

theorem readNumber_of_point {whole later : List Char} {d : Char}
    (hwhole : ∀ c ∈ whole, isDigit c = true) (hd : isDigit d = true)
    (hlater : ∀ c ∈ later, isDigit c = true) :
    readNumber (whole ++ '.' :: d :: later) = whole ++ '.' :: d :: later := by
  have hpoint : isDigit '.' = false := by decide
  have htake : (whole ++ '.' :: d :: later).takeWhile isDigit = whole := by
    rw [takeWhile_append_of_stop hpoint, List.takeWhile_eq_self_iff.mpr hwhole]
  have hdrop : (whole ++ '.' :: d :: later).dropWhile isDigit = '.' :: d :: later := by
    rw [dropWhile_append_of_stop hpoint, List.dropWhile_eq_nil_iff.mpr hwhole, List.nil_append]
  simp only [readNumber, htake, hdrop, hd, if_true, List.takeWhile_eq_self_iff.mpr hlater]

theorem readNumber_idem (r : List Char) : readNumber (readNumber r) = readNumber r := by
  have hdigits : ∀ {s : List Char}, ∀ c ∈ s.takeWhile isDigit, isDigit c = true := fun _ =>
    List.mem_takeWhile_imp
  rw [readNumber.eq_def r]
  simp only
  split
  · split
    · next hd => exact readNumber_of_point hdigits hd hdigits
    · exact readNumber_of_digits hdigits
  · exact readNumber_of_digits hdigits

namespace Lexeme

theorem read_taken {c : Char} (hquote : c ≠ '"') (r : List Char) :
    read c (r.take (read c r).2) = read c r := by
  have hnumber : r.take (readNumber r).length = readNumber r :=
    (List.prefix_iff_eq_take.mp (isPrefix_readNumber r)).symm
  have hword : r.take (r.takeWhile isWordPart).length = r.takeWhile isWordPart :=
    (List.prefix_iff_eq_take.mp (List.takeWhile_prefix isWordPart)).symm
  rw [read.eq_def c r]
  split
  · next hmark => simp [read, hmark]
  split
  · next hmark hangle =>
    subst hangle
    split <;> simp [read, hmark]
  split
  · next hmark _ hminus =>
    subst hminus
    split <;> simp [read, hmark]
  split
  · next hmark hangle hminus hdigit =>
    simp [read, hmark, hangle, hminus, hquote, hdigit, hnumber, readNumber_idem]
  split
  · next hmark hangle hminus hdigit hstart =>
    simp [read, hmark, hangle, hminus, hquote, hdigit, hstart, hword, List.takeWhile_idem]
  · next hmark hangle hminus hdigit hstart =>
    simp [read, hmark, hangle, hminus, hquote, hdigit, hstart]

/-! ## 2. How a lexeme is shown -/

/-- A string literal whose value can stand between quotes as it is; any other lexeme. -/
def Unescaped : Lexeme → Prop
  | string s => '"' ∉ s.toList ∧ '\\' ∉ s.toList ∧ '\n' ∉ s.toList
  | _ => True

instance : DecidablePred Unescaped
  | string s => inferInstanceAs (Decidable ('"' ∉ s.toList ∧ '\\' ∉ s.toList ∧ '\n' ∉ s.toList))
  | mark _ | number _ | word _ | symbol _ => isTrue trivial

theorem quoted_eq_value {x : Lexeme} (h : ∀ s, x ≠ string s) : x.quoted = x.value := by
  cases x with
  | string s => exact absurd rfl (h s)
  | _ => rfl

theorem eq_quote_of_read {c : Char} {r : List Char} {s : String} (h : (read c r).1 = string s) :
    c = '"' := by
  have hstart := startsWith_read c r
  rw [h] at hstart
  cases hstart with
  | string hc => exact hc

theorem writtenAs_quoted {c : Char} {r rest : List Char} (hb : isBlank c = false)
    (hx : (read c r).1.Unescaped) (hrest : ∀ d ∈ rest.head?, EndsLexeme d) :
    (read c r).1.WrittenAs (read c r).1.quoted.toList rest := by
  by_cases hc : c = '"'
  · subst hc
    rw [read_quote] at hx ⊢
    obtain ⟨hquote, hbackslash, hnewline⟩ := hx
    rw [String.toList_ofList] at hquote hbackslash hnewline
    have hwritten := writtenAs_of_spells (spells_self hquote hbackslash hnewline) rest
    simpa [quoted] using hwritten
  · have hstring : ∀ s, (read c r).1 ≠ string s := fun s h => hc (eq_quote_of_read h)
    have htext := (covers_read c r).written hstring
    refine ⟨c, r.take (read c r).2, ?_, hb, ?_⟩
    · rw [quoted_eq_value hstring, ← htext, List.take_succ_cons]
    · rw [List.length_take_of_le (read_within_line c r).1]
      cases rest with
      | nil => rw [List.append_nil, read_taken hc]
      | cons d rest => rw [read_append_of_ends hc (hrest d rfl), read_taken hc]

end Lexeme

/-! ## 3. Runs of tokens -/

theorem endsLexeme_blank : EndsLexeme ' ' := ⟨by decide +kernel, by decide⟩

/-- What a report shows for a token of a text is the token again in front of what ends a lexeme. -/
theorem writtenAs_of_mem_lex {text rest : List Char} {t : Token} (ht : t ∈ lex text)
    (hplain : t.lexeme.Unescaped) (hrest : ∀ d ∈ rest.head?, EndsLexeme d) :
    t.lexeme.WrittenAs t.lexeme.quoted.toList rest := by
  obtain ⟨front, behind, hsplit⟩ := List.append_of_mem ht
  obtain ⟨-, c, r, -, -, hb, hread⟩ := exists_split_of_lexFrom hsplit
  rw [lexFrom_of_not_blank hb] at hread
  rw [← congrArg Token.lexeme (List.cons.inj hread).1] at hplain ⊢
  exact Lexeme.writtenAs_quoted hb hplain hrest

/-- Behind its first lexeme the text of a run is over, or goes on behind a blank. -/
theorem exists_toList_fragmentText (t : Token) : ∀ run : List Token,
    ∃ rest, (fragmentText (t :: run)).toList = t.lexeme.quoted.toList ++ rest
      ∧ (∀ c ∈ rest.head?, c = ' ')
      ∧ ∀ p, ∃ q, lexFrom p rest = lexFrom q (fragmentText run).toList
  | [] => ⟨[], by simp [fragmentText], by simp, fun p => ⟨p, by simp [fragmentText]⟩⟩
  | u :: run => by
    refine ⟨' ' :: (fragmentText (u :: run)).toList, ?_, by simp, fun p => ⟨p.past ' ', ?_⟩⟩
    · simp [fragmentText, String.intercalate_cons_cons]
    · exact lexFrom_of_blank (by decide) p _

theorem lexemes_lexFrom_fragment : ∀ {run : List Token} (p : Position),
    (∀ t ∈ run, ∃ text, t ∈ lex text) → (∀ t ∈ run, t.lexeme.Unescaped) →
      (lexFrom p (fragmentText run).toList).map Token.lexeme = run.map Token.lexeme
  | [], p, _, _ => by simp [fragmentText, lexFrom]
  | t :: run, p, htext, hplain => by
    obtain ⟨text, ht⟩ := htext t List.mem_cons_self
    obtain ⟨rest, hfragment, hblank, hbehind⟩ := exists_toList_fragmentText t run
    have hends : ∀ c ∈ rest.head?, EndsLexeme c := fun c hc => by
      rw [hblank c hc]
      exact endsLexeme_blank
    have hwritten := writtenAs_of_mem_lex ht (hplain t List.mem_cons_self) hends
    obtain ⟨q, hq⟩ := hbehind (p.right t.lexeme.quoted.toList.length)
    rw [hfragment, lexFrom_of_writtenAs hwritten, hq, List.map_cons, List.map_cons,
      lexemes_lexFrom_fragment q (fun u hu => htext u (List.mem_cons_of_mem t hu))
        fun u hu => hplain u (List.mem_cons_of_mem t hu)]

/-- **A fragment says which lexemes were left out.**  A run of tokens of a text is left out with a
fragment that has the lexemes of the run again, if the values of its string literals can stand
between quotes as they are. -/
theorem fragment_reads_back {text : List Char} {run : List Token} (hrun : run <:+: lex text)
    (hplain : ∀ t ∈ run, t.lexeme.Unescaped) (reason : SkipReason) :
    (lex (Skipped.ofTokens reason run).fragment.toList).map Token.lexeme = run.map Token.lexeme
      ∧ ∀ (text' : List Char) (run' : List Token) (reason' : SkipReason), run' <:+: lex text' →
        (∀ t ∈ run', t.lexeme.Unescaped) →
        (Skipped.ofTokens reason' run').fragment = (Skipped.ofTokens reason run).fragment →
        run'.map Token.lexeme = run.map Token.lexeme := by
  have hread : ∀ {text : List Char} {run : List Token}, run <:+: lex text →
      (∀ t ∈ run, t.lexeme.Unescaped) →
      (lex (fragmentText run).toList).map Token.lexeme = run.map Token.lexeme :=
    fun hrun hplain => lexemes_lexFrom_fragment .start (fun t ht => ⟨_, hrun.subset ht⟩) hplain
  refine ⟨hread hrun hplain, fun text' run' reason' hrun' hplain' hsame => ?_⟩
  have hsame' : fragmentText run' = fragmentText run := hsame
  rw [← hread hrun' hplain', hsame', hread hrun hplain]

/-- Lexemes that would run into one another without a blank, literals with blanks and without
content, and a numeral that starts no number. -/
def crowdedText : List Char := "1.2.3<- >½\"\" \"a  -> b\t\"x_1".toList

theorem fragment_reads_back_crowded :
    (lex crowdedText).tail <:+: lex crowdedText
      ∧ (∀ t ∈ (lex crowdedText).tail, t.lexeme.Unescaped)
      ∧ fragmentText (lex crowdedText).tail = ". 3 <- > ½ \"\" \"a  -> b\t\" x_1"
      ∧ (lex ". 3 <- > ½ \"\" \"a  -> b\t\" x_1".toList).map Token.lexeme
        = [.symbol '.', .number "3", .mark .backArrow, .mark .closeAngle, .symbol '½', .string "",
          .string "a  -> b\t", .word "x_1"] := by
  have hrun : (lex crowdedText).tail <:+: lex crowdedText := (List.tail_suffix _).isInfix
  have hplain : ∀ t ∈ (lex crowdedText).tail, t.lexeme.Unescaped := by decide +kernel
  have hfragment : fragmentText (lex crowdedText).tail = ". 3 <- > ½ \"\" \"a  -> b\t\" x_1" := by
    decide +kernel
  obtain ⟨hread, -⟩ := fragment_reads_back hrun hplain .notAnAttribute
  refine ⟨hrun, hplain, hfragment, ?_⟩
  rw [← hfragment]
  exact hread.trans (by decide +kernel)

end ContextAtlas
