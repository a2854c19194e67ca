/-
# Faults of a YAML text

Most of what can be wrong with a text is a breach of the rules of the language.  Two things are not:
an escape may ask for a code point that no character has, and a version may be written with more
digits than a number is read from.  A reader ends further on in the text, or it ends with one of
these faults, and then the text holds what is wrong.

* `Ends`: what a step can end with, a result or a fault.
* `ScanFault`: the faults of a text, each with the place in the text that is at fault.
* `Reads`: a reader that stays inside a text and ends with no other fault.
* `readQuoted_reads`, `readBlockScalar_reads`, `readTag_reads`, `readDirective_reads`: the readers
  of single tokens are of this kind.
-/
import ContextAtlas.Yaml.Token
import Mathlib.Data.List.Infix
import Mathlib.Data.List.TakeWhile

namespace ContextAtlas.Yaml

/-! ## 1. What a step ends with -/

/-- A step ends with a result that has a property, or with a fault of some kind. -/
inductive Ends {α : Type} (F : Fault → Prop) (P : α → Prop) : Except Fault α → Prop where
  | ok {a : α} (h : P a) : Ends F P (.ok a)
  | error {f : Fault} (h : F f) : Ends F P (.error f)

section Ends

variable {α β : Type} {F G : Fault → Prop} {P : α → Prop} {Q : β → Prop} {x : Except Fault α}

theorem Ends.bind {k : α → Except Fault β} (hx : Ends F P x) (hk : ∀ a, P a → Ends F Q (k a)) :
    Ends F Q (x >>= k) := by
  cases hx with
  | ok h => exact hk _ h
  | error h => exact .error h

theorem Ends.map {g : α → β} (hx : Ends F P x) (hg : ∀ a, P a → Q (g a)) :
    Ends F Q (x.map g) := by
  cases hx with
  | ok h => exact .ok (hg _ h)
  | error h => exact .error h

theorem Ends.mono {R : α → Prop} (hx : Ends F P x) (hF : ∀ f, F f → G f) (hP : ∀ a, P a → R a) :
    Ends G R x := by
  cases hx with
  | ok h => exact .ok (hP _ h)
  | error h => exact .error (hF _ h)

theorem Ends.ite {p : Prop} [Decidable p] {y : Except Fault α} (hx : Ends F P x)
    (hy : Ends F P y) : Ends F P (if p then x else y) := by
  split
  · exact hx
  · exact hy

theorem Ends.fault {f : Fault} (hx : Ends F P x) (h : x = .error f) : F f := by
  subst h
  cases hx with
  | error h => exact h

end Ends

/-! ## 2. Faults of a text -/

/-- What is wrong with a text, with what shows it.  `escape` is an escape in a quoted scalar whose
code point is no character, `version` a number of a version with too many digits. -/
inductive ScanFault (text : List Char) : Fault → Prop where
  | malformed : ScanFault text .malformed
  | escape {letter : Char} {digits : List Char} {n : Nat} {f : Fault}
      (written : '\\' :: letter :: digits <:+: text)
      (width : escapeWidth? letter = some digits.length)
      (value : hexValue? digits = some n) (none : charOfCode n = .error f) : ScanFault text f
  | version {digits : List Char} (written : digits <:+: text)
      (decimal : ∀ d ∈ digits, d.isDigit = true) (long : maxDigits < digits.length) :
      ScanFault text .badValue

/-- The reader ends behind a part of the text, or with a fault of the text. -/
def Reads {α : Type} (text : List Char) (x : Except Fault (α × Cursor)) : Prop :=
  Ends (ScanFault text) (fun r => r.2.rest <:+ text) x

section Reads

variable {α β : Type} {text : List Char} {c : Cursor}

theorem Reads.ok {a : α} (h : c.rest <:+ text) : Reads text (.ok (a, c)) := Ends.ok h

theorem Reads.malformed : Reads text (.error .malformed : Except Fault (α × Cursor)) :=
  Ends.error .malformed

theorem Reads.bind {x : Except Fault (α × Cursor)} {k : α × Cursor → Except Fault (β × Cursor)}
    (hx : Reads text x) (hk : ∀ a c, c.rest <:+ text → Reads text (k (a, c))) :
    Reads text (x >>= k) :=
  Ends.bind hx fun r hr => hk r.1 r.2 hr

theorem Reads.map {x : Except Fault (α × Cursor)} {g : α → β} (hx : Reads text x) :
    Reads text (x.map fun r => (g r.1, r.2)) :=
  Ends.map hx fun _ hr => hr

/-! ## 3. Cursors -/

namespace Cursor

@[simp] theorem step_rest (c : Cursor) : c.step.rest = c.rest.tail := by
  unfold step
  split
  · next h => rw [h]; rfl
  · next x r h =>
    rw [h]
    split
    · rfl
    · split <;> rfl

@[simp] theorem forward_rest (c : Cursor) (n : Nat) : (c.forward n).rest = c.rest.drop n := by
  induction n generalizing c with
  | zero => rfl
  | succ n ih => rw [forward, ih, step_rest, List.drop_tail]

theorem step_suffix (h : c.rest <:+ text) : c.step.rest <:+ text := by
  rw [step_rest]
  exact (List.tail_suffix _).trans h

theorem forward_suffix (n : Nat) (h : c.rest <:+ text) : (c.forward n).rest <:+ text := by
  rw [forward_rest]
  exact (List.drop_suffix n _).trans h

theorem skip_suffix (p : Char → Bool) (h : c.rest <:+ text) : (c.skip p).rest <:+ text :=
  forward_suffix _ h

theorem skipComment_suffix (h : c.rest <:+ text) : c.skipComment.rest <:+ text := by
  unfold skipComment
  split
  · exact skip_suffix _ h
  · exact h

theorem lineBreak_suffix (h : c.rest <:+ text) : c.lineBreak.2.rest <:+ text := by
  unfold lineBreak
  split
  · split
    · exact forward_suffix 2 h
    · exact step_suffix h
  · split
    · exact step_suffix h
    · exact h

theorem skipLine_ends (h : c.rest <:+ text) :
    Ends (ScanFault text) (fun c => c.rest <:+ text) c.skipLine := by
  unfold skipLine
  dsimp only
  split
  · exact .ok (lineBreak_suffix (skipComment_suffix (skip_suffix _ h)))
  · exact .error .malformed

/-- Where something other than the end is seen, it is the next character. -/
theorem rest_eq_cons_of_here {x : Char} (h : c.here = x) (hx : x ≠ endMark) :
    c.rest = x :: c.step.rest := by
  rw [step_rest]
  cases hc : c.rest with
  | nil => simp [here, peek, hc] at h; exact absurd h.symm hx
  | cons y r => simp [here, peek, hc] at h; simp [h]

end Cursor

open Cursor

/-! ## 4. Quoted scalars -/

theorem quotedBreaks_reads (fuel : Nat) (h : c.rest <:+ text) :
    Reads text (quotedBreaks fuel c) := by
  induction fuel generalizing c with
  | zero => exact .malformed
  | succ fuel ih =>
    rw [quotedBreaks]
    split
    · exact .malformed
    · dsimp only
      have hskip : (c.skip fun x => x == ' ' || x == '\t').rest <:+ text := skip_suffix _ h
      split
      · exact (ih (lineBreak_suffix hskip)).bind fun _ _ hc => .ok hc
      · exact .ok hskip

theorem quotedGap_reads (h : c.rest <:+ text) : Reads text (quotedGap c) := by
  unfold quotedGap
  dsimp only
  have hskip : (c.skip fun x => x == ' ' || x == '\t').rest <:+ text := skip_suffix _ h
  split
  · exact .malformed
  · split
    · exact (quotedBreaks_reads _ (lineBreak_suffix hskip)).bind fun _ _ hc => .ok hc
    · exact .ok hskip

/-- An escape is at fault when its code point is no character; the text then holds the backslash,
the letter and the digits. -/
theorem quotedEscape_reads (h : '\\' :: c.rest <:+ text) : Reads text (quotedEscape c) := by
  have hrest : c.rest <:+ text := (List.suffix_cons _ _).trans h
  unfold quotedEscape
  split
  · exact .ok (step_suffix hrest)
  · next width _ hwidth =>
    dsimp only
    split
    · next n hn =>
      split
      · next hlength =>
        cases hcode : charOfCode n with
        | ok x => exact .ok (forward_suffix _ (step_suffix hrest))
        | error f =>
          have hend : c.here ≠ endMark := by
            intro hc
            rw [hc] at hwidth
            cases hwidth
          have hcons : c.rest = c.here :: c.step.rest := rest_eq_cons_of_here rfl hend
          have hstart : '\\' :: c.here :: c.step.next width <+: '\\' :: c.rest := by
            rw [hcons, List.prefix_cons_inj, List.prefix_cons_inj]
            exact List.take_prefix _ _
          exact .error
            (.escape (hstart.isInfix.trans h.isInfix) (by rw [hlength, hwidth]) hn hcode)
      · exact .malformed
    · exact .malformed
  · split
    · exact quotedBreaks_reads _ (lineBreak_suffix hrest)
    · exact .malformed

theorem quotedFrom_reads (double : Bool) (fuel : Nat) (h : c.rest <:+ text) :
    Reads text (quotedFrom double fuel c) := by
  induction fuel generalizing c with
  | zero => exact .malformed
  | succ fuel ih =>
    have hmore : ∀ (piece : List Char) (c : Cursor), c.rest <:+ text →
        Reads text (do let r ← quotedFrom double fuel c; .ok (piece ++ r.1, r.2)) := by
      intro piece c hc
      exact (ih hc).bind fun _ _ hc => .ok hc
    rw [quotedFrom]
    generalize (if double = true then '"' else '\'') = quote
    dsimp only
    split
    · exact (ih (forward_suffix 2 h)).bind fun _ _ hc => .ok hc
    · split
      · exact .ok (step_suffix h)
      · split
        · next hmark =>
          have hhere : c.here = '\\' := by
            rw [Bool.and_eq_true, beq_iff_eq] at hmark
            exact hmark.2
          have hcons : '\\' :: c.step.rest <:+ text := by
            rwa [← rest_eq_cons_of_here hhere (by decide)]
          exact (quotedEscape_reads hcons).bind fun _ _ hc => hmore _ _ hc
        · split
          · exact (quotedGap_reads h).bind fun _ _ hc => hmore _ _ hc
          · exact (Reads.ok (step_suffix h)).bind fun _ _ hc => hmore _ _ hc

theorem readQuoted_reads (h : c.rest <:+ text) : Reads text (readQuoted c) :=
  quotedFrom_reads _ _ (step_suffix h)

/-! ## 5. Plain scalars -/

theorem plainBreaks_suffix (fuel : Nat) (h : c.rest <:+ text) :
    (plainBreaks fuel c).2.rest <:+ text := by
  induction fuel generalizing c with
  | zero => exact h
  | succ fuel ih =>
    rw [plainBreaks]
    split
    · exact ih (step_suffix h)
    · split
      · dsimp only
        split
        · exact lineBreak_suffix h
        · exact ih (lineBreak_suffix h)
      · exact h

theorem plainGap_suffix (h : c.rest <:+ text) : (plainGap c).2.2.rest <:+ text := by
  have hskip : (c.skip (· == ' ')).rest <:+ text := skip_suffix _ h
  unfold plainGap
  dsimp only
  split
  · split
    · exact lineBreak_suffix hskip
    · exact plainBreaks_suffix _ (lineBreak_suffix hskip)
  · exact hskip

theorem plainFrom_suffix (inFlow : Bool) (indent fuel : Nat) (gap : List Char) (broken : Bool)
    (h : c.rest <:+ text) : (plainFrom inFlow indent fuel gap broken c).cursor.rest <:+ text := by
  induction fuel generalizing gap broken c with
  | zero => exact h
  | succ fuel ih =>
    rw [plainFrom]
    dsimp only
    split
    · exact h
    · have hgap := plainGap_suffix (forward_suffix (plainRun inFlow c.rest).length h)
      split
      · exact hgap
      · exact ih _ _ hgap

theorem readPlain_suffix (inFlow : Bool) (indent : Nat) (h : c.rest <:+ text) :
    (readPlain inFlow indent c).cursor.rest <:+ text :=
  plainFrom_suffix _ _ _ _ _ h

/-! ## 6. Block scalars -/

theorem readChomping_suffix (h : c.rest <:+ text) : (readChomping c).2.rest <:+ text := by
  unfold readChomping
  split
  · exact step_suffix h
  · split
    · exact step_suffix h
    · exact h

theorem readIncrement_reads (h : c.rest <:+ text) : Reads text (readIncrement c) := by
  unfold readIncrement
  split
  · exact .malformed
  · split
    · exact .ok (step_suffix h)
    · exact .ok h

theorem readBlockHeader_ends (h : c.rest <:+ text) :
    Ends (ScanFault text) (fun r => r.2.2.rest <:+ text) (readBlockHeader c) := by
  have hearly := readChomping_suffix h
  unfold readBlockHeader
  generalize readChomping c = early at hearly
  refine Ends.bind (readIncrement_reads hearly) fun ⟨increment, c⟩ hc => ?_
  have hlate : (if early.1.isNone && increment.isSome then readChomping c
      else (none, c)).2.rest <:+ text := by
    split
    · exact readChomping_suffix hc
    · exact hc
  dsimp only
  generalize (if early.1.isNone && increment.isSome then readChomping c else (none, c)) = late
    at hlate
  split
  · exact .ok hlate
  · exact .error .malformed

theorem blockIndentation_suffix (fuel deepest : Nat) (h : c.rest <:+ text) :
    (blockIndentation fuel deepest c).2.2.rest <:+ text := by
  induction fuel generalizing deepest c with
  | zero => exact h
  | succ fuel ih =>
    rw [blockIndentation]
    split
    · exact ih _ (step_suffix h)
    · split
      · exact ih _ (lineBreak_suffix h)
      · exact h

theorem blockBreaks_suffix (indent fuel : Nat) (h : c.rest <:+ text) :
    (blockBreaks indent fuel c).2.rest <:+ text := by
  induction fuel generalizing c with
  | zero => exact h
  | succ fuel ih =>
    have hblanks : (skipBlanks c (indent - c.column)).rest <:+ text := forward_suffix _ h
    rw [blockBreaks]
    dsimp only
    split
    · exact ih (lineBreak_suffix hblanks)
    · exact hblanks

theorem blockLines_suffix (folded : Bool) (indent fuel : Nat) (breaks : List Char)
    (h : c.rest <:+ text) : (blockLines folded indent fuel breaks c).2.2.2.rest <:+ text := by
  induction fuel generalizing breaks c with
  | zero => exact h
  | succ fuel ih =>
    rw [blockLines]
    split
    · dsimp only
      generalize hline : (c.forward (c.run (!isBreak ·)).length).lineBreak = line
      have hrest : line.2.rest <:+ text := by
        rw [← hline]
        exact lineBreak_suffix (forward_suffix _ h)
      have hbehind := blockBreaks_suffix indent (line.2.rest.length + 1) hrest
      generalize blockBreaks indent (line.2.rest.length + 1) line.2 = behind at hbehind
      split
      · exact ih behind.1 hbehind
      · exact hbehind
    · exact h

theorem readBlockScalar_reads (indent : Int) (h : c.rest <:+ text) :
    Reads text (readBlockScalar indent c) := by
  unfold readBlockScalar
  dsimp only
  refine Ends.bind (readBlockHeader_ends (step_suffix h)) fun ⟨_, increment, _⟩ hheader => ?_
  refine Ends.bind (skipLine_ends hheader) fun c hc => ?_
  cases increment with
  | none => exact .ok (blockLines_suffix _ _ _ _ (blockIndentation_suffix _ _ hc))
  | some n => exact .ok (blockLines_suffix _ _ _ _ (blockBreaks_suffix _ _ hc))

/-! ## 7. Names and tags -/

theorem readAnchorName_reads (h : c.rest <:+ text) : Reads text (readAnchorName c) := by
  unfold readAnchorName
  dsimp only
  split
  · exact .malformed
  · split
    · exact .ok (skip_suffix _ h)
    · exact .malformed

theorem escapedBytes_reads (fuel : Nat) (h : c.rest <:+ text) :
    Reads text (escapedBytes fuel c) := by
  induction fuel generalizing c with
  | zero => exact .malformed
  | succ fuel ih =>
    rw [escapedBytes]
    split
    · split
      · exact (ih (forward_suffix 3 h)).bind fun _ _ hc => .ok hc
      · exact .malformed
    · exact .ok h

theorem uriFrom_reads (fuel : Nat) (h : c.rest <:+ text) : Reads text (uriFrom fuel c) := by
  induction fuel generalizing c with
  | zero => exact .malformed
  | succ fuel ih =>
    rw [uriFrom]
    split
    · refine (escapedBytes_reads _ h).bind fun bytes c hc => ?_
      dsimp only
      split
      · exact (ih hc).bind fun _ _ hc => .ok hc
      · exact .malformed
    · split
      · exact (ih (step_suffix h)).bind fun _ _ hc => .ok hc
      · exact .ok h

theorem readUri_reads (h : c.rest <:+ text) : Reads text (readUri c) := by
  unfold readUri
  split
  · exact (uriFrom_reads _ h).bind fun _ _ hc => .ok hc
  · exact .malformed

theorem readHandle_reads (h : c.rest <:+ text) : Reads text (readHandle c) := by
  unfold readHandle
  split
  · exact .malformed
  · split
    · exact .ok (step_suffix h)
    · dsimp only
      split
      · exact .ok (forward_suffix _ h)
      · exact .malformed

theorem readTag_reads (h : c.rest <:+ text) : Reads text (readTag c) := by
  have hend : ∀ (t : Token) (c : Cursor), c.rest <:+ text →
      Reads text (if isSpaceOrEnd c.here = true then .ok (t, c) else .error .malformed) := by
    intro t c hc
    split
    · exact .ok hc
    · exact .malformed
  unfold readTag
  dsimp only
  split
  · refine (readUri_reads (forward_suffix 2 h)).bind fun uri c hc => ?_
    dsimp only
    split
    · exact hend _ _ (step_suffix hc)
    · exact .malformed
  · split
    · exact hend _ _ (step_suffix h)
    · split
      · refine (readHandle_reads h).bind fun handle c hc => ?_
        exact (readUri_reads hc).bind fun _ _ hc => hend _ _ hc
      · exact (readUri_reads (step_suffix h)).bind fun _ _ hc => hend _ _ hc

/-! ## 8. Directives -/

/-- The number of a version is at fault when it has too many digits; they stand in the text. -/
theorem readVersionNumber_reads (h : c.rest <:+ text) : Reads text (readVersionNumber c) := by
  unfold readVersionNumber
  dsimp only
  split
  · exact .malformed
  · split
    · next hlong =>
      have hstart : c.run Char.isDigit <+: c.rest := List.takeWhile_prefix _
      refine .error (.version (hstart.isInfix.trans h.isInfix) ?_ hlong)
      intro d hd
      exact List.mem_takeWhile_imp hd
    · exact .ok (skip_suffix _ h)

theorem readVersion_reads (h : c.rest <:+ text) : Reads text (readVersion c) := by
  unfold readVersion
  refine (readVersionNumber_reads (skip_suffix _ h)).bind fun major c hc => ?_
  dsimp only
  split
  · exact .malformed
  · refine (readVersionNumber_reads (step_suffix hc)).bind fun _ c hc => ?_
    dsimp only
    split
    · exact .ok hc
    · exact .malformed

theorem readHandleMeaning_reads (h : c.rest <:+ text) : Reads text (readHandleMeaning c) := by
  unfold readHandleMeaning
  refine (readHandle_reads (skip_suffix _ h)).bind fun handle c hc => ?_
  dsimp only
  split
  · exact .malformed
  · refine (readUri_reads (skip_suffix _ hc)).bind fun uri c hc => ?_
    dsimp only
    split
    · exact .ok hc
    · exact .malformed

theorem readDirective_reads (h : c.rest <:+ text) : Reads text (readDirective c) := by
  have hname : (c.step.skip isNameChar).rest <:+ text := skip_suffix _ (step_suffix h)
  have hend : ∀ (d : Directive) (c : Cursor), c.rest <:+ text →
      Reads text (do .ok (Token.directive d, ← c.skipLine)) := by
    intro d c hc
    exact Ends.bind (skipLine_ends hc) fun _ hc => .ok hc
  unfold readDirective
  dsimp only
  split
  · exact .malformed
  · split
    · exact (readVersion_reads hname).bind fun _ _ hc => hend _ _ hc
    · split
      · exact (readHandleMeaning_reads hname).bind fun _ _ hc => hend _ _ hc
      · have hother : Reads text
            (.ok (Directive.other, (c.step.skip isNameChar).skip (!isBreak ·))) :=
          .ok (skip_suffix _ hname)
        refine hother.bind ?_
        intro d c hc
        exact hend d c hc

end Reads

end ContextAtlas.Yaml
