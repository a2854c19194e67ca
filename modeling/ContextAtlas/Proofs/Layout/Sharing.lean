/-
# Documents that break lines alike

Two texts that hold the same lexemes, and break lines between the same ones, are read alike: blank
lines, indentation and the blanks inside a line never reach a model.

The numbers of lines of one text do not map to those of the other in an order-preserving way, since
either may leave numbers out that the other uses.  So both are compared with a third run of tokens,
whose lines are numbered without gaps.

* `SameLayout`: the same lexemes, and the same tokens share lines;
* `exists_move_numberedFrom`: tokens are their gap-free numbering at other places;
* `SameLayout.numberedFrom_eq`: tokens with the same layout have one gap-free numbering;
* `parse_eq_of_sameLayout`: so texts with the same layout have equal models and skip the same runs.
-/
import ContextAtlas.Proofs.Comment
import ContextAtlas.Proofs.Layout.Report
import Mathlib.Order.Monotone.Basic

namespace ContextAtlas

/-! ## 1. Numbering lines without gaps -/

/-- Two runs of tokens with the same lexemes, of which any two share a line in the one run just in
case they share a line in the other. -/
structure SameLayout (ts us : List Token) : Prop where
  lexemes : ts.map Token.lexeme = us.map Token.lexeme
  lines : ∀ x ∈ ts.zip us, ∀ y ∈ ts.zip us, x.1.line = y.1.line ↔ x.2.line = y.2.line

theorem SameLayout.tail {t u : Token} {ts us : List Token} (h : SameLayout (t :: ts) (u :: us)) :
    SameLayout ts us where
  lexemes := (List.cons.inj h.lexemes).2
  lines := fun x hx y hy =>
    h.lines x (List.mem_cons_of_mem _ hx) y (List.mem_cons_of_mem _ hy)

/-- A place that only tells a line. -/
def Position.ofLine (line : Nat) : Position := ⟨line, 0, 0⟩

/-- The tokens with lines numbered without gaps, behind a token on `line` that has `number`. -/
def numberedFrom (number line : Nat) : List Token → List Token
  | [] => []
  | t :: r =>
    if t.line = line then ⟨t.lexeme, .ofLine number⟩ :: numberedFrom number line r
    else ⟨t.lexeme, .ofLine (number + 1)⟩ :: numberedFrom (number + 1) t.line r

theorem le_line_of_mem_numberedFrom : ∀ (number line : Nat) (ts : List Token),
    ∀ t ∈ numberedFrom number line ts, number ≤ t.line
  | _, _, [], _, h => absurd h List.not_mem_nil
  | number, line, u :: r, t, h => by
    rw [numberedFrom] at h
    split at h
    · rcases List.mem_cons.mp h with rfl | h
      · exact Nat.le_refl number
      · exact le_line_of_mem_numberedFrom number line r t h
    · rcases List.mem_cons.mp h with rfl | h
      · exact Nat.le_succ number
      · exact Nat.le_of_succ_le (le_line_of_mem_numberedFrom (number + 1) u.line r t h)

/-- The values of `f` above `number`, continued downwards from `line` at `number`. -/
def continuedBelow (number line : Nat) (f : Nat → Nat) (n : Nat) : Nat :=
  if n ≤ number then line - (number - n) else f n

theorem strictMono_continuedBelow {number line : Nat} {f : Nat → Nat} (hn : number ≤ line)
    (hf : StrictMono f) (hl : line < f (number + 1)) :
    StrictMono (continuedBelow number line f) := by
  intro a b hab
  unfold continuedBelow
  by_cases hb : b ≤ number
  · rw [if_pos hb, if_pos (by omega)]
    omega
  · have hfb : f (number + 1) ≤ f b := hf.monotone (by omega)
    rw [if_neg hb]
    by_cases ha : a ≤ number
    · rw [if_pos ha]
      omega
    · rw [if_neg ha]
      exact hf hab

/-- **Tokens in the order of their lines are their gap-free numbering, spread out again by a
strictly increasing map of lines.** -/
theorem exists_move_numberedFrom : ∀ {number line : Nat} {ts : List Token}, number ≤ line →
    (∀ t ∈ ts, line ≤ t.line) → (ts.Pairwise fun t u => t.line ≤ u.line) →
    ∃ f : Nat → Nat, StrictMono f ∧ f number = line ∧
      (numberedFrom number line ts).map (Token.moved fun p => .ofLine (f p.line))
        = ts.map (Token.moved fun p => .ofLine p.line)
  | number, line, [], hn, _, _ => by
    refine ⟨fun n => n + (line - number), fun a b hab => by simpa using hab, ?_, rfl⟩
    simp only
    omega
  | number, line, t :: r, hn, hlines, hsorted => by
    have ⟨hhead, htail⟩ := List.pairwise_cons.mp hsorted
    by_cases ht : t.line = line
    · have hr : ∀ u ∈ r, line ≤ u.line := fun u hu => hlines u (List.mem_cons_of_mem _ hu)
      obtain ⟨f, hf, hline, hmap⟩ := exists_move_numberedFrom hn hr htail
      refine ⟨f, hf, hline, ?_⟩
      rw [numberedFrom, if_pos ht, List.map_cons, List.map_cons, hmap]
      have hhere : f number = t.line := hline.trans ht.symm
      exact congrArg (· :: _) (congrArg (Token.mk t.lexeme) (congrArg Position.ofLine hhere))
    · have hlt : line < t.line :=
        Nat.lt_of_le_of_ne (hlines t List.mem_cons_self) (Ne.symm ht)
      have hn' : number + 1 ≤ t.line := by omega
      obtain ⟨f, hf, hline, hmap⟩ := exists_move_numberedFrom hn' hhead htail
      refine ⟨continuedBelow number line f,
        strictMono_continuedBelow hn hf (hline ▸ hlt), ?_, ?_⟩
      · simp [continuedBelow]
      -- The numbers behind a new line are above `number`, where nothing was changed.
      have habove : ∀ n, number + 1 ≤ n → continuedBelow number line f n = f n :=
        fun n h => if_neg (by omega)
      rw [numberedFrom, if_neg ht, List.map_cons, List.map_cons, ← hmap]
      have hhere : continuedBelow number line f (number + 1) = t.line :=
        (habove _ (Nat.le_refl _)).trans hline
      refine congrArg₂ List.cons
        (congrArg (Token.mk t.lexeme) (congrArg Position.ofLine hhere))
        (List.map_congr_left fun u hu => ?_)
      have hu' := habove u.line (le_line_of_mem_numberedFrom _ _ _ u hu)
      exact congrArg (Token.mk u.lexeme) (congrArg Position.ofLine hu')

/-- **Tokens with the same layout have one gap-free numbering, since each starts a new line in the
one run just in case it does in the other.** -/
theorem SameLayout.numberedFrom_eq : ∀ {number line line' : Nat} {ts us : List Token},
    SameLayout ts us → (∀ x ∈ ts.zip us, x.1.line = line ↔ x.2.line = line') →
    numberedFrom number line ts = numberedFrom number line' us
  | _, _, _, [], [], _, _ => rfl
  | _, _, _, [], u :: us, h, _ => absurd h.lexemes (by simp)
  | _, _, _, t :: ts, [], h, _ => absurd h.lexemes (by simp)
  | number, line, line', t :: ts, u :: us, h, hfirst => by
    have hlexeme : t.lexeme = u.lexeme := (List.cons.inj h.lexemes).1
    have hhead : t.line = line ↔ u.line = line' := hfirst (t, u) List.mem_cons_self
    rw [numberedFrom, numberedFrom, hlexeme]
    by_cases ht : t.line = line
    · rw [if_pos ht, if_pos (hhead.mp ht)]
      exact congrArg _ (h.tail.numberedFrom_eq fun x hx => hfirst x (List.mem_cons_of_mem _ hx))
    · rw [if_neg ht, if_neg (mt hhead.mpr ht)]
      exact congrArg _ (h.tail.numberedFrom_eq fun x hx =>
        h.lines x (List.mem_cons_of_mem _ hx) (t, u) List.mem_cons_self)

/-! ## 2. Texts -/

/-- A text is read like its tokens with lines numbered without gaps. -/
theorem Report.ofTokens_numberedFrom (text : List Char) :
    (ofTokens (lex text)).model = (ofTokens (numberedFrom 0 0 (lex text))).model
      ∧ (ofTokens (lex text)).notes.map Note.unplaced
        = (ofTokens (numberedFrom 0 0 (lex text))).notes.map Note.unplaced := by
  have hsorted : (lex text).Pairwise fun t u => t.line ≤ u.line :=
    (pairwise_before_lexFrom .start text).imp Position.Before.line_le
  obtain ⟨f, hf, -, hmap⟩ := exists_move_numberedFrom (Nat.le_refl 0)
    (fun t _ => Nat.zero_le t.line) hsorted
  have hspread : KeepsLines fun p => .ofLine (f p.line) := fun p q => hf.le_iff_le
  have hflat : KeepsLines fun p => .ofLine p.line := fun p q => Iff.rfl
  have ⟨hm1, hn1⟩ := ofTokens_moved hspread (numberedFrom 0 0 (lex text))
  have ⟨hm2, hn2⟩ := ofTokens_moved hflat (lex text)
  rw [hmap] at hm1 hn1
  exact ⟨hm2.symm.trans hm1, hn2.symm.trans hn1⟩

/-- What a report says about skipped runs, but not where they are. -/
theorem Report.unplaced_skipped {r r' : Report}
    (h : r.notes.map Note.unplaced = r'.notes.map Note.unplaced) :
    r.skipped.map Skipped.unplaced = r'.skipped.map Skipped.unplaced := by
  have hskipped : ∀ notes : List Note, (notes.filterMap Note.skipped?).map Skipped.unplaced
      = (notes.map Note.unplaced).filterMap Note.skipped? := by
    intro notes
    rw [List.map_filterMap, List.filterMap_map]
    exact List.filterMap_congr fun n _ => by cases n <;> rfl
  rw [skipped, skipped, hskipped, hskipped, h]

/-- **Layout means nothing but lines.**  The model of a text, and the reasons and fragments of what
it skips, depend on nothing but its lexemes and on which of them share a line. -/
theorem parse_eq_of_sameLayout {s t : String} (hs : Uncommented s.toList)
    (ht : Uncommented t.toList) (h : SameLayout (lex s.toList) (lex t.toList)) :
    Model.parse s false = Model.parse t false ∧
      (Report.ofText s).skipped.map (fun e => (e.reason, e.fragment))
        = (Report.ofText t).skipped.map (fun e => (e.reason, e.fragment)) := by
  -- Lines count from one, so the first token starts a new line behind line zero in both.
  have hfirst : ∀ x ∈ (lex s.toList).zip (lex t.toList), x.1.line = 0 ↔ x.2.line = 0 := by
    intro x hx
    have h1 := one_le_line_of_mem_lex (List.of_mem_zip hx).1
    have h2 := one_le_line_of_mem_lex (List.of_mem_zip hx).2
    omega
  have hnumbered : numberedFrom 0 0 (lex s.toList) = numberedFrom 0 0 (lex t.toList) :=
    h.numberedFrom_eq hfirst
  have ⟨hm1, hn1⟩ := Report.ofTokens_numberedFrom s.toList
  have ⟨hm2, hn2⟩ := Report.ofTokens_numberedFrom t.toList
  rw [← hnumbered] at hm2 hn2
  have hmodel : (Report.ofText s).model = (Report.ofText t).model := by
    rw [Report.ofText, Report.ofText, stripComments_eq_self hs, stripComments_eq_self ht]
    exact hm1.trans hm2.symm
  have hskipped : (Report.ofText s).skipped.map Skipped.unplaced
      = (Report.ofText t).skipped.map Skipped.unplaced := by
    rw [Report.ofText, Report.ofText, stripComments_eq_self hs, stripComments_eq_self ht]
    exact Report.unplaced_skipped (hn1.trans hn2.symm)
  refine ⟨?_, ?_⟩
  · unfold Model.parse
    simp only [hmodel]
  · have hread := congrArg (List.map fun e : Skipped => (e.reason, e.fragment)) hskipped
    rwa [List.map_map, List.map_map] at hread

/-- Two spellings of one document, the second with blank lines and other indentation.  The
last block is left open. -/
theorem parse_eq_of_respaced :
    Model.parse "BoundedContext Shop \x7b\ntype = FEATURE\n\x7d Domain Sale \x7b" false
        = Model.parse "\n  BoundedContext\tShop \x7b\n\n   type=FEATURE\n\x7d  Domain Sale\x7b" false ∧
      (Report.ofText "BoundedContext Shop \x7b\ntype = FEATURE\n\x7d Domain Sale \x7b").skipped.map
          (fun e => (e.reason, e.fragment))
        = (Report.ofText
            "\n  BoundedContext\tShop \x7b\n\n   type=FEATURE\n\x7d  Domain Sale\x7b").skipped.map
          (fun e => (e.reason, e.fragment)) :=
  parse_eq_of_sameLayout (uncommented_of_not_mem (by decide)) (uncommented_of_not_mem (by decide))
    ⟨by decide +kernel, by decide +kernel⟩

end ContextAtlas
