/-
# Written transitions are read

A transition stands between brackets: its sources, an arrow, its targets.  Sources have commas
between them.  Targets have commas between them too, or markers, which make them exclude each other.

* `splitNames_piece`, `splitNames_of_forall`: what stands in front of a separator, or in front of
  the end, is one name;
* `StateTransition.read?_bracket`: the first bracket is read if there is one arrow in it;
* `Source.Transition`: a written transition, its lexemes, and the transition that is meant;
* `StateTransition.read?_written`: a written transition is read as the one that is meant.

A target that is called like a marker would be taken for one, so a written transition has none.
-/
import ContextAtlas.Member.Operation
import Mathlib.Data.List.TakeWhile

namespace ContextAtlas

namespace StateTransition

/-! ## 1. Names -/

section

variable {isSeparator : Token → Bool} {piece : List Token} {t : Token}

theorem splitNames_of_forall (hpiece : ∀ u ∈ piece, isSeparator u = false) (hne : piece ≠ []) :
    splitNames isSeparator piece = [String.join (piece.map Token.value)] := by
  rw [splitNames, List.splitOnP_eq_singleton hpiece, List.filter_cons_of_pos (by simpa using hne)]
  rfl

theorem splitNames_piece (hpiece : ∀ u ∈ piece, isSeparator u = false) (hne : piece ≠ [])
    (ht : isSeparator t = true) (r : List Token) :
    splitNames isSeparator (piece ++ t :: r)
      = String.join (piece.map Token.value) :: splitNames isSeparator r := by
  rw [splitNames, List.splitOnP_append_cons_of_forall_mem hpiece t ht,
    List.filter_cons_of_pos (by simpa using hne)]
  rfl

end

/-! ## 2. Brackets -/

/-- **The first bracket is read as what stands around its only arrow.** -/
theorem read?_bracket {front left right : List Token} {opening arrow closing : Token}
    (hfront : ∀ t ∈ front, t.is .openBracket = false) (hopening : opening.is .openBracket = true)
    (hleft : ∀ t ∈ left, t.is .arrow = false) (harrow : arrow.is .arrow = true)
    (hright : ∀ t ∈ right, t.is .arrow = false)
    (hinner : ∀ t ∈ left ++ arrow :: right, t.is .closeBracket = false)
    (hclosing : closing.is .closeBracket = true) (behind : List Token) :
    read? (front ++ opening :: (left ++ arrow :: right ++ closing :: behind))
      = some (ofSides left right) := by
  have hopen := span_until hfront hopening (left ++ arrow :: right ++ closing :: behind)
  have hclose := span_until hinner hclosing behind
  have hsides := span_until hleft harrow right
  have hone : (left ++ arrow :: right).filter (·.is .arrow) = [arrow] := by
    have hnone : ∀ {side : List Token}, (∀ t ∈ side, t.is .arrow = false) →
        side.filter (·.is .arrow) = [] := fun hside =>
      List.filter_eq_nil_iff.mpr (by simpa using hside)
    simp [hnone hleft, hnone hright, harrow]
  have hlength : ¬ (left ++ arrow :: right).length
      = (left ++ arrow :: right ++ closing :: behind).length := by
    simp only [List.length_append, List.length_cons]
    omega
  simp only [read?, hopen.2, hclose.1, if_neg hlength, hone, hsides.1, hsides.2,
    List.length_singleton, if_true, List.drop_one, List.tail_cons]

theorem read?_eq_none_of_no_bracket {ts : List Token} (h : ∀ t ∈ ts, t.is .openBracket = false) :
    read? ts = none := by
  have hnone : ts.dropWhile (!·.is .openBracket) = [] := by
    rw [List.dropWhile_eq_nil_iff]
    simpa using h
  rw [read?, hnone]

end StateTransition

namespace Source

/-! ## 3. Written transitions -/

/-- A word, and more words with something in front of each. -/
def wordRun (first : String) (others : List (Lexeme × String)) : List Lexeme :=
  .word first :: others.flatMap fun o => [o.1, .word o.2]

/-- What may stand between two targets: a comma, or a marker in either case. -/
inductive Separator where
  | comma
  | upper
  | lower

/-- How a separator is written. -/
def Separator.lexeme : Separator → Lexeme
  | comma => .mark .comma
  | upper => .word "X"
  | lower => .word "x"

/-- Whether a separator is a marker. -/
def Separator.isMarker : Separator → Bool
  | comma => false
  | upper | lower => true

/-- A transition as it is written.  There are commas between all targets, or markers between all,
and no target is called like a marker. -/
structure Transition where
  sources : List String
  target : String
  others : List (Separator × String)
  isExclusive : Bool
  uniform : ∀ o ∈ others, o.1.isMarker = isExclusive
  others_ne : isExclusive = true → others ≠ []
  not_marker : ∀ w ∈ target :: others.map (·.2), w ∉ ["X", "x"]

namespace Transition

/-- How the sources are written. -/
def sourceLexemes (s : Transition) : List Lexeme :=
  match s.sources with
  | [] => []
  | w :: ws => wordRun w (ws.map fun v => (.mark .comma, v))

/-- How the targets are written. -/
def targetLexemes (s : Transition) : List Lexeme :=
  wordRun s.target (s.others.map fun o => (o.1.lexeme, o.2))

/-- How a transition is written. -/
def lexemes (s : Transition) : List Lexeme :=
  .mark .openBracket
    :: (s.sourceLexemes ++ .mark .arrow :: s.targetLexemes ++ [.mark .closeBracket])

/-- The transition that is meant. -/
def meaning (s : Transition) : StateTransition where
  sources := if s.sources = [] then none else some s.sources
  targets := s.target :: s.others.map (·.2)
  isExclusive := s.isExclusive

end Transition

theorem mem_wordRun {first : String} {others : List (Lexeme × String)} {x : Lexeme}
    (h : x ∈ wordRun first others) :
    (∃ w ∈ first :: others.map (·.2), x = .word w) ∨ ∃ o ∈ others, x = o.1 := by
  rw [wordRun, List.mem_cons, List.mem_flatMap] at h
  rcases h with rfl | ⟨o, ho, hx⟩
  · exact .inl ⟨first, List.mem_cons_self, rfl⟩
  · simp only [List.mem_cons, List.not_mem_nil, or_false] at hx
    rcases hx with rfl | rfl
    · exact .inr ⟨o, ho, rfl⟩
    · exact .inl ⟨o.2, List.mem_cons_of_mem _ (List.mem_map_of_mem ho), rfl⟩

/-- The states of a transition are written with words and commas. -/
theorem Transition.mem_side {s : Transition} {x : Lexeme}
    (h : x ∈ s.sourceLexemes ∨ x ∈ s.targetLexemes) : (∃ w, x = .word w) ∨ x = .mark .comma := by
  rcases h with h | h
  · unfold sourceLexemes at h
    split at h
    · cases h
    · rcases mem_wordRun h with ⟨w, -, rfl⟩ | ⟨o, ho, rfl⟩
      · exact .inl ⟨w, rfl⟩
      · obtain ⟨v, -, rfl⟩ := List.mem_map.mp ho
        exact .inr rfl
  · rcases mem_wordRun h with ⟨w, -, rfl⟩ | ⟨o, ho, rfl⟩
    · exact .inl ⟨w, rfl⟩
    · obtain ⟨⟨separator, v⟩, -, rfl⟩ := List.mem_map.mp ho
      cases separator with
      | comma => exact .inr rfl
      | upper => exact .inl ⟨"X", rfl⟩
      | lower => exact .inl ⟨"x", rfl⟩

/-- A transition is written with words, commas, brackets and an arrow. -/
theorem Transition.not_is_of_mem {s : Transition} {t : Token} {m : Mark} (h : t.lexeme ∈ s.lexemes)
    (hm : m ∉ [Mark.openBracket, .comma, .arrow, .closeBracket]) : t.is m = false := by
  have hside : t.lexeme ∈ s.sourceLexemes ∨ t.lexeme ∈ s.targetLexemes → t.is m = false := by
    intro hmem
    rcases mem_side hmem with ⟨w, hw⟩ | hcomma
    · simp [Token.is, hw]
    · have hne : Mark.comma ≠ m := fun h => hm (by simp [← h])
      simp [Token.is, hcomma, hne]
  have hmark : ∀ {m' : Mark}, m' ∈ [Mark.openBracket, .comma, .arrow, .closeBracket] →
      t.lexeme = .mark m' → t.is m = false := by
    intro m' hm' ht
    have hne : m' ≠ m := fun h => hm (h ▸ hm')
    simp [Token.is, ht, hne]
  simp only [lexemes, List.mem_cons, List.mem_append, List.not_mem_nil, or_false] at h
  rcases h with h | (h | h | h) | h
  · exact hmark (by decide) h
  · exact hside (.inl h)
  · exact hmark (by decide) h
  · exact hside (.inr h)
  · exact hmark (by decide) h

end Source

namespace StateTransition

open Source

/-! ## 4. Written transitions are read -/

/-- A run of words with separators between them is split into the words. -/
theorem splitNames_wordRun {isSeparator : Token → Bool} {first : String}
    {others : List (Lexeme × String)} {run : List Token}
    (h : run.map Token.lexeme = wordRun first others)
    (hword : ∀ t : Token, ∀ w ∈ first :: others.map (·.2), t.lexeme = .word w →
      isSeparator t = false)
    (hseparator : ∀ t : Token, ∀ o ∈ others, t.lexeme = o.1 → isSeparator t = true) :
    splitNames isSeparator run = first :: others.map (·.2) := by
  induction others generalizing first run with
  | nil =>
    obtain ⟨t, rfl, ht⟩ := List.map_eq_singleton_iff.mp h
    rw [splitNames_of_forall (by simpa using hword t first (by simp) ht) (by simp)]
    simp [Token.value, ht, Lexeme.value]
  | cons o others ih =>
    obtain ⟨t, run, rfl, ht, hrun⟩ := List.map_eq_cons_iff.mp h
    obtain ⟨u, run, rfl, hu, hrun⟩ := List.map_eq_cons_iff.mp hrun
    have hnext : splitNames isSeparator run = o.2 :: others.map (·.2) := ih hrun
      (fun v w hw => hword v w (List.mem_cons_of_mem _ hw))
      (fun v o' ho' => hseparator v o' (List.mem_cons_of_mem _ ho'))
    have hone : ∀ v ∈ [t], isSeparator v = false := by simpa using hword t first (by simp) ht
    have hpiece := splitNames_piece hone (by simp) (hseparator u o List.mem_cons_self hu) run
    rw [List.singleton_append] at hpiece
    rw [hpiece, hnext]
    simp [Token.value, ht, Lexeme.value]

section

variable {s : Source.Transition} {left right : List Token}

theorem splitNames_sources (h : left.map Token.lexeme = s.sourceLexemes) :
    splitNames (·.is .comma) left = s.sources := by
  unfold Transition.sourceLexemes at h
  split at h
  · next hnil =>
    rw [List.map_eq_nil_iff.mp h, hnil]
    rfl
  · next w ws hcons =>
    rw [splitNames_wordRun h (fun t v _ ht => by simp [Token.is, ht]), hcons]
    · rw [List.map_map]
      exact congrArg (w :: ·) (List.map_id ws)
    · intro t o ho ht
      obtain ⟨v, -, rfl⟩ := List.mem_map.mp ho
      simp [Token.is, ht]

theorem isExclusiveMarker_of_word {t : Token} {w : String} (ht : t.lexeme = .word w)
    (hw : w ∉ ["X", "x"]) : isExclusiveMarker t = false := by
  simp only [List.mem_cons, List.not_mem_nil, or_false, not_or] at hw
  simp [isExclusiveMarker, Token.isWord, ht, hw]

theorem isExclusiveMarker_of_separator {t : Token} {separator : Separator}
    (ht : t.lexeme = separator.lexeme) : isExclusiveMarker t = separator.isMarker := by
  cases separator <;>
    simp [isExclusiveMarker, Token.isWord, ht, Separator.lexeme, Separator.isMarker]

theorem any_targets (h : right.map Token.lexeme = s.targetLexemes) :
    right.any isExclusiveMarker = s.isExclusive := by
  have hlexemes : ∀ t ∈ right, t.lexeme ∈ s.targetLexemes := fun t ht =>
    h ▸ List.mem_map_of_mem ht
  cases hexclusive : s.isExclusive with
  | true =>
    obtain ⟨o, others, hothers⟩ := List.exists_cons_of_ne_nil (s.others_ne hexclusive)
    have ho : o ∈ s.others := hothers ▸ List.mem_cons_self
    have hmem : o.1.lexeme ∈ right.map Token.lexeme := by
      rw [h, Transition.targetLexemes, wordRun, hothers]
      simp
    obtain ⟨t, ht, hlexeme⟩ := List.mem_map.mp hmem
    refine List.any_eq_true.mpr ⟨t, ht, ?_⟩
    rw [isExclusiveMarker_of_separator hlexeme, s.uniform o ho, hexclusive]
  | false =>
    refine List.any_eq_false.mpr fun t ht => ?_
    rw [Bool.not_eq_true]
    rcases mem_wordRun (hlexemes t ht) with ⟨w, hw, hlexeme⟩ | ⟨o', ho', hlexeme⟩
    · exact isExclusiveMarker_of_word hlexeme (s.not_marker w (by simpa using hw))
    · obtain ⟨o, ho, rfl⟩ := List.mem_map.mp ho'
      rw [isExclusiveMarker_of_separator hlexeme, s.uniform o ho, hexclusive]

theorem splitNames_targets (h : right.map Token.lexeme = s.targetLexemes) :
    splitNames (if s.isExclusive then isExclusiveMarker else (·.is .comma)) right
      = s.target :: s.others.map (·.2) := by
  have hwords : (s.others.map fun o => (o.1.lexeme, o.2)).map (·.2) = s.others.map (·.2) := by simp
  rw [splitNames_wordRun h, hwords]
  · intro t w hw ht
    rw [hwords] at hw
    split
    · exact isExclusiveMarker_of_word ht (s.not_marker w hw)
    · simp [Token.is, ht]
  · intro t o' ho' ht
    obtain ⟨o, ho, rfl⟩ := List.mem_map.mp ho'
    have hmarker := s.uniform o ho
    split
    · next hexclusive => rw [isExclusiveMarker_of_separator ht, hmarker, hexclusive]
    · next hexclusive =>
      rw [Bool.eq_false_iff.mpr hexclusive] at hmarker
      rcases o with ⟨_ | _ | _, v⟩
      · simp [Token.is, ht, Separator.lexeme]
      · cases hmarker
      · cases hmarker

theorem ofSides_written (hleft : left.map Token.lexeme = s.sourceLexemes)
    (hright : right.map Token.lexeme = s.targetLexemes) : ofSides left right = s.meaning := by
  rw [ofSides, any_targets hright, splitNames_targets hright, splitNames_sources hleft]
  simp [Transition.meaning, List.isEmpty_iff]

end

/-- **A written transition is read, if no bracket stands in front of it.** -/
theorem read?_written (s : Source.Transition) {front run : List Token}
    (hfront : ∀ t ∈ front, t.is .openBracket = false) (h : run.map Token.lexeme = s.lexemes) :
    read? (front ++ run) = some s.meaning := by
  obtain ⟨opening, inner, rfl, hopening, hinner⟩ := List.map_eq_cons_iff.mp h
  obtain ⟨sides, last, rfl, hsides, hlast⟩ := List.map_eq_append_iff.mp hinner
  obtain ⟨left, right, rfl, hleft, hright⟩ := List.map_eq_append_iff.mp hsides
  obtain ⟨arrow, right, rfl, harrow, hright⟩ := List.map_eq_cons_iff.mp hright
  obtain ⟨closing, rfl, hclosing⟩ := List.map_eq_singleton_iff.mp hlast
  have hside : ∀ t ∈ left ++ right, t.is .arrow = false ∧ t.is .closeBracket = false := by
    intro t ht
    have hmem : t.lexeme ∈ s.sourceLexemes ∨ t.lexeme ∈ s.targetLexemes := by
      rw [← hleft, ← hright]
      exact (List.mem_append.mp ht).imp List.mem_map_of_mem List.mem_map_of_mem
    rcases Transition.mem_side hmem with ⟨w, hw⟩ | hcomma
    · simp [Token.is, hw]
    · simp [Token.is, hcomma]
  have hclose : ∀ t ∈ left ++ arrow :: right, t.is .closeBracket = false := by
    intro t ht
    rcases List.mem_append.mp ht with ht | ht
    · exact (hside t (List.mem_append_left _ ht)).2
    · rcases List.mem_cons.mp ht with rfl | ht
      · simp [Token.is, harrow]
      · exact (hside t (List.mem_append_right _ ht)).2
  rw [← ofSides_written hleft hright]
  exact read?_bracket hfront (by simp [Token.is, hopening])
    (fun t ht => (hside t (List.mem_append_left _ ht)).1) (by simp [Token.is, harrow])
    (fun t ht => (hside t (List.mem_append_right _ ht)).1) hclose (by simp [Token.is, hclosing]) []

end StateTransition

end ContextAtlas
