/-
# The states of a transition

Between the brackets of a transition stand states on both sides of an arrow.  A state is a run of
tokens, whatever they are, that is not broken by a comma, an arrow, a bracket or a marker.  Any
number of commas stands between the sources, and any number of commas or of markers between the
targets; there may be more of them at both ends of a side.

* `IsState`, `stateName`: a run that is one state, and its name;
* `Separated`: states with separators between and around them;
* `splitNames_separated`: they are split into their names, none lost and none added;
* `TransitionIn`: a bracket with states on both sides of its arrow, and the transition it means;
* `NoTransition`: the three ways in which a run holds no transition;
* `StateTransition.read?_states`: the transition in a bracket is read, and nothing is read exactly
  where there is none.
-/
import ContextAtlas.Proofs.Operation.Transition
import ContextAtlas.Token.Lexer

namespace ContextAtlas.StateTransition

/-! ## 1. States and separators -/

/-- A run that is one state. -/
structure IsState (state : List Token) : Prop where
  ne_nil : state ≠ []
  not_mark : ∀ t ∈ state, ∀ m ∈ [Mark.comma, .arrow, .openBracket, .closeBracket], t.is m = false
  not_marker : ∀ t ∈ state, isExclusiveMarker t = false

/-- The name of a state: the values of its tokens, run together. -/
def stateName (state : List Token) : String := String.join (state.map Token.value)

/-- What separates states: commas, or markers. -/
inductive Separates : (Token → Bool) → Prop
  | comma : Separates (·.is .comma)
  | marker : Separates isExclusiveMarker

/-- States with at least one separator between any two, and with any number in front and behind. -/
inductive Separated (isSeparator : Token → Bool) : List (List Token) → List Token → Prop
  | nil : Separated isSeparator [] []
  | separator {t : Token} {r : List Token} {states : List (List Token)}
      (ht : isSeparator t = true) (h : Separated isSeparator states r) :
      Separated isSeparator states (t :: r)
  | last {state : List Token} (hstate : IsState state) : Separated isSeparator [state] state
  | state {state r : List Token} {t : Token} {states : List (List Token)}
      (hstate : IsState state) (ht : isSeparator t = true) (h : Separated isSeparator states r) :
      Separated isSeparator (state :: states) (state ++ t :: r)

section

variable {isSeparator : Token → Bool} {states : List (List Token)} {state run : List Token}
  {t : Token}

theorem isExclusiveMarker_of_is {m : Mark} (ht : t.is m = true) : isExclusiveMarker t = false := by
  simp [isExclusiveMarker, Token.isWord, Token.lexeme_of_is ht]

theorem not_is_of_isExclusiveMarker (ht : isExclusiveMarker t = true) (m : Mark) :
    t.is m = false := by
  rw [← Bool.not_eq_true]
  intro hm
  rw [isExclusiveMarker_of_is hm] at ht
  cases ht

/-- No token of a state is a separator. -/
theorem IsState.not_separator (h : IsState state) (hs : Separates isSeparator) :
    ∀ t ∈ state, isSeparator t = false := by
  intro t ht
  cases hs with
  | comma => exact h.not_mark t ht .comma (by decide)
  | marker => exact h.not_marker t ht

/-- Separators stand for themselves: they are split away, however many there are. -/
theorem splitNames_separator (ht : isSeparator t = true) (r : List Token) :
    splitNames isSeparator (t :: r) = splitNames isSeparator r := by
  rw [splitNames, List.splitOnP_cons_eq_if_modifyHead, if_pos ht, splitNames]
  rfl

/-- **Separated states are split into their names.** -/
theorem splitNames_separated (hs : Separates isSeparator) (h : Separated isSeparator states run) :
    splitNames isSeparator run = states.map stateName := by
  induction h with
  | nil => rfl
  | separator ht _ ih => rw [splitNames_separator ht, ih]
  | last hstate => exact splitNames_of_forall (hstate.not_separator hs) hstate.ne_nil
  | state hstate ht _ ih =>
    rw [splitNames_piece (hstate.not_separator hs) hstate.ne_nil ht, ih]
    rfl

/-- A token between separated states is a separator, or belongs to a state. -/
theorem Separated.forall {p : Token → Prop} (h : Separated isSeparator states run)
    (hstate : ∀ state, IsState state → ∀ t ∈ state, p t)
    (hseparator : ∀ t, isSeparator t = true → p t) :
    ∀ t ∈ run, p t := by
  induction h with
  | nil => simp
  | separator ht _ ih => exact List.forall_mem_cons.mpr ⟨hseparator _ ht, ih⟩
  | last hs => exact hstate _ hs
  | state hs ht _ ih =>
    exact List.forall_mem_append.mpr
      ⟨hstate _ hs, List.forall_mem_cons.mpr ⟨hseparator _ ht, ih⟩⟩

/-- Separated states hold no mark but commas. -/
theorem Separated.not_is (hs : Separates isSeparator) (h : Separated isSeparator states run)
    {m : Mark} (hm : m ∈ [Mark.arrow, .openBracket, .closeBracket]) :
    ∀ t ∈ run, t.is m = false := by
  refine h.forall (fun state hstate t ht => ?_) fun t ht => ?_
  · exact hstate.not_mark t ht m (List.mem_cons_of_mem _ hm)
  · cases hs with
    | comma => exact not_is_of_is ht (by rintro rfl; simp at hm)
    | marker => exact not_is_of_isExclusiveMarker ht m

/-- Where no separator occurs, it does not matter what would be one. -/
theorem Separated.of_forall {isSeparator' : Token → Bool} (h : Separated isSeparator states run)
    (hrun : ∀ t ∈ run, isSeparator t = false) : Separated isSeparator' states run := by
  cases h with
  | nil => exact .nil
  | separator ht _ => simp [hrun _ List.mem_cons_self] at ht
  | last hstate => exact .last hstate
  | state hstate ht _ => simp [hrun _ (List.mem_append_right _ List.mem_cons_self)] at ht

/-- The targets are split at what separates them. -/
theorem splitNames_targets_separated (hs : Separates isSeparator)
    (h : Separated isSeparator states run) :
    splitNames (if run.any isExclusiveMarker then isExclusiveMarker else (·.is .comma)) run
      = states.map stateName := by
  cases hs with
  | comma =>
    have hnone : run.any isExclusiveMarker = false := by
      rw [List.any_eq_false]
      intro t ht
      rw [Bool.not_eq_true]
      exact h.forall (fun _ hstate => hstate.not_marker) (fun _ => isExclusiveMarker_of_is) t ht
    rw [hnone]
    exact splitNames_separated .comma h
  | marker =>
    cases hany : run.any isExclusiveMarker with
    | true => exact splitNames_separated .marker h
    | false => exact splitNames_separated .comma (h.of_forall (by simpa using hany))

end

/-! ## 2. Brackets with a transition -/

/-- A run that holds a transition: the first bracket in it has states on both sides of an arrow. -/
structure TransitionIn (ts : List Token) where
  front : List Token
  opening : Token
  left : List Token
  arrow : Token
  right : List Token
  closing : Token
  behind : List Token
  sources : List (List Token)
  targets : List (List Token)
  /-- What separates the targets. -/
  isSeparator : Token → Bool
  ts_eq : ts = front ++ opening :: (left ++ arrow :: right ++ closing :: behind)
  front_eq : ∀ t ∈ front, t.is .openBracket = false
  opening_eq : opening.is .openBracket = true
  arrow_eq : arrow.is .arrow = true
  closing_eq : closing.is .closeBracket = true
  left_eq : Separated (·.is .comma) sources left
  separates : Separates isSeparator
  right_eq : Separated isSeparator targets right

/-- The transition that is meant.  The targets exclude each other if there is a marker. -/
def TransitionIn.meaning {ts : List Token} (s : TransitionIn ts) : StateTransition where
  sources := if s.sources = [] then none else some (s.sources.map stateName)
  targets := s.targets.map stateName
  isExclusive := s.right.any isExclusiveMarker

/-- A transition is read from the bracket that holds it. -/
theorem TransitionIn.read?_eq {ts : List Token} (s : TransitionIn ts) :
    read? ts = some s.meaning := by
  have hinner : ∀ t ∈ s.left ++ s.arrow :: s.right, t.is .closeBracket = false := by
    refine List.forall_mem_append.mpr ⟨s.left_eq.not_is .comma (by decide), ?_⟩
    exact List.forall_mem_cons.mpr
      ⟨not_is_of_is s.arrow_eq (by decide), s.right_eq.not_is s.separates (by decide)⟩
  have hsides : ofSides s.left s.right = s.meaning := by
    rw [ofSides, splitNames_separated .comma s.left_eq,
      splitNames_targets_separated s.separates s.right_eq]
    simp [TransitionIn.meaning, List.isEmpty_iff]
  calc
    read? ts = read? (s.front ++ s.opening
        :: (s.left ++ s.arrow :: s.right ++ s.closing :: s.behind)) := congrArg read? s.ts_eq
    _ = some (ofSides s.left s.right) :=
      read?_bracket s.front_eq s.opening_eq (s.left_eq.not_is .comma (by decide)) s.arrow_eq
        (s.right_eq.not_is s.separates (by decide)) hinner s.closing_eq s.behind
    _ = some s.meaning := congrArg some hsides

/-! ## 3. Runs without a transition -/

/-- The ways in which a run holds no transition: no bracket is opened, the first one that is opened
is not closed, or it holds no arrow or more than one. -/
inductive NoTransition : List Token → Prop
  | unopened {ts : List Token} (h : ∀ t ∈ ts, t.is .openBracket = false) : NoTransition ts
  | unclosed {front r : List Token} {opening : Token}
      (hfront : ∀ t ∈ front, t.is .openBracket = false) (hopening : opening.is .openBracket = true)
      (h : ∀ t ∈ r, t.is .closeBracket = false) : NoTransition (front ++ opening :: r)
  | arrows {front inner behind : List Token} {opening closing : Token}
      (hfront : ∀ t ∈ front, t.is .openBracket = false) (hopening : opening.is .openBracket = true)
      (hinner : ∀ t ∈ inner, t.is .closeBracket = false)
      (hclosing : closing.is .closeBracket = true) (h : inner.countP (·.is .arrow) ≠ 1) :
      NoTransition (front ++ opening :: (inner ++ closing :: behind))

section

variable {front inner : List Token} {opening closing : Token}

theorem read?_unclosed {r : List Token} (hfront : ∀ t ∈ front, t.is .openBracket = false)
    (hopening : opening.is .openBracket = true) (hr : ∀ t ∈ r, t.is .closeBracket = false) :
    read? (front ++ opening :: r) = none := by
  have hall : r.takeWhile (!·.is .closeBracket) = r := by
    rw [List.takeWhile_eq_self_iff]
    simpa using hr
  simp only [read?, (span_until hfront hopening r).2, hall, if_true]

theorem read?_closed_eq_none_iff (hfront : ∀ t ∈ front, t.is .openBracket = false)
    (hopening : opening.is .openBracket = true) (hinner : ∀ t ∈ inner, t.is .closeBracket = false)
    (hclosing : closing.is .closeBracket = true) (behind : List Token) :
    read? (front ++ opening :: (inner ++ closing :: behind)) = none
      ↔ inner.countP (·.is .arrow) ≠ 1 := by
  have hlength : ¬ inner.length = (inner ++ closing :: behind).length := by
    simp only [List.length_append, List.length_cons]
    omega
  simp only [read?, (span_until hfront hopening _).2, (span_until hinner hclosing behind).1,
    if_neg hlength, ← List.countP_eq_length_filter]
  split <;> simp_all

end

/-- No transition is read exactly where there is none. -/
theorem read?_eq_none_iff {ts : List Token} : read? ts = none ↔ NoTransition ts := by
  constructor
  · intro h
    rcases exists_first_or_none .openBracket ts with
      hts | ⟨front, opening, r, rfl, hopening, hfront⟩
    · exact .unopened hts
    rcases exists_first_or_none .closeBracket r with
      hr | ⟨inner, closing, behind, rfl, hclosing, hinner⟩
    · exact .unclosed hfront hopening hr
    exact .arrows hfront hopening hinner hclosing
      ((read?_closed_eq_none_iff hfront hopening hinner hclosing behind).mp h)
  · intro h
    cases h with
    | unopened h => exact read?_eq_none_of_no_bracket h
    | unclosed hfront hopening h => exact read?_unclosed hfront hopening h
    | arrows hfront hopening hinner hclosing h =>
      exact (read?_closed_eq_none_iff hfront hopening hinner hclosing _).mpr h

/-- **All states are read.**  The transition that the first bracket holds is read with all its
states, in order, and no transition is read exactly from a run that holds none. -/
theorem read?_states : (∀ (ts : List Token) (s : TransitionIn ts), read? ts = some s.meaning)
    ∧ ∀ ts : List Token, read? ts = none ↔ NoTransition ts :=
  ⟨fun _ s => s.read?_eq, fun _ => read?_eq_none_iff⟩

/-- `[, A.b ,, "" -> X C x X D E]` between two other brackets, all at one place. -/
def sampleBracket : TransitionIn
    ([.mark .closeBracket, .mark .openBracket, .mark .comma, .word "A", .symbol '.', .word "b",
      .mark .comma, .mark .comma, .string "", .mark .arrow, .word "X", .word "C", .word "x",
      .word "X", .word "D", .word "E", .mark .closeBracket, .mark .openBracket].map
        (Token.mk · .start)) where
  front := [⟨.mark .closeBracket, .start⟩]
  opening := ⟨.mark .openBracket, .start⟩
  left := ⟨.mark .comma, .start⟩
    :: ([⟨.word "A", .start⟩, ⟨.symbol '.', .start⟩, ⟨.word "b", .start⟩] ++ ⟨.mark .comma, .start⟩
      :: ⟨.mark .comma, .start⟩ :: [⟨.string "", .start⟩])
  arrow := ⟨.mark .arrow, .start⟩
  right := ⟨.word "X", .start⟩ :: ([⟨.word "C", .start⟩] ++ ⟨.word "x", .start⟩
    :: ⟨.word "X", .start⟩ :: [⟨.word "D", .start⟩, ⟨.word "E", .start⟩])
  closing := ⟨.mark .closeBracket, .start⟩
  behind := [⟨.mark .openBracket, .start⟩]
  sources := [[⟨.word "A", .start⟩, ⟨.symbol '.', .start⟩, ⟨.word "b", .start⟩],
    [⟨.string "", .start⟩]]
  targets := [[⟨.word "C", .start⟩], [⟨.word "D", .start⟩, ⟨.word "E", .start⟩]]
  isSeparator := isExclusiveMarker
  ts_eq := rfl
  front_eq := by decide
  opening_eq := rfl
  arrow_eq := rfl
  closing_eq := rfl
  left_eq := .separator rfl (.state ⟨by decide, by decide, by decide⟩ rfl
    (.separator rfl (.last ⟨by decide, by decide, by decide⟩)))
  separates := .marker
  right_eq := .separator (by decide) (.state ⟨by decide, by decide, by decide⟩ (by decide)
    (.separator (by decide) (.last ⟨by decide, by decide, by decide⟩)))

/-- A state may be more than a word, or an empty text; two arrows in a bracket are no transition,
even if another bracket follows. -/
theorem read?_states_sample :
    read? ([.mark .closeBracket, .mark .openBracket, .mark .comma, .word "A", .symbol '.',
        .word "b", .mark .comma, .mark .comma, .string "", .mark .arrow, .word "X", .word "C",
        .word "x", .word "X", .word "D", .word "E", .mark .closeBracket, .mark .openBracket].map
          (Token.mk · .start))
      = some ⟨some ["A.b", ""], ["C", "DE"], true⟩
    ∧ read? (lex "[A -> B -> C] [A -> B]".toList) = none := by
  constructor
  · exact (read?_states.1 _ sampleBracket).trans (by decide +kernel)
  · have hsplit : lex "[A -> B -> C] [A -> B]".toList
        = [] ++ ⟨.mark .openBracket, ⟨1, 1, 0⟩⟩
          :: (((lex "[A -> B -> C] [A -> B]".toList).drop 1).take 5
            ++ ⟨.mark .closeBracket, ⟨1, 13, 12⟩⟩
            :: (lex "[A -> B -> C] [A -> B]".toList).drop 7) := by decide +kernel
    refine (read?_states.2 _).mpr ?_
    rw [hsplit]
    exact .arrows (by decide) (by decide) (by decide +kernel) (by decide) (by decide +kernel)

end ContextAtlas.StateTransition
