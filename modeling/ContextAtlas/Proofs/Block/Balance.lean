/-
# Balanced braces

`splitBody` looks for the brace that closes a group.  Its result is the one split of the tokens at a
closing brace with a balanced run in front of it, and it finds none just in case nothing closes the
group: the braces behind never outweigh those that are opened there.

* `openAfter?`: how many groups are open behind a run of tokens;
* `splitBody_eq_some_iff`, `splitBody_eq_none_iff`: what a split says about the braces;
* `splitBody_ne_none_iff`: a group is closed when closing braces outnumber opening ones somewhere;
* `Balanced.closed`: every group that is opened in a balanced run is closed in it.
-/
import ContextAtlas.Block
import Mathlib.Data.List.Infix

namespace ContextAtlas

/-! ## 1. Open groups -/

/-- How many groups are open behind a run of tokens, with `depth` open in front of it.  There is no
answer if the run closes a group that was never opened. -/
def openAfter? : Nat → List Token → Option Nat
  | depth, [] => some depth
  | depth, t :: r =>
    if t.is .openBrace then openAfter? (depth + 1) r
    else if t.is .closeBrace then
      match depth with
      | 0 => none
      | d + 1 => openAfter? d r
    else openAfter? depth r

/-- A run that closes the groups it opens, and no others. -/
def Balanced (ts : List Token) : Prop := openAfter? 0 ts = some 0

instance (ts : List Token) : Decidable (Balanced ts) :=
  inferInstanceAs (Decidable (openAfter? 0 ts = some 0))

/-- No token is both braces. -/
theorem Token.not_close_of_open {t : Token} (h : t.is .openBrace = true) :
    t.is .closeBrace = false := by
  have h' : t.lexeme = .mark .openBrace := by simpa [Token.is] using h
  simp [Token.is, h']

section

variable {depth d e : Nat} {t o c : Token} {ts us r body rest : List Token}

theorem openAfter?_open (h : o.is .openBrace = true) :
    openAfter? depth (o :: r) = openAfter? (depth + 1) r := by
  rw [openAfter?.eq_def]
  exact if_pos h

theorem openAfter?_close (h : c.is .closeBrace = true) :
    openAfter? (depth + 1) (c :: r) = openAfter? depth r := by
  have ho : ¬ c.is .openBrace = true := fun ho => by simp [Token.not_close_of_open ho] at h
  rw [openAfter?.eq_def]
  exact (if_neg ho).trans (if_pos h)

theorem openAfter?_close_zero (h : c.is .closeBrace = true) : openAfter? 0 (c :: r) = none := by
  have ho : ¬ c.is .openBrace = true := fun ho => by simp [Token.not_close_of_open ho] at h
  rw [openAfter?.eq_def]
  exact (if_neg ho).trans (if_pos h)

theorem openAfter?_other (ho : t.is .openBrace = false) (hc : t.is .closeBrace = false) :
    openAfter? depth (t :: r) = openAfter? depth r := by
  rw [openAfter?.eq_def]
  simp only [ho, hc, Bool.false_eq_true, if_false]

theorem openAfter?_append : ∀ (depth : Nat) (ts us : List Token),
    openAfter? depth (ts ++ us) = (openAfter? depth ts).bind (openAfter? · us)
  | depth, [], us => rfl
  | depth, t :: r, us => by
    rw [List.cons_append]
    by_cases ho : t.is .openBrace = true
    · rw [openAfter?_open ho, openAfter?_open ho, openAfter?_append _ r]
    · by_cases hc : t.is .closeBrace = true
      · cases depth with
        | zero => rw [openAfter?_close_zero hc, openAfter?_close_zero hc, Option.bind_none]
        | succ d => rw [openAfter?_close hc, openAfter?_close hc, openAfter?_append _ r]
      · rw [Bool.not_eq_true] at ho hc
        rw [openAfter?_other ho hc, openAfter?_other ho hc, openAfter?_append _ r]

/-- Further groups that stay open in front change nothing. -/
theorem openAfter?_add (k : Nat) : ∀ {depth e : Nat} {ts : List Token},
    openAfter? depth ts = some e → openAfter? (depth + k) ts = some (e + k)
  | depth, e, [], h => by
    rw [openAfter?, Option.some.injEq] at h ⊢
    rw [h]
  | depth, e, t :: r, h => by
    by_cases ho : t.is .openBrace = true
    · rw [openAfter?_open ho] at h ⊢
      rw [Nat.add_right_comm]
      exact openAfter?_add k h
    · by_cases hc : t.is .closeBrace = true
      · cases depth with
        | zero => simp [openAfter?_close_zero hc] at h
        | succ d =>
          rw [Nat.add_right_comm, openAfter?_close hc]
          rw [openAfter?_close hc] at h
          exact openAfter?_add k h
      · rw [Bool.not_eq_true] at ho hc
        rw [openAfter?_other ho hc] at h ⊢
        exact openAfter?_add k h

/-- What is open behind a run is what was open and what it opened, less what it closed. -/
theorem openAfter?_count : ∀ {depth e : Nat} {ts : List Token}, openAfter? depth ts = some e →
    depth + ts.countP (·.is .openBrace) = e + ts.countP (·.is .closeBrace)
  | depth, e, [], h => by
    rw [openAfter?, Option.some.injEq] at h
    simp [h]
  | depth, e, t :: r, h => by
    by_cases ho : t.is .openBrace = true
    · rw [openAfter?_open ho] at h
      have ih := openAfter?_count h
      rw [List.countP_cons, List.countP_cons, if_pos ho, Token.not_close_of_open ho,
        if_neg Bool.false_ne_true]
      omega
    · rw [List.countP_cons, List.countP_cons, if_neg ho]
      by_cases hc : t.is .closeBrace = true
      · cases depth with
        | zero => simp [openAfter?_close_zero hc] at h
        | succ d =>
          rw [openAfter?_close hc] at h
          have ih := openAfter?_count h
          rw [if_pos hc]
          omega
      · rw [Bool.not_eq_true] at ho hc
        rw [openAfter?_other ho hc] at h
        have ih := openAfter?_count h
        rw [hc, if_neg Bool.false_ne_true]
        omega

/-! ## 2. Splits -/

/-- **A split is the one at a closing brace with nothing left open in front of it.** -/
theorem splitBody_eq_some_iff : ∀ {depth : Nat} {ts body rest : List Token} {c : Token},
    splitBody depth ts = some (body, c, rest)
      ↔ ts = body ++ c :: rest ∧ c.is .closeBrace = true ∧ openAfter? depth body = some 0
  | depth, [], body, rest, c => by simp [splitBody]
  | depth, t :: r, body, rest, c => by
    -- Behind a token that does not close the group, the split is that of the tokens behind it.
    have hstep : ∀ {e : Nat}, (c.is .closeBrace = true → openAfter? depth [] ≠ some 0 ∨ t ≠ c) →
        (∀ body', openAfter? depth (t :: body') = openAfter? e body') →
        ((splitBody e r).map (fun x => (t :: x.1, x.2.1, x.2.2)) = some (body, c, rest)
          ↔ t :: r = body ++ c :: rest ∧ c.is .closeBrace = true
            ∧ openAfter? depth body = some 0) := by
      intro e hhere hbody
      constructor
      · intro h
        obtain ⟨⟨body', c', rest'⟩, hs, he⟩ := Option.map_eq_some_iff.mp h
        simp only [Prod.mk.injEq] at he
        obtain ⟨rfl, rfl, rfl⟩ := he
        obtain ⟨h1, h2, h3⟩ := splitBody_eq_some_iff.mp hs
        exact ⟨by rw [h1, List.cons_append], h2, by rw [hbody, h3]⟩
      · rintro ⟨h1, h2, h3⟩
        cases body with
        | nil =>
          have hc : t = c := (List.cons.inj h1).1
          rcases hhere h2 with h | h
          · exact absurd h3 h
          · exact absurd hc h
        | cons u body' =>
          obtain ⟨rfl, hr⟩ := List.cons.inj h1
          rw [hbody] at h3
          rw [splitBody_eq_some_iff.mpr ⟨hr, h2, h3⟩, Option.map_some]
    by_cases ho : t.is .openBrace = true
    · rw [splitBody.eq_def]
      simp only [ho, if_true]
      refine hstep (fun hc => .inr ?_) fun _ => openAfter?_open ho
      rintro rfl
      simp [Token.not_close_of_open ho] at hc
    · by_cases hc : t.is .closeBrace = true
      · cases depth with
        | zero =>
          rw [splitBody.eq_def]
          simp only [ho, hc, if_true]
          constructor
          · intro h
            simp only [Bool.false_eq_true, if_false, Option.some.injEq, Prod.mk.injEq] at h
            obtain ⟨rfl, rfl, rfl⟩ := h
            exact ⟨rfl, hc, rfl⟩
          · rintro ⟨h1, h2, h3⟩
            cases body with
            | nil =>
              obtain ⟨rfl, rfl⟩ := List.cons.inj h1
              simp
            | cons u body' =>
              obtain ⟨rfl, -⟩ := List.cons.inj h1
              simp [openAfter?_close_zero hc] at h3
        | succ d =>
          rw [splitBody.eq_def]
          simp only [ho, hc, if_true, Bool.false_eq_true, if_false]
          exact hstep (fun _ => .inl (by simp [openAfter?])) fun _ => openAfter?_close hc
      · rw [splitBody.eq_def]
        simp only [ho, hc, Bool.false_eq_true, if_false]
        rw [Bool.not_eq_true] at ho hc
        refine hstep (fun hc' => .inr ?_) fun _ => openAfter?_other ho hc
        rintro rfl
        simp [hc] at hc'

/-- There is no split just in case no more groups are closed than are open. -/
theorem splitBody_eq_none_iff : ∀ {depth : Nat} {ts : List Token},
    splitBody depth ts = none ↔ ∃ e, openAfter? depth ts = some e
  | depth, [] => by simp [splitBody, openAfter?]
  | depth, t :: r => by
    rw [splitBody.eq_def]
    by_cases ho : t.is .openBrace = true
    · simp only [ho, if_true, Option.map_eq_none_iff]
      rw [openAfter?_open ho, splitBody_eq_none_iff]
    · by_cases hc : t.is .closeBrace = true
      · cases depth with
        | zero => simp [ho, hc, openAfter?_close_zero hc]
        | succ d =>
          simp only [ho, hc, if_true, Bool.false_eq_true, if_false, Option.map_eq_none_iff]
          rw [openAfter?_close hc, splitBody_eq_none_iff]
      · simp only [ho, hc, Bool.false_eq_true, if_false, Option.map_eq_none_iff]
        rw [Bool.not_eq_true] at ho hc
        rw [openAfter?_other ho hc, splitBody_eq_none_iff]

theorem splitBody_append (h : splitBody depth ts = some (body, c, rest)) (us : List Token) :
    splitBody depth (ts ++ us) = some (body, c, rest ++ us) := by
  have ⟨h1, h2, h3⟩ := splitBody_eq_some_iff.mp h
  exact splitBody_eq_some_iff.mpr ⟨by simp [h1], h2, h3⟩

theorem Balanced.splitBody (h : Balanced body) (hc : c.is .closeBrace = true) :
    splitBody 0 (body ++ c :: rest) = some (body, c, rest) :=
  splitBody_eq_some_iff.mpr ⟨rfl, hc, h⟩

/-! ## 3. Closed groups -/

/-- A group whose opening brace stands in front of the tokens is closed among them: at some point
more groups have been closed than opened. -/
def Closes (ts : List Token) : Prop :=
  ∃ run, run <+: ts ∧ run.countP (·.is .openBrace) < run.countP (·.is .closeBrace)

/-- Every opening brace of a run is closed in it.  Closing braces may stand alone. -/
def Closed (ts : List Token) : Prop :=
  ∀ before o behind, ts = before ++ o :: behind → o.is .openBrace = true → Closes behind

theorem splitBody_ne_none_iff : splitBody 0 ts ≠ none ↔ Closes ts := by
  constructor
  · intro h
    obtain ⟨⟨body, c, rest⟩, hs⟩ := Option.ne_none_iff_exists'.mp h
    have ⟨h1, h2, h3⟩ := splitBody_eq_some_iff.mp hs
    have hcount := openAfter?_count h3
    have ho : c.is .openBrace = false := by
      rw [← Bool.not_eq_true]
      intro ho
      simp [Token.not_close_of_open ho] at h2
    refine ⟨body ++ [c], ⟨rest, by simp [h1]⟩, ?_⟩
    simp only [List.countP_append, List.countP_singleton, ho, h2, if_true]
    simp only [Bool.false_eq_true, if_false]
    omega
  · rintro ⟨run, ⟨rest, rfl⟩, hcount⟩ hnone
    obtain ⟨e, he⟩ := splitBody_eq_none_iff.mp hnone
    rw [openAfter?_append] at he
    obtain ⟨e', he', -⟩ := Option.bind_eq_some_iff.mp he
    have := openAfter?_count he'
    omega

theorem Closed.of_append (h : Closed (ts ++ us)) : Closed us := by
  rintro before o behind rfl ho
  exact h (ts ++ before) o behind (by simp) ho

theorem Closed.of_cons (h : Closed (t :: us)) : Closed us :=
  (show Closed ([t] ++ us) from h).of_append

/-- **Nothing that a balanced run opens is left open in it.** -/
theorem Balanced.closed (h : Balanced ts) : Closed ts := by
  rintro before o behind rfl ho
  rw [← splitBody_ne_none_iff]
  intro hnone
  obtain ⟨e, he⟩ := splitBody_eq_none_iff.mp hnone
  unfold Balanced at h
  rw [openAfter?_append] at h
  obtain ⟨d, -, hd⟩ := Option.bind_eq_some_iff.mp h
  have hbehind := openAfter?_add (d + 1) he
  rw [openAfter?_open ho, ← Nat.zero_add (d + 1), hbehind] at hd
  simp at hd

theorem Balanced.append (ht : Balanced ts) (hu : Balanced us) : Balanced (ts ++ us) := by
  unfold Balanced at *
  rw [openAfter?_append, ht, Option.bind_some, hu]

theorem balanced_nil : Balanced [] := rfl

/-- A run without braces is balanced. -/
theorem balanced_of_no_brace (h : ∀ t ∈ ts, t.is .openBrace = false ∧ t.is .closeBrace = false) :
    Balanced ts := by
  induction ts with
  | nil => rfl
  | cons t r ih =>
    have ⟨ho, hc⟩ := h t List.mem_cons_self
    rw [Balanced, openAfter?_other ho hc]
    exact ih fun u hu => h u (List.mem_cons_of_mem _ hu)

theorem Balanced.group (h : Balanced body) (ho : o.is .openBrace = true)
    (hc : c.is .closeBrace = true) : Balanced (o :: (body ++ [c])) := by
  have hbody := openAfter?_add 1 h
  rw [Balanced, openAfter?_open ho, openAfter?_append, hbody, Option.bind_some,
    openAfter?_close hc]
  rfl

end

end ContextAtlas
