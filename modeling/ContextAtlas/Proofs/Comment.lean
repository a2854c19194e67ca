/-
# Texts without comments

Reading a document starts with removing its comments, so the tokens of the text as it was written
are the tokens that are read only if nothing is removed.

* `Uncommented`: the text holds neither of the two pairs of characters that open a comment;
* `stripComments_eq_self`: such a text is left as it is;
* `Uncommented.append_newline`: two such texts on different lines make one such text;
* `uncommented_stripComments`: what is left of any text is such a text, although removing a comment
  brings together what stood around it;
* `stripComments_settles`: so a second removal finds nothing to do.
-/
import ContextAtlas.Comment

namespace ContextAtlas

/-! ## 1. What opens a comment -/

/-- Neither kind of comment is opened anywhere in the text. -/
def Uncommented (text : List Char) : Prop :=
  ¬ ['/', '/'] <:+: text ∧ ¬ ['/', '*'] <:+: text

/-- Both pairs start with a slash, so a text without one opens no comment. -/
theorem uncommented_of_not_mem {text : List Char} (h : '/' ∉ text) : Uncommented text :=
  ⟨fun hi => h (hi.subset (by simp)), fun hi => h (hi.subset (by simp))⟩

theorem pair_infix_cons_iff {x y c : Char} {text : List Char} :
    [x, y] <:+: c :: text ↔ c = x ∧ text.head? = some y ∨ [x, y] <:+: text := by
  rw [List.infix_cons_iff, List.cons_prefix_cons, eq_comm]
  cases text with
  | nil => simp
  | cons d r => simp [eq_comm]

theorem uncommented_cons_iff {c : Char} {text : List Char} :
    Uncommented (c :: text)
      ↔ (c = '/' → text.head? ≠ some '/' ∧ text.head? ≠ some '*') ∧ Uncommented text := by
  rw [Uncommented, Uncommented, pair_infix_cons_iff, pair_infix_cons_iff]
  constructor
  · rintro ⟨h1, h2⟩
    exact ⟨fun hc => ⟨fun hr => h1 (.inl ⟨hc, hr⟩), fun hr => h2 (.inl ⟨hc, hr⟩)⟩,
      fun h => h1 (.inr h), fun h => h2 (.inr h)⟩
  · rintro ⟨h, h1, h2⟩
    exact ⟨fun hp => hp.elim (fun hp => (h hp.1).1 hp.2) h1,
      fun hp => hp.elim (fun hp => (h hp.1).2 hp.2) h2⟩

/-- A pair of characters that does not hold a line feed lies on one side of it. -/
theorem pair_infix_append_newline {x y : Char} (hx : x ≠ '\n') (hy : y ≠ '\n') {b : List Char} :
    ∀ {a : List Char}, [x, y] <:+: a ++ '\n' :: b → [x, y] <:+: a ∨ [x, y] <:+: b
  | [], h => by
    rcases List.infix_cons_iff.mp h with h | h
    · exact absurd (List.cons_prefix_cons.mp h).1 hx
    · exact .inr h
  | c :: a, h => by
    rcases List.infix_cons_iff.mp h with h | h
    · obtain ⟨rfl, hp⟩ := List.cons_prefix_cons.mp h
      cases a with
      | nil => exact absurd (List.cons_prefix_cons.mp hp).1 hy
      | cons d a =>
        obtain ⟨rfl, -⟩ := List.cons_prefix_cons.mp hp
        exact .inl ⟨[], a, rfl⟩
    · rcases pair_infix_append_newline hx hy h with h | h
      · exact .inl (h.trans (List.suffix_cons c a).isInfix)
      · exact .inr h

theorem Uncommented.append_newline {a b : List Char} (ha : Uncommented a) (hb : Uncommented b) :
    Uncommented (a ++ '\n' :: b) :=
  ⟨fun h => (pair_infix_append_newline (by decide) (by decide) h).elim ha.1 hb.1,
   fun h => (pair_infix_append_newline (by decide) (by decide) h).elim ha.2 hb.2⟩

/-! ## 2. Nothing to remove -/

section

variable {c : Char} {rest : List Char}

theorem withoutLineComments_cons (h : c = '/' → rest.head? ≠ some '/') :
    withoutLineComments false (c :: rest) = c :: withoutLineComments false rest := by
  rw [withoutLineComments]
  rintro s hc rfl
  exact h hc rfl

theorem withoutBlockComments_cons (h : c = '/' → rest.head? ≠ some '*') :
    withoutBlockComments false (c :: rest) = c :: withoutBlockComments false rest := by
  rw [withoutBlockComments]
  rintro s hc rfl
  exact h hc rfl

end

theorem withoutLineComments_eq_self : ∀ {text : List Char}, ¬ ['/', '/'] <:+: text →
    withoutLineComments false text = text
  | [], _ => rfl
  | c :: r, h => by
    rw [pair_infix_cons_iff, not_or] at h
    rw [withoutLineComments_cons fun hc hr => h.1 ⟨hc, hr⟩, withoutLineComments_eq_self h.2]

theorem withoutBlockComments_eq_self : ∀ {text : List Char}, ¬ ['/', '*'] <:+: text →
    withoutBlockComments false text = text
  | [], _ => rfl
  | c :: r, h => by
    rw [pair_infix_cons_iff, not_or] at h
    rw [withoutBlockComments_cons fun hc hr => h.1 ⟨hc, hr⟩, withoutBlockComments_eq_self h.2]

/-- **A text that opens no comment is left as it is.** -/
theorem stripComments_eq_self {text : List Char} (h : Uncommented text) :
    stripComments text = text := by
  rw [stripComments, withoutLineComments_eq_self h.1, withoutBlockComments_eq_self h.2]

/-! ## 3. Nothing left to remove

A slash stays only where it opens no comment.  What follows it there is no slash, so it opens no
comment either and stays as well: a slash has the same character behind it as before. -/

theorem head?_withoutLineComments {text : List Char} (h : text.head? ≠ some '/') :
    (withoutLineComments false text).head? = text.head? := by
  cases text with
  | nil => rfl
  | cons c r => rw [withoutLineComments_cons fun hc => absurd (congrArg some hc) h,
      List.head?_cons, List.head?_cons]

theorem head?_withoutBlockComments {text : List Char} (h : text.head? ≠ some '/') :
    (withoutBlockComments false text).head? = text.head? := by
  cases text with
  | nil => rfl
  | cons c r => rw [withoutBlockComments_cons fun hc => absurd (congrArg some hc) h,
      List.head?_cons, List.head?_cons]

theorem no_lineComment_withoutLineComments (inside : Bool) (text : List Char) :
    ¬ ['/', '/'] <:+: withoutLineComments inside text := by
  fun_induction withoutLineComments inside text with
  | case1 => simp
  | case2 r ih =>
    rw [pair_infix_cons_iff, not_or]
    exact ⟨fun h => absurd h.1 (by decide), ih⟩
  | case3 c r _ ih => exact ih
  | case4 r ih => exact ih
  | case5 c r hopen ih =>
    rw [pair_infix_cons_iff, not_or]
    refine ⟨fun ⟨hc, hleft⟩ => ?_, ih⟩
    have hr : r.head? ≠ some '/' := fun hr => by
      obtain ⟨s, rfl⟩ := List.head?_eq_some_iff.mp hr
      exact hopen s hc rfl
    rw [head?_withoutLineComments hr] at hleft
    exact hr hleft

/-- Line comments go first: a block comment that ends in front of a slash, or starts behind one, is
cut as a line comment, so no slash stands next to what is removed here. -/
theorem uncommented_withoutBlockComments (inside : Bool) {text : List Char}
    (h : ¬ ['/', '/'] <:+: text) : Uncommented (withoutBlockComments inside text) := by
  fun_induction withoutBlockComments inside text with
  | case1 => exact uncommented_of_not_mem List.not_mem_nil
  | case2 r ih => exact ih (mt List.infix_cons (mt List.infix_cons h))
  | case3 c r _ ih => exact ih (mt List.infix_cons h)
  | case4 r ih => exact ih (mt List.infix_cons (mt List.infix_cons h))
  | case5 c r hopen ih =>
    rw [pair_infix_cons_iff, not_or] at h
    rw [uncommented_cons_iff]
    refine ⟨fun hc => ?_, ih h.2⟩
    have hr : r.head? ≠ some '/' := fun hr => h.1 ⟨hc, hr⟩
    rw [head?_withoutBlockComments hr]
    refine ⟨hr, fun hstar => ?_⟩
    obtain ⟨s, rfl⟩ := List.head?_eq_some_iff.mp hstar
    exact hopen s hc rfl

theorem uncommented_stripComments (text : List Char) : Uncommented (stripComments text) :=
  uncommented_withoutBlockComments false (no_lineComment_withoutLineComments false text)

/-- **Once is enough.**  What is left of a text opens no comment, so removing comments again changes
nothing; and a text is left as it is just if it opens no comment itself. -/
theorem stripComments_settles (text : List Char) :
    Uncommented (stripComments text)
      ∧ stripComments (stripComments text) = stripComments text
      ∧ (stripComments text = text ↔ Uncommented text) := by
  have hclean := uncommented_stripComments text
  refine ⟨hclean, stripComments_eq_self hclean, ⟨fun h => ?_, stripComments_eq_self⟩⟩
  rw [← h]
  exact hclean

/-- A line comment in a block comment takes the end of the block comment with it. -/
example : stripComments "/* a // b */ X\nY".toList = [] := by decide

end ContextAtlas
