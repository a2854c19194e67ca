/-
# Comments written into a text

A comment can be written anywhere in a text where it touches no slash, as long as it ends where the
text is to go on: a block comment at its first closing pair, a line comment at the end of its line.
Any number of such comments can be written into one text, and removing them gives the text back.

* `Comment`, `Comment.FitsAt`: a comment as it is written, and where in a text it can stand;
* `withComments`: a text with some comments in it, at most one at each offset;
* `walk_inserted`: each of the two passes does with such a text what it does with the comments in
  it;
* `comments_leave_no_trace`: nothing is left of the comments, and the text is.
-/
import ContextAtlas.Proofs.Comment
import Mathlib.Data.List.Infix

namespace ContextAtlas

/-! ## 1. Comments in a text -/

/-- A comment, by its kind and what stands in it. -/
inductive Comment where
  | line (body : List Char)
  | block (body : List Char)

namespace Comment

/-- How a comment is written.  The line feed behind a line comment does not belong to it. -/
def text : Comment → List Char
  | line body => '/' :: '/' :: body
  | block body => '/' :: '*' :: (body ++ ['*', '/'])

/-- What is left of a comment without the line comments. -/
def withoutLine : Comment → List Char
  | line _ => []
  | block body => (block body).text

/-- A comment ends where it should, with the given character behind it, if there is one: a line
comment holds no line feed and stands at the end of its line; a block comment holds no pair that
closes it and, because line comments go first, none that opens a line comment. -/
def EndsBefore (next : Option Char) : Comment → Prop
  | line body => '\n' ∉ body ∧ (next = none ∨ next = some '\n')
  | block body => ¬ ['*', '/'] <:+: body ∧ ¬ ['/', '/'] <:+: body

instance (next : Option Char) : ∀ x : Comment, Decidable (x.EndsBefore next)
  | line body => inferInstanceAs (Decidable ('\n' ∉ body ∧ (next = none ∨ next = some '\n')))
  | block body =>
    inferInstanceAs (Decidable (¬ ['*', '/'] <:+: body ∧ ¬ ['/', '/'] <:+: body))

/-- A comment can be written at an offset of a text: it touches no slash there, and it ends in front
of the character at that offset. -/
structure FitsAt (x : Comment) (text : List Char) (offset : Nat) : Prop where
  within : offset ≤ text.length
  before : 0 < offset → text[offset - 1]? ≠ some '/'
  behind : text[offset]? ≠ some '/'
  ends : x.EndsBefore text[offset]?

instance (x : Comment) (text : List Char) (offset : Nat) : Decidable (x.FitsAt text offset) :=
  decidable_of_iff (offset ≤ text.length ∧ (0 < offset → text[offset - 1]? ≠ some '/')
      ∧ text[offset]? ≠ some '/' ∧ x.EndsBefore text[offset]?)
    ⟨fun ⟨h1, h2, h3, h4⟩ => ⟨h1, h2, h3, h4⟩, fun ⟨h1, h2, h3, h4⟩ => ⟨h1, h2, h3, h4⟩⟩

theorem text_block_append (body rest : List Char) :
    (block body).text ++ rest = '/' :: '*' :: (body ++ '*' :: '/' :: rest) := by
  rw [text, List.cons_append, List.cons_append, List.append_assoc]
  rfl

end Comment

/-- A text with a piece in front of each of its characters, and one at its end. -/
def inserted (pieces : Nat → List Char) : List Char → List Char
  | [] => pieces 0
  | c :: r => pieces 0 ++ c :: inserted (fun n => pieces (n + 1)) r

/-- A text with some comments written into it, each at its offset in the text. -/
def withComments (comments : Nat → Option Comment) (text : List Char) : List Char :=
  inserted (fun n => (comments n).elim [] Comment.text) text

/-! ## 2. Pieces in a text -/

theorem head?_inserted {pieces : Nat → List Char} (h : pieces 0 = []) (text : List Char) :
    (inserted pieces text).head? = text.head? := by
  cases text with
  | nil => rw [inserted, h]
  | cons c r => rw [inserted, h, List.nil_append, List.head?_cons, List.head?_cons]

theorem inserted_nothing (text : List Char) : inserted (fun _ => []) text = text := by
  induction text with
  | nil => rfl
  | cons c r ih => rw [inserted, ih, List.nil_append]

theorem inserted_single (piece : List Char) : ∀ {text : List Char} {n : Nat}, n ≤ text.length →
    inserted (fun k => if k = n then piece else []) text = text.take n ++ piece ++ text.drop n
  | [], n, h => by
    obtain rfl : n = 0 := by simpa using h
    simp [inserted]
  | c :: r, 0, _ => by simp [inserted, inserted_nothing]
  | c :: r, n + 1, h => by
    have hrest := inserted_single piece (Nat.le_of_succ_le_succ h)
    simp [inserted, hrest]

/-- **A walk over a text that keeps each character which opens no comment, and turns each of some
pieces into another wherever it stands, turns the text with the one pieces in it into the text with
the others.**  Behind a slash no piece may stand, or the slash could open a comment with it. -/
theorem walk_inserted {walk : List Char → List Char} {text : List Char}
    {pieces left : Nat → List Char} (hnil : walk [] = [])
    (hkeep : ∀ c rest, (c = '/' → rest.head? ≠ some '/' ∧ rest.head? ≠ some '*') →
      walk (c :: rest) = c :: walk rest)
    (htext : Uncommented text) (hslash : ∀ n, text[n]? = some '/' → pieces (n + 1) = [])
    (hpiece : ∀ n rest, rest.head? = text[n]? → walk (pieces n ++ rest) = left n ++ walk rest) :
    walk (inserted pieces text) = inserted left text := by
  induction text generalizing pieces left with
  | nil =>
    have hend := hpiece 0 [] rfl
    rwa [List.append_nil, hnil, List.append_nil] at hend
  | cons c r ih =>
    obtain ⟨hopen, hr⟩ := uncommented_cons_iff.mp htext
    have hrest : walk (inserted (fun n => pieces (n + 1)) r) = inserted (fun n => left (n + 1)) r :=
      ih hr (fun n hn => hslash (n + 1) hn) fun n rest hhead => hpiece (n + 1) rest hhead
    have hkept : walk (c :: inserted (fun n => pieces (n + 1)) r)
        = c :: inserted (fun n => left (n + 1)) r := by
      rw [hkeep, hrest]
      intro hc
      rw [head?_inserted (hslash 0 (congrArg some hc))]
      exact hopen hc
    rw [inserted, inserted, hpiece 0 _ rfl, hkept]

/-! ## 3. The two passes over one comment -/

theorem withoutLineComments_append {rest : List Char} (hrest : rest.head? ≠ some '/') :
    ∀ {front : List Char}, ¬ ['/', '/'] <:+: front →
      withoutLineComments false (front ++ rest) = front ++ withoutLineComments false rest
  | [], _ => rfl
  | c :: front, h => by
    rw [pair_infix_cons_iff, not_or] at h
    have hnext : c = '/' → (front ++ rest).head? ≠ some '/' := by
      intro hc
      cases front with
      | nil => exact hrest
      | cons d front => exact fun hd => h.1 ⟨hc, hd⟩
    rw [List.cons_append, withoutLineComments_cons hnext, withoutLineComments_append hrest h.2,
      List.cons_append]

/-- A line comment is over where its line is. -/
theorem withoutLineComments_body {rest : List Char}
    (hrest : rest.head? = none ∨ rest.head? = some '\n') :
    ∀ {body : List Char}, '\n' ∉ body →
      withoutLineComments true (body ++ rest) = withoutLineComments false rest
  | [], _ => by
    cases rest with
    | nil => rfl
    | cons c r =>
      obtain rfl : c = '\n' := by simpa using hrest
      rw [withoutLineComments_cons fun h => absurd h (by decide)]
      rfl
  | c :: body, h => by
    rw [List.mem_cons, not_or] at h
    rw [List.cons_append, withoutLineComments, if_neg (Ne.symm h.1),
      withoutLineComments_body hrest h.2]

/-- A block comment is over at the first pair that closes it, however its own text ends. -/
theorem withoutBlockComments_body (rest : List Char) :
    ∀ {body : List Char}, ¬ ['*', '/'] <:+: body →
      withoutBlockComments true (body ++ '*' :: '/' :: rest) = withoutBlockComments false rest
  | [], _ => rfl
  | c :: body, h => by
    rw [pair_infix_cons_iff, not_or] at h
    have hopen : ∀ s, c = '*' → body ++ '*' :: '/' :: rest = '/' :: s → False := by
      intro s hc hs
      cases body with
      | nil => simp at hs
      | cons d body => exact h.1 ⟨hc, congrArg some (List.cons.inj hs).1⟩
    rw [List.cons_append, withoutBlockComments, withoutBlockComments_body rest h.2]
    exact hopen

section

variable {x : Comment} {rest : List Char}

theorem withoutLineComments_comment (hrest : rest.head? ≠ some '/')
    (h : x.EndsBefore rest.head?) :
    withoutLineComments false (x.text ++ rest)
      = x.withoutLine ++ withoutLineComments false rest := by
  cases x with
  | line body => exact withoutLineComments_body h.2 h.1
  | block body =>
    have hclosing : withoutLineComments false ('*' :: '/' :: rest)
        = '*' :: '/' :: withoutLineComments false rest := by
      rw [withoutLineComments_cons (by simp), withoutLineComments_cons fun _ => hrest]
    rw [Comment.withoutLine, Comment.text_block_append, Comment.text_block_append,
      withoutLineComments_cons (by simp), withoutLineComments_cons (by simp),
      withoutLineComments_append (by simp) h.2, hclosing]

theorem withoutBlockComments_comment (h : x.EndsBefore rest.head?) :
    withoutBlockComments false (x.withoutLine ++ rest) = withoutBlockComments false rest := by
  cases x with
  | line body => rfl
  | block body =>
    rw [Comment.withoutLine, Comment.text_block_append]
    exact withoutBlockComments_body rest h.1

end

/-! ## 4. All comments of a text -/

theorem stripComments_withComments {text : List Char} (htext : Uncommented text)
    {comments : Nat → Option Comment} (h : ∀ n x, comments n = some x → x.FitsAt text n) :
    stripComments (withComments comments text) = text := by
  have hslash : ∀ n, text[n]? = some '/' → comments (n + 1) = none := by
    intro n hn
    cases hx : comments (n + 1) with
    | none => rfl
    | some x => exact absurd hn ((h _ x hx).before (Nat.succ_pos n))
  have hlines : withoutLineComments false (withComments comments text)
      = inserted (fun n => (comments n).elim [] Comment.withoutLine) text := by
    refine walk_inserted rfl (fun c rest hc => withoutLineComments_cons fun e => (hc e).1) htext
      (fun n hn => by rw [hslash n hn]; rfl) fun n rest hrest => ?_
    cases hx : comments n with
    | none => rfl
    | some x =>
      obtain ⟨-, -, hbehind, hends⟩ := h n x hx
      rw [← hrest] at hbehind hends
      exact withoutLineComments_comment hbehind hends
  have hblocks : withoutBlockComments false
        (inserted (fun n => (comments n).elim [] Comment.withoutLine) text)
      = inserted (fun _ => []) text := by
    refine walk_inserted rfl (fun c rest hc => withoutBlockComments_cons fun e => (hc e).2) htext
      (fun n hn => by rw [hslash n hn]; rfl) fun n rest hrest => ?_
    cases hx : comments n with
    | none => rfl
    | some x =>
      have hends := (h n x hx).ends
      rw [← hrest] at hends
      exact withoutBlockComments_comment hends
  rw [stripComments, hlines, hblocks, inserted_nothing]

theorem withComments_single (x : Comment) {text : List Char} {n : Nat} (h : n ≤ text.length) :
    withComments (fun k => if k = n then some x else none) text
      = text.take n ++ x.text ++ text.drop n := by
  rw [← inserted_single x.text h, withComments]
  congr 1
  funext k
  split <;> rfl

/-- **Comments go without a trace.**  One that fits where it is written into an uncommented text
does, and so do any comments that are written into it together, each at an offset of its own. -/
theorem comments_leave_no_trace {text : List Char} (htext : Uncommented text) :
    (∀ (n : Nat) (x : Comment), x.FitsAt text n →
        stripComments (text.take n ++ x.text ++ text.drop n) = text)
      ∧ ∀ comments : Nat → Option Comment, (∀ n x, comments n = some x → x.FitsAt text n) →
        stripComments (withComments comments text) = text := by
  refine ⟨fun n x hx => ?_, fun comments => stripComments_withComments htext⟩
  rw [← withComments_single x hx.within]
  refine stripComments_withComments htext fun k y hy => ?_
  obtain ⟨rfl, rfl⟩ : k = n ∧ x = y := by simpa using hy
  exact hx

/-- Comments that start and end in stars and slashes, hold what opens a block comment, and follow
one another on a line that is closed by a line comment. -/
def sampleComments : Nat → Option Comment
  | 0 => some (.block "/ /*".toList)
  | 1 => some (.block "*".toList)
  | 5 => some (.line " * /* open".toList)
  | 7 => some (.line [])
  | _ => none

theorem comments_leave_no_trace_sample :
    Uncommented "a / b\nc".toList
      ∧ (Comment.block "**".toList).FitsAt "a / b\nc".toList 6
      ∧ (∀ n x, sampleComments n = some x → x.FitsAt "a / b\nc".toList n)
      ∧ stripComments "a / b\n/****/c".toList = "a / b\nc".toList
      ∧ stripComments "/*/ /**/a/***/ / b// * /* open\nc//".toList = "a / b\nc".toList := by
  have htext : Uncommented "a / b\nc".toList := by
    unfold Uncommented
    decide +kernel
  have hsingle : (Comment.block "**".toList).FitsAt "a / b\nc".toList 6 := by decide +kernel
  have hfits : ∀ n x, sampleComments n = some x → x.FitsAt "a / b\nc".toList n := by
    intro n x hx
    unfold sampleComments at hx
    split at hx <;> cases hx <;> decide +kernel
  have hwritten : withComments sampleComments "a / b\nc".toList
      = "/*/ /**/a/***/ / b// * /* open\nc//".toList := by decide +kernel
  obtain ⟨hone, hall⟩ := comments_leave_no_trace htext
  refine ⟨htext, hsingle, hfits, hone 6 _ hsingle, ?_⟩
  rw [← hwritten]
  exact hall sampleComments hfits

end ContextAtlas
