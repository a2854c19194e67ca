/-
# Reading by index

The readers of a document are walks over lists.  They can also be run as walks over indices, which
is how a text is held in memory: an element is fetched at an index, an index may lie outside of its
list, and a loop ends when its condition says so.  Each of these can go wrong, and here each one
that does is a fault which ends the whole run.

The modules beside this one state the readers in that form and prove that no fault is ever reached,
because each run by index gives what the walk over the list gives.

* `Fault`: what ends a run.
* `fetch`, `fetchBefore`, `fetchLast`: an element that has to be there.
* `readAt`, `holdsAt`: an element that is looked at only if the index is in range.
* `Reads`: a run gives what a reader of lists gives; `Reads.bind` puts one behind another.
* `loop`: a step that is repeated until it ends the loop, in at most so many rounds.

Where a run stands is said by the elements that are left: `xs.drop i = rest`.
-/
import ContextAtlas.Token

namespace ContextAtlas.Indexed

/-! ## 1. Faults -/

/-- What ends a run: an index outside of its list, a loop that goes on for too long, or a type
reference that is read too deep inside of others. -/
inductive Fault where
  | outOfRange
  | endless
  | tooDeep
deriving DecidableEq

/-- A run that gives a value or ends in a fault. -/
abbrev Run (α : Type) := Except Fault α

section

variable {α β : Type}

@[simp] theorem bind_ok (a : α) (f : α → Run β) : (Except.ok a : Run α) >>= f = f a := rfl

@[simp] theorem pure_eq_ok (a : α) : (pure a : Run α) = .ok a := rfl

@[simp] theorem map_ok (f : α → β) (a : α) : f <$> (.ok a : Run α) = .ok (f a) := rfl

/-- A run for each element gives all values if none of them ends in a fault. -/
theorem mapM_ok {f : α → Run β} {g : α → β} (h : ∀ a, f a = .ok (g a)) (xs : List α) :
    xs.mapM f = .ok (xs.map g) := by
  induction xs with
  | nil => rfl
  | cons a xs ih => simp [h, ih]

/-! ## 2. Elements -/

/-- The element at an index; there has to be one. -/
def fetch (xs : List α) (i : Nat) : Run α :=
  match xs[i]? with
  | some a => .ok a
  | none => .error .outOfRange

/-- The element in front of an index; there has to be one. -/
def fetchBefore (xs : List α) : Nat → Run α
  | 0 => .error .outOfRange
  | i + 1 => fetch xs i

/-- The last element; there has to be one. -/
def fetchLast (xs : List α) : Run α := fetchBefore xs xs.length

/-- What is read from the element at an index, if the index is in range. -/
def readAt (f : α → Option β) (xs : List α) (i : Nat) : Run (Option β) :=
  if i < xs.length then f <$> fetch xs i else .ok none

/-- Whether the index is in range and its element has a property. -/
def holdsAt (p : α → Bool) (xs : List α) (i : Nat) : Run Bool :=
  if i < xs.length then p <$> fetch xs i else .ok false

/-- The elements from an index on, in front of another. -/
def slice (xs : List α) (i j : Nat) : List α := (xs.take j).drop i

variable {xs rest : List α} {i j : Nat} {a : α}

theorem drop_succ_of_drop (h : xs.drop i = a :: rest) : xs.drop (i + 1) = rest := by
  rw [← List.tail_drop, h, List.tail_cons]

theorem lt_length_of_drop (h : xs.drop i = a :: rest) : i < xs.length := by
  refine Nat.lt_of_not_le fun hi => ?_
  rw [List.drop_eq_nil_of_le hi] at h
  cases h

theorem length_of_drop (h : xs.drop i = rest) (hi : i ≤ xs.length) :
    i + rest.length = xs.length := by
  rw [← h, List.length_drop]
  omega

/-- What is left at an index is no longer than the list, so a loop that takes an element in each
round has rounds enough. -/
theorem length_lt_of_drop (h : xs.drop i = rest) : rest.length < xs.length + 1 := by
  rw [← h, List.length_drop]
  omega

theorem not_lt_length_of_drop (h : xs.drop i = []) : ¬ i < xs.length := by
  simpa using h

/-- So many further elements are there as are left. -/
theorem add_lt_length_of_drop (h : xs.drop i = rest) (n : Nat) :
    i + n < xs.length ↔ n < rest.length := by
  rw [← h, List.length_drop]
  omega

theorem exists_fetch_of_lt (h : i < xs.length) : ∃ a, xs[i]? = some a ∧ fetch xs i = .ok a := by
  have hget : xs[i]? = some xs[i] := List.getElem?_eq_getElem h
  exact ⟨xs[i], hget, by rw [fetch, hget]⟩

theorem fetch_of_drop (h : xs.drop i = a :: rest) : fetch xs i = .ok a := by
  have hget : xs[i]? = some a := by rw [← List.head?_drop, h, List.head?_cons]
  rw [fetch, hget]

theorem readAt_of_drop (f : α → Option β) (h : xs.drop i = rest) :
    readAt f xs i = .ok (rest.head?.bind f) := by
  cases rest with
  | nil => rw [readAt, if_neg (not_lt_length_of_drop h)]; rfl
  | cons a rest => rw [readAt, if_pos (lt_length_of_drop h), fetch_of_drop h]; rfl

theorem holdsAt_of_drop (p : α → Bool) (h : xs.drop i = rest) :
    holdsAt p xs i = .ok (rest.head?.any p) := by
  cases rest with
  | nil => rw [holdsAt, if_neg (not_lt_length_of_drop h)]; rfl
  | cons a rest => rw [holdsAt, if_pos (lt_length_of_drop h), fetch_of_drop h]; rfl

theorem fetchLast_concat (xs : List α) (a : α) : fetchLast (xs ++ [a]) = .ok a := by
  simp [fetchLast, fetchBefore, fetch]

/-- The elements between two places are those of the first that the second has not. -/
theorem slice_of_drop {later : List α} (hi : xs.drop i = rest) (hj : xs.drop j = later)
    (hij : i ≤ j) (hle : j ≤ xs.length) :
    slice xs i j = rest.take (rest.length - later.length) := by
  have hlen := length_of_drop hi (Nat.le_trans hij hle)
  have hlen' := length_of_drop hj hle
  rw [slice, List.drop_take, hi]
  congr 1
  omega

theorem slice_of_append {run later : List α} (hi : xs.drop i = run ++ later)
    (hj : xs.drop j = later) (hile : i ≤ xs.length) (hjle : j ≤ xs.length) :
    slice xs i j = run := by
  have hlen := length_of_drop hi hile
  have hlen' := length_of_drop hj hjle
  rw [List.length_append] at hlen
  rw [slice_of_drop hi hj (by omega) hjle, List.length_append, Nat.add_sub_cancel, List.take_left]

theorem take_length_takeWhile (p : α → Bool) (xs : List α) :
    xs.take (xs.takeWhile p).length = xs.takeWhile p :=
  (List.prefix_iff_eq_take.mp (List.takeWhile_prefix p)).symm

theorem drop_length_takeWhile (p : α → Bool) (xs : List α) :
    xs.drop (xs.takeWhile p).length = xs.dropWhile p := by
  have hsplit := List.take_append_drop (xs.takeWhile p).length xs
  rw [take_length_takeWhile] at hsplit
  exact List.append_cancel_left (hsplit.trans List.takeWhile_append_dropWhile.symm)

end

/-! ## 3. What stands in front of an index -/

section

variable {α : Type} {xs rest : List α} {i : Nat} {a : α}

/-- Whether there is an element in front of an index and it has a property. -/
def holdsBefore (p : α → Bool) (xs : List α) (i : Nat) : Run Bool :=
  if 0 < i then p <$> fetchBefore xs i else .ok false

/-- The element in front of an index, if there is one. -/
def before? (xs : List α) : Nat → Option α
  | 0 => none
  | i + 1 => xs[i]?

theorem before?_succ_of_drop (h : xs.drop i = a :: rest) : before? xs (i + 1) = some a := by
  rw [before?, ← List.head?_drop, h, List.head?_cons]

theorem holdsBefore_of_le (p : α → Bool) (h : i ≤ xs.length) :
    holdsBefore p xs i = .ok ((before? xs i).any p) := by
  cases i with
  | zero => rfl
  | succ i =>
    obtain ⟨a, hget, hfetch⟩ := exists_fetch_of_lt h
    simp [holdsBefore, fetchBefore, hfetch, before?, hget]

end

/-! ## 4. Readers that may find nothing -/

/-- A run gives what a reader of lists gives, and the index where the reader leaves off. -/
def Reads {α β : Type} (xs : List β) (run : Run (Option (α × Nat))) :
    Option (α × List β) → Prop
  | none => run = .ok none
  | some (a, rest) => ∃ j, run = .ok (some (a, j)) ∧ xs.drop j = rest

section

variable {α β γ : Type} {xs : List β} {run : Run (Option (α × Nat))}
  {result : Option (α × List β)}

theorem exists_ok_of_reads (h : Reads xs run result) : ∃ a, run = .ok a := by
  rcases result with _ | ⟨a, rest⟩
  · exact ⟨none, h⟩
  · obtain ⟨j, hrun, -⟩ := h
    exact ⟨_, hrun⟩

/-- One reader behind another: each goes on where the other leaves off. -/
theorem Reads.bind {further : Option (α × Nat) → Run (Option (γ × Nat))}
    {next : α × List β → Option (γ × List β)} (h : Reads xs run result)
    (hnone : further none = .ok none)
    (hsome : ∀ a j rest, result = some (a, rest) → xs.drop j = rest →
      Reads xs (further (some (a, j))) (next (a, rest))) :
    Reads xs (run >>= further) (result.bind next) := by
  rcases result with _ | ⟨a, rest⟩
  · simp only [Reads] at h
    rw [h, bind_ok, hnone]
    rfl
  · obtain ⟨j, hrun, hj⟩ := h
    rw [hrun, bind_ok]
    exact hsome a j rest rfl hj

end

/-! ## 5. Loops -/

section

variable {σ α : Type} {step : σ → Run (σ ⊕ α)} {s t : σ} {a : α} {rounds : Nat}

/-- Repeats a step until it gives a result, in at most `rounds` rounds. -/
def loop (step : σ → Run (σ ⊕ α)) : Nat → σ → Run α
  | 0, _ => .error .endless
  | rounds + 1, s => do
    match ← step s with
    | .inl t => loop step rounds t
    | .inr a => return a

theorem loop_of_inl (h : step s = .ok (.inl t)) :
    loop step (rounds + 1) s = loop step rounds t := by
  rw [loop, h]
  rfl

theorem loop_of_inr (h : step s = .ok (.inr a)) : loop step (rounds + 1) s = .ok a := by
  rw [loop, h]
  rfl

end

end ContextAtlas.Indexed
