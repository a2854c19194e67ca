/-
# Written constraints are read

Behind the name of a member stand items, one behind the other: a bare word, a word that an
exclamation mark takes away, or a key with its value.  Nothing stands between two items, and one
takes one, two or three tokens.  No item starts with an equals sign, so the reader is always in
front of the next item when it is behind one.

* `Source.Item`: a written item, its lexemes, and its constraint;
* `StandsFor`: the constraints that a row of lexemes stands for, whatever comes behind it;
  `StandsFor.append` and `StandsFor.flatMap` put rows together;
* `readAll_items`: written items are read as their constraints;
* `isFlagged_items`, `lastValue?_items`: which words are flags, and which value a key has;
* `Source.lastValue?_perm`: the order of items with different keys does not matter.
-/
import ContextAtlas.Member.Constraint
import Mathlib.Data.List.Basic

namespace ContextAtlas

namespace Source

/-! ## 1. Written items -/

/-- The value of a key as it is written. -/
inductive Value where
  | string (text : String)
  | number (text : String)
  | word (text : String)
deriving DecidableEq

/-- How a value is written. -/
def Value.lexeme : Value → Lexeme
  | string s => .string s
  | number s => .number s
  | word s => .word s

/-- What a value says. -/
def Value.text : Value → String
  | string s | number s | word s => s

/-- An item as it is written. -/
inductive Item where
  | bare (word : String)
  | negated (word : String)
  | assigned (key : String) (value : Value)
deriving DecidableEq

namespace Item

/-- How an item is written. -/
def lexemes : Item → List Lexeme
  | bare w => [.word w]
  | negated w => [.symbol '!', .word w]
  | assigned k v => [.word k, .mark .equals, v.lexeme]

theorem semicolon_not_mem (item : Item) : .mark .semicolon ∉ item.lexemes := by
  cases item with
  | bare w => simp [lexemes]
  | negated w => simp [lexemes]
  | assigned k v => cases v <;> simp [lexemes, Value.lexeme]

/-- The constraint that an item is. -/
def constraint? : Item → Option Constraint
  | bare w => some (.flag w)
  | negated _ => none
  | assigned k v => some (.value k v.text)

/-- The key of an item that has a value. -/
def key? : Item → Option String
  | assigned k _ => some k
  | _ => none

/-- The value that an item gives to a key. -/
def valueFor? (key : String) : Item → Option String
  | assigned k v => if k = key ∧ v.text ≠ "" then some v.text else none
  | _ => none

end Item

/-- The last value that some items give to a key. -/
def lastValue? (items : List Item) (key : String) : Option String :=
  (items.filterMap (Item.valueFor? key)).getLast?

end Source

open Source

/-! ## 2. Rows of lexemes -/

/-- Whether tokens with the given lexemes are read as the given constraints, in front of all that
does not start with an equals sign, and do not start with one themselves. -/
structure StandsFor (row : List Lexeme) (constraints : List Constraint) : Prop where
  start : row.head? ≠ some (.mark .equals)
  readAll_append : ∀ {run rest : List Token}, run.map Token.lexeme = row →
    (∀ t ∈ rest.head?, t.is .equals = false) →
    Constraint.readAll (run ++ rest) = constraints ++ Constraint.readAll rest

section

variable {row row' : List Lexeme} {cs cs' : List Constraint}

theorem StandsFor.nil : StandsFor [] [] where
  start := nofun
  readAll_append := by
    intro run rest hrun _
    obtain rfl := List.map_eq_nil_iff.mp hrun
    rfl

theorem StandsFor.append (h : StandsFor row cs) (h' : StandsFor row' cs') :
    StandsFor (row ++ row') (cs ++ cs') where
  start := by
    cases row with
    | nil => exact h'.start
    | cons x row => exact h.start
  readAll_append := by
    intro run rest hrun hrest
    obtain ⟨front, back, rfl, hfront, hback⟩ := List.map_eq_append_iff.mp hrun
    have hnext : ∀ t ∈ (back ++ rest).head?, t.is .equals = false := by
      cases back with
      | nil => exact hrest
      | cons t back =>
        have ht : t.lexeme ≠ .mark .equals := by simpa [← hback] using h'.start
        simpa [Token.is] using ht
    rw [List.append_assoc, h.readAll_append hfront hnext, h'.readAll_append hback hrest,
      List.append_assoc]

theorem StandsFor.flatMap {α : Type} {f : α → List Lexeme} {g : α → List Constraint} :
    ∀ {as : List α}, (∀ a ∈ as, StandsFor (f a) (g a)) → StandsFor (as.flatMap f) (as.flatMap g)
  | [], _ => .nil
  | a :: as, h => by
    rw [List.flatMap_cons, List.flatMap_cons]
    exact (h a List.mem_cons_self).append (flatMap fun b hb => h b (List.mem_cons_of_mem a hb))

theorem StandsFor.readAll_eq (h : StandsFor row cs) {run : List Token}
    (hrun : run.map Token.lexeme = row) : Constraint.readAll run = cs := by
  have hread : Constraint.readAll (run ++ []) = cs ++ Constraint.readAll [] :=
    h.readAll_append hrun (by simp)
  rwa [Constraint.readAll, List.append_nil, List.append_nil] at hread

end

/-- A sigil is passed over. -/
theorem standsFor_sigil : StandsFor [.mark .sigil] [] where
  start := by simp
  readAll_append := by
    intro run rest hrun _
    obtain ⟨t, rfl, ht⟩ := List.map_eq_singleton_iff.mp hrun
    cases rest <;> simp [Constraint.readAll, ht]

theorem standsFor_item (item : Item) : StandsFor item.lexemes item.constraint?.toList where
  start := by cases item <;> simp [Item.lexemes]
  readAll_append := by
    intro run rest hrun hrest
    cases item with
    | bare w =>
      obtain ⟨t, rfl, ht⟩ := List.map_eq_singleton_iff.mp hrun
      cases rest with
      | nil => simp [Constraint.readAll, ht, Item.constraint?]
      | cons u rest => simp [Constraint.readAll, ht, hrest u rfl, Item.constraint?]
    | negated w =>
      obtain ⟨t, run, rfl, ht, hrun⟩ := List.map_eq_cons_iff.mp hrun
      obtain ⟨u, rfl, -⟩ := List.map_eq_singleton_iff.mp hrun
      simp [Constraint.readAll, ht, Item.constraint?]
    | assigned k v =>
      obtain ⟨t, run, rfl, ht, hrun⟩ := List.map_eq_cons_iff.mp hrun
      obtain ⟨u, run, rfl, hu, hrun⟩ := List.map_eq_cons_iff.mp hrun
      obtain ⟨x, rfl, hx⟩ := List.map_eq_singleton_iff.mp hrun
      cases v <;>
        simp [Constraint.readAll, ht, Token.is, hu, Token.isValue, hx, Value.lexeme, Token.value,
          Lexeme.value, Value.text, Item.constraint?]

/-! ## 3. Items -/

/-- **Written items are read as their constraints.** -/
theorem readAll_items {items : List Item} {run : List Token}
    (h : run.map Token.lexeme = items.flatMap Item.lexemes) :
    Constraint.readAll run = items.filterMap Item.constraint? := by
  have hitems := StandsFor.flatMap fun item (_ : item ∈ items) => standsFor_item item
  rw [hitems.readAll_eq h, List.filterMap_eq_flatMap_toList]

/-- A word is a flag if it stands there as an item of its own. -/
theorem isFlagged_items (items : List Item) (w : String) :
    Constraint.isFlagged (items.filterMap Item.constraint?) w = decide (.bare w ∈ items) := by
  rw [Bool.eq_iff_iff, Constraint.isFlagged, List.contains_iff_mem, List.mem_filterMap,
    decide_eq_true_iff]
  constructor
  · rintro ⟨item, hitem, hflag⟩
    cases item with
    | bare v =>
      obtain rfl : v = w := by simpa [Item.constraint?] using hflag
      exact hitem
    | negated v => simp [Item.constraint?] at hflag
    | assigned k v => simp [Item.constraint?] at hflag
  · exact fun hitem => ⟨_, hitem, rfl⟩

theorem lastValue?_items (items : List Item) (key : String) :
    Constraint.lastValue? (items.filterMap Item.constraint?) key = lastValue? items key := by
  rw [Constraint.lastValue?, List.filterMap_filterMap, lastValue?]
  congr 2
  funext item
  cases item <;> rfl

/-! ## 4. The order of items -/

namespace Source

theorem length_valuesFor_le (key : String) : ∀ items : List Item,
    (items.filterMap (Item.valueFor? key)).length ≤ (items.filterMap Item.key?).count key
  | [] => Nat.le_refl 0
  | item :: items => by
    have ih := length_valuesFor_le key items
    cases item with
    | bare w => exact ih
    | negated w => exact ih
    | assigned k v =>
      simp only [List.filterMap_cons, Item.key?, Item.valueFor?]
      by_cases hk : k = key
      · subst hk
        rw [List.count_cons_self]
        by_cases hv : v.text = ""
        · simpa [hv] using Nat.le_succ_of_le ih
        · simpa [hv] using ih
      · rw [List.count_cons_of_ne hk, if_neg (by simp [hk])]
        exact ih

/-- **Items with pairwise different keys give the same values in any order.** -/
theorem lastValue?_perm {items items' : List Item} (h : items.Perm items')
    (hkeys : (items.filterMap Item.key?).Nodup) (key : String) :
    lastValue? items' key = lastValue? items key := by
  have hone : (items.filterMap (Item.valueFor? key)).length ≤ 1 :=
    Nat.le_trans (length_valuesFor_le key items) (List.nodup_iff_count.mp hkeys key)
  have hvalues := h.filterMap (Item.valueFor? key)
  rw [lastValue?, lastValue?]
  rcases hlist : items.filterMap (Item.valueFor? key) with _ | ⟨v, _ | ⟨w, vs⟩⟩
  · rw [hlist] at hvalues
    rw [hvalues.nil_eq]
  · rw [hlist] at hvalues
    rw [hvalues.singleton_eq]
  · simp [hlist] at hone

end Source

end ContextAtlas
