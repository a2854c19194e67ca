/-
# Closed vocabularies

A closed vocabulary is a finite type whose members are written with fixed, pairwise different
words: built-in types, visibilities, knowledge levels and so on. `Spelled.read?` finds the member
that a word names; `read?_spell` says that the word of a member names that member.
-/

namespace ContextAtlas

/-- A finite type whose members have fixed spellings. -/
class Spelled (α : Type) where
  /-- Every member, in order of declaration. -/
  all : List α
  /-- How a member is written. -/
  spell : α → String
  /-- No two members share a spelling, and every member is listed. -/
  find_spell : ∀ a, all.find? (fun b => spell b == spell a) = some a

namespace Spelled

variable {α : Type} [Spelled α]

/-- The member that a word names. -/
def read? (word : String) : Option α :=
  (all : List α).find? fun b => spell b == word

@[simp] theorem read?_spell (a : α) : read? (spell a) = some a := find_spell a

theorem spell_of_read? {word : String} {a : α} (h : read? word = some a) : spell a = word := by
  simpa using List.find?_some h

end Spelled

end ContextAtlas
