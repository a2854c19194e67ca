/-
# Written references are read

A reference is written as an optional minus, an optional visibility, a target that may stand in a
collection and behind a sigil, a name, any number of items, and any number of semicolons.  An item
is one of an attribute, or `cascade` with a value, or `opposite` with a word.

The items are read three times: for the constraints, for the value of `cascade`, and for the word
behind `opposite`.  Each time the reader passes over what the other two look for, so the readings
agree on where an item ends.

* `Source.TrailerItem`, `Source.Reference`: what is written, and the reference that is meant;
* `readAll_trailer`, `assigned?_trailer`, `wordAfter?_trailer`: the three readings of the items;
* `Reference.read?_written`: what is written is read as what is meant;
* `Reference.ofLine_writtenReference`: so is a line with semicolons at its end.

A word `cascade` or `opposite` in another place would be taken for the keyword of an item, and a
constraint behind `opposite` for an item of its own, so a written reference has none.
-/
import ContextAtlas.Member.Reference
import ContextAtlas.Proofs.TypeRef.Grammar
import ContextAtlas.Proofs.Written.Constraint
import ContextAtlas.Proofs.Written.Document

namespace ContextAtlas

namespace Source

/-! ## 1. Written items -/

/-- An item behind the name of a reference as it is written. -/
inductive TrailerItem where
  | plain (item : Item)
  | opposite (hasSigil : Bool) (argument : String)
  | cascade (value : Value) (not_number : ∀ s, value ≠ .number s)
deriving DecidableEq

/-- The words of a value. -/
def Value.words : Value → List String
  | word w => [w]
  | string _ | number _ => []

/-- The words of an item. -/
def Item.words : Item → List String
  | bare w | negated w => [w]
  | assigned k v => k :: v.words

namespace TrailerItem

/-- How an item is written. -/
def lexemes : TrailerItem → List Lexeme
  | plain item => item.lexemes
  | opposite s w => .word "opposite" :: (optionalSigil s ++ [.word w])
  | cascade v _ => [.word "cascade", .mark .equals, v.lexeme]

/-- The word that an item starts with whatever it says. -/
def keyword? : TrailerItem → Option String
  | plain _ => none
  | opposite _ _ => some "opposite"
  | cascade _ _ => some "cascade"

/-- The words of an item, its keyword aside. -/
def words : TrailerItem → List String
  | plain item => item.words
  | opposite _ w => [w]
  | cascade v _ => v.words

/-- The constraints that an item is read as. -/
def constraints : TrailerItem → List Constraint
  | plain item => item.constraint?.toList
  | opposite _ w => [.flag "opposite", .flag w]
  | cascade v _ => [.value "cascade" v.text]

/-- The word that an item states as the opposite. -/
def opposite? : TrailerItem → Option String
  | opposite _ w => some w
  | _ => none

/-- The value that an item states for `cascade`. -/
def cascade? : TrailerItem → Option String
  | cascade v _ => some v.text
  | _ => none

theorem mem_words {item : TrailerItem} {w : String} (h : .word w ∈ item.lexemes) :
    w ∈ item.words ∨ item.keyword? = some w := by
  cases item with
  | plain item =>
    left
    rcases item with v | v | ⟨k, v | v | v⟩ <;>
      simpa [lexemes, Item.lexemes, Value.lexeme, words, Item.words, Value.words] using h
  | opposite s v =>
    cases s <;> simpa [lexemes, optionalSigil, words, keyword?, or_comm, eq_comm] using h
  | cascade v hv =>
    cases v <;>
      simpa [lexemes, Value.lexeme, words, Value.words, keyword?, or_comm, eq_comm] using h

theorem semicolon_not_mem (item : TrailerItem) : .mark .semicolon ∉ item.lexemes := by
  cases item with
  | plain item => exact item.semicolon_not_mem
  | opposite s w => cases s <;> simp [lexemes, optionalSigil]
  | cascade v hv => exact (Item.assigned "cascade" v).semicolon_not_mem

end TrailerItem

/-! ## 2. Written references -/

/-- How a collection is opened, if there is one. -/
def wrapperRow (c : Option CollectionType) : List Lexeme :=
  c.elim [] fun c => [.word (Spelled.spell c), .mark .openAngle]

/-- A reference as it is written. -/
structure Reference where
  hasMinus : Bool
  visibility : Option Visibility
  wrapper : Option CollectionType
  hasSigil : Bool
  target : String
  name : String
  items : List TrailerItem
  /-- How many semicolons end the line. -/
  terminators : Nat
  target_not_visibility : target ∉ visibilityWords
  words_ne : ∀ item ∈ items, ∀ w ∈ item.words, w ∉ ["opposite", "cascade"]
  opposite_not_constraint : ∀ item ∈ items, ∀ w ∈ item.opposite?, w ∉ ["required", "nullable"]

namespace Reference

/-- How the target and all behind it is written up to the semicolons. -/
def targetLexemes (r : Reference) : List Lexeme :=
  optionalSigil r.hasSigil ++ .word r.target
    :: ((if r.wrapper.isSome then [.mark .closeAngle] else [])
      ++ .word r.name :: r.items.flatMap TrailerItem.lexemes)

/-- How a reference is written up to its semicolons. -/
def bodyLexemes (r : Reference) : List Lexeme :=
  (if r.hasMinus then [.mark .minus] else [])
    ++ (visibilityRow r.visibility ++ (wrapperRow r.wrapper ++ r.targetLexemes))

/-- How a reference is written. -/
def lexemes (r : Reference) : List Lexeme :=
  r.bodyLexemes ++ List.replicate r.terminators (.mark .semicolon)

/-- The reference that is meant.  A constraint holds if its word is an item of its own; of several
values for `cascade`, and of several opposites, the first one counts. -/
def meaning (r : Reference) : ContextAtlas.Reference where
  name := r.name
  target := r.target
  wrapper := r.wrapper
  visibility := r.visibility
  required := decide (.plain (.bare "required") ∈ r.items)
  nullable := decide (.plain (.bare "nullable") ∈ r.items)
  cascade := r.items.findSome? TrailerItem.cascade?
  opposite := r.items.findSome? TrailerItem.opposite?

theorem head?_ne_minus (r : Reference) :
    (visibilityRow r.visibility ++ (wrapperRow r.wrapper ++ r.targetLexemes)).head?
      ≠ some (.mark .minus) := by
  rw [targetLexemes]
  rcases r.visibility with _ | v
  · rcases r.wrapper with _ | c
    · cases r.hasSigil <;> simp [visibilityRow, wrapperRow, optionalSigil]
    · simp [visibilityRow, wrapperRow]
  · simp [visibilityRow]

theorem head?_not_visibility (r : Reference) {w : String}
    (h : (wrapperRow r.wrapper ++ r.targetLexemes).head? = some (.word w)) :
    w ∉ visibilityWords := by
  cases hwrapper : r.wrapper with
  | none =>
    cases hsigil : r.hasSigil with
    | false =>
      obtain rfl : r.target = w := by
        simpa [hwrapper, wrapperRow, targetLexemes, hsigil, optionalSigil] using h
      exact r.target_not_visibility
    | true => simp [hwrapper, wrapperRow, targetLexemes, hsigil, optionalSigil] at h
  | some c =>
    obtain rfl : Spelled.spell c = w := by simpa [hwrapper, wrapperRow] using h
    cases c <;> decide

theorem head?_tail_ne_openAngle (r : Reference) (hnone : r.wrapper = none) :
    r.targetLexemes.tail.head? ≠ some (.mark .openAngle) := by
  rw [targetLexemes, hnone]
  cases r.hasSigil <;> simp [optionalSigil]

theorem getLast?_bodyLexemes (r : Reference) :
    r.bodyLexemes.getLast? ≠ some (.mark .semicolon) := by
  simp only [bodyLexemes, targetLexemes, ← List.append_assoc, ← List.cons_append]
  refine getLast?_ne_semicolon (List.not_mem_cons_of_ne_of_not_mem nofun fun h => ?_)
  obtain ⟨item, -, hmem⟩ := List.mem_flatMap.mp h
  exact item.semicolon_not_mem hmem

end Reference

end Source

open Source

namespace Reference

/-! ## 3. The three readings of the items -/

section

variable {r : Source.Reference} {trailer : List Token}

theorem standsFor_trailerItem : ∀ item : TrailerItem, StandsFor item.lexemes item.constraints
  | .plain item => standsFor_item item
  | .cascade v _ => standsFor_item (.assigned "cascade" v)
  | .opposite s w => by
    have hsigil : StandsFor (optionalSigil s) [] := by
      cases s with
      | false => exact .nil
      | true => exact standsFor_sigil
    exact (standsFor_item (.bare "opposite")).append (hsigil.append (standsFor_item (.bare w)))

theorem readAll_trailer {items : List TrailerItem}
    (h : trailer.map Token.lexeme = items.flatMap TrailerItem.lexemes) :
    Constraint.readAll trailer = items.flatMap TrailerItem.constraints :=
  (StandsFor.flatMap fun item (_ : item ∈ items) => standsFor_trailerItem item).readAll_eq h

/-- A word that no opposite is called is a flag if it stands there as an item of its own. -/
theorem isFlagged_trailer {items : List TrailerItem} {w : String} (hw : w ≠ "opposite")
    (hopposite : ∀ item ∈ items, item.opposite? ≠ some w) :
    Constraint.isFlagged (items.flatMap TrailerItem.constraints) w
      = decide (.plain (.bare w) ∈ items) := by
  rw [Bool.eq_iff_iff, Constraint.isFlagged, List.contains_iff_mem, List.mem_flatMap,
    decide_eq_true_iff]
  constructor
  · rintro ⟨item, hitem, hflag⟩
    rcases item with (v | v | ⟨k, v⟩) | ⟨s, v⟩ | ⟨v, hv⟩
    · obtain rfl : w = v := by simpa [TrailerItem.constraints, Item.constraint?] using hflag
      exact hitem
    · simp [TrailerItem.constraints, Item.constraint?] at hflag
    · simp [TrailerItem.constraints, Item.constraint?] at hflag
    · obtain rfl : w = v := by simpa [TrailerItem.constraints, hw] using hflag
      exact absurd rfl (hopposite _ hitem)
    · simp [TrailerItem.constraints] at hflag
  · exact fun hitem => ⟨_, hitem, by simp [TrailerItem.constraints, Item.constraint?]⟩

/-- What is looked for in each item, and passed over where it is not, is found in the first item
that has it. -/
theorem eq_findSome?_of_items {found : TrailerItem → Option String}
    {read : List Token → Option String} (hnil : read [] = none) : ∀ {items : List TrailerItem},
    (∀ item ∈ items, ∀ front rest, front.map Token.lexeme = item.lexemes →
      read (front ++ rest) = (found item).or (read rest)) →
    ∀ {run : List Token}, run.map Token.lexeme = items.flatMap TrailerItem.lexemes →
      read run = items.findSome? found
  | [], _, run, h => by
    obtain rfl := List.map_eq_nil_iff.mp h
    exact hnil
  | item :: items, hitem, run, h => by
    obtain ⟨front, rest, rfl, hfront, hrest⟩ := List.map_eq_append_iff.mp h
    have ih := eq_findSome?_of_items hnil (fun i hi => hitem i (List.mem_cons_of_mem item hi)) hrest
    rw [hitem item List.mem_cons_self front rest hfront, ih, List.findSome?_cons]
    cases found item <;> rfl

/-- Where an item has another keyword, the tokens of the item are no such word. -/
theorem not_isWord_of_item {item : TrailerItem} {key : String} {front : List Token}
    (hwords : key ∉ item.words) (hkey : item.keyword? ≠ some key)
    (h : front.map Token.lexeme = item.lexemes) : ∀ t ∈ front, t.isWord key = false := by
  intro t ht
  rw [Token.isWord, decide_eq_false_iff_not]
  intro hword
  have hmem : t.lexeme ∈ item.lexemes := h ▸ List.mem_map_of_mem ht
  rw [hword] at hmem
  exact (TrailerItem.mem_words hmem).elim hwords hkey

theorem assigned?_trailer (h : trailer.map Token.lexeme = r.items.flatMap TrailerItem.lexemes) :
    assigned? "cascade" trailer = r.items.findSome? TrailerItem.cascade? := by
  refine eq_findSome?_of_items rfl (fun item hitem front rest hfront => ?_) h
  have hwords : "cascade" ∉ item.words := fun hw => r.words_ne item hitem _ hw (by decide)
  have hstep : ∀ (t : Token) (us : List Token), t.isWord "cascade" = false →
      assigned? "cascade" (t :: us) = assigned? "cascade" us := fun _ _ => assigned?_cons_of_ne
  cases item with
  | plain item => exact search_append hstep (not_isWord_of_item hwords nofun hfront)
  | opposite s w =>
    exact search_append hstep (not_isWord_of_item hwords (by simp [TrailerItem.keyword?]) hfront)
  | cascade v hv =>
    obtain ⟨t, front, rfl, ht, hfront⟩ := List.map_eq_cons_iff.mp hfront
    obtain ⟨u, front, rfl, hu, hfront⟩ := List.map_eq_cons_iff.mp hfront
    obtain ⟨x, rfl, hx⟩ := List.map_eq_singleton_iff.mp hfront
    have hkey : (t.isWord "cascade" && u.is .equals) = true := by
      simp [Token.isWord, ht, Token.is, hu]
    cases v with
    | string s => simp [assigned?, hkey, hx, Value.lexeme, TrailerItem.cascade?, Value.text]
    | number s => exact absurd rfl (hv s)
    | word s => simp [assigned?, hkey, hx, Value.lexeme, TrailerItem.cascade?, Value.text]

theorem pointedAt?_written {s : Bool} {w : String} {run : List Token}
    (h : run.map Token.lexeme = optionalSigil s ++ [.word w]) (rest : List Token) :
    (pointedAt? (run ++ rest)).bind Token.word? = some w := by
  cases s with
  | false =>
    obtain ⟨t, rfl, ht⟩ := List.map_eq_singleton_iff.mp h
    cases rest <;> simp [pointedAt?, Token.is, Token.word?, ht]
  | true =>
    obtain ⟨t, run, rfl, ht, hrun⟩ := List.map_eq_cons_iff.mp h
    obtain ⟨u, rfl, hu⟩ := List.map_eq_singleton_iff.mp hrun
    simp [pointedAt?, Token.is, Token.word?, ht, hu]

theorem wordAfter?_trailer (h : trailer.map Token.lexeme = r.items.flatMap TrailerItem.lexemes) :
    wordAfter? "opposite" trailer = r.items.findSome? TrailerItem.opposite? := by
  refine eq_findSome?_of_items rfl (fun item hitem front rest hfront => ?_) h
  have hwords : "opposite" ∉ item.words := fun hw => r.words_ne item hitem _ hw (by decide)
  have hstep : ∀ (t : Token) (us : List Token), t.isWord "opposite" = false →
      wordAfter? "opposite" (t :: us) = wordAfter? "opposite" us := fun _ _ => wordAfter?_cons_of_ne
  cases item with
  | plain item => exact search_append hstep (not_isWord_of_item hwords nofun hfront)
  | cascade v hv =>
    exact search_append hstep (not_isWord_of_item hwords (by simp [TrailerItem.keyword?]) hfront)
  | opposite s w =>
    obtain ⟨t, front, rfl, ht, hfront⟩ := List.map_eq_cons_iff.mp hfront
    simp [wordAfter?, Token.isWord, ht, pointedAt?_written hfront, TrailerItem.opposite?]

end

/-! ## 4. The target -/

theorem readWrapper_written {c : Option CollectionType} {run rest : List Token}
    (h : run.map Token.lexeme = wrapperRow c)
    (hnone : c = none → ∀ u ∈ rest.tail.head?, u.is .openAngle = false) :
    readWrapper (run ++ rest) = (c, rest) := by
  cases c with
  | none =>
    obtain rfl := List.map_eq_nil_iff.mp h
    rcases rest with _ | ⟨t, _ | ⟨u, rest⟩⟩
    · rfl
    · rfl
    · have hu : u.is .openAngle = false := hnone rfl u rfl
      simp only [List.nil_append, readWrapper, hu, Bool.false_eq_true, if_false]
      split <;> rfl
  | some c =>
    obtain ⟨t, run, rfl, ht, hrun⟩ := List.map_eq_cons_iff.mp h
    obtain ⟨u, rfl, hu⟩ := List.map_eq_singleton_iff.mp hrun
    simp [readWrapper, Token.word?, ht, Token.is, hu]

/-- Behind a minus, a visibility and the opening of a collection the reader is in front of the
target. -/
theorem readHead_written (r : Source.Reference) {minus front wrapped target : List Token}
    (hminus : minus.map Token.lexeme = if r.hasMinus then [.mark .minus] else [])
    (hfront : front.map Token.lexeme = visibilityRow r.visibility)
    (hwrapped : wrapped.map Token.lexeme = wrapperRow r.wrapper)
    (htarget : target.map Token.lexeme = r.targetLexemes) :
    readVisibility (afterOptional (·.is .minus) (minus ++ (front ++ (wrapped ++ target))))
        = (r.visibility, wrapped ++ target)
      ∧ readWrapper (wrapped ++ target) = (r.wrapper, target) := by
  have hbehind : (wrapped ++ target).map Token.lexeme
      = wrapperRow r.wrapper ++ r.targetLexemes := by
    rw [List.map_append, hwrapped, htarget]
  have hafter : afterOptional (·.is .minus) (minus ++ (front ++ (wrapped ++ target)))
      = front ++ (wrapped ++ target) := by
    refine afterOptional_written hminus (fun t ht => by simp [Token.is, ht]) fun _ t ht => ?_
    have hhead := head?_lexemes (by rw [List.map_append, hfront, hbehind]) t ht
    rw [Token.is, decide_eq_false_iff_not]
    intro hmark
    exact r.head?_ne_minus (hmark ▸ hhead)
  refine ⟨?_, readWrapper_written hwrapped fun hnone u hu => ?_⟩
  · rw [hafter]
    refine readVisibility_written hfront ?_ fun _ t ht => ?_
    · intro hnil
      simp [hnil, Source.Reference.targetLexemes] at hbehind
    · refine word?_bind_read?_eq_none fun w hw => r.head?_not_visibility ?_
      rw [head?_lexemes hbehind t ht, hw]
  · rw [Token.is, decide_eq_false_iff_not]
    intro hmark
    have hhead := head?_lexemes (by rw [List.map_tail, htarget]) u hu
    exact r.head?_tail_ne_openAngle hnone (hmark ▸ hhead)

/-- **What is written is read as the reference that is meant.** -/
theorem read?_written (r : Source.Reference) {run : List Token}
    (h : run.map Token.lexeme = r.bodyLexemes) : read? run = .ok r.meaning := by
  obtain ⟨minus, rest, rfl, hminus, hrest⟩ := List.map_eq_append_iff.mp h
  obtain ⟨front, rest, rfl, hfront, hrest⟩ := List.map_eq_append_iff.mp hrest
  obtain ⟨wrapped, target, rfl, hwrapped, htarget⟩ := List.map_eq_append_iff.mp hrest
  obtain ⟨hvisibility, hwrapper⟩ := readHead_written r hminus hfront hwrapped htarget
  obtain ⟨sigil, rest, rfl, hsigil, hrest⟩ := List.map_eq_append_iff.mp htarget
  obtain ⟨pointed, rest, rfl, hpointed, hrest⟩ := List.map_eq_cons_iff.mp hrest
  obtain ⟨closing, rest, rfl, hclosing, hrest⟩ := List.map_eq_append_iff.mp hrest
  obtain ⟨named, trailer, rfl, hnamed, htrailer⟩ := List.map_eq_cons_iff.mp hrest
  have hpoint : afterOptional (·.is .sigil) (sigil ++ pointed :: (closing ++ named :: trailer))
      = pointed :: (closing ++ named :: trailer) :=
    afterOptional_written hsigil (fun t ht => by simp [Token.is, ht])
      fun _ => by simp [Token.is, hpointed]
  have hclose : afterOptional (·.is .closeAngle) (closing ++ named :: trailer) = named :: trailer :=
    afterOptional_written hclosing (fun t ht => by simp [Token.is, ht])
      fun _ => by simp [Token.is, hnamed]
  have htargetWord : pointed.word? = some r.target := by simp [Token.word?, hpointed]
  have hname : named.word? = some r.name := by simp [Token.word?, hnamed]
  have hflag : ∀ w ∈ ["required", "nullable"],
      Constraint.isFlagged (Constraint.readAll trailer) w
        = decide (.plain (.bare w) ∈ r.items) := by
    intro w hw
    rw [readAll_trailer htrailer]
    refine isFlagged_trailer (by rintro rfl; simp at hw) fun item hitem hopposite => ?_
    exact r.opposite_not_constraint item hitem w hopposite hw
  simp only [read?, hvisibility, hwrapper, hpoint, htargetWord, hclose, hname,
    hflag "required" (by decide), hflag "nullable" (by decide), assigned?_trailer htrailer,
    wordAfter?_trailer htrailer]
  rfl

/-- **A written line is read as the reference that is meant**: with its collection, its target, its
name and its visibility, with `required` and `nullable` where these stand there as items of their
own, with the first value for `cascade` and the first opposite. -/
theorem ofLine_writtenReference (r : Source.Reference) {line : List Token}
    (h : line.map Token.lexeme = r.lexemes) : ofLine line = .matched r.meaning := by
  obtain ⟨run, terminators, rfl, hrun, hterminators⟩ := List.map_eq_append_iff.mp h
  rw [ofLine, withoutTerminators_spelled (hrun ▸ r.getLast?_bodyLexemes) hterminators,
    read?_written r hrun]
  rfl

end Reference

namespace Source

/-- `- private Set<@Order> orders`, and behind it two values for `cascade` and two opposites among
other items. -/
def sampleReference : Reference where
  hasMinus := true
  visibility := some .private
  wrapper := some .set
  hasSigil := true
  target := "Order"
  name := "orders"
  items := [.plain (.negated "required"), .opposite true "customer", .plain (.bare "nullable"),
    .cascade (.word "key") nofun, .plain (.assigned "required" (.string "cascade")),
    .opposite false "max", .cascade (.string "all") nofun]
  terminators := 1
  target_not_visibility := by decide
  words_ne := by decide
  opposite_not_constraint := by decide

end Source

/-- The first opposite and the first value for `cascade` count, and neither a word that is taken
away nor a key is a constraint. -/
theorem Reference.ofLine_writtenReference_sample :
    ofLine (lex ("- private Set<@Order> orders !required opposite @customer nullable cascade=key "
        ++ "required=\"cascade\" opposite max cascade=\"all\";").toList)
      = .matched
          { name := "orders"
            target := "Order"
            wrapper := some .set
            visibility := some .private
            nullable := true
            cascade := some "key"
            opposite := some "customer" } :=
  (ofLine_writtenReference sampleReference (by decide +kernel)).trans (by decide +kernel)

end ContextAtlas
