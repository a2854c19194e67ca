/-
# The grammar of type references

A type is written as a name, as a wrapper around one argument, or as a map of two, and in front of
each of these may stand a sigil.  The reader accepts exactly what is written so, as long as the
arguments nest no deeper than it goes.

* `Source.TypeTerm`: a written type, its lexemes, its text, its depth, and the type that is meant;
* `spell_meaning`: the type that is meant spells the text;
* `TypeTerm.bare`: a type without its sigils, which means the same;
* `exists_term_of_readWithin`: the tokens that are read as a type spell one;
* `readWithin_spelled`: tokens that spell a type are read as the type that is meant, or not at all
  where it nests too deep;
* `TypeRef.read?_eq_some_iff`: what is read and what is written, in one statement.

A bare name in front of an opening angle is no type of its own: the angle belongs to it.  All other
types end with their closing angle, whatever stands behind (`TypeTerm.EndsBefore`).
-/
import ContextAtlas.Token.Lexer
import ContextAtlas.TypeRef.Reader

namespace ContextAtlas

namespace Source

/-! ## 1. Written types -/

/-- A type as it is written.  A wrapper with one argument is no map. -/
inductive TypeTerm where
  | name (hasSigil : Bool) (text : String)
  | wrapper (hasSigil : Bool) (text : String) (text_ne : text ≠ "Map") (argument : TypeTerm)
  | map (hasSigil : Bool) (key value : TypeTerm)

/-- An optional sigil. -/
def optionalSigil (hasSigil : Bool) : List Lexeme := if hasSigil then [.mark .sigil] else []

theorem mem_optionalSigil {s : Bool} {x : Lexeme} (h : x ∈ optionalSigil s) : x = .mark .sigil := by
  cases s <;> simp_all [optionalSigil]

namespace TypeTerm

/-- How many levels the arguments of a type nest. -/
def depth : TypeTerm → Nat
  | name _ _ => 0
  | wrapper _ _ _ t => t.depth + 1
  | map _ k v => max k.depth v.depth + 1

/-- How a type is written. -/
def lexemes : TypeTerm → List Lexeme
  | name s w => optionalSigil s ++ [.word w]
  | wrapper s w _ t =>
    optionalSigil s ++ .word w :: .mark .openAngle :: (t.lexemes ++ [.mark .closeAngle])
  | map s k v =>
    optionalSigil s ++ .word "Map" :: .mark .openAngle
      :: (k.lexemes ++ .mark .comma :: (v.lexemes ++ [.mark .closeAngle]))

/-- What is written, without blanks and without sigils. -/
def text (T : TypeTerm) : String :=
  String.join ((T.lexemes.filter fun x => !decide (x = .mark .sigil)).map Lexeme.value)

/-- The type that is meant.  A wrapper that is no collection is a name of its own, as it is
written. -/
def meaning : TypeTerm → TypeRef
  | name _ w =>
    match Spelled.read? w with
    | some p => .primitive p
    | none => .named w
  | wrapper s w hw t =>
    match Spelled.read? w with
    | some c => .collection c t.meaning
    | none => .named (wrapper s w hw t).text
  | map _ k v => .map k.meaning v.meaning

/-- Whether a type ends where the given tokens start. -/
def EndsBefore : TypeTerm → List Token → Prop
  | name _ _, rest => ∀ t ∈ rest.head?, t.is .openAngle = false
  | _, _ => True

theorem endsBefore_of_head {T : TypeTerm} {rest : List Token}
    (h : ∀ t ∈ rest.head?, t.is .openAngle = false) : T.EndsBefore rest := by
  cases T with
  | name s w => exact h
  | wrapper s w hw t => trivial
  | map s k v => trivial

/-! ## 2. Texts and meanings -/

section

variable (s : Bool) (w : String) (t k v : TypeTerm)

@[simp] theorem filter_optionalSigil :
    (optionalSigil s).filter (fun x => !decide (x = .mark .sigil)) = [] := by
  cases s <;> rfl

@[simp] theorem text_name : (name s w).text = w := by
  simp [text, lexemes, Lexeme.value]

@[simp] theorem text_wrapper (hw : w ≠ "Map") :
    (wrapper s w hw t).text = w ++ "<" ++ t.text ++ ">" := by
  simp [text, lexemes, Lexeme.value, Mark.text, String.append_assoc]

@[simp] theorem text_map : (map s k v).text = "Map<" ++ k.text ++ "," ++ v.text ++ ">" := by
  have hmap (x : String) : "Map<" ++ x = "Map" ++ ("<" ++ x) := by
    rw [← String.append_assoc]
    rfl
  simp [text, lexemes, Lexeme.value, Mark.text, hmap, String.append_assoc]

end

/-- The type that is meant is spelled as it is written. -/
theorem spell_meaning : ∀ T : TypeTerm, T.meaning.spell = T.text
  | name s w => by
    rw [text_name, meaning]
    split
    · next p hp => exact Spelled.spell_of_read? hp
    · rfl
  | wrapper s w hw t => by
    rw [meaning]
    split
    · next c hc => rw [TypeRef.spell, Spelled.spell_of_read? hc, spell_meaning t, text_wrapper]
    · rfl
  | map s k v => by
    rw [meaning, TypeRef.spell, spell_meaning k, spell_meaning v, text_map]

theorem meaning_name (s : Bool) (w : String) : (name s w).meaning = .ofName w := rfl

theorem meaning_wrapper (s : Bool) (w : String) (hw : w ≠ "Map") (t : TypeTerm) :
    (wrapper s w hw t).meaning = .ofWrapper w t.meaning := by
  have htext : (wrapper s w hw t).text = w ++ "<" ++ t.meaning.spell ++ ">" := by
    rw [text_wrapper, spell_meaning]
  rw [meaning, htext]
  rfl

/-! ## 3. Sigils -/

/-- A type without its sigils. -/
def bare : TypeTerm → TypeTerm
  | name _ w => name false w
  | wrapper _ w hw t => wrapper false w hw t.bare
  | map _ k v => map false k.bare v.bare

theorem lexemes_bare : ∀ T : TypeTerm,
    T.bare.lexemes = T.lexemes.filter fun x => !decide (x = .mark .sigil)
  | name s w => by simp [bare, lexemes, optionalSigil]
  | wrapper s w hw t => by simp [bare, lexemes, optionalSigil, lexemes_bare t]
  | map s k v => by simp [bare, lexemes, optionalSigil, lexemes_bare k, lexemes_bare v]

@[simp] theorem depth_bare : ∀ T : TypeTerm, T.bare.depth = T.depth
  | name s w => rfl
  | wrapper s w hw t => by rw [bare, depth, depth, depth_bare t]
  | map s k v => by rw [bare, depth, depth, depth_bare k, depth_bare v]

@[simp] theorem meaning_bare : ∀ T : TypeTerm, T.bare.meaning = T.meaning
  | name s w => rfl
  | wrapper s w hw t => by rw [bare, meaning_wrapper, meaning_wrapper, meaning_bare t]
  | map s k v => by rw [bare, meaning, meaning, meaning_bare k, meaning_bare v]

theorem lexemes_ne_nil (T : TypeTerm) : T.lexemes ≠ [] := by cases T <;> simp [lexemes]

/-- A type is written with words and the marks of types. -/
theorem mem_lexemes : ∀ {T : TypeTerm} {x : Lexeme}, x ∈ T.lexemes →
    (∃ w, x = .word w) ∨ ∃ m ∈ [Mark.sigil, .openAngle, .closeAngle, .comma], x = .mark m
  | name s w, x, hx => by
    simp only [lexemes, List.mem_append, List.mem_singleton] at hx
    rcases hx with hx | rfl
    · exact .inr ⟨.sigil, by decide, mem_optionalSigil hx⟩
    · exact .inl ⟨w, rfl⟩
  | wrapper s w hw t, x, hx => by
    simp only [lexemes, List.mem_append, List.mem_cons, List.not_mem_nil, or_false] at hx
    rcases hx with hx | rfl | rfl | hx | rfl
    · exact .inr ⟨.sigil, by decide, mem_optionalSigil hx⟩
    · exact .inl ⟨w, rfl⟩
    · exact .inr ⟨.openAngle, by decide, rfl⟩
    · exact mem_lexemes hx
    · exact .inr ⟨.closeAngle, by decide, rfl⟩
  | map s k v, x, hx => by
    simp only [lexemes, List.mem_append, List.mem_cons, List.not_mem_nil, or_false] at hx
    rcases hx with hx | rfl | rfl | hx | rfl | hx | rfl
    · exact .inr ⟨.sigil, by decide, mem_optionalSigil hx⟩
    · exact .inl ⟨"Map", rfl⟩
    · exact .inr ⟨.openAngle, by decide, rfl⟩
    · exact mem_lexemes hx
    · exact .inr ⟨.comma, by decide, rfl⟩
    · exact mem_lexemes hx
    · exact .inr ⟨.closeAngle, by decide, rfl⟩

end TypeTerm

end Source

open Source

/-! ## 4. Tokens -/

section

variable {t : Token} {ts rest : List Token}

/-- A type is written with the marks of types only. -/
theorem not_is_of_mem_lexemes {T : TypeTerm} {m : Mark} (h : t.lexeme ∈ T.lexemes)
    (hm : m ∉ [Mark.sigil, .openAngle, .closeAngle, .comma]) : t.is m = false := by
  rcases TypeTerm.mem_lexemes h with ⟨w, hw⟩ | ⟨m', hm', hmark⟩
  · simp [Token.is, hw]
  · have hne : m' ≠ m := fun h => hm (h ▸ hm')
    simp [Token.is, hmark, hne]

/-- Tokens that spell a type have its text as their values, the sigils left out. -/
theorem join_values_of_spelled {T : TypeTerm} {run : List Token}
    (h : run.map Token.lexeme = T.lexemes) :
    String.join ((run.filter (!·.is .sigil)).map Token.value) = T.text := by
  rw [TypeTerm.text, ← h, List.filter_map, List.map_map]
  rfl

theorem eq_of_expect? {m : Mark} (h : TypeRef.expect? m ts = some rest) :
    ∃ t, ts = t :: rest ∧ t.is m = true := by
  cases ts with
  | nil => cases h
  | cons t r =>
    by_cases ht : t.is m = true
    · obtain rfl : r = rest := by simpa [TypeRef.expect?, ht] using h
      exact ⟨t, rfl, ht⟩
    · simp [TypeRef.expect?, ht] at h

theorem head?_of_expect?_eq_none {m : Mark} (h : TypeRef.expect? m ts = none) :
    ∀ t ∈ ts.head?, t.is m = false := by
  cases ts with
  | nil => simp
  | cons t r => simpa [TypeRef.expect?] using h

theorem expect?_eq_none {m : Mark} (h : ∀ t ∈ ts.head?, t.is m = false) :
    TypeRef.expect? m ts = none := by
  cases ts with
  | nil => rfl
  | cons t r => simp [TypeRef.expect?, h t rfl]

theorem expect?_cons {m : Mark} (h : t.lexeme = .mark m) :
    TypeRef.expect? m (t :: rest) = some rest := by
  simp [TypeRef.expect?, Token.is, h]

/-- In front of a type stands a sigil or nothing. -/
theorem exists_of_afterSigil (ts : List Token) :
    ∃ (s : Bool) (front : List Token), ts = front ++ TypeRef.afterSigil ts
      ∧ front.map Token.lexeme = optionalSigil s := by
  rcases ts with _ | ⟨t, r⟩
  · exact ⟨false, [], rfl, rfl⟩
  · by_cases ht : t.is .sigil = true
    · exact ⟨true, [t], by simp [TypeRef.afterSigil, ht],
        by simp [optionalSigil, Token.lexeme_of_is ht]⟩
    · exact ⟨false, [], by simp [TypeRef.afterSigil, ht], rfl⟩

/-- Behind an optional sigil in front of a word stands the word. -/
theorem afterSigil_spelled {s : Bool} {w : String} {row : List Lexeme} {run : List Token}
    (h : run.map Token.lexeme = optionalSigil s ++ .word w :: row) (rest : List Token) :
    ∃ t r, TypeRef.afterSigil (run ++ rest) = t :: (r ++ rest) ∧ t.word? = some w
      ∧ r.map Token.lexeme = row := by
  have hword : ∀ {t : Token}, t.lexeme = .word w → t.word? = some w ∧ t.is .sigil = false := by
    intro t ht
    simp [Token.word?, Token.is, ht]
  cases s with
  | true =>
    obtain ⟨u, run, rfl, hu, hrun⟩ := List.map_eq_cons_iff.mp h
    obtain ⟨t, r, rfl, ht, hr⟩ := List.map_eq_cons_iff.mp hrun
    exact ⟨t, r, by simp [TypeRef.afterSigil, Token.is, hu], (hword ht).1, hr⟩
  | false =>
    obtain ⟨t, r, rfl, ht, hr⟩ := List.map_eq_cons_iff.mp h
    exact ⟨t, r, by simp [TypeRef.afterSigil, (hword ht).2], (hword ht).1, hr⟩

end

namespace TypeRef

/-! ## 5. What is read was written -/

/-- The tokens that are read as a type spell one that is no deeper than the levels allow. -/
theorem exists_term_of_readWithin {levels : Nat} {ts rest : List Token} {type : TypeRef}
    (h : readWithin levels ts = some (type, rest)) :
    ∃ (T : TypeTerm) (run : List Token), ts = run ++ rest ∧ run.map Token.lexeme = T.lexemes
      ∧ T.depth < levels ∧ T.EndsBefore rest ∧ type = T.meaning := by
  induction levels generalizing ts rest type with
  | zero => simp [readWithin] at h
  | succ levels ih =>
    obtain ⟨s, front, hts, hfront⟩ := exists_of_afterSigil ts
    simp only [readWithin] at h
    split at h
    · cases h
    next t r hsigil =>
    rw [hsigil] at hts
    split at h
    · cases h
    next name hname =>
    have hlexeme := Token.lexeme_of_word? hname
    split at h
    · next hbare =>
      cases h
      refine ⟨.name s name, front ++ [t], by simp [hts], ?_, Nat.succ_pos _,
        head?_of_expect?_eq_none hbare, rfl⟩
      simp [TypeTerm.lexemes, hfront, hlexeme]
    next arguments hopen =>
    obtain ⟨u, rfl, hu⟩ := eq_of_expect? hopen
    split at h
    · next hmap =>
      simp only [Option.bind_eq_bind, Option.bind_eq_some_iff, Option.some.injEq,
        Prod.mk.injEq] at h
      obtain ⟨⟨key, afterKey⟩, hkey, afterComma, hcomma, ⟨value, afterValue⟩, hvalue, last, hlast,
        rfl, rfl⟩ := h
      obtain ⟨c, rfl, hc⟩ := eq_of_expect? hcomma
      obtain ⟨v, rfl, hv⟩ := eq_of_expect? hlast
      obtain ⟨K, keyRun, rfl, hkeyRun, hkeyDepth, -, rfl⟩ := ih hkey
      obtain ⟨V, valueRun, rfl, hvalueRun, hvalueDepth, -, rfl⟩ := ih hvalue
      refine ⟨.map s K V, front ++ t :: u :: (keyRun ++ c :: (valueRun ++ [v])), by simp [hts], ?_,
        Nat.succ_lt_succ (Nat.max_lt.mpr ⟨hkeyDepth, hvalueDepth⟩), trivial, rfl⟩
      simp [TypeTerm.lexemes, hfront, hlexeme, hmap, hkeyRun, hvalueRun, Token.lexeme_of_is hu,
        Token.lexeme_of_is hc, Token.lexeme_of_is hv]
    · next hmap =>
      simp only [Option.bind_eq_bind, Option.bind_eq_some_iff, Option.some.injEq,
        Prod.mk.injEq] at h
      obtain ⟨⟨argument, afterArgument⟩, hargument, last, hlast, rfl, rfl⟩ := h
      obtain ⟨v, rfl, hv⟩ := eq_of_expect? hlast
      obtain ⟨A, run, rfl, hrun, hdepth, -, rfl⟩ := ih hargument
      refine ⟨.wrapper s name hmap A, front ++ t :: u :: (run ++ [v]), by simp [hts], ?_,
        Nat.succ_lt_succ hdepth, trivial, (TypeTerm.meaning_wrapper s name hmap A).symm⟩
      simp [TypeTerm.lexemes, hfront, hlexeme, hrun, Token.lexeme_of_is hu, Token.lexeme_of_is hv]

/-! ## 6. What is written is read -/

/-- **Tokens that spell a type are read as the type that is meant, if there are levels enough for
its depth, and otherwise not at all.** -/
theorem readWithin_spelled : ∀ (levels : Nat) {T : TypeTerm} {run rest : List Token},
    run.map Token.lexeme = T.lexemes → T.EndsBefore rest →
    readWithin levels (run ++ rest) = if T.depth < levels then some (T.meaning, rest) else none
  | 0, _, _, _, _, _ => rfl
  | levels + 1, .name s w, run, rest, h, hrest => by
    obtain ⟨t, r, hafter, ht, hr⟩ := afterSigil_spelled h rest
    obtain rfl := List.map_eq_nil_iff.mp hr
    simp [readWithin, hafter, ht, expect?_eq_none hrest, TypeTerm.depth, TypeTerm.meaning_name]
  | levels + 1, .wrapper s w hw a, run, rest, h, _ => by
    obtain ⟨t, r, hafter, ht, hr⟩ := afterSigil_spelled h rest
    obtain ⟨u, r, rfl, hu, hr⟩ := List.map_eq_cons_iff.mp hr
    obtain ⟨argument, last, rfl, hargument, hlast⟩ := List.map_eq_append_iff.mp hr
    obtain ⟨v, rfl, hv⟩ := List.map_eq_singleton_iff.mp hlast
    have hend : a.EndsBefore (v :: rest) := TypeTerm.endsBefore_of_head (by simp [Token.is, hv])
    have hread := readWithin_spelled levels hargument hend
    simp only [readWithin, hafter, ht, List.cons_append, List.append_assoc, List.nil_append,
      expect?_cons hu, if_neg hw, hread, TypeTerm.depth, Nat.add_lt_add_iff_right]
    split
    · simp [expect?_cons hv, TypeTerm.meaning_wrapper]
    · rfl
  | levels + 1, .map s k v, run, rest, h, _ => by
    obtain ⟨t, r, hafter, ht, hr⟩ := afterSigil_spelled h rest
    obtain ⟨u, r, rfl, hu, hr⟩ := List.map_eq_cons_iff.mp hr
    obtain ⟨key, r, rfl, hkey, hr⟩ := List.map_eq_append_iff.mp hr
    obtain ⟨c, r, rfl, hc, hr⟩ := List.map_eq_cons_iff.mp hr
    obtain ⟨value, last, rfl, hvalue, hlast⟩ := List.map_eq_append_iff.mp hr
    obtain ⟨w, rfl, hw⟩ := List.map_eq_singleton_iff.mp hlast
    have hendKey : k.EndsBefore (c :: (value ++ w :: rest)) :=
      TypeTerm.endsBefore_of_head (by simp [Token.is, hc])
    have hendValue : v.EndsBefore (w :: rest) :=
      TypeTerm.endsBefore_of_head (by simp [Token.is, hw])
    have hreadKey := readWithin_spelled levels hkey hendKey
    have hreadValue := readWithin_spelled levels hvalue hendValue
    simp only [readWithin, hafter, ht, List.cons_append, List.append_assoc, List.nil_append,
      expect?_cons hu, if_true, hreadKey, TypeTerm.depth, Nat.add_lt_add_iff_right, Nat.max_lt]
    by_cases hk : k.depth < levels
    · by_cases hv : v.depth < levels
      · simp [hk, hv, expect?_cons hc, hreadValue, expect?_cons hw, TypeTerm.meaning]
      · simp [hk, hv, expect?_cons hc, hreadValue]
    · simp [hk]

/-! ## 7. The reader and the grammar -/

/-- **A type is read exactly where tokens spell one that nests no deeper than the reader goes.** -/
theorem read?_eq_some_iff {ts rest : List Token} {type : TypeRef} :
    read? ts = some (type, rest) ↔ ∃ (T : TypeTerm) (run : List Token), ts = run ++ rest
      ∧ run.map Token.lexeme = T.lexemes ∧ T.depth ≤ maxTypeDepth ∧ T.EndsBefore rest
      ∧ type = T.meaning := by
  constructor
  · intro h
    obtain ⟨T, run, hts, hrun, hdepth, hrest, htype⟩ := exists_term_of_readWithin h
    exact ⟨T, run, hts, hrun, Nat.le_of_lt_succ hdepth, hrest, htype⟩
  · rintro ⟨T, run, rfl, hrun, hdepth, hrest, rfl⟩
    rw [read?, readWithin_spelled _ hrun hrest, if_pos (Nat.lt_succ_of_le hdepth)]

/-- **What is read as a type, and what is written as one.**  The tokens that are read spell a type
whose arguments nest at most 64 levels.  Tokens that spell a type, with no opening angle behind it,
are read as the type that is meant if its arguments nest at most 64 levels, and else not at all. -/
theorem read?_accepts_terms (ts : List Token) :
    (∀ type rest, read? ts = some (type, rest) →
      ∃ (T : TypeTerm) (run : List Token), ts = run ++ rest ∧ run.map Token.lexeme = T.lexemes
        ∧ T.depth ≤ 64 ∧ type = T.meaning)
      ∧ ∀ (T : TypeTerm) (run rest : List Token), ts = run ++ rest →
        run.map Token.lexeme = T.lexemes → (∀ t ∈ rest.head?, t.is .openAngle = false) →
        read? ts = if T.depth ≤ 64 then some (T.meaning, rest) else none := by
  constructor
  · intro type rest h
    obtain ⟨T, run, hts, hrun, hdepth, -, htype⟩ := read?_eq_some_iff.mp h
    exact ⟨T, run, hts, hrun, hdepth, htype⟩
  · intro T run rest hts hrun hrest
    subst hts
    rw [read?, readWithin_spelled _ hrun (TypeTerm.endsBefore_of_head hrest)]
    simp only [maxTypeDepth, Nat.lt_succ_iff]

/-- `List<List<...>>` around a name, so many levels deep. -/
def sampleNest : Nat → TypeTerm
  | 0 => .name false "String"
  | n + 1 => .wrapper false "List" (by decide) (sampleNest n)

/-- A map with sigils and a wrapper that is no collection is read up to the name behind it; lists
are read 64 levels deep, but not 65. -/
theorem read?_accepts_terms_sample :
    (read? (lex "@Map<Key,Optional<@Value>> name".toList)
      = some (.map (.named "Key") (.named "Optional<Value>"), [⟨.word "name", ⟨1, 28, 27⟩⟩]))
    ∧ (read? ((sampleNest 64).lexemes.map (⟨·, .start⟩))).isSome = true
    ∧ read? ((sampleNest 65).lexemes.map (⟨·, .start⟩)) = none := by
  refine ⟨?_, ?_, ?_⟩
  · have hsample := (read?_accepts_terms (lex "@Map<Key,Optional<@Value>> name".toList)).2
      (.map true (.name false "Key") (.wrapper false "Optional" (by decide) (.name true "Value")))
      ((lex "@Map<Key,Optional<@Value>> name".toList).take 11) [⟨.word "name", ⟨1, 28, 27⟩⟩]
      (by decide +kernel) (by decide +kernel) (by decide)
    rw [hsample]
    decide +kernel
  · have hnest := (read?_accepts_terms ((sampleNest 64).lexemes.map (⟨·, .start⟩))).2
      (sampleNest 64) _ [] (List.append_nil _).symm (by simp [Function.comp_def]) (by simp)
    rw [hnest]
    rfl
  · have hnest := (read?_accepts_terms ((sampleNest 65).lexemes.map (⟨·, .start⟩))).2
      (sampleNest 65) _ [] (List.append_nil _).symm (by simp [Function.comp_def]) (by simp)
    rw [hnest]
    rfl

end TypeRef

end ContextAtlas
