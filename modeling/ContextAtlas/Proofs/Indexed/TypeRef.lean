/-
# Reading type references by index

A type reference is read by a function that calls itself for the arguments, and is told how deep it
stands inside of others.  A call beyond `maxTypeDepth` finds nothing and makes no further call, so
none is ever made at a depth beyond `maxTypeDepth + 1`; one that were would be a fault.

A wrapper that is no collection is spelled from the tokens between two indices, where sigils are
left out.

* `typeRef`: the reader.
* `reads_wrapper`: the tokens of a wrapped type spell it.
* `typeRef_of_drop`: the reader gives what `TypeRef.readWithin` gives.
-/
import ContextAtlas.Member.Modifier
import ContextAtlas.Proofs.Indexed.Access
import ContextAtlas.Proofs.TypeRef.Grammar

namespace ContextAtlas.Indexed

/-! ## 1. The reader -/

/-- The text of a run of tokens without its sigils. -/
def spelledRun (run : List Token) : String :=
  String.join ((run.filter (!·.is .sigil)).map Token.value)

/-- The index behind a token of a kind if it stands there, or else the index itself. -/
def skipIf (p : Token → Bool) (ts : List Token) (i : Nat) : Run Nat := do
  if ← holdsAt p ts i then return i + 1 else return i

/-- The type reference at an index, for a call that is `depth` levels deep, and the index behind
it. -/
def typeRef (ts : List Token) (i depth : Nat) : Run (Option (TypeRef × Nat)) := do
  if maxTypeDepth + 1 < depth then throw .tooDeep
  else if _h : maxTypeDepth < depth then return none
  else
    let start ← skipIf (·.is .sigil) ts i
    match ← readAt Token.word? ts start with
    | none => return none
    | some name =>
      if ← holdsAt (·.is .openAngle) ts (start + 1) then
        if name = "Map" then
          match ← typeRef ts (start + 2) (depth + 1) with
          | none => return none
          | some (key, j) =>
            if ← holdsAt (·.is .comma) ts j then
              match ← typeRef ts (j + 1) (depth + 1) with
              | none => return none
              | some (value, k) =>
                if ← holdsAt (·.is .closeAngle) ts k then return some (.map key value, k + 1)
                else return none
            else return none
        else
          match ← typeRef ts (start + 2) (depth + 1) with
          | none => return none
          | some (argument, j) =>
            if ← holdsAt (·.is .closeAngle) ts j then
              match Spelled.read? name with
              | some wrapper => return some (.collection wrapper argument, j + 1)
              | none => return some (.named (spelledRun (slice ts start (j + 1))), j + 1)
            else return none
      else return some (.ofName name, start + 1)
termination_by maxTypeDepth + 1 - depth

/-! ## 2. The reader by index -/

section

variable {ts rest : List Token} {i : Nat}

theorem skipIf_of_drop (p : Token → Bool) (h : ts.drop i = rest) :
    ∃ j, skipIf p ts i = .ok j ∧ ts.drop j = afterOptional p rest := by
  have hp := holdsAt_of_drop p h
  rcases rest with _ | ⟨t, r⟩
  · exact ⟨i, by simp [skipIf, hp], h⟩
  · by_cases ht : p t = true
    · have hbehind : ts.drop (i + 1) = afterOptional p (t :: r) := by
        simpa [afterOptional, ht] using drop_succ_of_drop h
      exact ⟨i + 1, by simp [skipIf, hp, ht], hbehind⟩
    · exact ⟨i, by simp [skipIf, hp, ht], by simpa [afterOptional, ht] using h⟩

theorem afterSigil_eq_afterOptional (ts : List Token) :
    TypeRef.afterSigil ts = afterOptional (·.is .sigil) ts := by
  cases ts <;> rfl

theorem head?_any_is (m : Mark) (ts : List Token) :
    ts.head?.any (·.is m) = (TypeRef.expect? m ts).isSome := by
  rcases ts with _ | ⟨t, r⟩
  · rfl
  · by_cases ht : t.is m = true <;> simp [TypeRef.expect?, ht]

/-- Reading goes on behind a mark that is expected, or nothing is read. -/
theorem reads_of_expect {α : Type} (m : Mark) {run : Run (Option (α × Nat))}
    {next : List Token → Option (α × List Token)} (h : ts.drop i = rest)
    (hnext : ∀ behind, TypeRef.expect? m rest = some behind → ts.drop (i + 1) = behind →
      Reads ts run (next behind)) :
    Reads ts (do if ← holdsAt (·.is m) ts i then run else return none)
      ((TypeRef.expect? m rest).bind next) := by
  have hm := holdsAt_of_drop (·.is m) h
  rw [head?_any_is] at hm
  rcases hexpect : TypeRef.expect? m rest with _ | behind
  · simp [hm, hexpect, Reads]
  · obtain ⟨t, rfl, -⟩ := eq_of_expect? hexpect
    simpa [hm, hexpect] using hnext behind hexpect (drop_succ_of_drop h)

/-- A wrapper around an argument is a collection, or a type with the spelling of its tokens. -/
theorem reads_wrapper {levels start j : Nat} {name : String} {t : Token}
    {r arguments afterArgument behind : List Token} {argument : TypeRef}
    (hstart : ts.drop start = t :: r) (ht : t.word? = some name) (hname : name ≠ "Map")
    (hopen : TypeRef.expect? .openAngle r = some arguments)
    (hargument : TypeRef.readWithin levels arguments = some (argument, afterArgument))
    (hj : ts.drop j = afterArgument)
    (hlast : TypeRef.expect? .closeAngle afterArgument = some behind)
    (hbehind : ts.drop (j + 1) = behind) :
    Reads ts
      (match Spelled.read? name with
        | some wrapper => return some (.collection wrapper argument, j + 1)
        | none => return some (.named (spelledRun (slice ts start (j + 1))), j + 1))
      (some (TypeRef.ofWrapper name argument, behind)) := by
  have hspelled : spelledRun (slice ts start (j + 1)) = name ++ "<" ++ argument.spell ++ ">" := by
    obtain ⟨u, rfl, hu⟩ := eq_of_expect? hopen
    obtain ⟨v, rfl, hv⟩ := eq_of_expect? hlast
    obtain ⟨T, run, rfl, hrun, -, -, rfl⟩ := TypeRef.exists_term_of_readWithin hargument
    have hrest : ts.drop start = (t :: u :: (run ++ [v])) ++ behind := by simpa using hstart
    have hterm : (t :: u :: (run ++ [v])).map Token.lexeme
        = (Source.TypeTerm.wrapper false name hname T).lexemes := by
      simp [Source.TypeTerm.lexemes, Source.optionalSigil, hrun, Token.lexeme_of_word? ht,
        Token.lexeme_of_is hu, Token.lexeme_of_is hv]
    rw [slice_of_append hrest hbehind (Nat.le_of_lt (lt_length_of_drop hstart))
      (lt_length_of_drop hj), spelledRun, join_values_of_spelled hterm,
      Source.TypeTerm.text_wrapper, Source.TypeTerm.spell_meaning]
  refine ⟨j + 1, ?_, hbehind⟩
  cases hwrapper : (Spelled.read? name : Option CollectionType) <;>
    simp [TypeRef.ofWrapper, hwrapper, hspelled]

/-- **A call at depth `depth` gives what is read with the levels that are left.**  None is made at a
depth beyond the bound, so none is a fault. -/
theorem typeRef_of_drop {depth : Nat} (h : ts.drop i = rest) (hdepth : depth ≤ maxTypeDepth + 1) :
    Reads ts (typeRef ts i depth) (TypeRef.readWithin (maxTypeDepth + 1 - depth) rest) := by
  generalize hlevels : maxTypeDepth + 1 - depth = levels
  induction levels generalizing depth i rest with
  | zero =>
    have hdeep : maxTypeDepth < depth := by omega
    rw [typeRef, if_neg (by omega), dif_pos hdeep]
    rfl
  | succ levels ih =>
    have hshallow : ¬ maxTypeDepth < depth := by omega
    have next {k : Nat} {behind : List Token} (hk : ts.drop k = behind) :
        Reads ts (typeRef ts k (depth + 1)) (TypeRef.readWithin levels behind) :=
      ih hk (by omega) (by omega)
    rw [typeRef, if_neg (by omega), dif_neg hshallow]
    obtain ⟨start, hskip, hstart⟩ := skipIf_of_drop (·.is .sigil) h
    rw [← afterSigil_eq_afterOptional] at hstart
    have hword := readAt_of_drop Token.word? hstart
    simp only [hskip, bind_ok, hword, TypeRef.readWithin]
    rcases hsigil : TypeRef.afterSigil rest with _ | ⟨t, r⟩
    · rfl
    rw [hsigil] at hstart
    rcases ht : t.word? with _ | name
    · simp [ht, Reads]
    have hangle := holdsAt_of_drop (·.is .openAngle) (drop_succ_of_drop hstart)
    rw [head?_any_is] at hangle
    simp only [List.head?_cons, Option.bind_some, ht, hangle, bind_ok]
    rcases hopen : TypeRef.expect? .openAngle r with _ | arguments
    · exact ⟨start + 1, rfl, drop_succ_of_drop hstart⟩
    have harguments : ts.drop (start + 2) = arguments := by
      obtain ⟨u, rfl, -⟩ := eq_of_expect? hopen
      exact drop_succ_of_drop (drop_succ_of_drop hstart)
    simp only [Option.isSome_some, if_true]
    split
    · refine (next harguments).bind rfl fun key j afterKey _ hj => ?_
      refine reads_of_expect .comma hj fun afterComma _ hcomma => ?_
      refine (next hcomma).bind rfl fun value k afterValue _ hk => ?_
      refine reads_of_expect .closeAngle hk fun behind _ hbehind => ?_
      exact ⟨k + 1, rfl, hbehind⟩
    · next hmap =>
      refine (next harguments).bind rfl fun argument j afterArgument hargument hj => ?_
      refine reads_of_expect .closeAngle hj fun behind hlast hbehind => ?_
      exact reads_wrapper hstart ht hmap hopen hargument hj hlast hbehind

end

end ContextAtlas.Indexed
