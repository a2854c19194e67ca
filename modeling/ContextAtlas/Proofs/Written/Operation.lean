/-
# Written operations are read

An operation is written as modifiers, an optional type of the result, a name, parameters between
parentheses, an access behind a colon, a transition between brackets, and any number of semicolons.
All but the name and the parentheses may be missing.

* `Source.Parameter`, `Source.Access`, `Source.Operation`: what is written, its lexemes, and the
  operation that is meant;
* `exists_grouped_written`: the commas within the type of a parameter do not end it;
* `isReadOnlyTrailer_written`, `read?_trailer_written`: neither the access nor the transition is
  taken for the other;
* `Operation.reading_written`: what is written says all that is meant;
* `Operation.ofLine_written`: a written operation is read as the one that is meant.

The word in front of a name is its modifier if it can be one, so neither the name nor a word of the
type of the result is a modifier.
-/
import ContextAtlas.Proofs.Operation.Signature
import ContextAtlas.Proofs.Operation.Transition
import ContextAtlas.Proofs.Written.Document

namespace ContextAtlas

namespace Source

/-! ## 1. Written operations -/

/-- A parameter as it is written. -/
structure Parameter where
  type : TypeTerm
  name : String

/-- How a parameter is written. -/
def Parameter.lexemes (p : Parameter) : List Lexeme := p.type.lexemes ++ [.word p.name]

/-- The parameter that is meant. -/
def Parameter.meaning (p : Parameter) : ContextAtlas.Parameter := ⟨p.name, p.type.meaning⟩

/-- Parameters with commas between them. -/
def parameterRun (ps : List Parameter) : List Lexeme :=
  [.mark .comma].intercalate (ps.map Parameter.lexemes)

/-- How an operation may access its object. -/
inductive Access where
  | readOnly
  | read
  | write

/-- How an access is written. -/
def Access.lexemes : Access → List Lexeme
  | readOnly => [.mark .colon, .word "read", .mark .minus, .word "only"]
  | read => [.mark .colon, .word "read"]
  | write => [.mark .colon, .word "write"]

/-- Whether an access is no write access. -/
def Access.isReadOnly : Access → Bool
  | readOnly | read => true
  | write => false

/-- The words that modify an operation. -/
def modifierWords : List String := visibilityWords ++ ["def", "abstract"]

/-- An operation as it is written. -/
structure Operation where
  modifiers : Modifiers
  result : Option TypeTerm
  name : String
  parameters : List Parameter
  access : Option Access
  transition : Option Transition
  /-- How many semicolons end the line. -/
  terminators : Nat
  result_depth : ∀ T ∈ result, T.depth ≤ 64
  result_words : ∀ T ∈ result, ∀ w, .word w ∈ T.lexemes → w ∉ modifierWords
  name_not_modifier : name ∉ modifierWords
  parameter_depth : ∀ p ∈ parameters, p.type.depth ≤ 64

namespace Operation

/-- How the result is written. -/
def resultLexemes (o : Operation) : List Lexeme := o.result.elim [] TypeTerm.lexemes

/-- How the access and the transition are written. -/
def trailerLexemes (o : Operation) : List Lexeme :=
  o.access.elim [] Access.lexemes ++ o.transition.elim [] Transition.lexemes

/-- How an operation is written up to its semicolons. -/
def bodyLexemes (o : Operation) : List Lexeme :=
  o.modifiers.lexemes
    ++ (o.resultLexemes ++ .word o.name :: .mark .openParen
      :: (parameterRun o.parameters ++ .mark .closeParen :: o.trailerLexemes))

/-- How an operation is written. -/
def lexemes (o : Operation) : List Lexeme :=
  o.bodyLexemes ++ List.replicate o.terminators (.mark .semicolon)

/-- The operation that is meant. -/
def meaning (o : Operation) : ContextAtlas.Operation where
  name := o.name
  returnType := o.result.elim (.primitive .void) TypeTerm.meaning
  parameters := o.parameters.map Parameter.meaning
  visibility := o.modifiers.visibility
  isReadOnly := o.access.any Access.isReadOnly
  transition := o.transition.map Transition.meaning

end Operation

end Source

open Source

/-! ## 2. Modifiers -/

/-- Modifiers end in front of a token that is none. -/
theorem endBefore_of_not_modifier (m : Modifiers) {t : Token} (hstar : t.is .star = false)
    (hword : ∀ w, t.lexeme = .word w → w ∉ modifierWords) : m.EndBefore t := by
  have hnot : ∀ w ∈ modifierWords, t.isWord w = false := by
    intro w hw
    rw [Token.isWord, decide_eq_false_iff_not]
    exact fun ht => hword w ht hw
  refine ⟨fun _ => hnot _ (by decide), fun _ _ => ?_, fun _ _ _ => ?_⟩
  · exact word?_bind_read?_eq_none fun w hw hmem => hword w hw (List.mem_append_left _ hmem)
  · rw [Token.announcesOperation, hstar, hnot "def" (by decide)]
    rfl

/-! ## 3. Parameters -/

section

variable {p : Source.Parameter}

/-- A type closes the angles that it opens, and its commas stand between them. -/
theorem angles_type : ∀ (T : TypeTerm) (depth : Nat),
    openAngles depth T.lexemes = depth ∧ NoOuterComma depth T.lexemes
  | .name s w, depth => by
    cases s <;> simp [TypeTerm.lexemes, optionalSigil, angleStep]
  | .wrapper s w hw t, depth => by
    have ht := angles_type t (depth + 1)
    cases s <;> simp [TypeTerm.lexemes, optionalSigil, angleStep, ht]
  | .map s k v, depth => by
    have hk := angles_type k (depth + 1)
    have hv := angles_type v (depth + 1)
    cases s <;> simp [TypeTerm.lexemes, optionalSigil, angleStep, hk, hv]

theorem angles_parameter (p : Source.Parameter) :
    openAngles 0 p.lexemes = 0 ∧ NoOuterComma 0 p.lexemes := by
  have htype := angles_type p.type 0
  simp [Parameter.lexemes, angleStep, htype]

/-- A written type with nothing behind it is a type, with nothing left over. -/
theorem startsWithType_written {T : TypeTerm} {run : List Token}
    (h : run.map Token.lexeme = T.lexemes) (hdepth : T.depth ≤ 64) :
    StartsWithType run T.meaning [] :=
  ⟨T, run, (List.append_nil run).symm, h, hdepth, TypeTerm.endsBefore_of_head (by simp), rfl⟩

theorem isParameter_written {g : List Token} (h : g.map Token.lexeme = p.lexemes)
    (hdepth : p.type.depth ≤ 64) : IsParameter g p.meaning := by
  obtain ⟨typed, last, rfl, htyped, hlast⟩ := List.map_eq_append_iff.mp h
  obtain ⟨named, rfl, hnamed⟩ := List.map_eq_singleton_iff.mp hlast
  -- The reader of groups leaves out the sigils first, and what is left spells the same type.
  have hbare : (typed.filter (!·.is .sigil)).map Token.lexeme = p.type.bare.lexemes := by
    rw [TypeTerm.lexemes_bare, ← htyped, List.filter_map]
    rfl
  refine ⟨typed.filter (!·.is .sigil), named, [], ?_, hnamed, ?_⟩
  · simp [Token.is, hnamed]
  · rw [Parameter.meaning, ← p.type.meaning_bare]
    exact startsWithType_written hbare (by rwa [TypeTerm.depth_bare])

theorem not_isParameter_nil (q : ContextAtlas.Parameter) : ¬ IsParameter [] q := by
  rintro ⟨typed, named, leftover, hsplit, -⟩
  simp at hsplit

theorem parameterRun_cons_cons (p q : Source.Parameter) (ps : List Source.Parameter) :
    parameterRun (p :: q :: ps) = p.lexemes ++ .mark .comma :: parameterRun (q :: ps) := by
  simp [parameterRun, List.intercalate]

/-- The groups of written parameters are the parameters. -/
theorem exists_grouped_written : ∀ (ps : List Source.Parameter) {run : List Token},
    (∀ p ∈ ps, p.type.depth ≤ 64) → run.map Token.lexeme = parameterRun ps →
    ∃ groups, Grouped groups run ∧ Kept groups (ps.map Parameter.meaning)
  | [], run, _, h => by
    obtain rfl := List.map_eq_nil_iff.mp h
    exact ⟨[[]], .last noOuterComma_nil, .drop not_isParameter_nil .nil⟩
  | [p], run, hdepth, h => by
    have hrun : run.map Token.lexeme = p.lexemes := by simpa [parameterRun] using h
    exact ⟨[run], .last (hrun ▸ (angles_parameter p).2),
      .keep (isParameter_written hrun (hdepth p List.mem_cons_self)) .nil⟩
  | p :: q :: ps, run, hdepth, h => by
    rw [parameterRun_cons_cons] at h
    obtain ⟨group, rest, rfl, hgroup, hrest⟩ := List.map_eq_append_iff.mp h
    obtain ⟨comma, rest, rfl, hcomma, hrest⟩ := List.map_eq_cons_iff.mp hrest
    obtain ⟨groups, hgroups, hkept⟩ := exists_grouped_written (q :: ps)
      (fun r hr => hdepth r (List.mem_cons_of_mem p hr)) hrest
    have hangles := angles_parameter p
    rw [← hgroup] at hangles
    exact ⟨group :: groups, .comma hangles.2 hangles.1 (by simp [Token.is, hcomma]) hgroups,
      .keep (isParameter_written hgroup (hdepth p List.mem_cons_self)) hkept⟩

theorem not_closeParen_of_mem {ps : List Source.Parameter} {t : Token}
    (ht : t.lexeme ∈ parameterRun ps) : t.is .closeParen = false := by
  have hparameter : ∀ {p : Source.Parameter} {t : Token}, t.lexeme ∈ p.lexemes →
      t.is .closeParen = false := by
    intro p t ht
    rcases List.mem_append.mp ht with ht | ht
    · exact not_is_of_mem_lexemes ht (by decide)
    · simp [Token.is, List.mem_singleton.mp ht]
  induction ps with
  | nil => cases ht
  | cons p ps ih =>
    cases ps with
    | nil => exact hparameter (p := p) (by simpa [parameterRun] using ht)
    | cons q ps =>
      rw [parameterRun_cons_cons] at ht
      rcases List.mem_append.mp ht with ht | ht
      · exact hparameter ht
      · rcases List.mem_cons.mp ht with ht | ht
        · simp [Token.is, ht]
        · exact ih ht

end

/-! ## 4. Trailers -/

section

variable {o : Source.Operation} {trailer : List Token}

theorem not_is_of_mem_access {access : Option Access} {t : Token} {m : Mark}
    (h : t.lexeme ∈ access.elim [] Access.lexemes) (hm : m ∉ [Mark.colon, .minus]) :
    t.is m = false := by
  rw [Token.is, decide_eq_false_iff_not]
  intro hlexeme
  rw [hlexeme] at h
  rcases access with _ | _ | _ | _ <;> simp_all [Access.lexemes]

theorem not_is_of_mem_transition {transition : Option Transition} {t : Token} {m : Mark}
    (h : t.lexeme ∈ transition.elim [] Transition.lexemes)
    (hm : m ∉ [Mark.openBracket, .comma, .arrow, .closeBracket]) : t.is m = false := by
  cases transition with
  | none => cases h
  | some s => exact Transition.not_is_of_mem h hm

theorem isReadOnlyTrailer_of_quiet : ∀ {ts : List Token},
    (∀ t ∈ ts, t.is .colon = false ∧ t.is .minus = false) → Operation.isReadOnlyTrailer ts = false
  | [], _ => rfl
  | t :: r, h => by
    have hminus : r.head?.any (·.is .minus) = false := by
      rcases r with _ | ⟨u, r⟩
      · rfl
      · exact (h u (by simp)).2
    have hrest := isReadOnlyTrailer_of_quiet fun u hu => h u (List.mem_cons_of_mem t hu)
    simp [Operation.isReadOnlyTrailer, (h t List.mem_cons_self).1, hminus, hrest]

theorem isReadOnlyTrailer_written (h : trailer.map Token.lexeme = o.trailerLexemes) :
    Operation.isReadOnlyTrailer trailer = o.access.any Access.isReadOnly := by
  obtain ⟨suffix, bracket, rfl, hsuffix, hbracket⟩ := List.map_eq_append_iff.mp h
  have hquiet : Operation.isReadOnlyTrailer bracket = false := by
    refine isReadOnlyTrailer_of_quiet fun t ht => ?_
    have hmem : t.lexeme ∈ o.transition.elim [] Transition.lexemes :=
      hbracket ▸ List.mem_map_of_mem ht
    exact ⟨not_is_of_mem_transition hmem (by decide), not_is_of_mem_transition hmem (by decide)⟩
  have hread : ∀ {row : List Lexeme},
      suffix.map Token.lexeme = .mark .colon :: .word "read" :: row →
      Operation.isReadOnlyTrailer (suffix ++ bracket) = true := by
    intro row hrow
    obtain ⟨colon, rest, rfl, hcolon, hrest⟩ := List.map_eq_cons_iff.mp hrow
    obtain ⟨word, rest, rfl, hword, -⟩ := List.map_eq_cons_iff.mp hrest
    simp [Operation.isReadOnlyTrailer, Token.is, Token.isWord, hcolon, hword]
  rcases haccess : o.access with _ | _ | _ | _ <;> rw [haccess] at hsuffix
  · obtain rfl := List.map_eq_nil_iff.mp hsuffix
    exact hquiet
  · exact hread hsuffix
  · exact hread hsuffix
  · obtain ⟨colon, rest, rfl, hcolon, hrest⟩ := List.map_eq_cons_iff.mp hsuffix
    obtain ⟨word, rfl, hword⟩ := List.map_eq_singleton_iff.mp hrest
    simp [Operation.isReadOnlyTrailer, Token.is, Token.isWord, hcolon, hword, hquiet,
      Access.isReadOnly]

/-- The access and the transition are read from a written trailer, each without the other. -/
theorem read?_trailer_written (h : trailer.map Token.lexeme = o.trailerLexemes) :
    StateTransition.read? trailer = o.transition.map Transition.meaning := by
  obtain ⟨suffix, bracket, rfl, hsuffix, hbracket⟩ := List.map_eq_append_iff.mp h
  have hfront : ∀ t ∈ suffix, t.is .openBracket = false := fun t ht =>
    not_is_of_mem_access (hsuffix ▸ List.mem_map_of_mem ht) (by decide)
  cases htransition : o.transition with
  | none =>
    rw [htransition] at hbracket
    obtain rfl := List.map_eq_nil_iff.mp hbracket
    rw [List.append_nil]
    exact StateTransition.read?_eq_none_of_no_bracket hfront
  | some s =>
    rw [htransition] at hbracket
    exact StateTransition.read?_written s hfront hbracket

theorem semicolon_not_mem_trailer (o : Source.Operation) :
    .mark .semicolon ∉ o.trailerLexemes := by
  intro h
  have hnot : (Token.mk (.mark .semicolon) .start).is .semicolon = false := by
    rcases List.mem_append.mp h with h | h
    · exact not_is_of_mem_access h (by decide)
    · exact not_is_of_mem_transition h (by decide)
  exact absurd hnot (by decide)

end

namespace Operation

/-! ## 5. Lines -/

/-- What is written in front of the name says of the result what is meant. -/
theorem isResult_written {o : Source.Operation} {run : List Token}
    (h : run.map Token.lexeme = o.resultLexemes) : IsResult run o.meaning.returnType := by
  cases hresult : o.result with
  | none =>
    rw [Source.Operation.resultLexemes, hresult] at h
    refine .inl ⟨List.map_eq_nil_iff.mp h, ?_⟩
    simp [Source.Operation.meaning, hresult]
  | some T =>
    rw [Source.Operation.resultLexemes, hresult] at h
    refine .inr ⟨?_, [], ?_⟩
    · rintro rfl
      cases T <;> simp [TypeTerm.lexemes] at h
    · simpa [Source.Operation.meaning, hresult] using
        startsWithType_written h (o.result_depth T hresult)

/-- **A written operation says all that is meant.** -/
theorem reading_written (o : Source.Operation) {run : List Token}
    (h : run.map Token.lexeme = o.bodyLexemes) : Nonempty (Reading run o.meaning) := by
  obtain ⟨front, signature, rfl, hfront, hsignature⟩ := List.map_eq_append_iff.mp h
  obtain ⟨result, rest, rfl, hresult, hrest⟩ := List.map_eq_append_iff.mp hsignature
  obtain ⟨named, rest, rfl, hnamed, hrest⟩ := List.map_eq_cons_iff.mp hrest
  obtain ⟨opening, rest, rfl, hopening, hrest⟩ := List.map_eq_cons_iff.mp hrest
  obtain ⟨parameters, rest, rfl, hparameters, hrest⟩ := List.map_eq_append_iff.mp hrest
  obtain ⟨closing, trailer, rfl, hclosing, htrailer⟩ := List.map_eq_cons_iff.mp hrest
  obtain ⟨groups, hgrouped, hkept⟩ :=
    exists_grouped_written o.parameters o.parameter_depth hparameters
  -- No token of the result is a modifier or a parenthesis, so both ends of the result are found.
  have hterm : ∀ t ∈ result, ∃ T ∈ o.result, t.lexeme ∈ T.lexemes := by
    intro t ht
    have hmem : t.lexeme ∈ o.resultLexemes := hresult ▸ List.mem_map_of_mem ht
    unfold Source.Operation.resultLexemes at hmem
    generalize o.result = T? at hmem
    cases T? with
    | none => cases hmem
    | some T => exact ⟨T, rfl, hmem⟩
  have hend : ∀ t ∈ result ++ [named], o.modifiers.EndBefore t := by
    intro t ht
    rcases List.mem_append.mp ht with ht | ht
    · obtain ⟨T, hT, hmem⟩ := hterm t ht
      refine endBefore_of_not_modifier _ (not_is_of_mem_lexemes hmem (by decide)) fun w hw => ?_
      exact o.result_words T hT w (hw ▸ hmem)
    · obtain rfl := List.mem_singleton.mp ht
      refine endBefore_of_not_modifier _ (by simp [Token.is, hnamed]) fun w hw => ?_
      obtain rfl : o.name = w := by simpa [hnamed] using hw
      exact o.name_not_modifier
  exact ⟨{
    modifiers := o.modifiers
    front := front
    result := result
    named := named
    opening := opening
    parameters := parameters
    closing := closing
    trailer := trailer
    groups := groups
    line_eq := rfl
    front_eq := hfront
    modifiers_end := fun t ht => hend t (List.mem_of_mem_head? ht)
    named_eq := hnamed
    opening_eq := by simp [Token.is, hopening]
    result_eq := fun t ht => by
      obtain ⟨T, -, hmem⟩ := hterm t ht
      exact not_is_of_mem_lexemes hmem (by decide)
    closing_eq := by simp [Token.is, hclosing]
    parameters_eq := fun t ht => not_closeParen_of_mem (hparameters ▸ List.mem_map_of_mem ht)
    visibility_eq := rfl
    isResult := isResult_written hresult
    grouped := hgrouped
    kept := hkept
    isReadOnly_eq := (isReadOnlyTrailer_written htrailer).symm
    transition_eq := (read?_trailer_written htrailer).symm }⟩

theorem getLast?_bodyLexemes (o : Source.Operation) :
    o.bodyLexemes.getLast? ≠ some (.mark .semicolon) := by
  have hbody : o.bodyLexemes
      = (o.modifiers.lexemes ++ (o.resultLexemes ++ .word o.name :: .mark .openParen
        :: parameterRun o.parameters)) ++ .mark .closeParen :: o.trailerLexemes := by
    simp [Source.Operation.bodyLexemes]
  rw [hbody]
  exact getLast?_ne_semicolon
    (List.not_mem_cons_of_ne_of_not_mem nofun (semicolon_not_mem_trailer o))

/-- The semicolons of a written operation are left out. -/
theorem withoutTerminators_written {o : Source.Operation} {run terminators : List Token}
    (hrun : run.map Token.lexeme = o.bodyLexemes)
    (hterminators : terminators.map Token.lexeme = .replicate o.terminators (.mark .semicolon)) :
    withoutTerminators (run ++ terminators) = run :=
  withoutTerminators_spelled (hrun ▸ getLast?_bodyLexemes o) hterminators

/-- **A written operation is read as the operation that is meant.** -/
theorem ofLine_written (o : Source.Operation) {line : List Token}
    (h : line.map Token.lexeme = o.lexemes) : ofLine line = .matched o.meaning := by
  obtain ⟨run, terminators, rfl, hrun, hterminators⟩ := List.map_eq_append_iff.mp h
  obtain ⟨reading⟩ := reading_written o hrun
  rw [ofLine, withoutTerminators_written hrun hterminators, reading.read?_eq]
  rfl

end Operation

namespace Source

/-- `protected abstract Map<@Key, Bag<int>> merge(Map<String, Set<Long>> a, @Order b)
: read-only [A, B -> C X D x E];;`, announced by a star. -/
def sampleOperation : Operation where
  modifiers := ⟨some .star, some .protected, true⟩
  result := some (.map false (.name true "Key") (.wrapper false "Bag" (by decide)
    (.name false "int")))
  name := "merge"
  parameters :=
    [⟨.map false (.name false "String") (.wrapper false "Set" (by decide) (.name false "Long")),
        "a"⟩,
      ⟨.name true "Order", "b"⟩]
  access := some .readOnly
  transition := some
    { sources := ["A", "B"]
      target := "C"
      others := [(.upper, "D"), (.lower, "E")]
      isExclusive := true
      uniform := by decide
      others_ne := by decide
      not_marker := by decide }
  terminators := 2
  result_depth := by simp [TypeTerm.depth]
  result_words := by
    simp [TypeTerm.lexemes, optionalSigil]
    decide
  name_not_modifier := by decide
  parameter_depth := by simp [TypeTerm.depth]

end Source

/-- An operation with all its parts. -/
theorem Operation.ofLine_written_sample :
    ofLine (lex ("* protected abstract Map<@Key, Bag<int>> "
        ++ "merge(Map<String, Set<Long>> a, @Order b) : read-only [A, B -> C X D x E];;").toList)
      = .matched
          { name := "merge"
            returnType := .map (.named "Key") (.collection .bag (.primitive .int))
            parameters :=
              [⟨"a", .map (.primitive .string) (.collection .set (.primitive .longObject))⟩,
                ⟨"b", .named "Order"⟩]
            visibility := some .protected
            isReadOnly := true
            transition := some ⟨some ["A", "B"], ["C", "D", "E"], true⟩ } :=
  ofLine_written sampleOperation (by decide +kernel)

end ContextAtlas
