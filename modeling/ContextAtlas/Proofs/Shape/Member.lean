/-
# The shape of members

Whatever is read from the tokens of a text has names that the language can write.  A name is the
text of a word, and every word of a text is an identifier; what is read as a type nests no deeper
than the reader goes, also where it keeps its arguments as text.

* `Legible`: tokens whose words are identifiers; the tokens of a text are (`legible_lex`), and every
  reader goes on with some of the tokens it was given;
* `TypeRef.NestsWithin`: how deep a type nests, with the arguments of an unknown wrapper;
* `Attribute.WellShaped`, `Reference.WellShaped`, `Operation.WellShaped`: what holds of members;
* `Members.wellShaped_ofLines`: and so of all that a body holds.
-/
import ContextAtlas.Proofs.Skipped.Line
import ContextAtlas.Proofs.Token.Cut
import ContextAtlas.Proofs.TypeRef.Grammar
import ContextAtlas.Report

namespace ContextAtlas

/-! ## 1. Words -/

/-- Tokens whose words are identifiers. -/
def Legible (ts : List Token) : Prop := ∀ t ∈ ts, ∀ w ∈ t.word?, IsIdentifier w

theorem Legible.of_sublist {ts us : List Token} (h : Legible us) (hs : ts.Sublist us) :
    Legible ts :=
  fun t ht => h t (hs.mem ht)

section

variable {t : Token} {ts us : List Token}

@[simp] theorem legible_nil : Legible [] := fun _ ht => absurd ht List.not_mem_nil

@[simp] theorem legible_cons :
    Legible (t :: ts) ↔ (∀ w ∈ t.word?, IsIdentifier w) ∧ Legible ts := by
  simp [Legible]

@[simp] theorem legible_append : Legible (ts ++ us) ↔ Legible ts ∧ Legible us := by
  simp [Legible, or_imp, forall_and]

@[simp] theorem legible_reverse : Legible ts.reverse ↔ Legible ts := by
  simp [Legible]

end

theorem Legible.withoutTerminators {line : List Token} (h : Legible line) :
    Legible (withoutTerminators line) :=
  h.of_sublist (isPrefix_withoutTerminators line).sublist

theorem Lexeme.isIdentifier_of_read {c : Char} {r : List Char} {w : String}
    (h : (Lexeme.read c r).1 = .word w) : IsIdentifier w := by
  have hstart := Lexeme.startsWith_read c r
  rw [h] at hstart
  cases hstart with
  | word hc hrest => exact ⟨c, _, String.toList_ofList, hc, hrest⟩

theorem legible_lexFrom (p : Position) (text : List Char) : Legible (lexFrom p text) := by
  fun_induction lexFrom p text with
  | case1 p => exact legible_nil
  | case2 p c r _ ih => exact ih
  | case3 p c r _ x ih =>
    exact legible_cons.mpr
      ⟨fun w hw => Lexeme.isIdentifier_of_read (Token.lexeme_of_word? hw), ih⟩

/-- Every word of a text is an identifier. -/
theorem legible_lex (text : List Char) : Legible (lex text) := legible_lexFrom .start text

/-! ## 2. Types -/

namespace TypeRef

/-- A type whose arguments nest at most so many levels deep, those that an unknown wrapper keeps in
its name among them, and whose names are identifiers. -/
inductive NestsWithin : Nat → TypeRef → Prop
  | primitive {n : Nat} (p : PrimitiveType) : NestsWithin n (.primitive p)
  | name {n : Nat} {w : String} (hw : IsIdentifier w) : NestsWithin n (.named w)
  | collection {n : Nat} {e : TypeRef} (c : CollectionType) (he : NestsWithin n e) :
      NestsWithin (n + 1) (.collection c e)
  | map {n : Nat} {k v : TypeRef} (hk : NestsWithin n k) (hv : NestsWithin n v) :
      NestsWithin (n + 1) (.map k v)
  | wrapper {n : Nat} {w : String} {e : TypeRef} (hw : IsIdentifier w) (he : NestsWithin n e) :
      NestsWithin (n + 1) (.named (w ++ "<" ++ e.spell ++ ">"))

theorem nestsWithin_ofName {n : Nat} {w : String} (hw : IsIdentifier w) :
    (ofName w).NestsWithin n := by
  unfold ofName
  split
  · exact .primitive _
  · exact .name hw

theorem nestsWithin_ofWrapper {n : Nat} {w : String} {e : TypeRef} (hw : IsIdentifier w)
    (he : e.NestsWithin n) : (ofWrapper w e).NestsWithin (n + 1) := by
  unfold ofWrapper
  split
  · exact .collection _ he
  · exact .wrapper hw he

/-- The type that is meant nests within the levels that the written one takes. -/
theorem nestsWithin_meaning : ∀ {n : Nat} {T : Source.TypeTerm}, T.depth ≤ n →
    (∀ w, .word w ∈ T.lexemes → IsIdentifier w) → T.meaning.NestsWithin n
  | n, .name s w, _, hwords => by
    rw [Source.TypeTerm.meaning_name]
    exact nestsWithin_ofName (hwords w (by simp [Source.TypeTerm.lexemes]))
  | n + 1, .wrapper s w hw t, hdepth, hwords => by
    rw [Source.TypeTerm.meaning_wrapper]
    refine nestsWithin_ofWrapper (hwords w (by simp [Source.TypeTerm.lexemes])) ?_
    refine nestsWithin_meaning (Nat.le_of_succ_le_succ hdepth) fun u hu => hwords u ?_
    simp [Source.TypeTerm.lexemes, hu]
  | n + 1, .map s k v, hdepth, hwords => by
    have hdepths := Nat.max_le.mp (Nat.le_of_succ_le_succ hdepth)
    refine .map (nestsWithin_meaning hdepths.1 fun u hu => hwords u ?_)
      (nestsWithin_meaning hdepths.2 fun u hu => hwords u ?_)
    · simp [Source.TypeTerm.lexemes, hu]
    · simp [Source.TypeTerm.lexemes, hu]

theorem nestsWithin_of_read? {ts rest : List Token} {t : TypeRef} (h : read? ts = some (t, rest))
    (hts : Legible ts) : t.NestsWithin maxTypeDepth ∧ rest.Sublist ts := by
  obtain ⟨T, run, rfl, hrun, hdepth, -, rfl⟩ := read?_eq_some_iff.mp h
  refine ⟨nestsWithin_meaning hdepth fun w hw => ?_, List.sublist_append_right run rest⟩
  rw [← hrun] at hw
  obtain ⟨u, hu, hlexeme⟩ := List.mem_map.mp hw
  exact hts u (List.mem_append_left rest hu) w (by simp [Token.word?, hlexeme])

end TypeRef

/-! ## 3. Attributes and references -/

theorem sublist_afterOptional (p : Token → Bool) (ts : List Token) :
    (afterOptional p ts).Sublist ts := by
  unfold afterOptional
  split
  · exact List.Sublist.refl _
  · split
    · exact List.sublist_cons_self _ _
    · exact List.Sublist.refl _

theorem sublist_readVisibility (ts : List Token) : (readVisibility ts).2.Sublist ts := by
  unfold readVisibility
  split
  · split
    · exact List.sublist_cons_self _ _
    · exact List.Sublist.refl _
  · exact List.Sublist.refl _

/-- An attribute as a text can state it. -/
structure Attribute.WellShaped (a : Attribute) : Prop where
  name : IsIdentifier a.name
  type : a.type.NestsWithin maxTypeDepth
  values : ∀ v ∈ [a.min, a.max, a.range, a.length, a.pattern], v ≠ some ""

/-- A reference as a text can state it. -/
structure Reference.WellShaped (r : Reference) : Prop where
  name : IsIdentifier r.name
  target : IsIdentifier r.target
  opposite : ∀ w ∈ r.opposite, IsIdentifier w

theorem Constraint.lastValue?_ne (constraints : List Constraint) (key : String) :
    lastValue? constraints key ≠ some "" := by
  intro h
  obtain ⟨c, -, hc⟩ := List.mem_filterMap.mp (List.mem_of_getLast? h)
  cases c with
  | flag w => cases hc
  | value k text =>
    simp only [Option.ite_none_right_eq_some, Option.some.injEq] at hc
    exact hc.1.2 hc.2

theorem Attribute.wellShaped_of_read? {line : List Token} {a : Attribute} (h : read? line = .ok a)
    (hl : Legible line) : a.WellShaped := by
  simp only [read?] at h
  split at h
  · cases h
  next type afterType htype =>
  have hvisibility := hl.of_sublist (sublist_readVisibility line)
  obtain ⟨hnests, hafter⟩ := TypeRef.nestsWithin_of_read? htype hvisibility
  split at h
  · cases h
  next t r =>
  split at h
  · cases h
  next name hname =>
  cases h
  refine ⟨hvisibility t (hafter.mem List.mem_cons_self) name hname, hnests, ?_⟩
  simp [ofConstraints, Constraint.lastValue?_ne]

theorem Attribute.wellShaped_of_ofLine {line : List Token} {a : Attribute}
    (h : ofLine line = .matched a) (hl : Legible line) : a.WellShaped :=
  wellShaped_of_read? (Outcome.eq_ok_of_ofRun h) hl.withoutTerminators

namespace Reference

theorem sublist_readWrapper (ts : List Token) : (readWrapper ts).2.Sublist ts := by
  unfold readWrapper
  split
  · next t u r =>
    split
    · split
      · exact (List.sublist_cons_self u r).trans (List.sublist_cons_self t _)
      · exact List.Sublist.refl _
    · exact List.Sublist.refl _
  · exact List.Sublist.refl _

theorem mem_of_pointedAt? {ts : List Token} {t : Token} (h : pointedAt? ts = some t) : t ∈ ts := by
  unfold pointedAt? at h
  split at h
  · split at h <;> cases h <;> simp
  · cases h
    exact List.mem_singleton_self t
  · cases h

theorem isIdentifier_of_wordAfter? {key w : String} {ts : List Token}
    (h : wordAfter? key ts = some w) (hts : Legible ts) : IsIdentifier w := by
  induction ts with
  | nil => cases h
  | cons t r ih =>
    have hr : Legible r := hts.of_sublist (List.sublist_cons_self t r)
    rw [wordAfter?] at h
    split at h
    · split at h
      · next v hv =>
        cases h
        obtain ⟨u, hu, hw⟩ := Option.bind_eq_some_iff.mp hv
        exact hr u (mem_of_pointedAt? hu) w hw
      · exact ih h hr
    · exact ih h hr

theorem wellShaped_of_read? {line : List Token} {r : Reference} (h : read? line = .ok r)
    (hl : Legible line) : r.WellShaped := by
  simp only [read?] at h
  have hvisibility := (sublist_readVisibility (afterOptional (·.is .minus) line)).trans
    (sublist_afterOptional _ line)
  have hwrapper := (sublist_readWrapper _).trans hvisibility
  have hsigil := (sublist_afterOptional (·.is .sigil) _).trans hwrapper
  split at h
  · cases h
  next t afterTarget htarget =>
  rw [htarget] at hsigil
  split at h
  · cases h
  next target hword =>
  have hangle := ((sublist_afterOptional (·.is .closeAngle) afterTarget).trans
    (List.sublist_cons_self t afterTarget)).trans hsigil
  split at h
  · cases h
  next u trailer htrailer =>
  rw [htrailer] at hangle
  split at h
  · cases h
  next name hname =>
  cases h
  refine ⟨hl u (hangle.mem List.mem_cons_self) name hname,
    hl t (hsigil.mem List.mem_cons_self) target hword, fun w hw => ?_⟩
  exact isIdentifier_of_wordAfter? hw
    (hl.of_sublist ((List.sublist_cons_self u trailer).trans hangle))

theorem wellShaped_of_ofLine {line : List Token} {r : Reference} (h : ofLine line = .matched r)
    (hl : Legible line) : r.WellShaped :=
  wellShaped_of_read? (Outcome.eq_ok_of_ofRun h) hl.withoutTerminators

end Reference

/-! ## 4. Operations -/

/-- A parameter as a text can state it. -/
structure Parameter.WellShaped (p : Parameter) : Prop where
  name : IsIdentifier p.name
  type : p.type.NestsWithin maxTypeDepth

/-- An operation as a text can state it. -/
structure Operation.WellShaped (o : Operation) : Prop where
  name : IsIdentifier o.name
  returnType : o.returnType.NestsWithin maxTypeDepth
  parameters : ∀ p ∈ o.parameters, p.WellShaped
  sources : ∀ s ∈ o.transition, s.sources ≠ some []

theorem Parameter.wellShaped_of_read? {group : List Token} {p : Parameter}
    (h : read? group = some p) (hg : Legible group) : p.WellShaped := by
  simp only [read?, Option.bind_eq_bind, Option.bind_eq_some_iff, Option.some.injEq] at h
  obtain ⟨t, ht, name, hname, ⟨type, rest⟩, htype, rfl⟩ := h
  have htokens : (group.filter (!·.is .sigil)).Sublist group := List.filter_sublist
  refine ⟨hg t (htokens.mem (List.mem_of_getLast? ht)) name hname, ?_⟩
  have hfront := (List.dropLast_sublist _).trans htokens
  exact (TypeRef.nestsWithin_of_read? htype (hg.of_sublist hfront)).1

/-- A group of a parameter list holds tokens of the list. -/
theorem mem_of_mem_splitParameters {depth : Nat} {group ts g : List Token} {t : Token}
    (hg : g ∈ splitParameters depth group ts) (ht : t ∈ g) : t ∈ group ∨ t ∈ ts := by
  -- A token that joins the group was in front of the others.
  have hjoined : ∀ {u : Token} {group r : List Token}, t ∈ u :: group ∨ t ∈ r →
      t ∈ group ∨ t ∈ u :: r := by
    rintro u group r (h | h)
    · rcases List.mem_cons.mp h with rfl | h
      · exact .inr List.mem_cons_self
      · exact .inl h
    · exact .inr (List.mem_cons_of_mem u h)
  fun_induction splitParameters depth group ts with
  | case1 depth group =>
    obtain rfl := List.mem_singleton.mp hg
    exact .inl (List.mem_reverse.mp ht)
  | case2 depth group u r _ ih =>
    rcases List.mem_cons.mp hg with rfl | hg
    · exact .inl (List.mem_reverse.mp ht)
    · exact .inr (List.mem_cons_of_mem u ((ih hg).resolve_left List.not_mem_nil))
  | case3 depth group u r _ _ ih => exact hjoined (ih hg)
  | case4 depth group u r _ _ _ ih => exact hjoined (ih hg)
  | case5 depth group u r _ _ _ ih => exact hjoined (ih hg)

theorem wellShaped_readParameters {ts : List Token} (hts : Legible ts) :
    ∀ p ∈ readParameters ts, p.WellShaped := by
  intro p hp
  obtain ⟨group, hgroup, hread⟩ := List.mem_filterMap.mp hp
  refine Parameter.wellShaped_of_read? hread (fun t ht => hts t ?_)
  exact (mem_of_mem_splitParameters hgroup ht).resolve_left List.not_mem_nil

theorem StateTransition.sources_ne_of_read? {ts : List Token} {s : StateTransition}
    (h : read? ts = some s) : s.sources ≠ some [] := by
  simp only [read?] at h
  split at h
  · cases h
  split at h
  · cases h
  split at h
  · cases h
    simp only [ofSides]
    split
    · simp
    · next hsources => simpa using hsources
  · cases h

namespace Operation

theorem nestsWithin_of_readReturnType {ts : List Token} {t : TypeRef}
    (h : readReturnType ts = some t) (hts : Legible ts) : t.NestsWithin maxTypeDepth := by
  unfold readReturnType at h
  split at h
  · cases h
    exact .primitive .void
  · obtain ⟨⟨_, _⟩, hread, rfl⟩ := Option.map_eq_some_iff.mp h
    exact (TypeRef.nestsWithin_of_read? hread hts).1

theorem wellShaped_of_read? {line : List Token} {o : Operation} (h : read? line = .ok o)
    (hl : Legible line) : o.WellShaped := by
  have hsignature : (readModifiers line).2.Sublist line :=
    ((sublist_afterOptional _ _).trans (sublist_readVisibility _)).trans
      (sublist_afterOptional _ line)
  simp only [read?] at h
  split at h
  · next u afterOpen name hopen hname =>
    have hhead : ((readModifiers line).2.takeWhile (!·.is .openParen)).Sublist line :=
      (List.takeWhile_sublist _).trans hsignature
    have hafter : (u :: afterOpen).Sublist line :=
      hopen ▸ (List.dropWhile_sublist _).trans hsignature
    split at h
    · cases h
    split at h
    · cases h
    next returnType hreturn =>
    cases h
    obtain ⟨t, ht, hword⟩ := Option.bind_eq_some_iff.mp hname
    have hparameters : (afterOpen.takeWhile (!·.is .closeParen)).Sublist line :=
      ((List.takeWhile_sublist _).trans (List.sublist_cons_self u afterOpen)).trans hafter
    refine ⟨hl t (hhead.mem (List.mem_of_getLast? ht)) name hword, ?_,
      wellShaped_readParameters (hl.of_sublist hparameters),
      fun s hs => StateTransition.sources_ne_of_read? hs⟩
    exact nestsWithin_of_readReturnType hreturn
      (hl.of_sublist ((List.dropLast_sublist _).trans hhead))
  · cases h

theorem wellShaped_of_ofLine {line : List Token} {o : Operation} (h : ofLine line = .matched o)
    (hl : Legible line) : o.WellShaped :=
  wellShaped_of_read? (Outcome.eq_ok_of_ofRun h) hl.withoutTerminators

end Operation

/-! ## 5. Bodies -/

/-- Members as a text can state them. -/
structure Members.WellShaped (m : Members) : Prop where
  attributes : ∀ a ∈ m.attributes, a.WellShaped
  references : ∀ r ∈ m.references, r.WellShaped
  operations : ∀ o ∈ m.operations, o.WellShaped

namespace Members

theorem WellShaped.append {m n : Members} (hm : m.WellShaped) (hn : n.WellShaped) :
    (m.append n).WellShaped where
  attributes := List.forall_mem_append.mpr ⟨hm.attributes, hn.attributes⟩
  references := List.forall_mem_append.mpr ⟨hm.references, hn.references⟩
  operations := List.forall_mem_append.mpr ⟨hm.operations, hn.operations⟩

/-- Flags and skipped runs state nothing. -/
theorem wellShaped_of_nothing (flags : List String) (skipped : List Skipped) :
    WellShaped { flags := flags, skipped := skipped } :=
  ⟨by simp, by simp, by simp⟩

section

variable {run : List Token}

theorem wellShaped_ofAttribute (h : Legible run) :
    (ofAttribute (Attribute.ofLine run)).WellShaped := by
  unfold ofAttribute
  split
  · next a ha =>
    have hshape := Attribute.wellShaped_of_ofLine ha h
    exact ⟨by simpa using hshape, by simp, by simp⟩
  · exact wellShaped_of_nothing _ _

theorem wellShaped_ofReference (h : Legible run) :
    (ofReference (Reference.ofLine run)).WellShaped := by
  unfold ofReference
  split
  · next r hr =>
    have hshape := Reference.wellShaped_of_ofLine hr h
    exact ⟨by simp, by simpa using hshape, by simp⟩
  · exact wellShaped_of_nothing _ _

theorem wellShaped_ofOperation (h : Legible run) :
    (ofOperation (Operation.ofLine run)).WellShaped := by
  unfold ofOperation
  split
  · next o ho =>
    have hshape := Operation.wellShaped_of_ofLine ho h
    exact ⟨by simp, by simp, by simpa using hshape⟩
  · exact wellShaped_of_nothing _ _

theorem wellShaped_ofLine (flags : List String) (withOperations : Bool) {line : List Token}
    (h : Legible line) : (ofLine flags withOperations line).WellShaped := by
  have hrun := h.withoutTerminators
  simp only [ofLine]
  split
  · exact wellShaped_of_nothing _ _
  split
  · exact wellShaped_of_nothing _ _
  · exact wellShaped_ofReference hrun
  · exact wellShaped_ofAttribute hrun
  · split
    · exact wellShaped_ofOperation hrun
    · exact wellShaped_of_nothing _ _

/-- **All that is read from the lines of a body is well shaped.** -/
theorem wellShaped_ofLines (flags : List String) (withOperations : Bool)
    {lines : List (List Token)} (h : ∀ line ∈ lines, Legible line) :
    (ofLines flags withOperations lines).WellShaped := by
  induction lines with
  | nil => exact wellShaped_of_nothing [] []
  | cons line lines ih =>
    have ⟨hline, hlines⟩ := List.forall_mem_cons.mp h
    exact (wellShaped_ofLine flags withOperations hline).append (ih hlines)

end

end Members

theorem wellShaped_serviceOperations {lines : List (List Token)}
    (h : ∀ line ∈ lines, Legible line) :
    ∀ o ∈ matchedValues (serviceOperations lines), o.WellShaped := by
  intro o ho
  obtain ⟨line, hmem, hline⟩ := List.mem_filterMap.mp (mem_matchedValues.mp ho)
  have hrun := (h line hmem).withoutTerminators
  simp only [serviceOperation?] at hline
  split at hline
  · cases hline
  split at hline
  · exact Operation.wellShaped_of_ofLine (Option.some.inj hline) hrun
  · cases hline

end ContextAtlas
