/-
# What is left out of a context map

Relationships are read from a context map in one walk over its body, which goes on behind what it
has taken.  So every connector is judged once, and what is left out is the connector itself.

* `suffix_of_readRelationship`: what stands behind a relationship is the end of the tokens;
* `skips_readRelationshipsFrom`: what is left out are connectors, each told once, for one reason.
-/
import ContextAtlas.Proofs.Skipped.Line
import ContextAtlas.Relationship.Reader

namespace ContextAtlas

/-! ## 1. What stands behind a relationship -/

theorem suffix_of_readContext {roles : List String} {ts rest : List Token} {side : Side}
    (h : Side.readContext? roles ts = some (side, rest)) : rest <:+ ts := by
  unfold Side.readContext? at h
  split at h
  · simp at h
  · rename_i t r
    split at h
    · split at h
      · simp at h
      · rename_i u s
        simp only [Option.map_eq_some_iff, Prod.mk.injEq] at h
        obtain ⟨_, -, -, rfl⟩ := h
        exact (List.suffix_cons u _).trans (List.suffix_cons t _)
    · simp only [Option.map_eq_some_iff, Prod.mk.injEq] at h
      obtain ⟨_, -, -, rfl⟩ := h
      exact List.suffix_cons t _

theorem suffix_of_readRight {ts rest : List Token} {side : Side}
    (h : Side.readRight? ts = some (side, rest)) : rest <:+ ts := by
  unfold Side.readRight? at h
  split at h
  · simp at h
  · rename_i t r
    split at h
    · split at h
      · simp at h
      · rename_i u s hdrop
        have hs : s <:+ r := by
          have hus : u :: s <:+ r := hdrop ▸ List.dropWhile_suffix _
          exact (List.suffix_cons u s).trans hus
        exact ((suffix_of_readContext h).trans hs).trans (List.suffix_cons t r)
    · exact suffix_of_readContext h

theorem suffix_splitGroup (ts : List Token) : (splitGroup ts).2 <:+ ts := by
  unfold splitGroup
  split
  · rename_i body c rest hs
    exact ⟨body ++ [c], by simp [eq_of_splitBody hs]⟩
  · exact List.nil_suffix

theorem suffix_readRelationshipName (ts : List Token) : (readRelationshipName ts).2 <:+ ts := by
  unfold readRelationshipName
  split
  · rename_i t u r
    split
    · split
      · exact (List.suffix_cons u r).trans (List.suffix_cons t (u :: r))
      · exact List.suffix_refl _
    · exact List.suffix_refl _
  · exact List.suffix_refl _

theorem suffix_readRelationshipBody (ts : List Token) : (readRelationshipBody ts).2 <:+ ts := by
  unfold readRelationshipBody
  split
  · exact List.suffix_refl _
  · rename_i t r
    split
    · exact (suffix_splitGroup r).trans (List.suffix_cons t r)
    · exact List.suffix_refl _

theorem suffix_of_readRelationship {connector : Connector} {before after rest : List Token}
    {relationship : Relationship}
    (h : Relationship.read? connector before after = some (relationship, rest)) :
    rest <:+ after := by
  simp only [Relationship.read?, Option.bind_eq_bind, Option.bind_eq_some_iff] at h
  obtain ⟨left, -, ⟨right, afterRight⟩, hright, h⟩ := h
  simp only [Option.some.injEq, Prod.mk.injEq] at h
  obtain ⟨-, rfl⟩ := h
  have hname := suffix_readRelationshipName afterRight
  have hbody := suffix_readRelationshipBody (readRelationshipName afterRight).2
  exact (hbody.trans hname).trans (suffix_of_readRight hright)

/-! ## 2. Connectors that are left out -/

/-- **What is left out starts with different connectors, in order.** -/
theorem skips_readRelationshipsFrom (before ts : List Token) :
    (∀ e ∈ skippedRuns (readRelationshipsFrom before ts), e.reason = .missingParticipant) ∧
      Renders ts (skippedRuns (readRelationshipsFrom before ts)) ∧
      ((skippedRuns (readRelationshipsFrom before ts)).map Skipped.place).Sublist
        (ts.map Token.place) := by
  -- The walk goes on behind what it has read, and adds nothing but the connector in front.
  have hbehind : ∀ {t : Token} {r rest : List Token} {es : List Skipped}, rest <:+ r →
      ((∀ e ∈ es, e.reason = .missingParticipant) ∧ Renders rest es ∧
        (es.map Skipped.place).Sublist (rest.map Token.place)) →
      (∀ e ∈ es, e.reason = .missingParticipant) ∧ Renders (t :: r) es ∧
        (es.map Skipped.place).Sublist ((t :: r).map Token.place) := by
    rintro t r rest es hrest ⟨hreason, hrenders, hplaces⟩
    have hsuffix := hrest.trans (List.suffix_cons t r)
    exact ⟨hreason, hrenders.of_infix hsuffix.isInfix,
      hplaces.trans (hsuffix.sublist.map Token.place)⟩
  fun_induction readRelationshipsFrom before ts with
  | case1 => exact ⟨by simp, renders_nil, List.Sublist.refl _⟩
  | case2 before t r ht rest ih => exact hbehind (suffix_splitGroup r) ih
  | case3 before t r ht hc ih => exact hbehind (List.suffix_refl r) ih
  | case4 before t r ht connector n hc behind hr ih =>
    obtain ⟨hreason, hrenders, hplaces⟩ := ih
    have hrun : t :: r.take n <:+: t :: r :=
      (List.cons_prefix_cons.mpr ⟨rfl, List.take_prefix n r⟩).isInfix
    have hdrop : r.drop n <:+ t :: r := (List.drop_suffix n r).trans (List.suffix_cons t r)
    rw [skippedRuns_skipped]
    refine ⟨?_, ?_, ?_⟩
    · intro e he
      rcases List.mem_cons.mp he with rfl | he
      · rfl
      · exact hreason e he
    · intro e he
      rcases List.mem_cons.mp he with rfl | he
      · exact ⟨_, List.cons_ne_nil _ _, hrun, rfl⟩
      · exact (hrenders.of_infix hdrop.isInfix) e he
    · rw [List.map_cons, List.map_cons, Skipped.place_ofTokens]
      exact (hplaces.trans ((List.drop_sublist n r).map Token.place)).cons_cons _
  | case5 before t r ht connector n hc behind relationship rest hr taken ih =>
    rw [skippedRuns_matched]
    exact hbehind ((suffix_of_readRelationship hr).trans (List.drop_suffix n r)) ih

end ContextAtlas
