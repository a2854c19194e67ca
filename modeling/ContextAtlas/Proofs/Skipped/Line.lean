/-
# What is left out of a body

A line of a body that cannot be read is left out as a whole, once, and the reason is one about
lines.  So the runs that are left out of a body are stretches of it, each starting at another of
the block's own tokens.

* `Renders`: skipped runs are stretches of some tokens, with their text and place;
* `LineSkips`: from one line at most the line itself is left out;
* `Block.Judges`: what may be left out of a block, and `Block.judges_of_lines`.
-/
import ContextAtlas.Proofs.Block.Lines
import ContextAtlas.Report
import Mathlib.Data.List.DropRight

namespace ContextAtlas

/-! ## 1. Renderings of runs -/

/-- Every skipped run is a stretch of `ts` that is not empty, with its text and the place of its
first token. -/
def Renders (ts : List Token) (es : List Skipped) : Prop :=
  ∀ e ∈ es, ∃ run, run ≠ [] ∧ run <:+: ts ∧ e = .ofTokens e.reason run

section

variable {ts us : List Token} {es fs : List Skipped}

theorem renders_nil : Renders ts [] := fun _ he => absurd he List.not_mem_nil

theorem Renders.append (h : Renders ts es) (h' : Renders ts fs) : Renders ts (es ++ fs) :=
  fun e he => (List.mem_append.mp he).elim (h e) (h' e)

theorem Renders.of_infix (h : Renders ts es) (hi : ts <:+: us) : Renders us es := by
  intro e he
  obtain ⟨run, hne, hrun, heq⟩ := h e he
  exact ⟨run, hne, hrun.trans hi, heq⟩

/-- A skipped run stands where one of the tokens stands. -/
theorem Renders.exists_token (h : Renders ts es) : ∀ e ∈ es, ∃ t ∈ ts, e.place = t.place := by
  intro e he
  obtain ⟨run, hne, hrun, heq⟩ := h e he
  cases run with
  | nil => exact absurd rfl hne
  | cons t r => exact ⟨t, hrun.subset List.mem_cons_self, by rw [heq, Skipped.place_ofTokens]⟩

end

/-! ## 2. One line -/

/-- A reason against one line of a body. -/
def SkipReason.isAboutLine : SkipReason → Bool
  | .unterminatedBlock | .missingParticipant => false
  | _ => true

/-- From a line nothing is left out, or the run that it consists of. -/
def LineSkips (run : List Token) (es : List Skipped) : Prop :=
  es = [] ∨ ∃ reason, reason.isAboutLine = true ∧ run ≠ [] ∧ es = [.ofTokens reason run]

theorem isPrefix_withoutTerminators (line : List Token) : withoutTerminators line <+: line :=
  List.rdropWhile_prefix _ line

theorem withoutTerminators_idem (line : List Token) :
    withoutTerminators (withoutTerminators line) = withoutTerminators line :=
  List.rdropWhile_idempotent _ line

theorem Attribute.isAboutLine_of_error {line : List Token} {reason : SkipReason}
    (h : read? line = .error reason) : reason.isAboutLine = true := by
  unfold read? at h
  simp only at h
  split at h
  · obtain rfl := Except.error.inj h
    rfl
  · split at h
    · obtain rfl := Except.error.inj h
      rfl
    · split at h
      · obtain rfl := Except.error.inj h
        rfl
      · simp at h

theorem Reference.isAboutLine_of_error {line : List Token} {reason : SkipReason}
    (h : read? line = .error reason) : reason.isAboutLine = true := by
  unfold read? at h
  simp only at h
  split at h
  · obtain rfl := Except.error.inj h
    rfl
  · split at h
    · obtain rfl := Except.error.inj h
      rfl
    · split at h
      · obtain rfl := Except.error.inj h
        rfl
      · split at h
        · obtain rfl := Except.error.inj h
          rfl
        · simp at h

theorem Operation.isAboutLine_of_error {line : List Token} {reason : SkipReason}
    (h : read? line = .error reason) : reason.isAboutLine = true := by
  unfold read? at h
  simp only at h
  split at h
  · split at h
    · obtain rfl := Except.error.inj h
      rfl
    · split at h
      · obtain rfl := Except.error.inj h
        rfl
      · simp at h
  · obtain rfl := Except.error.inj h
    rfl

theorem lineSkips_ofRun {α : Type} {run : List Token} {result : Except SkipReason α}
    (hrun : run ≠ []) (h : ∀ reason, result = .error reason → reason.isAboutLine = true) :
    LineSkips run (skippedRuns [.ofRun run result]) := by
  cases result with
  | ok a => exact .inl rfl
  | error reason => exact .inr ⟨reason, h reason rfl, hrun, rfl⟩

theorem Members.skipped_ofAttribute (o : Outcome Attribute) :
    (ofAttribute o).skipped = skippedRuns [o] := by cases o <;> rfl

theorem Members.skipped_ofReference (o : Outcome Reference) :
    (ofReference o).skipped = skippedRuns [o] := by cases o <;> rfl

theorem Members.skipped_ofOperation (o : Outcome Operation) :
    (ofOperation o).skipped = skippedRuns [o] := by cases o <;> rfl

theorem lineSkips_ofLine (flags : List String) (withOperations : Bool) (line : List Token) :
    LineSkips (withoutTerminators line) (Members.ofLine flags withOperations line).skipped := by
  unfold Members.ofLine
  simp only
  cases Members.flag? flags (withoutTerminators line) with
  | some flag => exact .inl rfl
  | none =>
    cases hkind : lineKind? (withoutTerminators line) with
    | none => exact .inl rfl
    | some kind =>
      have hrun : withoutTerminators line ≠ [] := by
        intro h
        rw [h] at hkind
        simp [lineKind?] at hkind
      cases kind with
      | reference =>
        simp only [Members.skipped_ofReference, Reference.ofLine, withoutTerminators_idem]
        exact lineSkips_ofRun hrun fun _ => Reference.isAboutLine_of_error
      | «attribute» =>
        simp only [Members.skipped_ofAttribute, Attribute.ofLine, withoutTerminators_idem]
        exact lineSkips_ofRun hrun fun _ => Attribute.isAboutLine_of_error
      | operation =>
        cases withOperations with
        | true =>
          simp only [if_true, Members.skipped_ofOperation, Operation.ofLine,
            withoutTerminators_idem]
          exact lineSkips_ofRun hrun fun _ => Operation.isAboutLine_of_error
        | false => exact .inr ⟨.operationNotAllowed, rfl, hrun, rfl⟩

theorem lineSkips_serviceOperation? (line : List Token) :
    LineSkips (withoutTerminators line) (skippedRuns (serviceOperation? line).toList) := by
  unfold serviceOperation?
  simp only
  split
  · exact .inl rfl
  · rename_i hrun
    have hrun' : withoutTerminators line ≠ [] := by simpa using hrun
    split
    · rw [Operation.ofLine, withoutTerminators_idem]
      exact lineSkips_ofRun hrun' fun _ => Operation.isAboutLine_of_error
    · exact .inr ⟨.notAServiceOperation, rfl, hrun', rfl⟩

/-! ## 3. Bodies -/

theorem skipped_ofLines (flags : List String) (withOperations : Bool) :
    ∀ lines : List (List Token), (Members.ofLines flags withOperations lines).skipped
      = lines.flatMap fun line => (Members.ofLine flags withOperations line).skipped
  | [] => rfl
  | line :: lines => by
    rw [List.flatMap_cons, ← skipped_ofLines flags withOperations lines]
    rfl

theorem skippedRuns_serviceOperations : ∀ lines : List (List Token),
    skippedRuns (serviceOperations lines)
      = lines.flatMap fun line => skippedRuns (serviceOperation? line).toList
  | [] => rfl
  | line :: lines => by
    rw [List.flatMap_cons, ← skippedRuns_serviceOperations lines, serviceOperations,
      List.filterMap_cons, serviceOperations]
    cases serviceOperation? line with
    | none => rfl
    | some o => cases o <;> rfl

/-- What may be left out of a block: stretches of its body, for reasons about lines, each starting
at another own token. -/
structure Block.Judges (b : Block) (es : List Skipped) : Prop where
  renders : Renders b.body es
  reasons : ∀ e ∈ es, e.reason.isAboutLine = true
  places : (es.map Skipped.place).Sublist (b.ownTokens.map Token.place)

/-- From one line at most the place of its first token is told. -/
theorem LineSkips.places_sublist {line : List Token} {es : List Skipped}
    (h : LineSkips (withoutTerminators line) es) :
    (es.map Skipped.place).Sublist (line.map Token.place) := by
  rcases h with rfl | ⟨reason, -, hne, rfl⟩
  · exact List.nil_sublist _
  · cases hrun : withoutTerminators line with
    | nil => exact absurd hrun hne
    | cons t r =>
      have ht : t ∈ line := (isPrefix_withoutTerminators line).subset (hrun ▸ List.mem_cons_self)
      exact List.singleton_sublist.mpr (List.mem_map_of_mem ht)

theorem Block.judges_of_lines {b : Block} (hordered : Ordered b.body) (hbalanced : Balanced b.body)
    {skips : List Token → List Skipped}
    (h : ∀ line, LineSkips (withoutTerminators line) (skips line)) :
    b.Judges (b.lines.flatMap skips) where
  renders := by
    intro e he
    obtain ⟨line, hline, he⟩ := List.mem_flatMap.mp he
    rcases h line with hs | ⟨reason, -, hne, hs⟩
    · rw [hs] at he
      exact absurd he List.not_mem_nil
    · rw [hs] at he
      obtain rfl := List.mem_singleton.mp he
      have hin := infix_of_mem_lines hordered hbalanced hline
      exact ⟨_, hne, (isPrefix_withoutTerminators line).isInfix.trans hin, rfl⟩
  reasons := by
    intro e he
    obtain ⟨line, -, he⟩ := List.mem_flatMap.mp he
    rcases h line with hs | ⟨reason, hreason, -, hs⟩
    · rw [hs] at he
      exact absurd he List.not_mem_nil
    · rw [hs] at he
      obtain rfl := List.mem_singleton.mp he
      exact hreason
  places := by
    rw [← flatten_lines, List.map_flatMap]
    induction b.lines with
    | nil => exact List.Sublist.refl []
    | cons line lines ih =>
      rw [List.flatMap_cons, List.flatten_cons, List.map_append]
      exact (h line).places_sublist.append ih

end ContextAtlas
