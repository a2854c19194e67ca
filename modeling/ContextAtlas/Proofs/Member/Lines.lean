/-
# Lines stand for themselves

A body is read line by line: what one line holds is one member, one flag, or one run that is left
out, and it is the same whatever lines stand around it.  So a line that cannot be read harms no
other line, and a body without such lines holds what the body with them holds.

* `Members.Single`: members that are one thing only;
* `Members.ReadsOne`: a line is read as one thing, or as nothing if it is empty;
  `Members.readsOne_ofLine` and `Members.readsOne_ofServiceLine`: so are the lines of a body and of
  a service;
* `Members.LineByLine`: what it is to read a body line by line; `Members.ReadsOne.lineByLine`: so
  are lines that are read each on its own;
* `Members.bodies_lineByLine`: bodies and services are read line by line.
-/
import ContextAtlas.Member.Lines

namespace ContextAtlas.Members

/-! ## 1. Members together -/

/-- How many things members are in all. -/
def count (m : Members) : Nat :=
  m.attributes.length + m.references.length + m.operations.length + m.flagSet.length
    + m.skipped.length

/-- Whether members are those of two bodies together, one behind the other.  Flags have no order
and occur once. -/
structure Joins (m n whole : Members) : Prop where
  attributes : whole.attributes = m.attributes ++ n.attributes
  references : whole.references = m.references ++ n.references
  operations : whole.operations = m.operations ++ n.operations
  flags : ∀ flag, flag ∈ whole.flagSet ↔ flag ∈ m.flagSet ∨ flag ∈ n.flagSet
  skipped : whole.skipped = m.skipped ++ n.skipped

/-- Members that are one thing only, and an operation only where operations are allowed. -/
inductive Single (withOperations : Bool) : Members → Prop
  | «attribute» (a : Attribute) : Single withOperations { attributes := [a] }
  | reference (r : Reference) : Single withOperations { references := [r] }
  | operation (o : Operation) (h : withOperations = true) :
      Single withOperations { operations := [o] }
  | flag (f : String) : Single withOperations { flags := [f] }
  | skipped (s : Skipped) : Single withOperations { skipped := [s] }

section

variable {m n k : Members} {withOperations : Bool}

theorem mem_flagSet {flag : String} : flag ∈ m.flagSet ↔ flag ∈ m.flags := by
  simp [flagSet]

theorem joins_append : Joins m n (m.append n) where
  attributes := rfl
  references := rfl
  operations := rfl
  flags := by
    intro flag
    rw [mem_flagSet, mem_flagSet, mem_flagSet]
    exact List.mem_append
  skipped := rfl

theorem append_empty (m : Members) : m.append empty = m := by
  simp [append, empty]

theorem append_assoc (m n k : Members) : (m.append n).append k = m.append (n.append k) := by
  simp [append]

theorem count_empty : empty.count = 0 := by
  simp [count, flagSet, empty]

theorem Single.count_eq (h : Single withOperations m) : m.count = 1 := by
  cases h <;> simp [count, flagSet, List.eraseDups_cons]

theorem Single.operations_nil (h : Single false m) : m.operations = [] := by
  cases h with
  | operation o ho => cases ho
  | _ => rfl

/-- One thing that is left out is all that there is. -/
theorem Single.skipped_eq (h : Single withOperations m) :
    m.skipped = [] ∨ { m with skipped := [] } = empty := by
  cases h with
  | skipped s => exact .inr rfl
  | _ => exact .inl rfl

end

/-! ## 2. One line -/

/-- Whether a line is read as one thing, or as nothing if it is empty but for its semicolons. -/
structure ReadsOne (withOperations : Bool) (one : List Token → Members) : Prop where
  nil : ∀ line, withoutTerminators line = [] → one line = empty
  single : ∀ line, withoutTerminators line ≠ [] → Single withOperations (one line)

section

variable {withOperations : Bool}

theorem single_ofAttribute (o : Outcome Attribute) : Single withOperations (ofAttribute o) := by
  cases o with
  | matched a => exact .attribute a
  | skipped s => exact .skipped s

theorem single_ofReference (o : Outcome Reference) : Single withOperations (ofReference o) := by
  cases o with
  | matched r => exact .reference r
  | skipped s => exact .skipped s

theorem single_ofOperation (o : Outcome Operation) : Single true (ofOperation o) := by
  cases o with
  | matched o => exact .operation o rfl
  | skipped s => exact .skipped s

theorem readsOne_ofLine (flags : List String) (withOperations : Bool) :
    ReadsOne withOperations (ofLine flags withOperations) where
  nil line h := by
    simp only [ofLine, h]
    rfl
  single line h := by
    obtain ⟨t, r, hrun⟩ := List.exists_cons_of_ne_nil h
    obtain ⟨kind, hkind⟩ := exists_lineKind t r
    simp only [ofLine, hrun]
    cases flag? flags (t :: r) with
    | some f => exact .flag f
    | none =>
      simp only [hkind]
      cases kind with
      | reference => exact single_ofReference _
      | «attribute» => exact single_ofAttribute _
      | operation =>
        cases withOperations with
        | true => exact single_ofOperation _
        | false => exact .skipped _

/-- What one line of a service holds, as members. -/
def ofServiceLine (line : List Token) : Members :=
  (serviceOperation? line).elim empty ofOperation

theorem readsOne_ofServiceLine : ReadsOne true ofServiceLine where
  nil line h := by simp [ofServiceLine, serviceOperation?, h]
  single line h := by
    have hrun : ¬ (withoutTerminators line).isEmpty = true := by simpa using h
    rw [ofServiceLine, serviceOperation?, if_neg hrun]
    split
    · exact single_ofOperation _
    · exact single_ofOperation (.skipped _)

end

/-! ## 3. Bodies -/

/-- What lines hold that are read each on its own. -/
def ofEach (one : List Token → Members) (lines : List (List Token)) : Members :=
  (lines.map one).foldr append empty

section

variable {withOperations : Bool} {one : List Token → Members}

theorem ofEach_nil : ofEach one [] = empty := rfl

theorem ofEach_cons (line : List Token) (lines : List (List Token)) :
    ofEach one (line :: lines) = (one line).append (ofEach one lines) := rfl

theorem ofEach_singleton (line : List Token) : ofEach one [line] = one line := by
  rw [ofEach_cons, ofEach_nil, append_empty]

theorem ofEach_append (lines lines' : List (List Token)) :
    ofEach one (lines ++ lines') = (ofEach one lines).append (ofEach one lines') := by
  induction lines with
  | nil => rfl
  | cons line lines ih => rw [List.cons_append, ofEach_cons, ih, ofEach_cons, append_assoc]

theorem ReadsOne.count_line (h : ReadsOne withOperations one) (line : List Token) :
    (one line).count = if withoutTerminators line = [] then 0 else 1 := by
  split
  · next hnil => rw [h.nil line hnil, count_empty]
  · next hne => exact (h.single line hne).count_eq

theorem ReadsOne.operations_nil (h : ReadsOne false one) (lines : List (List Token)) :
    (ofEach one lines).operations = [] := by
  induction lines with
  | nil => rfl
  | cons line lines ih =>
    have hline : (one line).operations = [] := by
      by_cases hnil : withoutTerminators line = []
      · rw [h.nil line hnil]
        rfl
      · exact (h.single line hnil).operations_nil
    rw [ofEach_cons, append, hline, ih]
    rfl

/-- The lines that are left out hold nothing else, so that without them nothing else changes. -/
theorem ReadsOne.without_skipped (h : ReadsOne withOperations one) (lines : List (List Token)) :
    ofEach one (lines.filter fun line => (one line).skipped.isEmpty)
      = { ofEach one lines with skipped := [] } := by
  induction lines with
  | nil => rfl
  | cons line lines ih =>
    have hline : (one line).skipped = [] ∨ { one line with skipped := [] } = empty := by
      by_cases hnil : withoutTerminators line = []
      · exact .inl (by rw [h.nil line hnil]; rfl)
      · exact (h.single line hnil).skipped_eq
    by_cases hkept : (one line).skipped = []
    · rw [List.filter_cons_of_pos (by simp [hkept]), ofEach_cons, ih, ofEach_cons]
      simp [append, hkept]
    · have hrest := hline.resolve_left hkept
      rw [List.filter_cons_of_neg (by simp [hkept]), ih, ofEach_cons]
      simp_all [append, empty]

end

/-- What the lines of a service hold, as members. -/
def ofServiceLines (lines : List (List Token)) : Members where
  operations := matchedValues (serviceOperations lines)
  skipped := skippedRuns (serviceOperations lines)

theorem ofServiceLines_eq (lines : List (List Token)) :
    ofServiceLines lines = ofEach ofServiceLine lines := by
  induction lines with
  | nil => rfl
  | cons line lines ih =>
    rw [ofEach_cons, ← ih, ofServiceLine, ofServiceLines, serviceOperations, List.filterMap_cons]
    rcases serviceOperation? line with _ | _ | _ <;> rfl

/-- Whether bodies are read line by line: of two bodies together as of each, of one line one thing
unless it is empty, and without the lines that are left out as with them. -/
structure LineByLine (withOperations : Bool) (read : List (List Token) → Members) : Prop where
  joins : ∀ lines lines', Joins (read lines) (read lines') (read (lines ++ lines'))
  count_line : ∀ line, (read [line]).count = if withoutTerminators line = [] then 0 else 1
  operations_nil : withOperations = false → ∀ lines, (read lines).operations = []
  without_skipped : ∀ lines, read (lines.filter fun line => (read [line]).skipped.isEmpty)
    = { read lines with skipped := [] }

theorem ReadsOne.lineByLine {withOperations : Bool} {one : List Token → Members}
    (h : ReadsOne withOperations one) : LineByLine withOperations (ofEach one) where
  joins lines lines' := by
    rw [ofEach_append]
    exact joins_append
  count_line line := by rw [ofEach_singleton, h.count_line]
  operations_nil hoperations lines := by
    subst hoperations
    exact h.operations_nil lines
  without_skipped lines := by
    simp only [ofEach_singleton]
    exact h.without_skipped lines

/-- **Bodies are read line by line**, whatever words are flags and whether operations are allowed,
and so are services. -/
theorem bodies_lineByLine :
    (∀ flags withOperations, LineByLine withOperations (ofLines flags withOperations))
      ∧ LineByLine true ofServiceLines := by
  refine ⟨fun flags withOperations => (readsOne_ofLine flags withOperations).lineByLine, ?_⟩
  rw [funext ofServiceLines_eq]
  exact readsOne_ofServiceLine.lineByLine

end ContextAtlas.Members
