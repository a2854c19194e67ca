/-
# What an operation is read from

A line that is read as an operation has modifiers, the tokens of a result, a name, a list of
parameters between parentheses, and a trailer.  The first type that the tokens of the result spell
is the type of the result, and a group of the parameter list is a parameter if it starts with a
type and ends with a name.

* `Source.Modifiers`: the modifiers as they are written; `readModifiers_written`,
  `exists_modifiers`: they are taken as far as they go;
* `Grouped`: the groups of a list between commas outside of angles, which are unique
  (`grouped_iff`);
* `IsResult`, `IsParameter`, `Kept`: what the tokens of a result and of a group say;
* `Operation.Reading`: all that a line says of an operation;
* `Operation.ofLine_eq_matched_iff`: a line is read as an operation exactly if it says so.

Neither the result nor a parameter has to end where its type does.  The tokens between the type and
the name leave no trace in the operation; `Operation.matched_with_leftover` is a line with such
tokens.
-/
import Mathlib.Data.List.Basic
import ContextAtlas.Proofs.TypeRef.Grammar
import ContextAtlas.Member.Operation

namespace ContextAtlas

/-! ## 1. Modifiers -/

namespace Source

/-- What may announce an operation. -/
inductive Announcement where
  | keyword
  | star

/-- How an announcement is written. -/
def Announcement.lexeme : Announcement → Lexeme
  | keyword => .word "def"
  | star => .mark .star

/-- The modifiers of an operation as they are written. -/
structure Modifiers where
  announcement : Option Announcement
  visibility : Option Visibility
  isAbstract : Bool

namespace Modifiers

/-- The visibility as it is written. -/
def visibilityLexeme (m : Modifiers) : Option Lexeme :=
  m.visibility.map fun v => .word (Spelled.spell v)

/-- How modifiers are written. -/
def lexemes (m : Modifiers) : List Lexeme :=
  (m.announcement.map Announcement.lexeme).toList
    ++ (m.visibilityLexeme.toList ++ (if m.isAbstract then [.word "abstract"] else []))

/-- Whether modifiers end in front of a token: it is none that could still come. -/
structure EndBefore (m : Modifiers) (t : Token) : Prop where
  not_abstract : m.isAbstract = false → t.isWord "abstract" = false
  not_visibility : m.isAbstract = false → m.visibility = none →
    (t.word?.bind Spelled.read? : Option Visibility) = none
  not_announcement : m.isAbstract = false → m.visibility = none → m.announcement = none →
    t.announcesOperation = false

end Modifiers

end Source

open Source

namespace Operation

/-! ### Written modifiers are read -/

theorem afterOptional_announcement {a : Option Announcement} {run rest : List Token}
    (h : run.map Token.lexeme = (a.map Announcement.lexeme).toList)
    (hnone : a = none → ∀ t ∈ rest.head?, t.announcesOperation = false) :
    afterOptional Token.announcesOperation (run ++ rest) = rest := by
  cases a with
  | none =>
    obtain rfl := List.map_eq_nil_iff.mp h
    exact afterOptional_of_neg (hnone rfl)
  | some a =>
    obtain ⟨t, rfl, ht⟩ := List.map_eq_singleton_iff.mp h
    refine afterOptional_of_pos ?_
    cases a <;> simp_all [Announcement.lexeme, Token.announcesOperation, Token.is, Token.isWord]

/-- Written modifiers are read where they end. -/
theorem readModifiers_written {m : Modifiers} {run r : List Token} {t : Token}
    (h : run.map Token.lexeme = m.lexemes) (hend : m.EndBefore t) :
    readModifiers (run ++ t :: r) = (m.visibility, t :: r) := by
  obtain ⟨announcement, visibility, isAbstract⟩ := m
  obtain ⟨first, run, rfl, hfirst, hrun⟩ := List.map_eq_append_iff.mp h
  obtain ⟨second, third, rfl, hsecond, hthird⟩ := List.map_eq_append_iff.mp hrun
  have habstract : afterOptional (·.isWord "abstract") (third ++ t :: r) = t :: r :=
    afterOptional_written hthird (fun u hu => by simp [Token.isWord, hu])
      (by simpa using hend.not_abstract)
  -- What stands behind the visibility: `abstract`, or what the modifiers end in front of.
  obtain ⟨x, s, hx, hbehind⟩ : ∃ x s, third ++ t :: r = x :: s
      ∧ (x.lexeme = .word "abstract" ∨ isAbstract = false ∧ x = t) := by
    cases isAbstract with
    | true =>
      obtain ⟨a, rfl, ha⟩ := List.map_eq_singleton_iff.mp hthird
      exact ⟨a, t :: r, rfl, .inl ha⟩
    | false =>
      obtain rfl := List.map_eq_nil_iff.mp hthird
      exact ⟨t, r, rfl, .inr ⟨rfl, rfl⟩⟩
  have hvisibility : readVisibility (second ++ x :: s) = (visibility, x :: s) := by
    refine readVisibility_written hsecond (List.cons_ne_nil x s) fun hnone y hy => ?_
    obtain rfl : x = y := by simpa using hy
    rcases hbehind with ha | ⟨ha, rfl⟩
    · rw [Token.word?, ha]
      rfl
    · exact hend.not_visibility ha hnone
  have hannouncement : afterOptional Token.announcesOperation (first ++ (second ++ x :: s))
      = second ++ x :: s := by
    refine afterOptional_announcement hfirst fun hnone y hy => ?_
    cases visibility with
    | some v =>
      obtain ⟨a, rfl, ha⟩ := List.map_eq_singleton_iff.mp hsecond
      obtain rfl : a = y := by simpa using hy
      have hdef : Spelled.spell v ≠ "def" := by cases v <;> decide
      simp [Token.announcesOperation, Token.is, Token.isWord, ha, hdef]
    | none =>
      obtain rfl := List.map_eq_nil_iff.mp hsecond
      obtain rfl : x = y := by simpa using hy
      rcases hbehind with ha | ⟨ha, rfl⟩
      · simp [Token.announcesOperation, Token.is, Token.isWord, ha]
      · exact hend.not_announcement ha rfl hnone
  rw [hx] at habstract
  simp only [readModifiers, List.append_assoc, hx, hannouncement, hvisibility, habstract]

/-! ### Modifiers that are read were written -/

theorem exists_announcement (ts : List Token) :
    ∃ (a : Option Announcement) (run : List Token),
      ts = run ++ afterOptional Token.announcesOperation ts
        ∧ run.map Token.lexeme = (a.map Announcement.lexeme).toList
        ∧ (a = none → ∀ t ∈ ts.head?, t.announcesOperation = false) := by
  rcases ts with _ | ⟨t, r⟩
  · exact ⟨none, [], rfl, rfl, by simp⟩
  · by_cases ht : t.announcesOperation = true
    · have hrun : t :: r = [t] ++ afterOptional Token.announcesOperation (t :: r) := by
        rw [afterOptional_of_pos ht, List.singleton_append]
      simp only [Token.announcesOperation, Bool.or_eq_true] at ht
      rcases ht with ht | ht
      · exact ⟨some .star, [t], hrun, by simp [Announcement.lexeme, Token.lexeme_of_is ht], by simp⟩
      · have hword : t.lexeme = .word "def" := by simpa [Token.isWord] using ht
        exact ⟨some .keyword, [t], hrun, by simp [Announcement.lexeme, hword], by simp⟩
    · exact ⟨none, [], by simp [afterOptional, ht], rfl, by simpa using ht⟩

theorem exists_visibility (ts : List Token) :
    ∃ run : List Token, ts = run ++ (readVisibility ts).2
      ∧ run.map Token.lexeme
        = ((readVisibility ts).1.map fun v => Lexeme.word (Spelled.spell v)).toList
      ∧ ((readVisibility ts).1 = none → ∀ t u r, ts = t :: u :: r →
        (t.word?.bind Spelled.read? : Option Visibility) = none) := by
  rcases ts with _ | ⟨t, _ | ⟨u, r⟩⟩
  · exact ⟨[], rfl, rfl, by simp⟩
  · exact ⟨[], rfl, rfl, by simp⟩
  · rcases hv : (t.word?.bind Spelled.read? : Option Visibility) with _ | v
    · refine ⟨[], by simp [readVisibility, hv], by simp [readVisibility, hv], fun _ => ?_⟩
      rintro t u r ⟨⟩
      exact hv
    · obtain ⟨w, hw, hread⟩ := Option.bind_eq_some_iff.mp hv
      refine ⟨[t], by simp [readVisibility, hv], ?_, by simp [readVisibility, hv]⟩
      simp [readVisibility, hv, Token.lexeme_of_word? hw, Spelled.spell_of_read? hread]

theorem exists_abstract (ts : List Token) :
    ∃ (b : Bool) (run : List Token), ts = run ++ afterOptional (·.isWord "abstract") ts
      ∧ run.map Token.lexeme = (if b then [.word "abstract"] else [])
      ∧ (b = false → ∀ t ∈ ts.head?, t.isWord "abstract" = false) := by
  rcases ts with _ | ⟨t, r⟩
  · exact ⟨false, [], rfl, rfl, by simp⟩
  · by_cases ht : t.isWord "abstract" = true
    · have hword : t.lexeme = .word "abstract" := by simpa [Token.isWord] using ht
      exact ⟨true, [t], by simp [afterOptional, ht], by simp [hword], by simp⟩
    · exact ⟨false, [], by simp [afterOptional, ht], rfl, by simpa using ht⟩

/-- The modifiers that are read stand at the start of the line, and end where they are read to end
if two tokens follow. -/
theorem exists_modifiers (line : List Token) :
    ∃ (m : Modifiers) (front : List Token), line = front ++ (readModifiers line).2
      ∧ front.map Token.lexeme = m.lexemes ∧ m.visibility = (readModifiers line).1
      ∧ ∀ t u r, (readModifiers line).2 = t :: u :: r → m.EndBefore t := by
  obtain ⟨a, first, hline, hfirst, hannouncement⟩ := exists_announcement line
  obtain ⟨second, hsecond, hvisibility, hnone⟩ :=
    exists_visibility (afterOptional Token.announcesOperation line)
  obtain ⟨b, third, hthird, habstract, hword⟩ :=
    exists_abstract (readVisibility (afterOptional Token.announcesOperation line)).2
  refine ⟨⟨a, (readModifiers line).1, b⟩, first ++ (second ++ third), ?_, ?_, rfl, ?_⟩
  · rw [List.append_assoc, List.append_assoc, readModifiers, ← hthird, ← hsecond, ← hline]
  · rw [List.map_append, List.map_append, hfirst, hvisibility, habstract]
    rfl
  · intro t u r hbehind
    -- Where a part is missing, the line goes on with the same token behind it as in front of it.
    have hb : b = false →
        (readVisibility (afterOptional Token.announcesOperation line)).2 = t :: u :: r := by
      rintro rfl
      rw [hthird, List.map_eq_nil_iff.mp habstract]
      exact hbehind
    have hv : b = false → (readModifiers line).1 = none →
        afterOptional Token.announcesOperation line = t :: u :: r := by
      intro hfalse hvis
      rw [hsecond, hb hfalse]
      rw [show (readVisibility (afterOptional Token.announcesOperation line)).1 = none from hvis]
        at hvisibility
      rw [List.map_eq_nil_iff.mp hvisibility]
      rfl
    refine ⟨fun hfalse => ?_, fun hfalse hvis => ?_, fun hfalse hvis ha => ?_⟩
    · exact hword hfalse t (by simp [hb hfalse])
    · exact hnone hvis t u r (hv hfalse hvis)
    · have hstart : line = t :: u :: r := by
        rw [hline, hv hfalse hvis]
        have hempty : a = none := ha
        rw [hempty] at hfirst
        rw [List.map_eq_nil_iff.mp hfirst]
        rfl
      exact hannouncement ha t (by simp [hstart])

end Operation

/-! ## 2. Groups of a parameter list -/

/-- How many angles are open behind a lexeme.  A closing angle that closes none is passed over. -/
def angleStep (depth : Nat) (x : Lexeme) : Nat :=
  if x = .mark .openAngle then depth + 1 else if x = .mark .closeAngle then depth - 1 else depth

/-- How many angles are open behind a row. -/
def openAngles (depth : Nat) (row : List Lexeme) : Nat := row.foldl angleStep depth

/-- Whether all commas of a row stand within angles. -/
def NoOuterComma (depth : Nat) (row : List Lexeme) : Prop :=
  ∀ front behind, row = front ++ .mark .comma :: behind → 0 < openAngles depth front

/-- The groups of a run between its commas outside of angles. -/
inductive Grouped : List (List Token) → List Token → Prop
  | last {g : List Token} (hg : NoOuterComma 0 (g.map Token.lexeme)) : Grouped [g] g
  | comma {g r : List Token} {gs : List (List Token)} {t : Token}
      (hg : NoOuterComma 0 (g.map Token.lexeme)) (hclosed : openAngles 0 (g.map Token.lexeme) = 0)
      (ht : t.is .comma = true) (h : Grouped gs r) : Grouped (g :: gs) (g ++ t :: r)

section

variable {depth : Nat} {x : Lexeme} {row row' : List Lexeme}

@[simp] theorem openAngles_nil : openAngles depth [] = depth := rfl

@[simp] theorem openAngles_cons :
    openAngles depth (x :: row) = openAngles (angleStep depth x) row := rfl

@[simp] theorem openAngles_append :
    openAngles depth (row ++ row') = openAngles (openAngles depth row) row' := List.foldl_append

@[simp] theorem noOuterComma_nil : NoOuterComma depth [] := by
  intro front behind h
  simp at h

@[simp] theorem noOuterComma_cons : NoOuterComma depth (x :: row)
    ↔ (x = .mark .comma → 0 < depth) ∧ NoOuterComma (angleStep depth x) row := by
  constructor
  · intro h
    refine ⟨fun hx => h [] row (by rw [hx, List.nil_append]), fun front behind hrow => ?_⟩
    exact h (x :: front) behind (by rw [hrow, List.cons_append])
  · rintro ⟨hx, hrow⟩ front behind hsplit
    cases front with
    | nil => exact hx (List.cons.inj hsplit).1
    | cons y front =>
      obtain ⟨rfl, htail⟩ := List.cons.inj hsplit
      exact hrow front behind htail

@[simp] theorem noOuterComma_append : NoOuterComma depth (row ++ row')
    ↔ NoOuterComma depth row ∧ NoOuterComma (openAngles depth row) row' := by
  induction row generalizing depth with
  | nil => simp
  | cons x row ih => simp [ih, and_assoc]

end

section

variable {depth : Nat} {t : Token} {g group r : List Token}

theorem splitParameters_comma (ht : t.is .comma = true) :
    splitParameters 0 group (t :: r) = group.reverse :: splitParameters 0 [] r := by
  simp [splitParameters, ht]

theorem splitParameters_cons (ht : t.is .comma = true → 0 < depth) :
    splitParameters depth group (t :: r)
      = splitParameters (angleStep depth t.lexeme) (t :: group) r := by
  have hcomma : ¬ (t.is .comma && decide (depth = 0)) = true := by
    simp only [Bool.and_eq_true, decide_eq_true_eq, not_and]
    intro hc
    have := ht hc
    omega
  rw [splitParameters, if_neg hcomma]
  simp only [angleStep, Token.is, decide_eq_true_eq]
  split
  · rfl
  · split <;> rfl

/-- The current group is gone on with up to a comma outside of angles. -/
theorem splitParameters_group (group r : List Token)
    (h : NoOuterComma depth (g.map Token.lexeme)) :
    splitParameters depth group (g ++ r)
      = splitParameters (openAngles depth (g.map Token.lexeme)) (g.reverse ++ group) r := by
  induction g generalizing depth group with
  | nil => rfl
  | cons t g ih =>
    rw [List.map_cons, noOuterComma_cons] at h
    rw [List.cons_append, splitParameters_cons fun ht => h.1 (Token.lexeme_of_is ht),
      ih (t :: group) h.2]
    simp

/-- A parameter list is split into its groups. -/
theorem grouped_splitParameters (depth : Nat) (group : List Token) {ts : List Token}
    (hdepth : depth = openAngles 0 (group.reverse.map Token.lexeme))
    (hgroup : NoOuterComma 0 (group.reverse.map Token.lexeme)) :
    Grouped (splitParameters depth group ts) (group.reverse ++ ts) := by
  induction ts generalizing depth group with
  | nil =>
    rw [splitParameters, List.append_nil]
    exact .last hgroup
  | cons t r ih =>
    by_cases hcomma : t.is .comma = true ∧ depth = 0
    · obtain ⟨ht, rfl⟩ := hcomma
      rw [splitParameters_comma ht]
      exact .comma hgroup hdepth.symm ht (ih 0 [] rfl noOuterComma_nil)
    · have ht : t.is .comma = true → 0 < depth := fun ht =>
        Nat.pos_of_ne_zero fun hzero => hcomma ⟨ht, hzero⟩
      have hinside : t.lexeme = .mark .comma → 0 < depth := fun hlexeme =>
        ht (by simp [Token.is, hlexeme])
      have hnext := ih (angleStep depth t.lexeme) (t :: group)
        (by simp [hdepth])
        (by
          rw [List.reverse_cons, List.map_append, noOuterComma_append, ← hdepth]
          exact ⟨hgroup, by simpa using hinside⟩)
      rw [splitParameters_cons ht]
      simpa using hnext

end

theorem Grouped.eq_splitParameters {gs : List (List Token)} {ts : List Token} (h : Grouped gs ts) :
    gs = splitParameters 0 [] ts := by
  induction h with
  | @last g hg =>
    have hsplit := splitParameters_group [] [] hg
    rw [List.append_nil] at hsplit
    rw [hsplit, splitParameters, List.append_nil, List.reverse_reverse]
  | @comma g r gs t hg hclosed ht h ih =>
    rw [splitParameters_group [] (t :: r) hg, hclosed, splitParameters_comma ht, List.append_nil,
      List.reverse_reverse, ← ih]

/-- A parameter list has one way to be split into groups. -/
theorem grouped_iff {gs : List (List Token)} {ts : List Token} :
    Grouped gs ts ↔ gs = splitParameters 0 [] ts := by
  constructor
  · exact Grouped.eq_splitParameters
  · rintro rfl
    exact grouped_splitParameters 0 [] rfl noOuterComma_nil

/-! ## 3. Types and parameters -/

/-- Whether some tokens start with a complete type, with some tokens left over behind it. -/
def StartsWithType (ts : List Token) (type : TypeRef) (leftover : List Token) : Prop :=
  ∃ (T : TypeTerm) (run : List Token), ts = run ++ leftover ∧ run.map Token.lexeme = T.lexemes
    ∧ T.depth ≤ 64 ∧ T.EndsBefore leftover ∧ type = T.meaning

/-- What the tokens between modifiers and name say of the result: nothing at all if there are none,
and else the type that they start with. -/
def IsResult (ts : List Token) (type : TypeRef) : Prop :=
  ts = [] ∧ type = .primitive .void ∨ ts ≠ [] ∧ ∃ leftover, StartsWithType ts type leftover

/-- Whether a group states a parameter: sigils aside, it ends with a name, and the tokens in front
of the name start with a type. -/
def IsParameter (group : List Token) (p : Parameter) : Prop :=
  ∃ typed named leftover, group.filter (!·.is .sigil) = typed ++ [named]
    ∧ named.lexeme = .word p.name ∧ StartsWithType typed p.type leftover

/-- The parameters that some groups state, in order.  A group that states none is dropped. -/
inductive Kept : List (List Token) → List Parameter → Prop
  | nil : Kept [] []
  | keep {g : List Token} {p : Parameter} {gs : List (List Token)} {ps : List Parameter}
      (hp : IsParameter g p) (h : Kept gs ps) : Kept (g :: gs) (p :: ps)
  | drop {g : List Token} {gs : List (List Token)} {ps : List Parameter}
      (hg : ∀ p, ¬ IsParameter g p) (h : Kept gs ps) : Kept (g :: gs) ps

theorem TypeRef.read?_iff_startsWithType {ts leftover : List Token} {type : TypeRef} :
    read? ts = some (type, leftover) ↔ StartsWithType ts type leftover :=
  read?_eq_some_iff

theorem Operation.readReturnType_eq_some_iff {ts : List Token} {type : TypeRef} :
    readReturnType ts = some type ↔ IsResult ts type := by
  rw [readReturnType, IsResult]
  cases ts with
  | nil => simp [eq_comm]
  | cons t r => simp [← TypeRef.read?_iff_startsWithType]

theorem Parameter.read?_eq_some_iff {group : List Token} {p : Parameter} :
    read? group = some p ↔ IsParameter group p := by
  simp only [read?, Option.bind_eq_bind, Option.bind_eq_some_iff, Option.some.injEq]
  constructor
  · rintro ⟨named, hnamed, name, hname, ⟨type, leftover⟩, htype, rfl⟩
    refine ⟨_, named, leftover, (List.dropLast_append_getLast? named hnamed).symm,
      Token.lexeme_of_word? hname, TypeRef.read?_iff_startsWithType.mp htype⟩
  · rintro ⟨typed, named, leftover, hgroup, hnamed, htype⟩
    refine ⟨named, by rw [hgroup, List.getLast?_concat], p.name, by simp [Token.word?, hnamed],
      (p.type, leftover), ?_, rfl⟩
    rw [hgroup, List.dropLast_concat]
    exact TypeRef.read?_iff_startsWithType.mpr htype

theorem kept_iff : ∀ {gs : List (List Token)} {ps : List Parameter},
    Kept gs ps ↔ ps = gs.filterMap Parameter.read?
  | [], ps => by
    constructor
    · intro h
      cases h
      rfl
    · rintro rfl
      exact .nil
  | g :: gs, ps => by
    constructor
    · intro h
      cases h with
      | keep hp h =>
        rw [List.filterMap_cons, Parameter.read?_eq_some_iff.mpr hp, ← kept_iff.mp h]
      | drop hg h =>
        have hnone : Parameter.read? g = none := by
          rw [Option.eq_none_iff_forall_ne_some]
          exact fun p hp => hg p (Parameter.read?_eq_some_iff.mp hp)
        rw [List.filterMap_cons, hnone, ← kept_iff.mp h]
    · rintro rfl
      rw [List.filterMap_cons]
      split
      · next hnone =>
        refine .drop (fun p hp => ?_) (kept_iff.mpr rfl)
        rw [Parameter.read?_eq_some_iff.mpr hp] at hnone
        cases hnone
      · next p hp => exact .keep (Parameter.read?_eq_some_iff.mp hp) (kept_iff.mpr rfl)

namespace Operation

/-! ## 4. Lines -/

/-- What a line without trailing semicolons says of an operation. -/
structure Reading (line : List Token) (o : Operation) where
  /-- The modifiers, and their tokens. -/
  modifiers : Modifiers
  front : List Token
  /-- The tokens between the modifiers and the name. -/
  result : List Token
  named : Token
  opening : Token
  parameters : List Token
  closing : Token
  trailer : List Token
  groups : List (List Token)
  line_eq :
    line = front ++ (result ++ named :: opening :: (parameters ++ closing :: trailer))
  front_eq : front.map Token.lexeme = modifiers.lexemes
  modifiers_end : ∀ t ∈ (result ++ [named]).head?, modifiers.EndBefore t
  named_eq : named.lexeme = .word o.name
  opening_eq : opening.is .openParen = true
  result_eq : ∀ t ∈ result, t.is .openParen = false
  closing_eq : closing.is .closeParen = true
  parameters_eq : ∀ t ∈ parameters, t.is .closeParen = false
  visibility_eq : o.visibility = modifiers.visibility
  isResult : IsResult result o.returnType
  grouped : Grouped groups parameters
  kept : Kept groups o.parameters
  isReadOnly_eq : o.isReadOnly = isReadOnlyTrailer trailer
  transition_eq : o.transition = StateTransition.read? trailer

/-- A line that says so much is read as the operation. -/
theorem Reading.read?_eq {line : List Token} {o : Operation} (s : Reading line o) :
    read? line = .ok o := by
  have hmodifiers : readModifiers line = (s.modifiers.visibility,
      s.result ++ s.named :: s.opening :: (s.parameters ++ s.closing :: s.trailer)) := by
    conv_lhs => rw [s.line_eq]
    have hend := s.modifiers_end
    cases hresult : s.result <;> rw [hresult] at hend
    · exact readModifiers_written s.front_eq (hend _ rfl)
    · exact readModifiers_written s.front_eq (hend _ rfl)
  have hhead : ∀ t ∈ s.result ++ [s.named], t.is .openParen = false := by
    intro t ht
    rcases List.mem_append.mp ht with ht | ht
    · exact s.result_eq t ht
    · obtain rfl := List.mem_singleton.mp ht
      simp [Token.is, s.named_eq]
  have hopen := span_until hhead s.opening_eq (s.parameters ++ s.closing :: s.trailer)
  rw [List.append_assoc, List.singleton_append] at hopen
  have hclose := span_until s.parameters_eq s.closing_eq s.trailer
  have hname : s.named.word? = some o.name := by simp [Token.word?, s.named_eq]
  have hreturn := readReturnType_eq_some_iff.mpr s.isResult
  have hparameters : o.parameters = readParameters s.parameters := by
    rw [readParameters, ← s.grouped.eq_splitParameters]
    exact kept_iff.mp s.kept
  simp only [read?, hmodifiers, hopen.1, hopen.2, List.getLast?_concat, Option.bind_some, hname,
    hclose.1, hclose.2, List.dropLast_concat, hreturn, ← hparameters, ← s.visibility_eq,
    ← s.isReadOnly_eq, ← s.transition_eq]

/-- A line that is read as an operation says so much. -/
theorem exists_reading {line : List Token} {o : Operation} (h : read? line = .ok o) :
    Nonempty (Reading line o) := by
  obtain ⟨m, front, hline, hfront, hvisibility, hend⟩ := exists_modifiers line
  simp only [read?] at h
  split at h
  · next opening afterOpen name hopen hname =>
    split at h
    · cases h
    next closing trailer hclose =>
    split at h
    · cases h
    next returnType hreturn =>
    cases h
    obtain ⟨hsignature, hopening, hhead⟩ := exists_span_until hopen
    obtain ⟨hinner, hclosing, hparameters⟩ := exists_span_until hclose
    obtain ⟨named, hnamed, hword⟩ := Option.bind_eq_some_iff.mp hname
    have hsplit := List.dropLast_append_getLast? named hnamed
    generalize (readModifiers line).2.takeWhile (!·.is .openParen) = head at *
    generalize head.dropLast = result at *
    subst hsplit
    refine ⟨⟨m, front, result, named, opening, _, closing, trailer, _, ?_, hfront, ?_,
      Token.lexeme_of_word? hword, hopening, fun t ht => hhead t (List.mem_append_left _ ht),
      hclosing, hparameters, hvisibility.symm, readReturnType_eq_some_iff.mp hreturn,
      grouped_iff.mpr rfl, kept_iff.mpr rfl, rfl, rfl⟩⟩
    · rw [← hinner]
      simpa [hsignature] using hline
    · intro t ht
      rcases result with _ | ⟨u, _ | ⟨v, r⟩⟩
      · obtain rfl : named = t := by simpa using ht
        exact hend _ _ _ hsignature
      · obtain rfl : u = t := by simpa using ht
        exact hend _ _ _ hsignature
      · obtain rfl : u = t := by simpa using ht
        exact hend _ _ _ hsignature
  · cases h

/-- **What a line must say to be an operation.**  It is read as one exactly if, its trailing
semicolons aside, it says all that the operation is. -/
theorem ofLine_eq_matched_iff {line : List Token} {o : Operation} :
    ofLine line = .matched o ↔ Nonempty (Reading (withoutTerminators line) o) := by
  rw [ofLine]
  constructor
  · intro h
    rcases hread : read? (withoutTerminators line) with reason | o'
    · rw [hread] at h
      cases h
    · rw [hread] at h
      cases h
      exact exists_reading hread
  · rintro ⟨s⟩
    rw [s.read?_eq]
    rfl

/-- A line with the modifier `def`, two tokens in front of the name, and one type read from them. -/
def crowdedLine : List Token := lex "def Foo Bar baz()".toList

/-- **What is left over is lost.**  The tokens between modifiers and name may be more than a type,
and so may those in front of the name of a parameter; the line is read nevertheless. -/
theorem matched_with_leftover :
    ofLine crowdedLine = .matched { name := "baz", returnType := .named "Foo" }
      ∧ readModifiers crowdedLine = (none, crowdedLine.drop 1)
      ∧ (∃ lost, TypeRef.read? ((crowdedLine.drop 1).take 2) = some (.named "Foo", [lost]))
      ∧ readParameters (lex "A B c".toList) = [⟨"c", .named "A"⟩] := by
  refine ⟨by decide +kernel, by decide +kernel, ⟨⟨.word "Bar", ⟨1, 9, 8⟩⟩, ?_⟩, by decide +kernel⟩
  decide +kernel

end Operation

end ContextAtlas
