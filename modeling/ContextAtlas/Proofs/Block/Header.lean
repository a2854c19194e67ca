/-
# Headers and what stands behind them

A header ends at the first token that is neither a name, a clause word, a comma nor a sigil.  So
what stands behind a closing brace never reaches a header in front of it.

* `Header.read?_append`: a header in front of a closing brace is read the same whatever follows;
* `exists_of_readHeader`: the tokens of a header, in which no two neighbours can both name a block.
-/
import ContextAtlas.Block.Scan
import Mathlib.Data.List.Chain

namespace ContextAtlas

/-! ## 1. In front of a closing brace -/

section

variable {c : Token}

theorem Token.word?_of_close (hc : c.is .closeBrace = true) : c.word? = none := by
  have hc' : c.lexeme = .mark .closeBrace := by simpa [Token.is] using hc
  simp [Token.word?, hc']

theorem Token.not_sigil_of_close (hc : c.is .closeBrace = true) : c.is .sigil = false := by
  have hc' : c.lexeme = .mark .closeBrace := by simpa [Token.is] using hc
  simp [Token.is, hc']

theorem Token.not_comma_of_close (hc : c.is .closeBrace = true) : c.is .comma = false := by
  have hc' : c.lexeme = .mark .closeBrace := by simpa [Token.is] using hc
  simp [Token.is, hc']

/-- A run of names ends at a closing brace at the latest. -/
theorem exists_commaRun_close (hc : c.is .closeBrace = true) : ∀ before : List Token,
    ∃ names behind, behind.length ≤ before.length ∧
      ∀ us, commaRun Token.word? (before ++ c :: us) = (names, behind ++ c :: us)
  | [] => ⟨[], [], Nat.le_refl 0, fun us =>
      commaRun_of_none (Token.not_sigil_of_close hc) (Token.word?_of_close hc)⟩
  | t :: r => by
    by_cases ht : t.is .sigil = true
    · obtain ⟨names, behind, hl, h⟩ := exists_commaRun_close hc r
      refine ⟨names, behind, Nat.le_succ_of_le hl, fun us => ?_⟩
      rw [List.cons_append, commaRun_of_sigil ht, h]
    · rw [Bool.not_eq_true] at ht
      cases hw : t.word? with
      | none => exact ⟨[], t :: r, Nat.le_refl _, fun us => commaRun_of_none ht hw⟩
      | some w =>
        cases r with
        | nil =>
          refine ⟨[w], [], Nat.zero_le _, fun us => commaRun_of_last ht hw ?_⟩
          intro u s hus
          obtain ⟨rfl, -⟩ := List.cons.inj hus
          exact Token.not_comma_of_close hc
        | cons u s =>
          by_cases hu : u.is .comma = true
          · obtain ⟨names, behind, hl, h⟩ := exists_commaRun_close hc s
            refine ⟨w :: names, behind, Nat.le_trans hl (by simp +arith), fun us => ?_⟩
            rw [List.cons_append, List.cons_append, commaRun_of_comma ht hw hu, h]
          · refine ⟨[w], u :: s, Nat.le_succ _, fun us => commaRun_of_last ht hw ?_⟩
            intro v r hvr
            obtain ⟨rfl, -⟩ := List.cons.inj hvr
            simpa using hu

/-- The clauses of a header end at a closing brace at the latest. -/
theorem exists_readClauses_close (hc : c.is .closeBrace = true) (parent : Option String)
    (before : List Token) :
    (∀ us, readClauses parent (before ++ c :: us) = none) ∨
      ∃ found behind, ∀ us, readClauses parent (before ++ c :: us)
        = some (found, behind ++ c :: us) := by
  cases before with
  | nil =>
    refine .inr ⟨parent, [], fun us => ?_⟩
    rw [List.nil_append, readClauses, Token.word?_of_close hc]
  | cons t r =>
    cases hw : t.word? with
    | none =>
      refine .inr ⟨parent, t :: r, fun us => ?_⟩
      rw [List.cons_append, readClauses, hw]
    | some w =>
      by_cases hm : w ∈ clauseWords
      · obtain ⟨names, behind, hl, h⟩ := exists_commaRun_close hc r
        cases names with
        | nil =>
          refine .inl fun us => ?_
          rw [List.cons_append, readClauses, hw]
          simp only [hm, if_true, h]
        | cons target names =>
          have hstep : ∀ us, readClauses parent (t :: (r ++ c :: us))
              = readClauses (if w = "extends" then some target else parent)
                (behind ++ c :: us) := by
            intro us
            rw [readClauses, hw]
            simp only [hm, if_true, h]
          rcases exists_readClauses_close hc (if w = "extends" then some target else parent) behind
            with hr | ⟨found, rest, hr⟩
          · exact .inl fun us => (hstep us).trans (hr us)
          · exact .inr ⟨found, rest, fun us => (hstep us).trans (hr us)⟩
      · refine .inr ⟨parent, t :: r, fun us => ?_⟩
        rw [List.cons_append, readClauses, hw]
        simp only [hm, if_false]
termination_by before.length

theorem exists_readBlockName_close (hc : c.is .closeBrace = true) (nameOptional : Bool)
    (before : List Token) :
    (∀ us, readBlockName nameOptional (before ++ c :: us) = none) ∨
      ∃ name behind, ∀ us, readBlockName nameOptional (before ++ c :: us)
        = some (name, behind ++ c :: us) := by
  cases before with
  | nil =>
    cases nameOptional with
    | false => exact .inl fun us => by simp [readBlockName, Token.word?_of_close hc]
    | true => exact .inr ⟨none, [], fun us => by simp [readBlockName, Token.word?_of_close hc]⟩
  | cons t r =>
    cases hw : t.word? with
    | none =>
      cases nameOptional with
      | false => exact .inl fun us => by simp [readBlockName, hw]
      | true => exact .inr ⟨none, t :: r, fun us => by simp [readBlockName, hw]⟩
    | some w =>
      by_cases hm : w ∈ clauseWords
      · cases nameOptional with
        | false => exact .inl fun us => by simp [readBlockName, hw, hm]
        | true => exact .inr ⟨none, t :: r, fun us => by simp [readBlockName, hw, hm]⟩
      · exact .inr ⟨some w, r, fun us => by simp [readBlockName, hw, hm]⟩

/-- **A header in front of a closing brace is read the same whatever stands behind the brace.** -/
theorem Header.read?_append (hc : c.is .closeBrace = true) (nameOptional : Bool)
    (before us : List Token) :
    Header.read? nameOptional (before ++ c :: us)
      = (Header.read? nameOptional (before ++ [c])).map fun x => (x.1, x.2.1, x.2.2 ++ us) := by
  unfold Header.read?
  simp only [Option.bind_eq_bind]
  rcases exists_readBlockName_close hc nameOptional before with hn | ⟨name, afterName, hn⟩
  · rw [hn, hn]
    rfl
  · rw [hn, hn, Option.bind_some, Option.bind_some]
    rcases exists_readClauses_close hc none afterName with hr | ⟨parent, afterClauses, hr⟩
    · simp only [hr, Option.bind_none, Option.map_none]
    · simp only [hr, Option.bind_some]
      cases afterClauses with
      | nil =>
        have ho : c.is .openBrace = false := by
          have hc' : c.lexeme = .mark .closeBrace := by simpa [Token.is] using hc
          simp [Token.is, hc']
        simp [ho]
      | cons t r =>
        simp only [List.cons_append]
        by_cases ht : t.is .openBrace = true <;> simp [ht]

/-- So it is read the same when the tokens end with the brace. -/
theorem Header.read?_in_front (hc : c.is .closeBrace = true) {nameOptional : Bool}
    {run body us : List Token} {o : Token} {header : Header}
    (h : Header.read? nameOptional (run ++ o :: (body ++ c :: us))
      = some (header, o, body ++ c :: us)) :
    Header.read? nameOptional (run ++ o :: (body ++ [c])) = some (header, o, body ++ [c]) := by
  have hsplit : ∀ vs, run ++ o :: (body ++ c :: vs) = (run ++ o :: body) ++ c :: vs := by simp
  rw [hsplit, Header.read?_append hc, Option.map_eq_some_iff] at h
  obtain ⟨⟨header', o', inner⟩, hread, heq⟩ := h
  obtain ⟨rfl, rfl, hinner⟩ := by simpa using heq
  have hbody : inner ++ us = (body ++ [c]) ++ us := by simpa using hinner
  rw [hsplit, hread, List.append_cancel_right hbody]

end

/-! ## 2. The tokens of a header -/

/-- Whether a token can name a block. -/
def Token.isBlockName (t : Token) : Bool := t.word?.any (· ∉ clauseWords)

/-- Two neighbours in a header: at most one of them can name a block. -/
def NotBothNames (t u : Token) : Prop := ¬ (t.isBlockName = true ∧ u.isBlockName = true)

theorem exists_of_commaRun : ∀ ts : List Token,
    ∃ run, ts = run ++ (commaRun Token.word? ts).2 ∧ run.IsChain NotBothNames
  | [] => ⟨[], rfl, .nil⟩
  | t :: r => by
    by_cases ht : t.is .sigil = true
    · obtain ⟨run, hr, hrun⟩ := exists_of_commaRun r
      have hname : t.isBlockName = false := by
        have ht' : t.lexeme = .mark .sigil := by simpa [Token.is] using ht
        simp [Token.isBlockName, Token.word?, ht']
      refine ⟨t :: run, ?_, hrun.cons fun u _ h => by simp [hname] at h⟩
      rw [commaRun_of_sigil ht, List.cons_append, ← hr]
    · rw [Bool.not_eq_true] at ht
      cases hw : t.word? with
      | none => exact ⟨[], by rw [commaRun_of_none ht hw, List.nil_append], .nil⟩
      | some w =>
        by_cases hu : ∃ u s, r = u :: s ∧ u.is .comma = true
        · obtain ⟨u, s, rfl, hu⟩ := hu
          obtain ⟨run, hr, hrun⟩ := exists_of_commaRun s
          have hname : u.isBlockName = false := by
            have hu' : u.lexeme = .mark .comma := by simpa [Token.is] using hu
            simp [Token.isBlockName, Token.word?, hu']
          refine ⟨t :: u :: run, ?_, ?_⟩
          · rw [commaRun_of_comma ht hw hu, List.cons_append, List.cons_append, ← hr]
          · refine (hrun.cons fun v _ h => ?_).cons fun v hv h => ?_
            · simp [hname] at h
            · obtain rfl : u = v := by simpa using hv
              simp [hname] at h
        · refine ⟨[t], ?_, .singleton t⟩
          rw [commaRun_of_last ht hw fun u s hus => by
            rw [← Bool.not_eq_true]
            exact fun h => hu ⟨u, s, hus, h⟩]
          rfl

/-- The clauses of a header start with a clause word, which names nothing. -/
theorem exists_of_readClauses {parent found : Option String} {ts rest : List Token}
    (h : readClauses parent ts = some (found, rest)) :
    ∃ run, ts = run ++ rest ∧ run.IsChain NotBothNames
      ∧ ∀ t ∈ run.head?, t.isBlockName = false := by
  fun_induction readClauses parent ts with
  | case1 parent =>
    obtain ⟨rfl, rfl⟩ := by simpa using h
    exact ⟨[], rfl, .nil, by simp⟩
  | case2 parent t r hw =>
    obtain ⟨rfl, rfl⟩ := by simpa using h
    exact ⟨[], rfl, .nil, by simp⟩
  | case3 => simp at h
  | case4 parent t r w hw hm target names hnames ih =>
    obtain ⟨run, hr, hrun, hhead⟩ := ih h
    obtain ⟨names', hr', hnames'⟩ := exists_of_commaRun r
    have hname : t.isBlockName = false := by simp [Token.isBlockName, hw, hm]
    refine ⟨t :: (names' ++ run), ?_, ?_, ?_⟩
    · rw [List.cons_append, List.append_assoc, ← hr, ← hr']
    · refine (hnames'.append hrun fun u _ v hv hb => ?_).cons fun u _ hb => ?_
      · simp [hhead v hv] at hb
      · simp [hname] at hb
    · simp [hname]
  | case5 parent t r w hw hm =>
    obtain ⟨rfl, rfl⟩ := by simpa using h
    exact ⟨[], rfl, .nil, by simp⟩

/-- The tokens between a keyword and the opening brace of its block. -/
theorem exists_of_readHeader {nameOptional : Bool} {ts inner : List Token} {header : Header}
    {o : Token} (h : Header.read? nameOptional ts = some (header, o, inner)) :
    ∃ run, ts = run ++ o :: inner ∧ o.is .openBrace = true ∧ run.IsChain NotBothNames
      ∧ (nameOptional = false → ∃ t ∈ run.head?, t.isBlockName = true) := by
  simp only [Header.read?, Option.bind_eq_bind, Option.bind_eq_some_iff] at h
  obtain ⟨⟨name, afterName⟩, hname, ⟨parent, afterClauses⟩, hclauses, h⟩ := h
  obtain ⟨run, hrun, hchain, hhead⟩ := exists_of_readClauses hclauses
  have hopen : afterClauses = o :: inner ∧ o.is .openBrace = true := by
    cases afterClauses with
    | nil => simp at h
    | cons t r =>
      by_cases ht : t.is .openBrace = true
      · simp only [ht, if_true, Option.some.injEq, Prod.mk.injEq] at h
        obtain ⟨-, rfl, rfl⟩ := h
        exact ⟨rfl, ht⟩
      · simp [ht] at h
  obtain ⟨rfl, ho⟩ := hopen
  unfold readBlockName at hname
  -- Either the first token is the name, or nothing is and names are optional.
  split at hname
  · rename_i w hw
    obtain ⟨t, ht, htw⟩ := Option.bind_eq_some_iff.mp hw
    obtain ⟨r, rfl⟩ : ∃ r, ts = t :: r := by
      cases ts with
      | nil => simp at ht
      | cons u r => exact ⟨r, by simpa using ht⟩
    split at hname
    · rename_i hm
      simp only [List.tail_cons, Option.some.injEq, Prod.mk.injEq] at hname
      have hb : t.isBlockName = true := by simpa [Token.isBlockName, htw] using hm
      refine ⟨t :: run, ?_, ho, hchain.cons fun u hu hb' => ?_, fun _ => ⟨t, rfl, hb⟩⟩
      · rw [List.cons_append, ← hrun, hname.2]
      · simp [hhead u hu] at hb'
    · split at hname
      · rename_i hn
        simp only [Option.some.injEq, Prod.mk.injEq] at hname
        exact ⟨run, hname.2.trans hrun, ho, hchain, fun hf => by simp [hn] at hf⟩
      · simp at hname
  · split at hname
    · rename_i hn
      simp only [Option.some.injEq, Prod.mk.injEq] at hname
      exact ⟨run, hname.2.trans hrun, ho, hchain, fun hf => by simp [hn] at hf⟩
    · simp at hname

end ContextAtlas
