/-
# Reading written documents

A well-formed document is read as what it means, however it is spaced: every block under the one
around it, in order, under its kind, with its modifiers and fields, and nothing is left out.

* `Avoids`: a keyword that does not occur in some rows, so that its scan passes them over;
* `readBlocks_flatMap`: reading written blocks one behind the other is reading each;
* `readBlocks_object`, `Aggregate.ofBlock_written`, `BoundedContext.ofBlock_written`,
  `readBlocks_contexts`: what is read at each level;
* `report_of_written`: the report on a written document.
-/
import ContextAtlas.Proofs.Skipped.Report
import ContextAtlas.Proofs.Written.Block

namespace ContextAtlas

open Source

/-! ## 1. Keywords that do not occur -/

/-- No row holds the word. -/
def Avoids (word : String) (rows : List (List Lexeme)) : Prop :=
  ∀ row ∈ rows, Lexeme.word word ∉ row

section

variable {keyword : String}

theorem Avoids.flatMap {β : Type} {rows : β → List (List Lexeme)} {xs : List β}
    (h : ∀ x ∈ xs, Avoids keyword (rows x)) : Avoids keyword (xs.flatMap rows) := by
  intro row hrow
  obtain ⟨x, hx, hrow⟩ := List.mem_flatMap.mp hrow
  exact h x hx row hrow

theorem avoids_blockRows {isAbstract : Bool} {word : String} {name : Name} {parent : Option Name}
    {inner : List (List Lexeme)} (hkeyword : keyword ∈ constructKeywords) (hne : keyword ≠ word)
    (hinner : Avoids keyword inner) :
    Avoids keyword (blockRows (headerRow isAbstract word name parent) inner) := by
  have hwords : Lexeme.word keyword ∉ headerWords isAbstract word name parent := by
    intro h
    rcases mem_headerWords h with h | h | ⟨n, h⟩ | h | h
    · obtain rfl := Lexeme.word.inj h
      exact absurd hkeyword (by decide)
    · exact hne (Lexeme.word.inj h)
    · obtain rfl := Lexeme.word.inj h
      exact n.not_construct hkeyword
    · obtain rfl := Lexeme.word.inj h
      exact absurd hkeyword (by decide)
    · exact absurd h (by simp)
  intro row hrow
  rw [blockRows, List.mem_cons, List.mem_append, List.mem_singleton] at hrow
  rcases hrow with rfl | hrow | rfl
  · simpa [headerRow] using hwords
  · exact hinner row hrow
  · simp

theorem avoids_fields (hkeyword : keyword ∈ constructKeywords) (fields : List Field) :
    Avoids keyword (fields.map Field.row) := by
  intro row hrow hmem
  obtain ⟨f, -, rfl⟩ := List.mem_map.mp hrow
  rcases f.isFieldLexeme _ hmem with ⟨w, hw, -, hnot⟩ | h
  · obtain rfl := Lexeme.word.inj hw
    exact hnot hkeyword
  · simp at h

theorem avoids_object {o : Object} (hkeyword : keyword ∈ constructKeywords)
    (hne : keyword ≠ Spelled.spell o.kind) : Avoids keyword o.rows :=
  avoids_blockRows hkeyword hne (avoids_fields hkeyword o.fields)

theorem avoids_aggregate {a : Source.Aggregate} (hkeyword : keyword ∈ constructKeywords)
    (hne : keyword ≠ "Aggregate") (hkind : ∀ k : Kind, keyword ≠ Spelled.spell k) :
    Avoids keyword a.rows :=
  avoids_blockRows hkeyword hne (.flatMap fun o _ => avoids_object hkeyword (hkind o.kind))

theorem avoids_context {c : Context} (hkeyword : keyword ∈ constructKeywords)
    (hne : keyword ≠ "BoundedContext") (hne' : keyword ≠ "Aggregate")
    (hkind : ∀ k : Kind, keyword ≠ Spelled.spell k) : Avoids keyword c.rows :=
  avoids_blockRows hkeyword hne (.flatMap fun _ _ => avoids_aggregate hkeyword hne' hkind)

theorem not_isWord_of_avoids : ∀ {line : Nat} {rows : List (List Lexeme)}, Avoids keyword rows →
    ∀ t ∈ laid line rows, t.isWord keyword = false
  | _, [], _, _, ht => absurd ht List.not_mem_nil
  | line, row :: rows, h, t, ht => by
    rcases List.mem_append.mp ht with ht | ht
    · rw [← Bool.not_eq_true]
      intro hw
      have hw' : t.lexeme = .word keyword := by simpa [Token.isWord] using hw
      exact h row List.mem_cons_self (hw' ▸ (exists_of_mem_laidRow ht).1)
    · exact not_isWord_of_avoids (fun r hr => h r (List.mem_cons_of_mem row hr)) t ht

theorem scanBlocks_of_avoids {nameOptional : Bool} {line : Nat} {rows : List (List Lexeme)}
    (h : Avoids keyword rows) : scanBlocks keyword nameOptional (laid line rows) = [] :=
  scanFrom_of_not_mem (not_isWord_of_avoids h)

theorem readBlocks_of_avoids {α : Type} {read : Block → Noted α} {line : Nat}
    {rows : List (List Lexeme)} (h : Avoids keyword rows) :
    readBlocks keyword read (laid line rows) = ⟨[], []⟩ := by
  simp [readBlocks, scanBlocks_of_avoids h, skipNotes]

end

/-! ## 2. Blocks one behind the other -/

section

variable {β : Type} {rows : β → List (List Lexeme)}

/-- **Reading blocks one behind the other is reading each, when none leaves anything open.** -/
theorem readBlocks_flatMap {α : Type} {keyword : String} {read : Block → Noted α} {f : β → List α}
    (hself : ∀ x line, SelfContained (laid line (rows x)))
    (h : ∀ x line, readBlocks keyword read (laid line (rows x)) = ⟨f x, []⟩) :
    ∀ (line : Nat) (xs : List β),
      readBlocks keyword read (laid line (xs.flatMap rows)) = ⟨xs.flatMap f, []⟩
  | _, [] => by simp [readBlocks, laid, scanBlocks, skipNotes]
  | line, x :: xs => by
    have hx := h x line
    have ih := readBlocks_flatMap hself h (line + (rows x).length) xs
    simp only [readBlocks, Noted.mk.injEq, List.append_eq_nil_iff] at hx ih
    simp only [readBlocks, List.flatMap_cons, laid_append, scanBlocks_append (hself x line),
      matchedValues_append, List.map_append, List.flatMap_append, hx, ih, Noted.mk.injEq, true_and]
    simp [skipNotes_append, hx, ih]

theorem balanced_flatMap (h : ∀ x line, Balanced (laid line (rows x))) :
    ∀ (line : Nat) (xs : List β), Balanced (laid line (xs.flatMap rows))
  | _, [] => balanced_nil
  | line, x :: xs => by
    rw [List.flatMap_cons, laid_append]
    exact (h x line).append (balanced_flatMap h _ xs)

/-- Where there is nothing but blocks, there are no own tokens. -/
theorem ownTokensFrom_flatMap {braceLine : Nat}
    (h : ∀ x line us, ownTokensFrom braceLine 0 (laid line (rows x) ++ us)
      = ownTokensFrom braceLine 0 us) :
    ∀ (line : Nat) (xs : List β), ownTokensFrom braceLine 0 (laid line (xs.flatMap rows)) = []
  | _, [] => rfl
  | line, x :: xs => by
    rw [List.flatMap_cons, laid_append, h]
    exact ownTokensFrom_flatMap h _ xs

end

theorem readBlocks_blockRows {α : Type} {read : Block → Noted α} {isAbstract : Bool}
    {keyword : String} {name : Name} {parent : Option Name} {inner : List (List Lexeme)}
    (line : Nat) (hkeyword : keyword ≠ "abstract") (hinner : Balanced (laid (line + 1) inner)) :
    readBlocks keyword read (laid line (blockRows (headerRow isAbstract keyword name parent) inner))
      = ⟨[(read (blockAt line isAbstract keyword name parent inner)).value],
        (read (blockAt line isAbstract keyword name parent inner)).notes⟩ := by
  simp [readBlocks, scanBlocks_blockRows line hkeyword hinner, skipNotes, Outcome.skipped?]

/-! ## 3. Domain objects -/

/-- Rows as lines of tokens. -/
def laidRows : Nat → List (List Lexeme) → List (List Token)
  | _, [] => []
  | line, row :: rows => laidRow line row :: laidRows (line + 1) rows

theorem flatten_laidRows : ∀ (line : Nat) (rows : List (List Lexeme)),
    (laidRows line rows).flatten = laid line rows
  | _, [] => rfl
  | line, row :: rows => by rw [laidRows, List.flatten_cons, flatten_laidRows, laid]

theorem exists_of_mem_laidRows : ∀ {line : Nat} {rows : List (List Lexeme)} {g : List Token},
    g ∈ laidRows line rows → ∃ n row, line ≤ n ∧ row ∈ rows ∧ g = laidRow n row
  | _, [], _, h => absurd h List.not_mem_nil
  | line, row :: rows, g, h => by
    rcases List.mem_cons.mp h with rfl | h
    · exact ⟨line, row, Nat.le_refl line, List.mem_cons_self, rfl⟩
    · obtain ⟨n, r, hn, hr, rfl⟩ := exists_of_mem_laidRows h
      exact ⟨n, r, Nat.le_of_succ_le hn, List.mem_cons_of_mem row hr, rfl⟩

/-- Rows on consecutive lines are told apart by their lines. -/
theorem groupLines_laid (line : Nat) {rows : List (List Lexeme)} (h : ∀ row ∈ rows, row ≠ []) :
    groupLines (laid line rows) = laidRows line rows := by
  have hne : ∀ {n : Nat} {row : List Lexeme}, row ≠ [] → laidRow n row ≠ [] := by
    intro n row hrow hnil
    exact hrow (List.map_eq_nil_iff.mp hnil)
  unfold groupLines
  rw [List.splitBy_eq_iff]
  refine ⟨(flatten_laidRows line rows).symm, ?_, ?_, ?_⟩
  · intro hnil
    obtain ⟨n, row, -, hrow, heq⟩ := exists_of_mem_laidRows hnil
    exact hne (h row hrow) heq.symm
  · intro g hg
    obtain ⟨n, row, -, -, rfl⟩ := exists_of_mem_laidRows hg
    refine (List.pairwise_of_forall_mem_list fun t ht u hu => ?_).isChain
    simp [(exists_of_mem_laidRow ht).2, (exists_of_mem_laidRow hu).2]
  · induction rows generalizing line with
    | nil => exact .nil
    | cons row rows ih =>
      have hrows : ∀ r ∈ rows, r ≠ [] := fun r hr => h r (List.mem_cons_of_mem row hr)
      refine (ih (line + 1) hrows).cons fun g hg => ?_
      cases rows with
      | nil => simp [laidRows] at hg
      | cons row' rows =>
        obtain rfl : laidRow (line + 1) row' = g := by simpa [laidRows] using hg
        have h1 := hne (n := line) (h row List.mem_cons_self)
        have h2 := hne (n := line + 1) (hrows row' List.mem_cons_self)
        refine ⟨h1, h2, ?_⟩
        have hlast := (exists_of_mem_laidRow (List.getLast_mem h1)).2
        have hhead := (exists_of_mem_laidRow (List.head_mem h2)).2
        simp [hlast, hhead]

theorem ofLines_laidRows (flags : List String) (withOperations : Bool) :
    ∀ (line : Nat) (fields : List Field),
      Members.ofLines flags withOperations (laidRows line (fields.map Field.row))
        = { attributes := fields.map Field.meaning }
  | _, [] => rfl
  | line, f :: fields => by
    have ih := ofLines_laidRows flags withOperations (line + 1) fields
    simp only [Members.ofLines] at ih
    simp only [Members.ofLines, List.map_cons, laidRows, List.foldr_cons, ih,
      Members.ofLine_laidRow]
    rfl

theorem no_brace_fields {line : Nat} : ∀ {fields : List Field},
    ∀ t ∈ laid line (fields.map Field.row),
      line ≤ t.line ∧ t.is .openBrace = false ∧ t.is .closeBrace = false := by
  intro fields t ht
  rw [← flatten_laidRows] at ht
  obtain ⟨g, hg, ht⟩ := List.mem_flatten.mp ht
  obtain ⟨n, row, hn, hrow, rfl⟩ := exists_of_mem_laidRows hg
  obtain ⟨f, -, rfl⟩ := List.mem_map.mp hrow
  have ⟨hmem, hline⟩ := exists_of_mem_laidRow ht
  have hlexeme := f.isFieldLexeme _ hmem
  exact ⟨hline ▸ hn, hlexeme.not_is (by decide), hlexeme.not_is (by decide)⟩

theorem Source.Field.row_ne_nil (f : Field) : f.row ≠ [] := by simp [row]

/-- The members of a written domain object are its fields. -/
theorem readMembers_blockAt (flags : List String) (withOperations : Bool) (line : Nat)
    (isAbstract : Bool) (keyword : String) (name : Name) (parent : Option Name)
    (fields : List Field) :
    readMembers flags withOperations
        (blockAt line isAbstract keyword name parent (fields.map Field.row))
      = ⟨{ attributes := fields.map Field.meaning }, []⟩ := by
  have hown : (blockAt line isAbstract keyword name parent (fields.map Field.row)).ownTokens
      = laid (line + 1) (fields.map Field.row) := by
    refine ownTokensFrom_eq_self fun t ht => ?_
    have ⟨hline, ho, hc⟩ := no_brace_fields t ht
    exact ⟨fun h => by simp [blockAt, Position.ofLine] at h; omega, ho, hc⟩
  have hrows : ∀ row ∈ fields.map Field.row, row ≠ [] := by
    intro row hrow
    obtain ⟨f, -, rfl⟩ := List.mem_map.mp hrow
    exact f.row_ne_nil
  rw [readMembers, Block.lines, hown, groupLines_laid _ hrows, ofLines_laidRows]
  rfl

theorem balanced_fields (line : Nat) (fields : List Field) :
    Balanced (laid line (fields.map Field.row)) :=
  balanced_of_no_brace fun t ht => (no_brace_fields t ht).2

theorem selfContained_object (o : Object) (line : Nat) : SelfContained (laid line o.rows) :=
  selfContained_blockRows line (balanced_fields (line + 1) o.fields)

theorem mem_constructKeywords (k : Kind) : Spelled.spell k ∈ constructKeywords := by
  cases k <;> decide

/-- The domain objects of a kind are found among all of them, in order. -/
theorem readBlocks_object {α : Type} (k : Kind) {read : Block → Noted α} {f : Object → α}
    (h : ∀ (o : Object) (line : Nat), read (blockAt line o.isAbstract (Spelled.spell k) o.name
      o.parent (o.fields.map Field.row)) = ⟨f o, []⟩) (line : Nat) (objects : List Object) :
    readBlocks (Spelled.spell k) read (laid line (objects.flatMap Object.rows))
      = ⟨(objects.filter fun o => o.kind = k).map f, []⟩ := by
  have hone : ∀ (o : Object) (line : Nat), readBlocks (Spelled.spell k) read (laid line o.rows)
      = ⟨if o.kind = k then [f o] else [], []⟩ := by
    intro o line
    by_cases hk : o.kind = k
    · have hword : (Spelled.spell k : String) ≠ "abstract" := by cases k <;> decide
      rw [Object.rows, hk, readBlocks_blockRows line hword (balanced_fields _ _), h, if_pos rfl]
    · have hne : (Spelled.spell k : String) ≠ Spelled.spell o.kind := fun he =>
        hk (spell_injective he).symm
      rw [readBlocks_of_avoids (avoids_object (mem_constructKeywords k) hne), if_neg hk]
  rw [readBlocks_flatMap selfContained_object hone]
  have hfilter : ∀ os : List Object, os.flatMap (fun o => if o.kind = k then [f o] else [])
      = (os.filter fun o => o.kind = k).map f := by
    intro os
    induction os with
    | nil => rfl
    | cons o os ih =>
      rw [List.flatMap_cons, ih, List.filter_cons]
      by_cases hk : o.kind = k <;> simp [hk]
  rw [hfilter]

/-! ## 4. Aggregates and contexts -/

theorem balanced_objects (line : Nat) (objects : List Object) :
    Balanced (laid line (objects.flatMap Object.rows)) :=
  balanced_flatMap (fun o line => balanced_blockRows line (balanced_fields _ o.fields)) line objects

theorem balanced_aggregates (line : Nat) (aggregates : List Source.Aggregate) :
    Balanced (laid line (aggregates.flatMap Source.Aggregate.rows)) :=
  balanced_flatMap (fun a line => balanced_blockRows line (balanced_objects _ a.objects)) line
    aggregates

section

variable (o : Object) (line : Nat)

theorem Entity.ofBlock_written :
    ofBlock (blockAt line o.isAbstract "Entity" o.name o.parent (o.fields.map Field.row))
      = ⟨o.entity, []⟩ := by
  simp only [ofBlock, readMembers_blockAt]
  rfl

theorem ValueObject.ofBlock_written :
    ofBlock (blockAt line o.isAbstract "ValueObject" o.name o.parent (o.fields.map Field.row))
      = ⟨o.valueObject, []⟩ := by
  simp only [ofBlock, readMembers_blockAt]
  rfl

theorem Message.ofBlock_written (keyword : String) :
    ofBlock (blockAt line o.isAbstract keyword o.name o.parent (o.fields.map Field.row))
      = ⟨o.message, []⟩ := by
  simp only [ofBlock, readMembers_blockAt]
  rfl

end

theorem Aggregate.ofBlock_written (a : Source.Aggregate) (line : Nat) :
    ofBlock (blockAt line false "Aggregate" a.name none (a.objects.flatMap Object.rows))
      = ⟨a.meaning, []⟩ := by
  have hown : (blockAt line false "Aggregate" a.name none
      (a.objects.flatMap Object.rows)).ownTokens = [] :=
    ownTokensFrom_flatMap (fun o line us =>
      ownTokensFrom_blockRows line us (balanced_fields _ o.fields)) _ a.objects
  have hentities := readBlocks_object .entity Entity.ofBlock_written (line + 1) a.objects
  have hvalues := readBlocks_object .valueObject ValueObject.ofBlock_written (line + 1) a.objects
  have hcommands := readBlocks_object .command
    (fun o line => Message.ofBlock_written o line "CommandEvent") (line + 1) a.objects
  have hevents := readBlocks_object .event
    (fun o line => Message.ofBlock_written o line "DomainEvent") (line + 1) a.objects
  have hservices : readBlocks "Service" Service.ofBlock
      (laid (line + 1) (a.objects.flatMap Object.rows)) = ⟨[], []⟩ :=
    readBlocks_of_avoids (.flatMap fun o _ => avoids_object (by decide) (by
      cases o.kind <;> decide))
  simp only [Spelled.spell] at hentities hvalues hcommands hevents
  have hbody : (blockAt line false "Aggregate" a.name none (a.objects.flatMap Object.rows)).body
      = laid (line + 1) (a.objects.flatMap Object.rows) := rfl
  rw [ofBlock, hown, hbody, hentities, hvalues, hcommands, hevents, hservices]
  rfl

theorem BoundedContext.ofBlock_written (c : Context) (line : Nat) :
    ofBlock (blockAt line false "BoundedContext" c.name none
      (c.aggregates.flatMap Source.Aggregate.rows)) = ⟨c.meaning, []⟩ := by
  have hown : (blockAt line false "BoundedContext" c.name none
      (c.aggregates.flatMap Source.Aggregate.rows)).ownTokens = [] :=
    ownTokensFrom_flatMap (fun a line us =>
      ownTokensFrom_blockRows line us (balanced_objects _ a.objects)) _ c.aggregates
  have haggregates : readBlocks "Aggregate" Aggregate.ofBlock
      (laid (line + 1) (c.aggregates.flatMap Source.Aggregate.rows))
      = ⟨c.aggregates.map Source.Aggregate.meaning, []⟩ := by
    rw [List.map_eq_flatMap]
    refine readBlocks_flatMap
      (fun a line => selfContained_blockRows line (balanced_objects _ a.objects))
      (fun a line => ?_) _ _
    have ha : readBlocks "Aggregate" Aggregate.ofBlock (laid line a.rows) = _ :=
      readBlocks_blockRows line (by decide) (balanced_objects (line + 1) a.objects)
    rw [Aggregate.ofBlock_written] at ha
    exact ha
  have hbody : (blockAt line false "BoundedContext" c.name none
      (c.aggregates.flatMap Source.Aggregate.rows)).body
      = laid (line + 1) (c.aggregates.flatMap Source.Aggregate.rows) := rfl
  rw [ofBlock, hown, hbody, haggregates]
  rfl

theorem readBlocks_contexts (line : Nat) (contexts : List Context) :
    readBlocks "BoundedContext" BoundedContext.ofBlock
        (laid line (contexts.flatMap Context.rows))
      = ⟨contexts.map Context.meaning, []⟩ := by
  rw [List.map_eq_flatMap]
  refine readBlocks_flatMap
    (fun c line => selfContained_blockRows line (balanced_aggregates _ c.aggregates))
    (fun c line => ?_) _ _
  have hc : readBlocks "BoundedContext" BoundedContext.ofBlock (laid line c.rows) = _ :=
    readBlocks_blockRows line (by decide) (balanced_aggregates (line + 1) c.aggregates)
  rw [BoundedContext.ofBlock_written] at hc
  exact hc

/-! ## 5. Rows of words and marks -/

theorem isRow_blockRows {isAbstract : Bool} {keyword : String} {name : Name}
    {parent : Option Name} {inner : List (List Lexeme)} (hkeyword : IsIdentifier keyword)
    (hinner : ∀ row ∈ inner, IsRow row) :
    ∀ row ∈ blockRows (headerRow isAbstract keyword name parent) inner, IsRow row := by
  intro row hrow
  rw [blockRows, List.mem_cons, List.mem_append, List.mem_singleton] at hrow
  rcases hrow with rfl | hrow | rfl
  · refine ⟨by simp [headerRow], fun x hx => ?_⟩
    rcases List.mem_append.mp hx with hx | hx
    · rcases mem_headerWords hx with rfl | rfl | ⟨n, rfl⟩ | rfl | rfl
      · exact .word (by decide)
      · exact .word hkeyword
      · exact .word n.isIdentifier
      · exact .word (by decide)
      · exact .mark (by decide)
    · obtain rfl := List.mem_singleton.mp hx
      exact .mark (by decide)
  · exact hinner row hrow
  · refine ⟨by simp, fun x hx => ?_⟩
    obtain rfl := List.mem_singleton.mp hx
    exact .mark (by decide)

theorem isRow_flatMap {β : Type} {rows : β → List (List Lexeme)}
    (h : ∀ x, ∀ row ∈ rows x, IsRow row) (xs : List β) : ∀ row ∈ xs.flatMap rows, IsRow row := by
  intro row hrow
  obtain ⟨x, -, hrow⟩ := List.mem_flatMap.mp hrow
  exact h x row hrow

theorem isRow_fields (fields : List Field) : ∀ row ∈ fields.map Field.row, IsRow row := by
  intro row hrow
  obtain ⟨f, -, rfl⟩ := List.mem_map.mp hrow
  exact ⟨f.row_ne_nil, fun x hx => (f.isFieldLexeme x hx).plain⟩

theorem isRow_contexts (contexts : List Context) :
    ∀ row ∈ contexts.flatMap Context.rows, IsRow row := by
  have hobject : ∀ o : Object, ∀ row ∈ o.rows, IsRow row := by
    intro o
    have hkeyword : IsIdentifier (Spelled.spell o.kind) := by cases o.kind <;> decide
    exact isRow_blockRows hkeyword (isRow_fields o.fields)
  have haggregate : ∀ a : Source.Aggregate, ∀ row ∈ a.rows, IsRow row := by
    intro a
    have hkeyword : IsIdentifier "Aggregate" := by decide
    exact isRow_blockRows hkeyword (isRow_flatMap hobject a.objects)
  have hcontext : ∀ c : Context, ∀ row ∈ c.rows, IsRow row := by
    intro c
    have hkeyword : IsIdentifier "BoundedContext" := by decide
    exact isRow_blockRows hkeyword (isRow_flatMap haggregate c.aggregates)
  exact isRow_flatMap hcontext contexts

/-! ## 6. Documents -/

theorem Report.ofTokens_laid (contexts : List Context) :
    ofTokens (laid 1 (contexts.flatMap Context.rows))
      = ⟨{ contexts := contexts.map Context.meaning }, []⟩ := by
  have havoids : ∀ keyword ∈ ["ContextMap", "Domain", "UseCase", "UserStory"],
      Avoids keyword (contexts.flatMap Context.rows) := by
    intro keyword hk
    simp only [List.mem_cons, List.not_mem_nil, or_false] at hk
    refine .flatMap fun c _ => ?_
    rcases hk with rfl | rfl | rfl | rfl <;>
      exact avoids_context (by decide) (by decide) (by decide) fun k => by cases k <;> decide
  have hmap : readContextMap (laid 1 (contexts.flatMap Context.rows)) = ⟨none, []⟩ := by
    simp [readContextMap, scanBlocks_of_avoids (havoids "ContextMap" (by simp)), skipNotes]
  have hdomains : readBlocks "Domain" Domain.ofBlock (laid 1 (contexts.flatMap Context.rows))
      = ⟨[], []⟩ :=
    readBlocks_of_avoids (havoids "Domain" (by simp))
  have hrequirements : readUserRequirements (laid 1 (contexts.flatMap Context.rows))
      = ⟨[], []⟩ := by
    simp [readUserRequirements, readRequirements,
      readBlocks_of_avoids (havoids "UseCase" (by simp)),
      readBlocks_of_avoids (havoids "UserStory" (by simp))]
  rw [ofTokens, hmap, readBlocks_contexts, hdomains, hrequirements]
  rfl

/-- **A well-formed document is read as what it means**, however it is spaced, and nothing of it is
left out. -/
theorem report_of_written {contexts : List Context} {text : String}
    (h : Written (contexts.flatMap Context.rows) text.toList) :
    (Report.ofText text).skipped = []
      ∧ (Report.ofText text).model = { contexts := contexts.map Context.meaning } := by
  have ⟨hmodel, hnotes⟩ := Report.ofText_written h (isRow_contexts contexts)
  rw [Report.ofTokens_laid] at hmodel hnotes
  refine ⟨?_, hmodel⟩
  rw [Report.skipped, List.map_eq_nil_iff.mp hnotes]
  rfl

/-- A context with one aggregate, and in it an abstract entity with a map and a value object. -/
def sampleContext : Context where
  name := ⟨"Shop", by decide, by decide⟩
  aggregates :=
    [{ name := ⟨"Cart", by decide, by decide⟩
       objects :=
        [{ kind := .entity
           isAbstract := true
           name := ⟨"Item", by decide, by decide⟩
           parent := some ⟨"Base", by decide, by decide⟩
           fields :=
            [{ type := .map (.name ⟨"String", by decide, by decide⟩)
                (.wrapped ⟨"List", by decide, by decide⟩ (by decide)
                  (.name ⟨"Money", by decide, by decide⟩))
               depth_le := by decide
               name := ⟨"prices", by decide, by decide⟩
               flags := [.required, .unique] }] },
          { kind := .valueObject
            isAbstract := false
            name := ⟨"Money", by decide, by decide⟩
            parent := none
            fields := [] }] }]

theorem report_of_sampleContext :
    (Report.ofText (String.ofList (writeRows ([sampleContext].flatMap Context.rows)))).skipped = []
      ∧ (Report.ofText (String.ofList (writeRows ([sampleContext].flatMap Context.rows)))).model
        = { contexts :=
            [{ name := "Shop"
               aggregates :=
                [{ name := "Cart"
                   entities :=
                    [{ name := "Item"
                       isAbstract := true
                       parent := some "Base"
                       attributes :=
                        [{ name := "prices"
                           type := .map (.primitive .string) (.collection .list (.named "Money"))
                           required := true
                           unique := true }] }]
                   valueObjects := [{ name := "Money" }] }] }] } := by
  have h : Written ([sampleContext].flatMap Context.rows)
      (String.ofList (writeRows ([sampleContext].flatMap Context.rows))).toList := by
    rw [String.toList_ofList]
    exact written_writeRows _
  have ⟨hskipped, hmodel⟩ := report_of_written h
  exact ⟨hskipped, hmodel.trans (by decide +kernel)⟩

end ContextAtlas
