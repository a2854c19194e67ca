/-
# What a report tells of skipped runs

A document is gone over many times, once for every keyword and again inside what was found.  Still
no stretch of it is left out twice for one reason:

* blocks of one keyword share no tokens, and a body leaves no block open, so only the scans of the
  whole document tell of open blocks, each of its own keyword;
* the lines of a body are its own tokens, and a token is an own token of one block at most;
* relationships are read from one context map, in one walk.

The main result is `skipped_faithful`.
-/
import ContextAtlas.Proofs.Layout.Report
import ContextAtlas.Proofs.Skipped.Relationship

namespace ContextAtlas

/-! ## 1. Notes -/

/-- The skipped runs among the notes on a value. -/
def Noted.skipped {α : Type} (x : Noted α) : List Skipped := x.notes.filterMap Note.skipped?

section

variable {α : Type}

theorem skipNotes_append (os os' : List (Outcome α)) :
    skipNotes (os ++ os') = skipNotes os ++ skipNotes os' := by
  simp only [skipNotes, List.filterMap_append, List.map_append]

theorem filterMap_skipNotes (outcomes : List (Outcome α)) :
    (skipNotes outcomes).filterMap Note.skipped? = skippedRuns outcomes := by
  rw [skipNotes, List.filterMap_map]
  exact List.filterMap_some

theorem filterMap_map_skipped (es : List Skipped) :
    (es.map Note.skipped).filterMap Note.skipped? = es := by
  rw [List.filterMap_map]
  exact List.filterMap_some

theorem skipped_readBlocks (keyword : String) (read : Block → Noted α) (ts : List Token) :
    (readBlocks keyword read ts).skipped
      = skippedRuns (scanBlocks keyword false ts)
        ++ (matchedValues (scanBlocks keyword false ts)).flatMap fun b => (read b).skipped := by
  simp only [Noted.skipped, readBlocks, List.filterMap_append, filterMap_skipNotes,
    List.filterMap_flatMap]

end

/-- Tokens that leave nothing open have no open blocks. -/
theorem skippedRuns_scanFrom_of_closed {keyword : String} {nameOptional : Bool}
    {before : Option Token} {ts : List Token} (h : Closed ts) :
    skippedRuns (scanFrom keyword nameOptional before ts) = [] := by
  fun_induction scanFrom keyword nameOptional before ts with
  | case1 => rfl
  | case2 before t r hk hh ih => exact ih h.of_cons
  | case3 before t r hk header opener inner hh hb ih =>
    obtain ⟨run, rfl, ho, -⟩ := exists_of_readHeader hh
    exact absurd hb (splitBody_ne_none_iff.mpr (h (t :: run) opener inner rfl ho))
  | case4 before t r hk header opener inner hh body closer rest hb ih =>
    obtain ⟨run, rfl, -⟩ := exists_of_readHeader hh
    rw [skippedRuns_matched]
    rw [eq_of_splitBody hb] at h
    exact ih h.of_cons.of_append.of_cons.of_append.of_cons
  | case5 before t r hk ih => exact ih h.of_cons

/-! ## 2. Domain objects -/

section

variable {b : Block}

theorem judges_readMembers (hordered : Ordered b.body) (hbalanced : Balanced b.body)
    (flags : List String) (withOperations : Bool) :
    b.Judges (readMembers flags withOperations b).skipped := by
  have h := Block.judges_of_lines hordered hbalanced (lineSkips_ofLine flags withOperations)
  rw [← skipped_ofLines] at h
  rwa [Noted.skipped, readMembers, filterMap_map_skipped]

theorem Service.judges_ofBlock (hordered : Ordered b.body) (hbalanced : Balanced b.body) :
    b.Judges (ofBlock b).skipped := by
  have h := Block.judges_of_lines hordered hbalanced lineSkips_serviceOperation?
  rw [← skippedRuns_serviceOperations] at h
  rwa [Noted.skipped, ofBlock, filterMap_skipNotes]

end

/-- The kinds of domain objects in an aggregate, each with what is left out of one. -/
def objectReaders : List (String × (Block → List Skipped)) :=
  [("Entity", fun b => (Entity.ofBlock b).skipped),
    ("ValueObject", fun b => (ValueObject.ofBlock b).skipped),
    ("Service", fun b => (Service.ofBlock b).skipped),
    ("CommandEvent", fun b => (Message.ofBlock b).skipped),
    ("DomainEvent", fun b => (Message.ofBlock b).skipped)]

theorem judges_of_mem_objectReaders {x : String × (Block → List Skipped)} (hx : x ∈ objectReaders)
    {b : Block} (hordered : Ordered b.body) (hbalanced : Balanced b.body) : b.Judges (x.2 b) := by
  simp only [objectReaders, List.mem_cons, List.not_mem_nil, or_false] at hx
  rcases hx with rfl | rfl | rfl | rfl | rfl
  · exact judges_readMembers hordered hbalanced ["aggregateRoot"] true
  · exact judges_readMembers hordered hbalanced ["immutable", "persistent"] true
  · exact Service.judges_ofBlock hordered hbalanced
  · exact judges_readMembers hordered hbalanced ["persistent"] false
  · exact judges_readMembers hordered hbalanced ["persistent"] false

/-! ## 3. Blocks in blocks -/

/-- Skipped lines are stretches of `ts`, and no two of them stand at one place. -/
structure Faithful (ts : List Token) (es : List Skipped) : Prop where
  renders : Renders ts es
  reasons : ∀ e ∈ es, e.reason.isAboutLine = true
  nodup : (es.map Skipped.place).Nodup

theorem Block.Judges.faithful {b : Block} {es : List Skipped} (hordered : Ordered b.body)
    (h : b.Judges es) : Faithful b.body es where
  renders := h.renders
  reasons := h.reasons
  nodup :=
    (hordered.of_sublist (sublist_ownTokensFrom _ 0 b.body)).nodup_place.sublist h.places

section

variable {keyword : String} {ts : List Token} {skips : Block → List Skipped}

/-- Blocks of one keyword share no tokens, so what is left out of each is left out once. -/
theorem faithful_blocks (hordered : Ordered ts)
    (h : ∀ b, Ordered b.body → Balanced b.body → Faithful b.body (skips b)) :
    Faithful ts ((matchedValues (scanBlocks keyword false ts)).flatMap skips) := by
  have hblock : ∀ b ∈ matchedValues (scanBlocks keyword false ts),
      b.body <:+: ts ∧ Faithful b.body (skips b) := by
    intro b hb
    obtain ⟨-, ⟨site⟩⟩ := exists_site_of_mem_scanFrom hb
    exact ⟨site.body_infix, h b (hordered.of_infix site.body_infix) site.balanced⟩
  refine ⟨?_, ?_, ?_⟩
  · intro e he
    obtain ⟨b, hb, he⟩ := List.mem_flatMap.mp he
    have ⟨hin, hf⟩ := hblock b hb
    exact hf.renders.of_infix hin e he
  · intro e he
    obtain ⟨b, hb, he⟩ := List.mem_flatMap.mp he
    exact (hblock b hb).2.reasons e he
  · have hplaces : ((matchedValues (scanBlocks keyword false ts)).flatMap Block.places).Nodup :=
      hordered.nodup_position.sublist places_sublist
    rw [List.map_flatMap, List.nodup_flatMap]
    refine ⟨fun b hb => (hblock b hb).2.nodup, ?_⟩
    refine (List.nodup_flatMap.mp hplaces).2.imp_of_mem fun {b b'} hb hb' hdisjoint => ?_
    rintro p hp hp'
    obtain ⟨e, he, rfl⟩ := List.mem_map.mp hp
    obtain ⟨e', he', hee'⟩ := List.mem_map.mp hp'
    obtain ⟨t, ht, het⟩ := (hblock b hb).2.renders.exists_token e he
    obtain ⟨t', ht', het'⟩ := (hblock b' hb').2.renders.exists_token e' he'
    have heq : t = t' := hordered.eq_of_place ((hblock b hb).1.subset ht)
      ((hblock b' hb').1.subset ht') (by rw [← het, ← het', hee'])
    have hmem : ∀ {c : Block} {u : Token}, u ∈ c.body → u.position ∈ c.places := fun hu =>
      List.mem_cons_of_mem _ (List.mem_cons_of_mem _ (List.mem_map_of_mem hu))
    exact hdisjoint (hmem ht) (heq ▸ hmem ht')

end

section

variable {b : Block}

theorem Aggregate.skipped_ofBlock (hbalanced : Balanced b.body) :
    (ofBlock b).skipped = objectReaders.flatMap fun x =>
      (matchedValues (scanBlocks x.1 false b.body)).flatMap x.2 := by
  have hnone : ∀ keyword, skippedRuns (scanBlocks keyword false b.body) = [] :=
    fun _ => skippedRuns_scanFrom_of_closed hbalanced.closed
  have hread : ∀ {α : Type} (keyword : String) (read : Block → Noted α),
      (readBlocks keyword read b.body).notes.filterMap Note.skipped?
        = (matchedValues (scanBlocks keyword false b.body)).flatMap fun b => (read b).skipped := by
    intro α keyword read
    have h := skipped_readBlocks keyword read b.body
    rwa [hnone, List.nil_append] at h
  simp only [Noted.skipped, ofBlock, List.filterMap_append, hread, objectReaders,
    List.flatMap_cons, List.flatMap_nil, List.append_nil, List.append_assoc]

/-- Domain objects of different kinds may be nested, but they share no own tokens. -/
theorem Aggregate.faithful_ofBlock (hordered : Ordered b.body) (hbalanced : Balanced b.body) :
    Faithful b.body (ofBlock b).skipped := by
  rw [skipped_ofBlock hbalanced]
  have hkind : ∀ x ∈ objectReaders,
      Faithful b.body ((matchedValues (scanBlocks x.1 false b.body)).flatMap x.2) :=
    fun x hx => faithful_blocks hordered fun c hc hc' =>
      (judges_of_mem_objectReaders hx hc hc').faithful hc
  refine ⟨?_, ?_, ?_⟩
  · intro e he
    obtain ⟨x, hx, he⟩ := List.mem_flatMap.mp he
    exact (hkind x hx).renders e he
  · intro e he
    obtain ⟨x, hx, he⟩ := List.mem_flatMap.mp he
    exact (hkind x hx).reasons e he
  · rw [List.map_flatMap, List.nodup_flatMap]
    refine ⟨fun x hx => (hkind x hx).nodup, ?_⟩
    have hdifferent : objectReaders.Pairwise fun x y => x.1 ≠ y.1 := by simp [objectReaders]
    have hname : ∀ x ∈ objectReaders, x.1 ∉ clauseWords := by
      simp [objectReaders, clauseWords]
    -- A skipped run stands at an own token of the object that it is left out of.
    have hown : ∀ x ∈ objectReaders,
        ∀ p ∈ ((matchedValues (scanBlocks x.1 false b.body)).flatMap x.2).map Skipped.place,
          ∃ c : Block, c.keyword = x.1 ∧ Nonempty (c.Site false b.body) ∧
            ∃ t ∈ c.ownTokens, p = t.place := by
      intro x hx p hp
      obtain ⟨e, he, rfl⟩ := List.mem_map.mp hp
      obtain ⟨c, hc, he⟩ := List.mem_flatMap.mp he
      obtain ⟨hkey, ⟨site⟩⟩ := exists_site_of_mem_scanFrom hc
      have hjudges := judges_of_mem_objectReaders hx (hordered.of_infix site.body_infix)
        site.balanced
      obtain ⟨t, ht, het⟩ := List.mem_map.mp (hjudges.places.subset (List.mem_map_of_mem he))
      exact ⟨c, hkey, ⟨site⟩, t, ht, het.symm⟩
    refine hdifferent.imp_of_mem fun {x y} hx hy hxy => ?_
    rintro p hp hp'
    obtain ⟨c, hkey, ⟨site⟩, t, ht, rfl⟩ := hown x hx p hp
    obtain ⟨c', hkey', ⟨site'⟩, t', ht', htt'⟩ := hown y hy _ hp'
    have hmem : ∀ {c : Block} {u : Token}, c.Site false b.body → u ∈ c.ownTokens → u ∈ b.body :=
      fun site hu => site.body_infix.subset ((sublist_ownTokensFrom _ 0 _).subset hu)
    obtain rfl : t = t' := hordered.eq_of_place (hmem site ht) (hmem site' ht') htt'
    have hkeys := keyword_eq_of_shared hordered site site' (hkey ▸ hname x hx)
      (hkey' ▸ hname y hy) ht ht'
    rw [hkey, hkey'] at hkeys
    exact hxy hkeys

theorem BoundedContext.faithful_ofBlock (hordered : Ordered b.body) (hbalanced : Balanced b.body) :
    Faithful b.body (ofBlock b).skipped := by
  have hnotes : (ofBlock b).skipped = (readBlocks "Aggregate" Aggregate.ofBlock b.body).skipped :=
    rfl
  have hnone : skippedRuns (scanBlocks "Aggregate" false b.body) = [] :=
    skippedRuns_scanFrom_of_closed hbalanced.closed
  rw [hnotes, skipped_readBlocks, hnone, List.nil_append]
  exact faithful_blocks hordered fun _ => Aggregate.faithful_ofBlock

theorem Domain.skipped_ofBlock (hbalanced : Balanced b.body) : (ofBlock b).skipped = [] := by
  have hnotes : (ofBlock b).skipped = (readBlocks "Subdomain" Subdomain.ofBlock b.body).skipped :=
    rfl
  have hnone : skippedRuns (scanBlocks "Subdomain" false b.body) = [] :=
    skippedRuns_scanFrom_of_closed hbalanced.closed
  rw [hnotes, skipped_readBlocks, hnone, List.nil_append, List.flatMap_eq_nil_iff]
  exact fun _ _ => rfl

end

/-! ## 4. Documents -/

/-- The keywords that are looked for in the whole document, each with whether its blocks may be
anonymous. -/
def openScans : List (String × Bool) :=
  [("ContextMap", true), ("BoundedContext", false), ("Domain", false), ("UseCase", false),
    ("UserStory", false)]

/-- The open blocks of a document, keyword by keyword. -/
def openBlocks (ts : List Token) : List Skipped :=
  openScans.flatMap fun x => skippedRuns (scanBlocks x.1 x.2 ts)

/-- The connectors that are left out of the first context map. -/
def skippedConnectors (ts : List Token) : List Skipped :=
  (matchedValues (scanBlocks "ContextMap" true ts)).head?.toList.flatMap fun b =>
    skippedRuns (readRelationships b.body)

/-- The lines that are left out of bounded contexts. -/
def skippedLines (ts : List Token) : List Skipped :=
  (matchedValues (scanBlocks "BoundedContext" false ts)).flatMap fun b =>
    (BoundedContext.ofBlock b).skipped

section

variable {ts : List Token}

theorem skipped_readContextMap (ts : List Token) :
    (readContextMap ts).skipped
      = skippedRuns (scanBlocks "ContextMap" true ts) ++ skippedConnectors ts := by
  simp only [readContextMap, skippedConnectors]
  cases matchedValues (scanBlocks "ContextMap" true ts) with
  | nil => simp [Noted.skipped, filterMap_skipNotes]
  | cons b more =>
    have hextra : (if more.isEmpty then [] else [Note.extraContextMaps more.length]).filterMap
        Note.skipped? = [] := by
      split <;> rfl
    simp only [Noted.skipped, List.filterMap_append, filterMap_skipNotes, hextra, List.append_nil,
      ContextMap.ofBlock, List.head?_cons, Option.toList_some, List.flatMap_cons, List.flatMap_nil]

theorem skipped_readUserRequirements (ts : List Token) :
    (readUserRequirements ts).skipped
      = skippedRuns (scanBlocks "UseCase" false ts)
        ++ skippedRuns (scanBlocks "UserStory" false ts) := by
  simp only [Noted.skipped, readUserRequirements, notes_readRequirements, List.filterMap_append,
    filterMap_skipNotes]

theorem skipped_readDomains (ts : List Token) :
    (readBlocks "Domain" Domain.ofBlock ts).skipped
      = skippedRuns (scanBlocks "Domain" false ts) := by
  have hnone : (matchedValues (scanBlocks "Domain" false ts)).flatMap
      (fun b => (Domain.ofBlock b).skipped) = [] := by
    rw [List.flatMap_eq_nil_iff]
    intro b hb
    obtain ⟨-, ⟨site⟩⟩ := exists_site_of_mem_scanFrom hb
    exact Domain.skipped_ofBlock site.balanced
  rw [skipped_readBlocks, hnone, List.append_nil]

/-- What a report tells of, in order: for every kind of block at the top its open blocks, and then
what is left out inside the others. -/
theorem Report.skipped_ofTokens (ts : List Token) :
    (ofTokens ts).skipped
      = skippedRuns (scanBlocks "ContextMap" true ts) ++ skippedConnectors ts
        ++ (skippedRuns (scanBlocks "BoundedContext" false ts) ++ skippedLines ts)
        ++ skippedRuns (scanBlocks "Domain" false ts)
        ++ (skippedRuns (scanBlocks "UseCase" false ts)
          ++ skippedRuns (scanBlocks "UserStory" false ts)) := by
  have hparts : (ofTokens ts).skipped
      = (readContextMap ts).skipped
        ++ (readBlocks "BoundedContext" BoundedContext.ofBlock ts).skipped
        ++ (readBlocks "Domain" Domain.ofBlock ts).skipped
        ++ (readUserRequirements ts).skipped := by
    simp only [skipped, ofTokens, Noted.skipped, List.filterMap_append]
  rw [hparts, skipped_readContextMap, skipped_readBlocks, skipped_readDomains,
    skipped_readUserRequirements]
  rfl

/-- Whatever is skipped is an open block, a connector or a line. -/
theorem Report.perm_skipped (ts : List Token) :
    (ofTokens ts).skipped.Perm (openBlocks ts ++ skippedConnectors ts ++ skippedLines ts) := by
  rw [skipped_ofTokens, List.perm_iff_count]
  intro e
  simp only [openBlocks, openScans, List.flatMap_cons, List.flatMap_nil, List.count_append,
    List.append_nil]
  omega

/-! ## 5. Each part once -/

theorem reason_of_mem_openBlocks {e : Skipped} (he : e ∈ openBlocks ts) :
    e.reason = .unterminatedBlock := by
  obtain ⟨x, -, he⟩ := List.mem_flatMap.mp he
  obtain ⟨t, r, -, -, heq⟩ := exists_run_of_mem_scanFrom he
  rw [heq]
  rfl

theorem renders_openBlocks (ts : List Token) : Renders ts (openBlocks ts) := by
  intro e he
  have hreason := reason_of_mem_openBlocks he
  obtain ⟨x, -, he⟩ := List.mem_flatMap.mp he
  obtain ⟨t, r, -, hin, heq⟩ := exists_run_of_mem_scanFrom he
  exact ⟨t :: r, List.cons_ne_nil t r, hin, hreason ▸ heq⟩

/-- Each scan tells of its own keyword, so no open block is told of twice. -/
theorem nodup_openBlocks (hordered : Ordered ts) : ((openBlocks ts).map Skipped.place).Nodup := by
  rw [openBlocks, List.map_flatMap, List.nodup_flatMap]
  refine ⟨fun x _ => ?_, ?_⟩
  · exact (hordered.of_sublist List.filter_sublist).nodup_place.sublist skipped_sublist
  · have hdifferent : openScans.Pairwise fun x y => x.1 ≠ y.1 := by simp [openScans]
    refine hdifferent.imp fun {x y} hxy => ?_
    rintro p hp hp'
    obtain ⟨t, ht, rfl⟩ := List.mem_map.mp (skipped_sublist.subset hp)
    obtain ⟨t', ht', htt'⟩ := List.mem_map.mp (skipped_sublist.subset hp')
    have ⟨hts, hword⟩ := List.mem_filter.mp ht
    have ⟨hts', hword'⟩ := List.mem_filter.mp ht'
    obtain rfl : t' = t := hordered.eq_of_place hts' hts htt'
    have hx : t'.lexeme = .word x.1 := by simpa [Token.isWord] using hword
    have hy : t'.lexeme = .word y.1 := by simpa [Token.isWord] using hword'
    rw [hx] at hy
    exact hxy (Lexeme.word.inj hy)

theorem skips_skippedConnectors (hordered : Ordered ts) :
    (∀ e ∈ skippedConnectors ts, e.reason = .missingParticipant) ∧
      Renders ts (skippedConnectors ts) ∧ ((skippedConnectors ts).map Skipped.place).Nodup := by
  unfold skippedConnectors
  cases hmap : (matchedValues (scanBlocks "ContextMap" true ts)).head? with
  | none => exact ⟨by simp, by simpa using renders_nil, by simp⟩
  | some b =>
    obtain ⟨-, ⟨site⟩⟩ := exists_site_of_mem_scanFrom (List.mem_of_head? hmap)
    have ⟨hreason, hrenders, hplaces⟩ := skips_readRelationshipsFrom [] b.body
    rw [Option.toList_some, List.flatMap_cons, List.flatMap_nil, List.append_nil]
    exact ⟨hreason, hrenders.of_infix site.body_infix,
      (hordered.of_infix site.body_infix).nodup_place.sublist hplaces⟩

theorem faithful_skippedLines (hordered : Ordered ts) : Faithful ts (skippedLines ts) :=
  faithful_blocks hordered fun _ => BoundedContext.faithful_ofBlock

end

/-- What a skipped run is told apart by: the reason and the place. -/
def Skipped.key (e : Skipped) : SkipReason × Nat × Nat := (e.reason, e.line, e.column)

theorem nodup_key {es : List Skipped} (h : (es.map Skipped.place).Nodup) :
    (es.map Skipped.key).Nodup := by
  have hplace : es.map Skipped.place = (es.map Skipped.key).map Prod.snd := by
    rw [List.map_map]
    rfl
  rw [hplace] at h
  exact h.of_map _

/-- Skipped runs of two parts with different reasons are told apart by these. -/
theorem nodup_key_append {es fs : List Skipped} (he : (es.map Skipped.key).Nodup)
    (hf : (fs.map Skipped.key).Nodup) (h : ∀ e ∈ es, ∀ f ∈ fs, e.reason ≠ f.reason) :
    ((es ++ fs).map Skipped.key).Nodup := by
  rw [List.map_append, List.nodup_append]
  refine ⟨he, hf, ?_⟩
  rintro k hk k' hk' rfl
  obtain ⟨e, hmem, rfl⟩ := List.mem_map.mp hk
  obtain ⟨f, hmem', hfe⟩ := List.mem_map.mp hk'
  exact h e hmem f hmem' (congrArg Prod.fst hfe).symm

/-- **What is skipped is told faithfully.**  Every skipped run is a stretch of the document's
tokens, told with its text and the place of its first token, and no two of them have the same reason
and place. -/
theorem skipped_faithful (source : String) :
    (∀ e ∈ (Report.ofText source).skipped,
      ∃ t r, t :: r <:+: lex (stripComments source.toList) ∧ e.fragment = fragmentText (t :: r)
        ∧ e.line = t.position.line ∧ e.column = t.position.column
        ∧ 1 ≤ e.line ∧ 1 ≤ e.column) ∧
      ((Report.ofText source).skipped.map fun e => (e.reason, e.line, e.column)).Nodup := by
  have hordered := ordered_lex (stripComments source.toList)
  have hperm := Report.perm_skipped (lex (stripComments source.toList))
  have ⟨hreason, hrenders, hnodup⟩ := skips_skippedConnectors hordered
  have hlines := faithful_skippedLines hordered
  refine ⟨?_, ?_⟩
  · have hall := ((renders_openBlocks _).append hrenders).append hlines.renders
    intro e he
    obtain ⟨run, hne, hin, heq⟩ := hall e (hperm.mem_iff.mp he)
    cases run with
    | nil => exact absurd rfl hne
    | cons t r =>
      have ht : t ∈ lex (stripComments source.toList) := hin.subset List.mem_cons_self
      have hline := one_le_line_of_mem_lex ht
      have hcolumn := one_le_column_of_mem_lexFrom .start _ (Nat.le_refl 1) t ht
      rw [heq]
      exact ⟨t, r, hin, rfl, rfl, rfl, hline, hcolumn⟩
  · refine (hperm.map Skipped.key).nodup_iff.mpr ?_
    refine nodup_key_append (nodup_key_append (nodup_key (nodup_openBlocks hordered))
      (nodup_key hnodup) ?_) (nodup_key hlines.nodup) ?_
    · intro e he f hf
      rw [reason_of_mem_openBlocks he, hreason f hf]
      simp
    · intro e he f hf hef
      have hf' := hlines.reasons f hf
      rw [← hef] at hf'
      rcases List.mem_append.mp he with he | he
      · rw [reason_of_mem_openBlocks he] at hf'
        simp [SkipReason.isAboutLine] at hf'
      · rw [hreason e he] at hf'
        simp [SkipReason.isAboutLine] at hf'

end ContextAtlas
