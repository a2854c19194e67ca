/-
# Documents at other places

A document is read from lexemes and from which tokens share a line.  Columns, offsets and the
absolute numbers of lines reach no model and no skipped run's text: every reader of a block gives
the same for a moved block, up to the places of what it skips.

* `readBlocks_moved`: what holds of the reader of one block holds of a run of blocks;
* `Entity.ofBlock_moved`, `Aggregate.ofBlock_moved`, ...: one lemma for each reader;
* `Report.ofTokens_moved`: and so for whole documents.
-/
import ContextAtlas.Proofs.Layout.Block
import ContextAtlas.Report

namespace ContextAtlas

variable {m : Position → Position}

/-! ## 1. Notes without places -/

/-- A note without the place of a skipped run. -/
def Note.unplaced : Note → Note
  | .skipped s => .skipped s.unplaced
  | .extraContextMaps n => .extraContextMaps n

/-- A value and its notes without the places of skipped runs. -/
def Noted.unplaced {α : Type} (x : Noted α) : Noted α := ⟨x.value, x.notes.map Note.unplaced⟩

section

variable {α β : Type}

theorem matchedValues_unplaced (outcomes : List (Outcome α)) :
    matchedValues (outcomes.map Outcome.unplaced) = matchedValues outcomes := by
  rw [matchedValues, matchedValues, List.filterMap_map]
  exact List.filterMap_congr fun o _ => by cases o <;> rfl

theorem unplaced_skipNotes (outcomes : List (Outcome α)) :
    (skipNotes outcomes).map Note.unplaced = skipNotes (outcomes.map Outcome.unplaced) := by
  simp only [skipNotes, List.map_filterMap, List.filterMap_map]
  exact List.filterMap_congr fun o _ => by cases o <;> rfl

/-- Outcomes that agree up to places and a change of values hold the changed values. -/
theorem matchedValues_of_unplaced {f : α → β} {os : List (Outcome α)} {os' : List (Outcome β)}
    (h : os'.map Outcome.unplaced = os.map fun o => (o.map f).unplaced) :
    matchedValues os' = (matchedValues os).map f := by
  rw [← matchedValues_unplaced, h, matchedValues, matchedValues, List.filterMap_map,
    List.map_filterMap]
  exact List.filterMap_congr fun o _ => by cases o <;> rfl

theorem skipNotes_of_unplaced {f : α → β} {os : List (Outcome α)} {os' : List (Outcome β)}
    (h : os'.map Outcome.unplaced = os.map fun o => (o.map f).unplaced) :
    (skipNotes os').map Note.unplaced = (skipNotes os).map Note.unplaced := by
  rw [unplaced_skipNotes, unplaced_skipNotes, h, skipNotes, skipNotes, List.filterMap_map,
    List.filterMap_map]
  exact congrArg _ (List.filterMap_congr fun o _ => by cases o <;> rfl)

theorem Noted.unplaced_congr {x y : Noted α} (hv : x.value = y.value)
    (hn : x.notes.map Note.unplaced = y.notes.map Note.unplaced) : x.unplaced = y.unplaced := by
  rw [unplaced, unplaced, hv, hn]

theorem Noted.value_eq {x y : Noted α} (h : x.unplaced = y.unplaced) : x.value = y.value := by
  rw [unplaced, unplaced, Noted.mk.injEq] at h
  exact h.1

theorem Noted.notes_eq {x y : Noted α} (h : x.unplaced = y.unplaced) :
    x.notes.map Note.unplaced = y.notes.map Note.unplaced := by
  rw [unplaced, unplaced, Noted.mk.injEq] at h
  exact h.2

/-- Reading the blocks of a keyword does not see places if reading one block does not. -/
theorem readBlocks_moved (keyword : String) {read : Block → Noted α}
    (hread : ∀ b, (read (b.moved m)).unplaced = (read b).unplaced) (ts : List Token) :
    (readBlocks keyword read (ts.map (Token.moved m))).unplaced
      = (readBlocks keyword read ts).unplaced := by
  have hscan := scanBlocks_moved (m := m) keyword false ts
  have hblocks := matchedValues_of_unplaced hscan
  refine Noted.unplaced_congr ?_ ?_
  · simp only [readBlocks, hblocks, List.map_map]
    exact List.map_congr_left fun b _ => Noted.value_eq (hread b)
  · simp only [readBlocks, hblocks, List.map_append, skipNotes_of_unplaced hscan, List.flatMap_map,
      List.map_flatMap]
    refine congrArg _ (List.flatMap_congr fun b _ => Noted.notes_eq (hread b))

end

/-! ## 2. Domain objects -/

theorem readMembers_moved (h : KeepsLines m) (flags : List String) (withOperations : Bool)
    (b : Block) :
    (readMembers flags withOperations (b.moved m)).value.unplaced
        = (readMembers flags withOperations b).value.unplaced
      ∧ (readMembers flags withOperations (b.moved m)).notes.map Note.unplaced
        = (readMembers flags withOperations b).notes.map Note.unplaced := by
  have hl := Members.ofLines_moved (m := m) flags withOperations b.lines
  rw [← b.lines_moved h] at hl
  have hs := congrArg (fun x => x.skipped.map Note.skipped) hl
  refine ⟨hl, ?_⟩
  simpa [Members.unplaced, readMembers, Note.unplaced, Function.comp_def] using hs

/-- What is read off the members of a block does not see places, if it reads no skipped run. -/
theorem ofMembers_moved {α : Type} (h : KeepsLines m) (flags : List String) (withOperations : Bool)
    (read : Members → α) (hread : ∀ x, read x.unplaced = read x) (b : Block) :
    (⟨read (readMembers flags withOperations (b.moved m)).value,
        (readMembers flags withOperations (b.moved m)).notes⟩ : Noted α).unplaced
      = (⟨read (readMembers flags withOperations b).value,
        (readMembers flags withOperations b).notes⟩ : Noted α).unplaced := by
  have ⟨hv, hn⟩ := readMembers_moved h flags withOperations b
  refine Noted.unplaced_congr ?_ hn
  rw [← hread, hv, hread]

theorem Entity.ofBlock_moved (h : KeepsLines m) (b : Block) :
    (ofBlock (b.moved m)).unplaced = (ofBlock b).unplaced :=
  ofMembers_moved h ["aggregateRoot"] true
    (fun x => show Entity from
      { name := b.name
        isAbstract := b.isAbstract
        parent := b.header.parent
        isAggregateRoot := x.has "aggregateRoot"
        attributes := x.attributes
        references := x.references
        operations := x.operations })
    (fun _ => rfl) b

theorem ValueObject.ofBlock_moved (h : KeepsLines m) (b : Block) :
    (ofBlock (b.moved m)).unplaced = (ofBlock b).unplaced :=
  ofMembers_moved h ["immutable", "persistent"] true
    (fun x => show ValueObject from
      { name := b.name
        isAbstract := b.isAbstract
        parent := b.header.parent
        isImmutable := x.has "immutable"
        isPersistent := x.has "persistent"
        attributes := x.attributes
        references := x.references
        operations := x.operations })
    (fun _ => rfl) b

theorem Message.ofBlock_moved (h : KeepsLines m) (b : Block) :
    (ofBlock (b.moved m)).unplaced = (ofBlock b).unplaced :=
  ofMembers_moved h ["persistent"] false
    (fun x => show Message from
      { name := b.name
        isAbstract := b.isAbstract
        parent := b.header.parent
        isPersistent := x.has "persistent"
        attributes := x.attributes
        references := x.references })
    (fun _ => rfl) b

theorem Service.ofBlock_moved (h : KeepsLines m) (b : Block) :
    (ofBlock (b.moved m)).unplaced = (ofBlock b).unplaced := by
  have hs := serviceOperations_moved (m := m) b.lines
  rw [← b.lines_moved h] at hs
  refine Noted.unplaced_congr ?_ ?_
  · simp only [ofBlock]
    rw [← matchedValues_unplaced, hs, matchedValues_unplaced]
    rfl
  · simp only [ofBlock]
    rw [unplaced_skipNotes, hs, ← unplaced_skipNotes]

/-! ## 3. Contexts and domains -/

theorem Aggregate.ofBlock_moved (h : KeepsLines m) (b : Block) :
    (ofBlock (b.moved m)).unplaced = (ofBlock b).unplaced := by
  have he := readBlocks_moved "Entity" (Entity.ofBlock_moved h) b.body
  have hv := readBlocks_moved "ValueObject" (ValueObject.ofBlock_moved h) b.body
  have hs := readBlocks_moved "Service" (Service.ofBlock_moved h) b.body
  have hc := readBlocks_moved "CommandEvent" (Message.ofBlock_moved h) b.body
  have hd := readBlocks_moved "DomainEvent" (Message.ofBlock_moved h) b.body
  have hbody : (b.moved m).body = b.body.map (Token.moved m) := rfl
  have hname : (b.moved m).name = b.name := rfl
  refine Noted.unplaced_congr ?_ ?_
  · simp only [ofBlock, b.ownTokens_moved h, Setting.strings_moved, Setting.values_moved,
      Setting.first?_moved, Setting.member?_moved, hbody, hname, Noted.value_eq he,
      Noted.value_eq hv, Noted.value_eq hs, Noted.value_eq hc, Noted.value_eq hd]
  · simp only [ofBlock, hbody, List.map_append, Noted.notes_eq he, Noted.notes_eq hv,
      Noted.notes_eq hs, Noted.notes_eq hc, Noted.notes_eq hd]

theorem BoundedContext.ofBlock_moved (h : KeepsLines m) (b : Block) :
    (ofBlock (b.moved m)).unplaced = (ofBlock b).unplaced := by
  have ha := readBlocks_moved "Aggregate" (Aggregate.ofBlock_moved h) b.body
  have hbody : (b.moved m).body = b.body.map (Token.moved m) := rfl
  have hname : (b.moved m).name = b.name := rfl
  refine Noted.unplaced_congr ?_ ?_
  · simp only [ofBlock, b.ownTokens_moved h, Setting.strings_moved, Setting.string?_moved,
      Setting.member?_moved, hbody, hname, Noted.value_eq ha]
  · simp only [ofBlock, hbody, Noted.notes_eq ha]

theorem Subdomain.ofBlock_moved (h : KeepsLines m) (b : Block) :
    (ofBlock (b.moved m)).unplaced = (ofBlock b).unplaced := by
  have hname : (b.moved m).name = b.name := rfl
  refine Noted.unplaced_congr ?_ rfl
  simp only [ofBlock, b.ownTokens_moved h, Setting.string?_moved, Setting.member?_moved, hname]

theorem Domain.ofBlock_moved (h : KeepsLines m) (b : Block) :
    (ofBlock (b.moved m)).unplaced = (ofBlock b).unplaced := by
  have hs := readBlocks_moved "Subdomain" (Subdomain.ofBlock_moved h) b.body
  have hbody : (b.moved m).body = b.body.map (Token.moved m) := rfl
  have hname : (b.moved m).name = b.name := rfl
  refine Noted.unplaced_congr ?_ ?_
  · simp only [ofBlock, b.ownTokens_moved h, Setting.string?_moved, hbody, hname, Noted.value_eq hs]
  · simp only [ofBlock, hbody, Noted.notes_eq hs]

theorem ContextMap.ofBlock_moved (h : KeepsLines m) (b : Block) :
    (ofBlock (b.moved m)).unplaced = (ofBlock b).unplaced := by
  have hr := readRelationships_moved (m := m) b.body
  have hbody : (b.moved m).body = b.body.map (Token.moved m) := rfl
  have hname : (b.moved m).name? = b.name? := rfl
  refine Noted.unplaced_congr ?_ ?_
  · simp only [ofBlock, b.ownTokens_moved h, Setting.values_moved, Setting.member?_moved, hbody,
      hname]
    rw [← matchedValues_unplaced, hr, matchedValues_unplaced]
  · simp only [ofBlock, hbody]
    rw [unplaced_skipNotes, hr, ← unplaced_skipNotes]

theorem readContextMap_moved (h : KeepsLines m) (ts : List Token) :
    (readContextMap (ts.map (Token.moved m))).unplaced = (readContextMap ts).unplaced := by
  have hscan := scanBlocks_moved (m := m) "ContextMap" true ts
  have hblocks := matchedValues_of_unplaced hscan
  have hnotes := skipNotes_of_unplaced hscan
  unfold readContextMap
  simp only [hblocks]
  cases matchedValues (scanBlocks "ContextMap" true ts) with
  | nil => exact Noted.unplaced_congr rfl hnotes
  | cons b more =>
    have hmap := ContextMap.ofBlock_moved h b
    refine Noted.unplaced_congr ?_ ?_
    · simp only [List.map_cons, Noted.value_eq hmap]
    · simp only [List.map_cons, List.isEmpty_map, List.length_map, List.map_append, hnotes,
        Noted.notes_eq hmap]

/-! ## 4. Requirements -/

theorem afterPhrase?_moved : ∀ (phrase : List String) (ts : List Token),
    afterPhrase? phrase (ts.map (Token.moved m))
      = (afterPhrase? phrase ts).map (List.map (Token.moved m))
  | [], _ => rfl
  | _ :: _, [] => rfl
  | w :: ws, t :: r => by
    rw [List.map_cons, afterPhrase?, afterPhrase?, Token.isWord_moved, afterPhrase?_moved ws r]
    split <;> rfl

theorem stringAfter?_moved (phrase : List String) : ∀ ts : List Token,
    stringAfter? phrase (ts.map (Token.moved m)) = stringAfter? phrase ts
  | [] => rfl
  | t :: r => by
    have hphrase := afterPhrase?_moved (m := m) phrase (t :: r)
    have harticles : ∀ rest : List Token,
        ((rest.map (Token.moved m)).dropWhile isArticle).head?.bind Token.string?
          = (rest.dropWhile isArticle).head?.bind Token.string? := by
      intro rest
      rw [dropWhile_moved (fun _ => rfl), List.head?_map]
      cases (rest.dropWhile isArticle).head? <;> rfl
    rw [List.map_cons] at hphrase
    rw [List.map_cons, stringAfter?, stringAfter?, hphrase, stringAfter?_moved phrase r]
    simp only [Option.bind_map, Function.comp_def, harticles]

theorem UseCase.ofBlock_moved (h : KeepsLines m) (b : Block) :
    ofBlock (b.moved m) = ofBlock b := by
  have hname : (b.moved m).name = b.name := rfl
  simp only [ofBlock, b.ownTokens_moved h, Setting.string?_moved, Setting.strings_moved, hname]

theorem UserStory.ofBlock_moved (h : KeepsLines m) (b : Block) :
    ofBlock (b.moved m) = ofBlock b := by
  have hname : (b.moved m).name = b.name := rfl
  simp only [ofBlock, b.ownTokens_moved h, stringAfter?_moved, hname]

theorem notes_readRequirements (keyword : String) (read : Block → UserRequirement)
    (ts : List Token) :
    (readRequirements keyword read ts).notes = skipNotes (scanBlocks keyword false ts) := by
  simp [readRequirements, readBlocks]

/-- The requirements of a kind, each with the place of its keyword. -/
def placedRequirements (keyword : String) (read : Block → UserRequirement) (ts : List Token) :
    List (Position × UserRequirement) :=
  (matchedValues (scanBlocks keyword false ts)).map fun b => (b.start, read b)

theorem value_readRequirements (keyword : String) (read : Block → UserRequirement)
    (ts : List Token) :
    (readRequirements keyword read ts).value
      = (placedRequirements keyword read ts).map fun x => (x.1.line, x.2) := by
  simp [readRequirements, readBlocks, placedRequirements, Block.line]

theorem placedRequirements_moved (keyword : String) (read : Block → UserRequirement)
    (hread : ∀ b, read (b.moved m) = read b) (ts : List Token) :
    placedRequirements keyword read (ts.map (Token.moved m))
      = (placedRequirements keyword read ts).map fun x => (m x.1, x.2) := by
  have hblocks := matchedValues_of_unplaced (scanBlocks_moved (m := m) keyword false ts)
  simp only [placedRequirements, hblocks, List.map_map, Function.comp_def, hread]
  rfl

/-- Merging by line only sees the order of lines. -/
theorem merge_lines_moved (h : KeepsLines m) (xs ys : List (Position × UserRequirement)) :
    ((xs.map fun x => ((m x.1).line, x.2)).merge (ys.map fun x => ((m x.1).line, x.2))
        fun a b => a.1 ≤ b.1).map (·.2)
      = ((xs.map fun x => (x.1.line, x.2)).merge (ys.map fun x => (x.1.line, x.2))
        fun a b => a.1 ≤ b.1).map (·.2) := by
  let le : Position × UserRequirement → Position × UserRequirement → Bool :=
    fun x y => x.1.line ≤ y.1.line
  have hmoved : (xs.merge ys le).map (fun x => ((m x.1).line, x.2)) = _ :=
    List.map_merge (s := fun a b => a.1 ≤ b.1)
      fun x _ y _ => decide_eq_decide.mpr (h x.1 y.1).symm
  have hplain : (xs.merge ys le).map (fun x => (x.1.line, x.2)) = _ :=
    List.map_merge (s := fun a b => a.1 ≤ b.1) fun _ _ _ _ => rfl
  rw [← hmoved, ← hplain, List.map_map, List.map_map]
  rfl

theorem readUserRequirements_moved (h : KeepsLines m) (ts : List Token) :
    (readUserRequirements (ts.map (Token.moved m))).unplaced
      = (readUserRequirements ts).unplaced := by
  have hcases := placedRequirements_moved "UseCase"
    (fun b => .useCase (.ofBlock b)) (fun b => by rw [UseCase.ofBlock_moved h]) ts
  have hstories := placedRequirements_moved "UserStory"
    (fun b => .userStory (.ofBlock b)) (fun b => by rw [UserStory.ofBlock_moved h]) ts
  refine Noted.unplaced_congr ?_ ?_
  · simp only [readUserRequirements, value_readRequirements, hcases, hstories, List.map_map,
      Function.comp_def]
    exact merge_lines_moved h _ _
  · simp only [readUserRequirements, notes_readRequirements, List.map_append]
    rw [skipNotes_of_unplaced (scanBlocks_moved "UseCase" false ts),
      skipNotes_of_unplaced (scanBlocks_moved "UserStory" false ts)]

/-! ## 5. Documents -/

/-- **Moved tokens make the same model, and the same runs are skipped for the same reasons.** -/
theorem Report.ofTokens_moved (h : KeepsLines m) (ts : List Token) :
    (ofTokens (ts.map (Token.moved m))).model = (ofTokens ts).model
      ∧ (ofTokens (ts.map (Token.moved m))).notes.map Note.unplaced
        = (ofTokens ts).notes.map Note.unplaced := by
  have hm := readContextMap_moved h ts
  have hc := readBlocks_moved "BoundedContext" (BoundedContext.ofBlock_moved h) ts
  have hd := readBlocks_moved "Domain" (Domain.ofBlock_moved h) ts
  have hr := readUserRequirements_moved h ts
  refine ⟨?_, ?_⟩
  · simp only [ofTokens, Noted.value_eq hm, Noted.value_eq hc, Noted.value_eq hd,
      Noted.value_eq hr]
  · simp only [ofTokens, List.map_append, Noted.notes_eq hm, Noted.notes_eq hc, Noted.notes_eq hd,
      Noted.notes_eq hr]

end ContextAtlas
