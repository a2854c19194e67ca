/-
# Readers that do not see places

Most of what is read from a run of tokens is read from their lexemes alone.  `Token.moved m` puts
a token at another place, and this file goes through the readers of headers, settings, types,
members and relationships and shows for each that moving its tokens does not change what it reads,
and leaves the tokens behind it the moved ones.

Nothing is asked of `m` here: lines count only for blocks, in `Layout/Block.lean`.
-/
import ContextAtlas.Block.Scan
import ContextAtlas.Member.Lines
import ContextAtlas.Proofs.Token.Line
import ContextAtlas.Relationship.Reader

namespace ContextAtlas

variable {m : Position → Position}

/-! ## 1. Tokens -/

namespace Token

@[simp] theorem lexeme_moved (t : Token) : (t.moved m).lexeme = t.lexeme := rfl

@[simp] theorem position_moved (t : Token) : (t.moved m).position = m t.position := rfl

@[simp] theorem value_moved (t : Token) : (t.moved m).value = t.value := rfl

@[simp] theorem is_moved (t : Token) (x : Mark) : (t.moved m).is x = t.is x := rfl

@[simp] theorem isWord_moved (t : Token) (w : String) : (t.moved m).isWord w = t.isWord w := rfl

@[simp] theorem word?_moved (t : Token) : (t.moved m).word? = t.word? := rfl

@[simp] theorem string?_moved (t : Token) : (t.moved m).string? = t.string? := rfl

@[simp] theorem isValue_moved (t : Token) : (t.moved m).isValue = t.isValue := rfl

@[simp] theorem announcesOperation_moved (t : Token) :
    (t.moved m).announcesOperation = t.announcesOperation := rfl

end Token

theorem fragmentText_moved (run : List Token) :
    fragmentText (run.map (Token.moved m)) = fragmentText run := by
  simp [fragmentText, Function.comp_def]

/-! ## 2. Runs -/

theorem takeWhile_moved {p : Token → Bool} (hp : ∀ t, p (t.moved m) = p t) (ts : List Token) :
    (ts.map (Token.moved m)).takeWhile p = (ts.takeWhile p).map (Token.moved m) := by
  simp [List.takeWhile_map, Function.comp_def, hp]

theorem dropWhile_moved {p : Token → Bool} (hp : ∀ t, p (t.moved m) = p t) (ts : List Token) :
    (ts.map (Token.moved m)).dropWhile p = (ts.dropWhile p).map (Token.moved m) := by
  simp [List.dropWhile_map, Function.comp_def, hp]

theorem commaRun_moved {α β : Type} {item? : Token → Option α} {item'? : Token → Option β}
    {f : α → β} (h : ∀ t, item'? (t.moved m) = (item? t).map f) (ts : List Token) :
    commaRun item'? (ts.map (Token.moved m))
      = ((commaRun item? ts).1.map f, (commaRun item? ts).2.map (Token.moved m)) := by
  fun_induction commaRun item? ts with
  | case1 => rfl
  | case2 t r ht ih => rw [List.map_cons, commaRun_of_sigil (by simpa using ht), ih]
  | case3 t r ht hi =>
    rw [List.map_cons, commaRun_of_none (by simpa using ht) (by simp [h, hi])]
    rfl
  | case4 t ht a p s hi ih =>
    rw [List.map_cons, List.map_cons,
      commaRun_of_comma (a := f a) (by simpa using ht) (by simp [h, hi]) rfl, ih]
    rfl
  | case5 t r ht a hi hr =>
    rw [List.map_cons, commaRun_of_last (a := f a) (by simpa using ht) (by simp [h, hi])]
    · rfl
    · intro u s hu
      obtain ⟨⟨x, p⟩, s', rfl, rfl, -⟩ := List.map_eq_cons_iff.mp hu
      have hx : x ≠ .mark .comma := fun e => hr p s' (by rw [e])
      exact decide_eq_false hx

theorem wordRun_moved (ts : List Token) :
    commaRun Token.word? (ts.map (Token.moved m))
      = ((commaRun Token.word? ts).1, (commaRun Token.word? ts).2.map (Token.moved m)) := by
  simpa using commaRun_moved (f := id) (fun t => by simp) ts

theorem withoutTerminators_moved (line : List Token) :
    withoutTerminators (line.map (Token.moved m))
      = (withoutTerminators line).map (Token.moved m) := by
  rw [withoutTerminators, ← List.map_reverse, dropWhile_moved (fun _ => rfl), ← List.map_reverse,
    withoutTerminators]

/-! ## 3. Headers -/

theorem readClauses_moved (parent : Option String) (ts : List Token) :
    readClauses parent (ts.map (Token.moved m))
      = (readClauses parent ts).map fun x => (x.1, x.2.map (Token.moved m)) := by
  fun_induction readClauses parent ts with
  | case1 => simp [readClauses]
  | case2 parent t r hw => simp [readClauses, hw]
  | case3 parent t r w hw hc hr =>
    rw [List.map_cons, readClauses]
    simp [hw, hc, wordRun_moved, hr]
  | case4 parent t r w hw hc target _ hr ih =>
    rw [List.map_cons, readClauses]
    simp only [Token.word?_moved, hw, hc, if_true, wordRun_moved, hr]
    exact ih
  | case5 parent t r w hw hc =>
    rw [List.map_cons, readClauses]
    simp [hw, hc]

theorem readBlockName_moved (nameOptional : Bool) (ts : List Token) :
    readBlockName nameOptional (ts.map (Token.moved m))
      = (readBlockName nameOptional ts).map fun x => (x.1, x.2.map (Token.moved m)) := by
  unfold readBlockName
  rcases ts with _ | ⟨t, r⟩
  · cases nameOptional <;> rfl
  · simp only [List.map_cons, List.head?_cons, Option.bind_some, Token.word?_moved, List.tail_cons]
    rcases t.word? with _ | w
    · cases nameOptional <;> rfl
    · simp only
      split
      · rfl
      · cases nameOptional <;> rfl

theorem Header.read?_moved (nameOptional : Bool) (ts : List Token) :
    Header.read? nameOptional (ts.map (Token.moved m))
      = (Header.read? nameOptional ts).map fun x =>
          (x.1, x.2.1.moved m, x.2.2.map (Token.moved m)) := by
  unfold Header.read?
  rw [readBlockName_moved]
  rcases readBlockName nameOptional ts with _ | ⟨name, afterName⟩
  · rfl
  · simp only [Option.map_some, Option.bind_eq_bind, Option.bind_some, readClauses_moved]
    rcases readClauses none afterName with _ | ⟨parent, afterClauses⟩
    · rfl
    · rcases afterClauses with _ | ⟨t, r⟩
      · rfl
      · by_cases ht : t.is .openBrace = true <;> simp [ht]

/-! ## 4. Settings -/

namespace Setting

theorem value?_moved (t : Token) : value? (t.moved m) = (value? t).map (Token.moved m) := by
  by_cases ht : t.isValue = true <;> simp [value?, ht]

theorem afterEquals_moved (ts : List Token) :
    afterEquals (ts.map (Token.moved m)) = (afterEquals ts).map (Token.moved m) := by
  rcases ts with _ | ⟨t, r⟩
  · rfl
  · by_cases ht : t.is .equals = true <;> simp [afterEquals, ht]

theorem occurrences_moved (key : String) : ∀ ts : List Token,
    occurrences key (ts.map (Token.moved m)) = (occurrences key ts).map (List.map (Token.moved m))
  | [] => rfl
  | t :: r => by
    have hv := commaRun_moved (f := Token.moved m) value?_moved (afterEquals r)
    rw [List.map_cons, occurrences, occurrences, afterEquals_moved, hv, Token.isWord_moved,
      occurrences_moved key r]
    by_cases ht : t.isWord key = true
    · rcases (commaRun value? (afterEquals r)).1 with _ | ⟨v, vs⟩ <;> simp [ht]
    · simp [ht]

theorem flatten_occurrences_moved (key : String) (ts : List Token) :
    (occurrences key (ts.map (Token.moved m))).flatten
      = (occurrences key ts).flatten.map (Token.moved m) := by
  rw [occurrences_moved, List.map_flatten]

@[simp] theorem string?_moved (key : String) (ts : List Token) :
    string? key (ts.map (Token.moved m)) = string? key ts := by
  rw [string?, flatten_occurrences_moved, List.findSome?_map]
  rfl

@[simp] theorem first?_moved (key : String) (ts : List Token) :
    first? key (ts.map (Token.moved m)) = first? key ts := by
  rw [first?, flatten_occurrences_moved, List.head?_map, Option.map_map]
  rfl

@[simp] theorem values_moved (key : String) (ts : List Token) :
    values key (ts.map (Token.moved m)) = values key ts := by
  rw [values, flatten_occurrences_moved, List.map_map]
  rfl

@[simp] theorem strings_moved (key : String) (ts : List Token) :
    strings key (ts.map (Token.moved m)) = strings key ts := by
  rw [strings, flatten_occurrences_moved, List.filterMap_map]
  rfl

@[simp] theorem member?_moved (α : Type) [Spelled α] (key : String) (ts : List Token) :
    member? α key (ts.map (Token.moved m)) = member? α key ts := by
  rw [member?, flatten_occurrences_moved, List.findSome?_map]
  rfl

end Setting

/-! ## 5. Types -/

namespace TypeRef

theorem afterSigil_moved (ts : List Token) :
    afterSigil (ts.map (Token.moved m)) = (afterSigil ts).map (Token.moved m) := by
  rcases ts with _ | ⟨t, r⟩
  · rfl
  · by_cases ht : t.is .sigil = true <;> simp [afterSigil, ht]

theorem expect?_moved (x : Mark) (ts : List Token) :
    expect? x (ts.map (Token.moved m)) = (expect? x ts).map (List.map (Token.moved m)) := by
  rcases ts with _ | ⟨t, r⟩
  · rfl
  · by_cases ht : t.is x = true <;> simp [expect?, ht]

theorem readWithin_moved : ∀ (levels : Nat) (ts : List Token),
    readWithin levels (ts.map (Token.moved m))
      = (readWithin levels ts).map fun x => (x.1, x.2.map (Token.moved m))
  | 0, _ => rfl
  | levels + 1, ts => by
    rw [readWithin, readWithin, afterSigil_moved]
    rcases afterSigil ts with _ | ⟨t, r⟩
    · rfl
    · simp only [List.map_cons, Token.word?_moved, expect?_moved]
      rcases t.word? with _ | name
      · rfl
      · rcases expect? .openAngle r with _ | arguments
        · rfl
        · simp only [Option.map_some, readWithin_moved levels arguments]
          rcases readWithin levels arguments with _ | ⟨a, afterArgument⟩
          · split <;> rfl
          · simp only [Option.map_some, Option.bind_eq_bind, Option.bind_some, expect?_moved]
            rcases expect? .comma afterArgument with _ | afterComma
            · rcases expect? .closeAngle afterArgument <;> split <;> rfl
            · simp only [Option.map_some, Option.bind_some, readWithin_moved levels afterComma]
              rcases readWithin levels afterComma with _ | ⟨b, afterValue⟩
              · rcases expect? .closeAngle afterArgument <;> split <;> rfl
              · simp only [Option.map_some, Option.bind_some, expect?_moved]
                rcases expect? .closeAngle afterArgument <;>
                  rcases expect? .closeAngle afterValue <;> split <;> rfl

theorem read?_moved (ts : List Token) :
    read? (ts.map (Token.moved m)) = (read? ts).map fun x => (x.1, x.2.map (Token.moved m)) :=
  readWithin_moved _ _

end TypeRef

/-! ## 6. Members -/

theorem afterOptional_moved {p : Token → Bool} (hp : ∀ t, p (t.moved m) = p t) (ts : List Token) :
    afterOptional p (ts.map (Token.moved m)) = (afterOptional p ts).map (Token.moved m) := by
  rcases ts with _ | ⟨t, r⟩
  · rfl
  · by_cases ht : p t = true <;> simp [afterOptional, hp, ht]

theorem afterMark_moved (x : Mark) (ts : List Token) :
    afterOptional (·.is x) (ts.map (Token.moved m))
      = (afterOptional (·.is x) ts).map (Token.moved m) :=
  afterOptional_moved (fun _ => rfl) ts

theorem readVisibility_moved (ts : List Token) :
    readVisibility (ts.map (Token.moved m))
      = ((readVisibility ts).1, (readVisibility ts).2.map (Token.moved m)) := by
  rcases ts with _ | ⟨t, _ | ⟨u, r⟩⟩
  · rfl
  · rfl
  · simp only [List.map_cons, readVisibility, Token.word?_moved]
    rcases t.word?.bind Spelled.read? with _ | v <;> rfl

theorem lineKind?_moved (ts : List Token) : lineKind? (ts.map (Token.moved m)) = lineKind? ts := by
  rcases ts with _ | ⟨t, r⟩
  · rfl
  · simp [lineKind?, Function.comp_def]

theorem Constraint.readAll_moved (ts : List Token) :
    readAll (ts.map (Token.moved m)) = readAll ts := by
  fun_induction readAll ts with
  | _ => simp_all [readAll]

theorem Attribute.read?_moved (line : List Token) :
    read? (line.map (Token.moved m)) = read? line := by
  unfold read?
  simp only [readVisibility_moved, TypeRef.read?_moved]
  rcases TypeRef.read? (readVisibility line).2 with _ | ⟨type, _ | ⟨t, r⟩⟩
  · rfl
  · rfl
  · simp only [Option.map_some, List.map_cons, Token.word?_moved, Constraint.readAll_moved]

namespace Reference

theorem assigned?_moved (key : String) : ∀ ts : List Token,
    assigned? key (ts.map (Token.moved m)) = assigned? key ts
  | [] => rfl
  | [_] => rfl
  | [_, _] => rfl
  | t :: u :: v :: r => by
    have ih := assigned?_moved key (u :: v :: r)
    simp only [List.map_cons] at ih
    simp only [List.map_cons, assigned?, ih, Token.isWord_moved, Token.is_moved,
      Token.lexeme_moved]

theorem wordAfter?_moved (key : String) : ∀ ts : List Token,
    wordAfter? key (ts.map (Token.moved m)) = wordAfter? key ts
  | [] => rfl
  | t :: r => by
    have hp : (pointedAt? (r.map (Token.moved m))).bind Token.word?
        = (pointedAt? r).bind Token.word? := by
      rcases r with _ | ⟨u, _ | ⟨v, r⟩⟩
      · rfl
      · rfl
      · by_cases hu : u.is .sigil = true <;> simp [pointedAt?, hu]
    rw [List.map_cons, wordAfter?, wordAfter?, hp, wordAfter?_moved key r, Token.isWord_moved]

theorem readWrapper_moved (ts : List Token) :
    readWrapper (ts.map (Token.moved m))
      = ((readWrapper ts).1, (readWrapper ts).2.map (Token.moved m)) := by
  rcases ts with _ | ⟨t, _ | ⟨u, r⟩⟩
  · rfl
  · rfl
  · simp only [List.map_cons, readWrapper, Token.word?_moved, Token.is_moved]
    rcases t.word?.bind Spelled.read? with _ | c
    · rfl
    · by_cases hu : u.is .openAngle = true <;> simp [hu]

theorem read?_moved (line : List Token) : read? (line.map (Token.moved m)) = read? line := by
  unfold read?
  simp only [afterMark_moved, readVisibility_moved, readWrapper_moved]
  rcases afterOptional (·.is .sigil)
    (readWrapper (readVisibility (afterOptional (·.is .minus) line)).2).2 with _ | ⟨t, r⟩
  · rfl
  · simp only [List.map_cons, Token.word?_moved]
    rcases t.word? with _ | target
    · rfl
    · simp only [afterMark_moved]
      rcases afterOptional (·.is .closeAngle) r with _ | ⟨u, trailer⟩
      · rfl
      · simp only [List.map_cons, Token.word?_moved, Constraint.readAll_moved, assigned?_moved,
          wordAfter?_moved]

end Reference

namespace StateTransition

theorem splitOnP_moved {p : Token → Bool} (hp : ∀ t, p (t.moved m) = p t) : ∀ ts : List Token,
    (ts.map (Token.moved m)).splitOnP p = (ts.splitOnP p).map (List.map (Token.moved m))
  | [] => rfl
  | t :: r => by
    rw [List.map_cons, List.splitOnP_cons_eq_if_modifyHead, List.splitOnP_cons_eq_if_modifyHead,
      hp, splitOnP_moved hp r]
    rcases r.splitOnP p with _ | ⟨a, s⟩ <;> by_cases ht : p t = true <;> simp [ht]

theorem splitNames_moved {p : Token → Bool} (hp : ∀ t, p (t.moved m) = p t) (ts : List Token) :
    splitNames p (ts.map (Token.moved m)) = splitNames p ts := by
  simp [splitNames, splitOnP_moved hp, List.filter_map, Function.comp_def]

theorem ofSides_moved (left right : List Token) :
    ofSides (left.map (Token.moved m)) (right.map (Token.moved m)) = ofSides left right := by
  have hx : ∀ t : Token, isExclusiveMarker (t.moved m) = isExclusiveMarker t := fun _ => rfl
  have hany : (right.map (Token.moved m)).any isExclusiveMarker = right.any isExclusiveMarker := by
    simp [Function.comp_def, hx]
  unfold ofSides
  rw [hany, splitNames_moved (fun _ => rfl)]
  cases right.any isExclusiveMarker
  · simp [splitNames_moved (m := m) (p := (·.is .comma)) (fun _ => rfl)]
  · simp [splitNames_moved (m := m) (p := isExclusiveMarker) (fun _ => rfl)]

theorem read?_moved (ts : List Token) : read? (ts.map (Token.moved m)) = read? ts := by
  have hd := dropWhile_moved (m := m) (p := (!·.is .openBracket)) (fun _ => rfl) ts
  unfold read?
  rw [hd]
  cases ts.dropWhile (!·.is .openBracket) with
  | nil => rfl
  | cons t r =>
    simp only [List.map_cons, takeWhile_moved (m := m) (p := (!·.is .closeBracket)) (fun _ => rfl),
      takeWhile_moved (m := m) (p := (!·.is .arrow)) (fun _ => rfl),
      dropWhile_moved (m := m) (p := (!·.is .arrow)) (fun _ => rfl), ← List.map_drop,
      ofSides_moved]
    simp [List.filter_map, Function.comp_def]

end StateTransition

theorem Parameter.read?_moved (group : List Token) :
    read? (group.map (Token.moved m)) = read? group := by
  have hf : (group.map (Token.moved m)).filter (!·.is .sigil)
      = (group.filter (!·.is .sigil)).map (Token.moved m) := by
    simp [List.filter_map, Function.comp_def]
  unfold read?
  simp only [hf, List.getLast?_map, ← List.map_dropLast, TypeRef.read?_moved, Option.bind_eq_bind]
  cases (group.filter (!·.is .sigil)).getLast? with
  | none => rfl
  | some t =>
    simp only [Option.map_some, Option.bind_some, Token.word?_moved]
    cases t.word? with
    | none => rfl
    | some name =>
      cases TypeRef.read? (group.filter (!·.is .sigil)).dropLast <;> rfl

theorem splitParameters_moved : ∀ (depth : Nat) (group ts : List Token),
    splitParameters depth (group.map (Token.moved m)) (ts.map (Token.moved m))
      = (splitParameters depth group ts).map (List.map (Token.moved m))
  | _, group, [] => by simp [splitParameters]
  | depth, group, t :: r => by
    have h0 := splitParameters_moved depth [] r
    have h1 := splitParameters_moved depth (t :: group) r
    have h2 := splitParameters_moved (depth + 1) (t :: group) r
    have h3 := splitParameters_moved (depth - 1) (t :: group) r
    simp only [List.map_cons, List.map_nil] at h0 h1 h2 h3
    rw [List.map_cons, splitParameters, splitParameters, h0, h1, h2, h3]
    simp only [apply_ite (List.map (List.map (Token.moved m))), List.map_cons, List.map_reverse]
    rfl

theorem readParameters_moved (ts : List Token) :
    readParameters (ts.map (Token.moved m)) = readParameters ts := by
  have h := splitParameters_moved (m := m) 0 [] ts
  rw [List.map_nil] at h
  have hread : Parameter.read? ∘ List.map (Token.moved m) = Parameter.read? :=
    funext Parameter.read?_moved
  rw [readParameters, h, List.filterMap_map, hread, readParameters]

namespace Operation

theorem isReadOnlyTrailer_moved : ∀ ts : List Token,
    isReadOnlyTrailer (ts.map (Token.moved m)) = isReadOnlyTrailer ts
  | [] => rfl
  | t :: r => by
    rw [List.map_cons, isReadOnlyTrailer, isReadOnlyTrailer, isReadOnlyTrailer_moved r]
    rcases r with _ | ⟨u, _ | ⟨v, r⟩⟩ <;> rfl

theorem readModifiers_moved (line : List Token) :
    readModifiers (line.map (Token.moved m))
      = ((readModifiers line).1, (readModifiers line).2.map (Token.moved m)) := by
  simp only [readModifiers, readVisibility_moved,
    afterOptional_moved (m := m) (p := Token.announcesOperation) (fun _ => rfl),
    afterOptional_moved (m := m) (p := (·.isWord "abstract")) (fun _ => rfl)]

theorem readReturnType_moved (ts : List Token) :
    readReturnType (ts.map (Token.moved m)) = readReturnType ts := by
  simp [readReturnType, TypeRef.read?_moved, Function.comp_def]

theorem read?_moved (line : List Token) : read? (line.map (Token.moved m)) = read? line := by
  have htake := takeWhile_moved (m := m) (p := (!·.is .openParen)) (fun _ => rfl)
    (readModifiers line).2
  have hdrop := dropWhile_moved (m := m) (p := (!·.is .openParen)) (fun _ => rfl)
    (readModifiers line).2
  unfold read?
  simp only [readModifiers_moved, htake, hdrop, List.getLast?_map, ← List.map_dropLast,
    readReturnType_moved]
  cases (readModifiers line).2.dropWhile (!·.is .openParen) with
  | nil => rfl
  | cons t afterOpen =>
    cases ((readModifiers line).2.takeWhile (!·.is .openParen)).getLast? with
    | none => rfl
    | some u =>
      simp only [List.map_cons, Option.map_some, Option.bind_some, Token.word?_moved]
      cases u.word? with
      | none => rfl
      | some name =>
        simp only [dropWhile_moved (m := m) (p := (!·.is .closeParen)) (fun _ => rfl),
          takeWhile_moved (m := m) (p := (!·.is .closeParen)) (fun _ => rfl), readParameters_moved]
        cases afterOpen.dropWhile (!·.is .closeParen) with
        | nil => rfl
        | cons v trailer =>
          simp only [List.map_cons, isReadOnlyTrailer_moved, StateTransition.read?_moved]

end Operation

end ContextAtlas
