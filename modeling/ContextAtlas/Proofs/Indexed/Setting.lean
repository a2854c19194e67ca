/-
# Reading settings by index

A setting is looked for at every index, and its values are a run of items behind it.  The first
value of a setting is fetched without a look at how many there are: an occurrence without a value
is none, so there always is one.  Phrases in front of a string are read in the same way.

* `settingRun`, `firstSetting`: the settings of a key.
* `stringAfter`: the string behind a phrase.
* `settingRun_eq`, `firstSetting_eq`, `stringAfter_eq`: they give what the readers of lists give.
-/
import ContextAtlas.Proofs.Indexed.Block
import ContextAtlas.Report

namespace ContextAtlas.Indexed

/-! ## 1. The readers -/

section

variable (key : String) (phrase : List String) (ts : List Token)

/-- One round over the tokens, with the occurrences so far and the index. -/
def settingStep : List (List Token) × Nat →
    Run ((List (List Token) × Nat) ⊕ List (List Token))
  | (found, i) => do
    if i < ts.length then
      let t ← fetch ts i
      if t.isWord key then
        let isEquals ← holdsAt (·.is .equals) ts (i + 1)
        let (values, _) ← itemRun Setting.value? ts (if isEquals then i + 2 else i + 1)
        if values.isEmpty then return .inl (found, i + 1)
        else return .inl (found ++ [values], i + 1)
      else return .inl (found, i + 1)
    else return .inr found

/-- The values of every setting of a key. -/
def settingRun : Run (List (List Token)) := loop (settingStep key ts) (ts.length + 1) ([], 0)

/-- The first string among the values of a key. -/
def stringSetting : Run (Option String) := do
  let occurrences ← settingRun key ts
  return occurrences.flatten.findSome? Token.string?

/-- All values of a key. -/
def listSetting : Run (List String) := do
  let occurrences ← settingRun key ts
  return occurrences.flatten.map Token.value

/-- All strings among the values of a key. -/
def stringsSetting : Run (List String) := do
  let occurrences ← settingRun key ts
  return occurrences.flatten.filterMap Token.string?

/-- The first value of a key that names a member of a closed vocabulary. -/
def memberSetting (α : Type) [Spelled α] : Run (Option α) := do
  let occurrences ← settingRun key ts
  return occurrences.flatten.findSome? fun t => Spelled.read? t.value

/-- The first value of a key: that of its first occurrence. -/
def firstSetting : Run (Option String) := do
  match ← settingRun key ts with
  | [] => return none
  | values :: _ =>
    let t ← fetch values 0
    return some t.value

/-- The index behind a phrase. -/
def phraseAt : List String → Nat → Run (Option Nat)
  | [], i => return some i
  | word :: words, i => do
    if ← holdsAt (·.isWord word) ts i then phraseAt words (i + 1) else return none

/-- The index behind the articles. -/
def skipArticles : Nat → Run Nat :=
  loop (fun i => do
    if ← holdsAt isArticle ts i then return .inl (i + 1) else return .inr i) (ts.length + 1)

/-- The string behind a phrase that starts at an index. -/
def stringAt (i : Nat) : Run (Option String) := do
  match ← phraseAt ts phrase i with
  | none => return none
  | some j =>
    let k ← skipArticles ts j
    readAt Token.string? ts k

/-- One round of the search for a phrase. -/
def stringAfterStep (i : Nat) : Run (Nat ⊕ Option String) := do
  if i < ts.length then
    match ← stringAt phrase ts i with
    | some s => return .inr (some s)
    | none => return .inl (i + 1)
  else return .inr none

/-- The string behind the first occurrence of a phrase that a string follows. -/
def stringAfter : Run (Option String) := loop (stringAfterStep phrase ts) (ts.length + 1) 0

end

/-! ## 2. Settings -/

section

variable {key : String} {ts rest : List Token} {i : Nat}

theorem loop_settingStep (found : List (List Token)) {rounds : Nat} (h : ts.drop i = rest)
    (hrounds : rest.length < rounds) :
    loop (settingStep key ts) rounds (found, i)
      = .ok (found ++ Setting.occurrences key rest) := by
  induction rounds generalizing found i rest with
  | zero => exact absurd hrounds (Nat.not_lt_zero _)
  | succ rounds ih =>
    cases rest with
    | nil =>
      rw [loop_of_inr (a := found)]
      · simp [Setting.occurrences]
      · simp [settingStep, not_lt_length_of_drop h]
    | cons t r =>
      have hbehind := drop_succ_of_drop h
      have hequals := holdsAt_of_drop (·.is .equals) hbehind
      have next (found' : List (List Token)) :
          loop (settingStep key ts) rounds (found', i + 1)
            = .ok (found' ++ Setting.occurrences key r) :=
        ih found' hbehind (by simpa using hrounds)
      by_cases ht : t.isWord key = true
      · have hvalues : ts.drop (if r.head?.any (·.is .equals) then i + 2 else i + 1)
            = Setting.afterEquals r := by
          rcases r with _ | ⟨u, s⟩
          · simpa [Setting.afterEquals] using hbehind
          · by_cases hu : u.is .equals = true
            · simpa [Setting.afterEquals, hu] using drop_succ_of_drop hbehind
            · simpa [Setting.afterEquals, hu] using hbehind
        obtain ⟨j, hrun, -⟩ := itemRun_of_drop Setting.value? hvalues
        rcases hfirst : (commaRun Setting.value? (Setting.afterEquals r)).1 with _ | ⟨v, vs⟩
        · rw [loop_of_inl (t := (found, i + 1)), next]
          · simp [Setting.occurrences, ht, hfirst]
          · simp [settingStep, lt_length_of_drop h, fetch_of_drop h, hequals, hrun, hfirst]
        · rw [loop_of_inl (t := (found ++ [v :: vs], i + 1)), next]
          · simp [Setting.occurrences, ht, hfirst]
          · simp [settingStep, lt_length_of_drop h, fetch_of_drop h, ht, hequals, hrun, hfirst]
      · rw [loop_of_inl (t := (found, i + 1)), next]
        · simp [Setting.occurrences, ht]
        · simp [settingStep, lt_length_of_drop h, fetch_of_drop h, ht]

theorem settingRun_eq (key : String) (ts : List Token) :
    settingRun key ts = .ok (Setting.occurrences key ts) := by
  have hstart : ts.drop 0 = ts := rfl
  rw [settingRun, loop_settingStep [] hstart (length_lt_of_drop hstart), List.nil_append]

/-- An occurrence has a value. -/
theorem nil_not_mem_occurrences (key : String) (ts : List Token) :
    [] ∉ Setting.occurrences key ts := by
  fun_induction Setting.occurrences key ts with
  | _ => simp_all

theorem stringSetting_eq (key : String) (ts : List Token) :
    stringSetting key ts = .ok (Setting.string? key ts) := by
  simp [stringSetting, settingRun_eq, Setting.string?]

theorem listSetting_eq (key : String) (ts : List Token) :
    listSetting key ts = .ok (Setting.values key ts) := by
  simp [listSetting, settingRun_eq, Setting.values]

theorem stringsSetting_eq (key : String) (ts : List Token) :
    stringsSetting key ts = .ok (Setting.strings key ts) := by
  simp [stringsSetting, settingRun_eq, Setting.strings]

theorem memberSetting_eq (key : String) (ts : List Token) (α : Type) [Spelled α] :
    memberSetting key ts α = .ok (Setting.member? α key ts) := by
  simp [memberSetting, settingRun_eq, Setting.member?]

theorem firstSetting_eq (key : String) (ts : List Token) :
    firstSetting key ts = .ok (Setting.first? key ts) := by
  have hnil := nil_not_mem_occurrences key ts
  simp only [firstSetting, settingRun_eq, bind_ok, Setting.first?]
  rcases hoccurrences : Setting.occurrences key ts with _ | ⟨_ | ⟨v, vs⟩, more⟩
  · rfl
  · simp [hoccurrences] at hnil
  · rfl

end

/-! ## 3. Phrases -/

section

variable {ts rest : List Token} {i : Nat}

theorem phraseAt_of_drop : ∀ (words : List String) {i : Nat} {rest : List Token},
    ts.drop i = rest →
      match afterPhrase? words rest with
      | none => phraseAt ts words i = .ok none
      | some behind => ∃ j, phraseAt ts words i = .ok (some j) ∧ ts.drop j = behind
  | [], i, rest, h => ⟨i, rfl, h⟩
  | word :: words, i, rest, h => by
    have hword := holdsAt_of_drop (·.isWord word) h
    rcases rest with _ | ⟨t, r⟩
    · simp [afterPhrase?, phraseAt, hword]
    · by_cases ht : t.isWord word = true
      · simpa [afterPhrase?, phraseAt, hword, ht] using phraseAt_of_drop words (drop_succ_of_drop h)
      · simp [afterPhrase?, phraseAt, hword, ht]

theorem skipArticles_of_drop (h : ts.drop i = rest) :
    ∃ j, skipArticles ts i = .ok j ∧ ts.drop j = rest.dropWhile isArticle := by
  have hrounds := length_lt_of_drop h
  unfold skipArticles
  generalize ts.length + 1 = rounds at hrounds
  induction rounds generalizing i rest with
  | zero => exact absurd hrounds (Nat.not_lt_zero _)
  | succ rounds ih =>
    cases rest with
    | nil =>
      exact ⟨i, loop_of_inr (by simp [holdsAt_of_drop isArticle h]), h⟩
    | cons t r =>
      by_cases ht : isArticle t = true
      · obtain ⟨j, hloop, hj⟩ := ih (drop_succ_of_drop h) (by simpa using hrounds)
        refine ⟨j, ?_, by simpa [ht] using hj⟩
        rw [loop_of_inl (t := i + 1) (by simp [holdsAt_of_drop isArticle h, ht]), hloop]
      · refine ⟨i, loop_of_inr ?_, by simpa [ht] using h⟩
        simp [holdsAt_of_drop isArticle h, ht]

theorem stringAt_of_drop (phrase : List String) (h : ts.drop i = rest) :
    stringAt phrase ts i = .ok ((afterPhrase? phrase rest).bind fun behind =>
      (behind.dropWhile isArticle).head?.bind Token.string?) := by
  have hphrase := phraseAt_of_drop phrase h
  rcases hafter : afterPhrase? phrase rest with _ | behind
  · rw [hafter] at hphrase
    simp [stringAt, hphrase]
  · rw [hafter] at hphrase
    obtain ⟨j, hrun, hj⟩ := hphrase
    obtain ⟨k, hskip, hk⟩ := skipArticles_of_drop hj
    simp [stringAt, hrun, hskip, readAt_of_drop Token.string? hk]

theorem loop_stringAfterStep (phrase : List String) {rounds : Nat} (h : ts.drop i = rest)
    (hrounds : rest.length < rounds) :
    loop (stringAfterStep phrase ts) rounds i = .ok (stringAfter? phrase rest) := by
  induction rounds generalizing i rest with
  | zero => exact absurd hrounds (Nat.not_lt_zero _)
  | succ rounds ih =>
    cases rest with
    | nil =>
      exact loop_of_inr (by simp [stringAfterStep, not_lt_length_of_drop h, stringAfter?])
    | cons t r =>
      have hstring := stringAt_of_drop phrase h
      rw [stringAfter?]
      split
      · next s hs =>
        rw [hs] at hstring
        exact loop_of_inr (by simp [stringAfterStep, lt_length_of_drop h, hstring])
      · next hnone =>
        rw [hnone] at hstring
        rw [loop_of_inl (t := i + 1), ih (drop_succ_of_drop h) (by simpa using hrounds)]
        simp [stringAfterStep, lt_length_of_drop h, hstring]

theorem stringAfter_eq (phrase : List String) (ts : List Token) :
    stringAfter phrase ts = .ok (stringAfter? phrase ts) := by
  have hstart : ts.drop 0 = ts := rfl
  rw [stringAfter, loop_stringAfterStep phrase hstart (length_lt_of_drop hstart)]

end

end ContextAtlas.Indexed
