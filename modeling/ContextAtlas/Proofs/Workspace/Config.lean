/-
# Reading a configuration

A configuration is read from a text in one of three ways.  It has the settings of the document, and
the defaults where the document says nothing; or it is rejected with an error that names the
document and, for a setting, its key; or a value somewhere in the document cannot be told, and then
there is no error of a configuration at all, even if the value stands under a key that is ignored.

* `SettingHolds`, `Config.Reflects`: what a field, and a configuration, has to do with the settings;
* `Config.Rejects`: the errors of some settings, each with what is wrong;
* `Config.ofSettings_cases`: settings make a configuration that reflects them, or they are rejected;
* `Config.Outcome`, `Config.parse_outcome`: what reading a text ends with;
* `Config.parse_documented_iff`: it ends with a configuration or an error, unless a value cannot be
  told;
* `Config.parse_undocumented`: a date in the thirteenth month has no error.
-/
import ContextAtlas.Proofs.Yaml.Reach
import ContextAtlas.Workspace.Config

namespace ContextAtlas.Config

open Yaml (Value Fault)

/-! ## 1. Settings -/

section Settings

variable {settings : Settings} {key label : String} {v : Value}

/-- The last pair with the key of a setting, among the pairs of a mapping. -/
def LastPair (settings : Settings) (key : String) (v : Value) : Prop :=
  ∃ before behind, settings = before ++ (.text key, v) :: behind ∧ ∀ w, (.text key, w) ∉ behind

/-- A setting is absent just if no pair has its key. -/
theorem setting?_eq_none_iff : setting? settings key = none ↔ ∀ v, (.text key, v) ∉ settings := by
  unfold setting?
  rw [Option.map_eq_none_iff, List.find?_eq_none]
  constructor
  · intro h v hv
    exact h (.text key, v) (List.mem_reverse.mpr hv) (by simp)
  · rintro h ⟨k, v⟩ hv hk
    obtain rfl : k = .text key := by simpa using hk
    exact h v (List.mem_reverse.mp hv)

/-- Of the pairs with its key, the last one gives a setting its value. -/
theorem setting?_eq_some_iff : setting? settings key = some v ↔ LastPair settings key v := by
  unfold setting?
  rw [Option.map_eq_some_iff]
  constructor
  · rintro ⟨⟨k, w⟩, hfind, rfl⟩
    obtain ⟨hk, behind, before, hsplit, hlast⟩ := List.find?_eq_some_iff_append.mp hfind
    obtain rfl : k = .text key := by simpa using hk
    refine ⟨before.reverse, behind.reverse, ?_, ?_⟩
    · rw [← List.reverse_reverse settings, hsplit]
      simp
    · intro w hw
      simpa using hlast _ (List.mem_reverse.mp hw)
  · rintro ⟨before, behind, rfl, hlast⟩
    refine ⟨(.text key, v), ?_, rfl⟩
    rw [List.find?_eq_some_iff_append]
    refine ⟨by simp, behind.reverse, before.reverse, by simp, ?_⟩
    rintro ⟨k, w⟩ hw
    have hne : k ≠ .text key := by
      rintro rfl
      exact hlast w (List.mem_reverse.mp hw)
    simpa using hne

end Settings

/-- What a field holds: its default where no pair has the key of its setting, and otherwise what the
last pair with this key tells. -/
inductive SettingHolds {α : Type} (settings : Settings) (key : String) (default : α)
    (told : Value → Option α) (a : α) : Prop where
  | absent (none : ∀ v, (.text key, v) ∉ settings) (eq : a = default)
  | given {v : Value} (pair : LastPair settings key v) (tells : told v = some a)

/-- What is wrong with a setting: the last pair with its key tells nothing. -/
structure SettingFails {α : Type} (settings : Settings) (key : String) (told : Value → Option α)
    (v : Value) : Prop where
  pair : LastPair settings key v
  silent : told v = none

/-- The text that a value is. -/
def textTold : Value → Option String
  | .text s => some s
  | _ => none

/-- The truth value that a value is. -/
def truthTold : Value → Option Bool
  | .bool b => some b
  | _ => none

/-- The level that a value names. -/
def levelTold : Value → Option LogLevel
  | .text word => LogLevel.ofWord? word
  | _ => none

/-! ## 2. Reading a setting -/

/-- Reads a setting: nothing when it is absent, what its value tells, or else an error. -/
def readSetting {α : Type} (settings : Settings) (key : String) (told : Value → Option α)
    (wrong : Value → ConfigError) : Except ConfigError (Option α) :=
  match setting? settings key with
  | none => .ok none
  | some v => (told v).elim (.error (wrong v)) (.ok ∘ some)

/-- What is wrong with the level of a configuration: the value is no text, or it names none. -/
def levelError (label key : String) : Value → ConfigError
  | .text _ => .unknownLevel label key
  | _ => .notText label key

section Reading

variable {α : Type} {settings : Settings} {key label : String} {default a : α} {v : Value}
  {told : Value → Option α} {wrong : Value → ConfigError}

theorem text?_eq : text? label settings key
    = readSetting settings key textTold fun _ => .notText label key := by
  unfold text? readSetting
  cases setting? settings key with
  | none => rfl
  | some v => cases v <;> rfl

theorem truthValue?_eq : truthValue? label settings key
    = readSetting settings key truthTold fun _ => .notTruthValue label key := by
  unfold truthValue? readSetting
  cases setting? settings key with
  | none => rfl
  | some v => cases v <;> rfl

theorem level?_eq : level? label settings key
    = readSetting settings key levelTold (levelError label key) := by
  unfold level? text? readSetting
  cases setting? settings key with
  | none => rfl
  | some v =>
    cases v with
    | text word =>
      cases h : LogLevel.ofWord? word <;> simp [levelTold, levelError, h, bind, Except.bind]
    | _ => rfl

theorem SettingHolds.readSetting_eq (h : SettingHolds settings key default told a) :
    ∃ o, readSetting settings key told wrong = .ok o ∧ o.getD default = a := by
  unfold readSetting
  cases h with
  | absent hnone heq => exact ⟨none, by rw [setting?_eq_none_iff.mpr hnone], heq.symm⟩
  | given hpair htold =>
    refine ⟨some a, ?_, rfl⟩
    rw [setting?_eq_some_iff.mpr hpair]
    simp [htold]

theorem SettingFails.readSetting_eq (h : SettingFails settings key told v) :
    readSetting settings key told wrong = .error (wrong v) := by
  unfold readSetting
  rw [setting?_eq_some_iff.mpr h.pair]
  simp [h.silent]

/-- A setting is read and its field has a value, or something is wrong with it. -/
theorem readSetting_cases (settings : Settings) (key : String) (told : Value → Option α)
    (wrong : Value → ConfigError) (default : α) :
    (∃ o, readSetting settings key told wrong = .ok o
        ∧ SettingHolds settings key default told (o.getD default))
      ∨ ∃ v, readSetting settings key told wrong = .error (wrong v)
        ∧ SettingFails settings key told v := by
  unfold readSetting
  cases hsetting : setting? settings key with
  | none => exact .inl ⟨none, rfl, .absent (setting?_eq_none_iff.mp hsetting) rfl⟩
  | some v =>
    have hpair : LastPair settings key v := setting?_eq_some_iff.mp hsetting
    cases htold : told v with
    | some a => exact .inl ⟨some a, by simp [htold], .given hpair htold⟩
    | none => exact .inr ⟨v, by simp [htold], hpair, htold⟩

end Reading

/-! ## 3. Settings of a configuration -/

/-- What the field for the directory holds. -/
abbrev DirectoryHolds (settings : Settings) (directory : String) : Prop :=
  SettingHolds settings "source-directory" ({} : Config).sourceDirectory textTold directory

/-- What the field for strict reading holds. -/
abbrev StrictHolds (settings : Settings) (strict : Bool) : Prop :=
  SettingHolds settings "strict" ({} : Config).strict truthTold strict

/-- What the field for the level holds. -/
abbrev LevelHolds (settings : Settings) (level : LogLevel) : Prop :=
  SettingHolds settings "log-level" ({} : Config).logLevel levelTold level

/-- A configuration has the defaults where the settings are silent, and what they tell otherwise. -/
structure Reflects (settings : Settings) (c : Config) : Prop where
  directory : DirectoryHolds settings c.sourceDirectory
  strict : StrictHolds settings c.strict
  level : LevelHolds settings c.logLevel

/-- The error of some settings: the one about the first setting with which something is wrong. -/
inductive Rejects (label : String) (settings : Settings) : ConfigError → Prop where
  | directory {v : Value} (fails : SettingFails settings "source-directory" textTold v) :
      Rejects label settings (.notText label "source-directory")
  | strict {directory : String} {v : Value} (earlier : DirectoryHolds settings directory)
      (fails : SettingFails settings "strict" truthTold v) :
      Rejects label settings (.notTruthValue label "strict")
  | level {directory : String} {strict : Bool} {v : Value}
      (first : DirectoryHolds settings directory) (second : StrictHolds settings strict)
      (fails : SettingFails settings "log-level" levelTold v) :
      Rejects label settings (levelError label "log-level" v)

section Configurations

variable {label : String} {settings : Settings}

theorem ofSettings_eq : ofSettings label settings = (do
    let sourceDirectory ← readSetting settings "source-directory" textTold
      (fun _ => .notText label "source-directory")
    let strict ← readSetting settings "strict" truthTold (fun _ => .notTruthValue label "strict")
    let logLevel ← readSetting settings "log-level" levelTold (levelError label "log-level")
    .ok
      { sourceDirectory := sourceDirectory.getD ({} : Config).sourceDirectory
        strict := strict.getD ({} : Config).strict
        logLevel := logLevel.getD ({} : Config).logLevel }) := by
  unfold ofSettings
  rw [text?_eq, truthValue?_eq, level?_eq]

/-- Settings make a configuration that reflects them, or they are rejected. -/
theorem ofSettings_cases (label : String) (settings : Settings) :
    (∃ c, ofSettings label settings = .ok c ∧ Reflects settings c)
      ∨ ∃ e, ofSettings label settings = .error e ∧ Rejects label settings e := by
  rw [ofSettings_eq]
  rcases readSetting_cases settings "source-directory" textTold
      (fun _ => .notText label "source-directory") ({} : Config).sourceDirectory with
    ⟨directory, hdirectory, hfirst⟩ | ⟨v, hwrong, hfails⟩
  · rw [hdirectory]
    rcases readSetting_cases settings "strict" truthTold
        (fun _ => .notTruthValue label "strict") ({} : Config).strict with
      ⟨strict, hstrict, hsecond⟩ | ⟨v, hwrong, hfails⟩
    · rw [hstrict]
      rcases readSetting_cases settings "log-level" levelTold (levelError label "log-level")
          ({} : Config).logLevel with
        ⟨level, hlevel, hthird⟩ | ⟨v, hwrong, hfails⟩
      · rw [hlevel]
        exact .inl ⟨_, rfl, hfirst, hsecond, hthird⟩
      · rw [hwrong]
        exact .inr ⟨_, rfl, .level hfirst hsecond hfails⟩
    · rw [hwrong]
      exact .inr ⟨_, rfl, .strict hfirst hfails⟩
  · rw [hwrong]
    exact .inr ⟨_, rfl, .directory hfails⟩

theorem Reflects.ofSettings_eq {c : Config} (h : Reflects settings c) :
    ofSettings label settings = .ok c := by
  obtain ⟨directory, hdirectory, hfirst⟩ := h.directory.readSetting_eq
  obtain ⟨strict, hstrict, hsecond⟩ := h.strict.readSetting_eq
  obtain ⟨level, hlevel, hthird⟩ := h.level.readSetting_eq
  rw [Config.ofSettings_eq, hdirectory, hstrict, hlevel]
  simp only [bind, Except.bind, hfirst, hsecond, hthird]

theorem Rejects.ofSettings_eq {e : ConfigError} (h : Rejects label settings e) :
    ofSettings label settings = .error e := by
  rw [Config.ofSettings_eq]
  cases h with
  | directory fails =>
    rw [fails.readSetting_eq]
    rfl
  | strict first fails =>
    obtain ⟨directory, hdirectory, _⟩ := first.readSetting_eq
    rw [hdirectory, fails.readSetting_eq]
    rfl
  | level first second fails =>
    obtain ⟨directory, hdirectory, _⟩ := first.readSetting_eq
    obtain ⟨strict, hstrict, _⟩ := second.readSetting_eq
    rw [hdirectory, hstrict, fails.readSetting_eq]
    rfl

end Configurations

/-! ## 4. Texts -/

/-- What reading a configuration ends with.  `value` is the only end without an error of a
configuration: the text is well-formed so far as it was read, and the value of a node cannot be
told. -/
inductive Outcome (label text : String) : Except ConfigFault Config → Prop where
  | empty {pairs : Settings} (document : Yaml.load text.toList = .ok (.null, pairs)) :
      Outcome label text (.ok {})
  | settings {settings : Settings} {c : Config}
      (document : Yaml.load text.toList = .ok (.mapping, settings))
      (reflects : Reflects settings c) : Outcome label text (.ok c)
  | malformed (document : Yaml.load text.toList = .error .malformed) :
      Outcome label text (.error (.error (.malformed label)))
  | notMapping {v : Value} {pairs : Settings} (document : Yaml.load text.toList = .ok (v, pairs))
      (filled : v ≠ .null) (other : v ≠ .mapping) :
      Outcome label text (.error (.error (.notMapping label)))
  | rejected {settings : Settings} {e : ConfigError}
      (document : Yaml.load text.toList = .ok (.mapping, settings))
      (rejects : Rejects label settings e) : Outcome label text (.error (.error e))
  | value {f : Fault} (document : Yaml.load text.toList = .error f) (other : f ≠ .malformed)
      (origin : Yaml.LoadFault text.toList f) : Outcome label text (.error (.value f))

section Parse

variable {label text : String}

/-- Reading ends in one of the ways. -/
theorem parse_outcome (label text : String) : Outcome label text (parse label text) := by
  unfold parse
  split
  · next hload => exact .malformed hload
  · next f hother hload => exact .value hload hother ((Yaml.load_ends _).fault hload)
  · next pairs hload => exact .empty hload
  · next settings hload =>
    rcases ofSettings_cases label settings with ⟨c, hc, hreflects⟩ | ⟨e, he, hrejects⟩
    · rw [hc]
      exact .settings hload hreflects
    · rw [he]
      exact .rejected hload hrejects
  · next r hnull hmapping hload =>
    obtain ⟨v, pairs⟩ := r
    exact .notMapping hload (fun h => hnull pairs (by rw [h])) fun h => hmapping pairs (by rw [h])

/-- The ways exclude each other. -/
theorem Outcome.parse_eq {r : Except ConfigFault Config} (h : Outcome label text r) :
    parse label text = r := by
  unfold parse
  cases h with
  | empty document => rw [document]
  | settings document reflects =>
    rw [document]
    dsimp only
    rw [reflects.ofSettings_eq]
    rfl
  | malformed document => rw [document]
  | notMapping document filled other =>
    rw [document]
    split
    · next heq => cases heq
    · next heq => cases heq
    · next heq =>
      cases heq
      exact absurd rfl filled
    · next heq =>
      cases heq
      exact absurd rfl other
    · rfl
  | rejected document rejects =>
    rw [document]
    dsimp only
    rw [rejects.ofSettings_eq]
    rfl
  | value document other _ =>
    rw [document]
    split
    · next heq =>
      cases heq
      exact absurd rfl other
    · next heq =>
      cases heq
      rfl
    · next heq => cases heq
    · next heq => cases heq
    · next heq => cases heq

/-- **A configuration is read, or rejected with an error, unless a value cannot be told.**  What
reading a text ends with is determined: the configuration that reflects the settings, the error
about the first setting with which something is wrong, or, without an error of a configuration, the
fault of a text whose values cannot be told, and then the text or one of its nodes shows it.  So
there is a configuration or an error of one just if the values of the text are told, or their text
breaks the rules of the language.  To ignore a key does not help: with a configuration, every scalar
of the document has a value. -/
theorem parse_documented_iff (label text : String) :
    (((∃ c, parse label text = .ok c) ∨ ∃ e, parse label text = .error (.error e))
        ↔ ∀ f, Yaml.load text.toList = .error f → f = .malformed)
      ∧ (∀ r, parse label text = r ↔ Outcome label text r)
      ∧ ∀ c, parse label text = .ok c →
        Spelled.spell c.logLevel ∈ LogLevel.names ∧ Yaml.EveryScalarTold text.toList := by
  refine ⟨?_, fun r => ⟨?_, Outcome.parse_eq⟩, ?_⟩
  · constructor
    · intro hread f hf
      by_contra hother
      have hvalue : parse label text = .error (.value f) :=
        Outcome.parse_eq (.value hf hother ((Yaml.load_ends _).fault hf))
      rcases hread with ⟨c, hc⟩ | ⟨e, he⟩
      · rw [hvalue] at hc
        cases hc
      · rw [hvalue] at he
        cases he
    · intro hwell
      have houtcome := parse_outcome label text
      generalize parse label text = r at houtcome
      cases houtcome with
      | empty => exact .inl ⟨_, rfl⟩
      | settings => exact .inl ⟨_, rfl⟩
      | malformed => exact .inr ⟨_, rfl⟩
      | notMapping => exact .inr ⟨_, rfl⟩
      | rejected => exact .inr ⟨_, rfl⟩
      | value document other => exact absurd (hwell _ document) other
  · rintro rfl
    exact parse_outcome label text
  · intro c hc
    refine ⟨List.mem_map_of_mem (List.mem_of_find?_eq_some (Spelled.find_spell c.logLevel)), ?_⟩
    have houtcome := parse_outcome label text
    rw [hc] at houtcome
    cases houtcome with
    | empty document => exact Yaml.everyScalarTold_of_load document
    | settings document => exact Yaml.everyScalarTold_of_load document

/-- **A date in the thirteenth month has no error of a configuration**, not even under a key that is
ignored. -/
theorem parse_undocumented : ¬ ∀ label text : String,
    (∃ c, parse label text = .ok c) ∨ ∃ e, parse label text = .error (.error e) := by
  intro h
  have hvalue : (match parse "<string>" "x: 2020-13-01" with
      | .error (.value _) => true
      | _ => false) = true := by decide +kernel
  rcases h "<string>" "x: 2020-13-01" with ⟨c, hc⟩ | ⟨e, he⟩
  · rw [hc] at hvalue
    cases hvalue
  · rw [he] at hvalue
    cases hvalue

end Parse

end ContextAtlas.Config
