/-
# Written settings are read

Settings stand one behind the other, and nothing separates them: no line end, no mark.  A list of
values ends where no comma follows, and what follows is the key of the next setting.

* `Entry`, `Written`: a value and a setting as they are written, with their tokens;
* `Written.commaRun_valueTokens`: the values of a setting are read up to its end;
* `occurrences_written`: the settings of a key are found in order, each with its values;
* `ReadFrom`, `ReadAlike`: what every reader gives, said of the values that a key has, and that it
  gives the same for other tokens;
* `readFrom_written`: written settings are read so, and settings with other keys make no difference.

A value that is a word and reads like the key would be taken for the key of a setting, so the key is
no such value.
-/
import ContextAtlas.Model
import ContextAtlas.Setting
import Mathlib.Data.List.Basic

namespace ContextAtlas.Setting

/-! ## 1. Written settings -/

/-- A value of a setting as it is written, with an optional sigil in front. -/
structure Entry where
  sigil : Option Token
  value : Token
  sigil_is : ∀ t ∈ sigil, t.is .sigil = true
  isValue : value.isValue = true

/-- A setting as it is written: its key, an optional equals sign, a value, and further values, each
behind a comma. -/
structure Written where
  key : String
  word : Token
  equals : Option Token
  first : Entry
  more : List (Token × Entry)
  word_is : word.isWord key = true
  equals_is : ∀ t ∈ equals, t.is .equals = true
  commas : ∀ x ∈ more, x.1.is .comma = true

/-- The tokens of a value. -/
def Entry.tokens (e : Entry) : List Token := e.sigil.toList ++ [e.value]

namespace Written

/-- The values of a setting. -/
def values (s : Written) : List Token := s.first.value :: s.more.map (·.2.value)

/-- The values of a setting, wherever they stand. -/
def lexemes (s : Written) : List Lexeme := s.values.map Token.lexeme

/-- The tokens of the values, with the commas between them. -/
def valueTokens (s : Written) : List Token :=
  s.first.tokens ++ s.more.flatMap fun x => x.1 :: x.2.tokens

/-- The tokens of a setting. -/
def tokens (s : Written) : List Token := s.word :: (s.equals.toList ++ s.valueTokens)

end Written

/-! ## 2. One setting -/

section

variable {key : String} {t : Token} {run rest : List Token}

theorem Entry.value_not_is (e : Entry) (m : Mark) : e.value.is m = false := by
  have h := e.isValue
  rw [← Bool.not_eq_true]
  intro hm
  simp [Token.isValue, Token.lexeme_of_is hm] at h

theorem Entry.value?_value (e : Entry) : value? e.value = some e.value := if_pos e.isValue

/-- A sigil in front of a value is passed over. -/
theorem Entry.commaRun_tokens (e : Entry) (rest : List Token) :
    commaRun value? (e.tokens ++ rest) = commaRun value? (e.value :: rest) := by
  rw [tokens]
  rcases hs : e.sigil with _ | s
  · rfl
  · exact commaRun_of_sigil (e.sigil_is s hs)

/-- The values of a setting are read up to its end, unless a comma stands behind it. -/
theorem commaRun_entries (hrest : ∀ t ∈ rest.head?, t.is .comma = false) :
    ∀ {first : Entry} {more : List (Token × Entry)}, (∀ x ∈ more, x.1.is .comma = true) →
      commaRun value? (first.tokens ++ (more.flatMap fun x => x.1 :: x.2.tokens) ++ rest)
        = (first.value :: more.map (·.2.value), rest)
  | first, [], _ => by
    rw [List.flatMap_nil, List.append_nil, first.commaRun_tokens]
    refine commaRun_of_last (first.value_not_is .sigil) first.value?_value ?_
    rintro u r rfl
    exact hrest u rfl
  | first, (c, e) :: more, hcommas => by
    have hmore : commaRun value? (e.tokens ++ (more.flatMap fun x => x.1 :: x.2.tokens) ++ rest)
        = (e.value :: more.map (·.2.value), rest) :=
      commaRun_entries hrest fun x hx => hcommas x (List.mem_cons_of_mem (c, e) hx)
    rw [List.flatMap_cons, List.append_assoc, first.commaRun_tokens, List.append_assoc,
      List.cons_append, commaRun_of_comma (first.value_not_is .sigil) first.value?_value
        (hcommas (c, e) List.mem_cons_self), ← List.append_assoc, hmore]
    rfl

theorem Written.commaRun_valueTokens (s : Written) (hrest : ∀ t ∈ rest.head?, t.is .comma = false) :
    commaRun value? (s.valueTokens ++ rest) = (s.values, rest) :=
  commaRun_entries hrest s.commas

/-- A value does not start with an equals sign, so where none is written none is passed over. -/
theorem Entry.head?_tokens (e : Entry) : ∀ t ∈ e.tokens.head?, t.is .equals = false := by
  rw [tokens]
  rcases hs : e.sigil with _ | s
  · rintro t ht
    obtain rfl := Option.some.inj ht
    exact e.value_not_is .equals
  · rintro t ht
    obtain rfl := Option.some.inj ht
    exact not_is_of_is (e.sigil_is _ hs) (by decide)

theorem Written.afterEquals_tokens (s : Written) (rest : List Token) :
    afterEquals (s.equals.toList ++ (s.valueTokens ++ rest)) = s.valueTokens ++ rest := by
  rcases he : s.equals with _ | e
  · have hfirst := s.first.head?_tokens
    rcases htokens : s.first.tokens with _ | ⟨t, r⟩
    · simp [Entry.tokens] at htokens
    · rw [htokens] at hfirst
      have ht : t.is .equals = false := hfirst t rfl
      simp [Written.valueTokens, htokens, afterEquals, ht]
  · simp [afterEquals, s.equals_is e he]

theorem isWord_of_is {m : Mark} (h : t.is m = true) : t.isWord key = false := by
  simp [Token.isWord, Token.lexeme_of_is h]

/-- The key of a setting is looked for behind tokens that do not read like it. -/
theorem occurrences_append : ∀ {run : List Token}, (∀ t ∈ run, t.isWord key = false) →
    occurrences key (run ++ rest) = occurrences key rest
  | [], _ => rfl
  | t :: r, h => by
    rw [List.cons_append, occurrences, h t List.mem_cons_self, if_neg Bool.false_ne_true]
    exact occurrences_append fun u hu => h u (List.mem_cons_of_mem t hu)

/-- Behind its key a setting holds the key only where a value reads like it. -/
theorem Written.isWord_of_mem_tail (s : Written) (hvalues : ∀ v ∈ s.values, v.isWord key = false) :
    ∀ t ∈ s.equals.toList ++ s.valueTokens, t.isWord key = false := by
  have hentry : ∀ e : Entry, e.value ∈ s.values → ∀ t ∈ e.tokens, t.isWord key = false := by
    intro e he t ht
    rw [Entry.tokens, List.mem_append, Option.mem_toList, List.mem_singleton] at ht
    rcases ht with ht | rfl
    · exact isWord_of_is (e.sigil_is t ht)
    · exact hvalues _ he
  intro t ht
  rw [List.mem_append, Option.mem_toList, valueTokens, List.mem_append, List.mem_flatMap] at ht
  rcases ht with ht | ht | ⟨x, hx, ht⟩
  · exact isWord_of_is (s.equals_is t ht)
  · exact hentry s.first List.mem_cons_self t ht
  · rcases List.mem_cons.mp ht with rfl | ht
    · exact isWord_of_is (s.commas x hx)
    · exact hentry x.2 (List.mem_cons_of_mem _ (List.mem_map_of_mem hx)) t ht

/-- A setting gives its values to its own key, and nothing to any other. -/
theorem Written.occurrences_tokens (s : Written) (hvalues : ∀ v ∈ s.values, v.isWord key = false)
    (hrest : ∀ t ∈ rest.head?, t.is .comma = false) :
    occurrences key (s.tokens ++ rest)
      = (if s.key = key then [s.values] else []) ++ occurrences key rest := by
  have hword : s.word.lexeme = .word s.key := by simpa [Token.isWord] using s.word_is
  have htail : occurrences key (s.equals.toList ++ (s.valueTokens ++ rest))
      = occurrences key rest := by
    rw [← List.append_assoc]
    exact occurrences_append (s.isWord_of_mem_tail hvalues)
  rw [tokens, List.cons_append, List.append_assoc, occurrences, s.afterEquals_tokens,
    s.commaRun_valueTokens hrest, htail]
  by_cases hkey : s.key = key
  · rw [if_pos (by simp [Token.isWord, hword, hkey]), if_pos hkey]
    rfl
  · rw [if_neg (by simp [Token.isWord, hword, hkey]), if_neg hkey, List.nil_append]

end

/-! ## 3. Many settings -/

section

variable {key : String} {settings settings' : List Written}

/-- A setting does not start with a comma. -/
theorem head?_flatMap_tokens (settings : List Written) :
    ∀ t ∈ (settings.flatMap Written.tokens).head?, t.is .comma = false := by
  cases settings with
  | nil => simp
  | cons s settings =>
    intro t ht
    obtain rfl := Option.some.inj ht
    have hword : s.word.lexeme = .word s.key := by simpa [Token.isWord] using s.word_is
    simp [Token.is, hword]

/-- **The settings of a key are found in order, each with its values.** -/
theorem occurrences_written : ∀ {settings : List Written},
    (∀ s ∈ settings, ∀ v ∈ s.values, v.isWord key = false) →
    occurrences key (settings.flatMap Written.tokens)
      = (settings.filter (·.key = key)).map Written.values
  | [], _ => rfl
  | s :: settings, h => by
    have ih : occurrences key (settings.flatMap Written.tokens)
        = (settings.filter (·.key = key)).map Written.values :=
      occurrences_written fun s' hs' => h s' (List.mem_cons_of_mem s hs')
    rw [List.flatMap_cons, s.occurrences_tokens (h s List.mem_cons_self)
      (head?_flatMap_tokens settings), ih, List.filter_cons]
    by_cases hkey : s.key = key
    · simp [hkey]
    · simp [hkey]

end

/-! ## 4. The readers -/

/-- What every reader gives for a key, said of the lists of values that it has. -/
structure ReadFrom (key : String) (ts : List Token) (found : List (List Token)) : Prop where
  occurrences_eq : occurrences key ts = found
  values_eq : values key ts = found.flatten.map Token.value
  strings_eq : strings key ts = found.flatten.filterMap Token.string?
  string?_eq : string? key ts = found.flatten.findSome? Token.string?
  first?_eq : first? key ts = found.flatten.head?.map Token.value
  member?_eq : ∀ (α : Type) [Spelled α],
    member? α key ts = found.flatten.findSome? fun t => Spelled.read? t.value

/-- Whether every reader gives the same for a key, whatever the places of the values are. -/
structure ReadAlike (key : String) (ts us : List Token) : Prop where
  occurrences_eq : (occurrences key ts).map (List.map Token.lexeme)
    = (occurrences key us).map (List.map Token.lexeme)
  values_eq : values key ts = values key us
  strings_eq : strings key ts = strings key us
  string?_eq : string? key ts = string? key us
  first?_eq : first? key ts = first? key us
  member?_eq : ∀ (α : Type) [Spelled α], member? α key ts = member? α key us

section

variable {key : String} {ts us : List Token}

/-- The readers look at the lexemes of the values only. -/
theorem ReadAlike.of_lexemes (h : (occurrences key ts).map (List.map Token.lexeme)
    = (occurrences key us).map (List.map Token.lexeme)) : ReadAlike key ts us := by
  have hflatten : (occurrences key ts).flatten.map Token.lexeme
      = (occurrences key us).flatten.map Token.lexeme := by
    rw [List.map_flatten, List.map_flatten, h]
  have hvalue : Token.value = Lexeme.value ∘ Token.lexeme := rfl
  have hstring : Token.string? = (fun x => Token.string? ⟨x, .start⟩) ∘ Token.lexeme := rfl
  refine ⟨h, ?_, ?_, ?_, ?_, fun α _ => ?_⟩
  · rw [values, values, hvalue, ← List.map_map, ← List.map_map, hflatten]
  · rw [strings, strings, hstring, ← List.filterMap_map, ← List.filterMap_map, hflatten]
  · rw [string?, string?, hstring, ← List.findSome?_map, ← List.findSome?_map, hflatten]
  · rw [first?, first?, hvalue, ← List.head?_map, ← List.head?_map, ← List.map_map,
      ← List.map_map, hflatten]
  · have hmember : (fun t : Token => (Spelled.read? t.value : Option α))
        = (fun x : Lexeme => Spelled.read? x.value) ∘ Token.lexeme := rfl
    rw [member?, member?, hmember, ← List.findSome?_map, ← List.findSome?_map, hflatten]

/-- **Written settings are read independently of each other.**  Every reader gives for a key what
its own settings say, in order; other settings may be added, taken away or moved between them. -/
theorem readFrom_written {settings : List Written}
    (hkey : ∀ s ∈ settings, ∀ v ∈ s.values, v.isWord key = false) :
    ReadFrom key (settings.flatMap Written.tokens)
        ((settings.filter (·.key = key)).map Written.values)
      ∧ ∀ settings' : List Written, (∀ s ∈ settings', ∀ v ∈ s.values, v.isWord key = false) →
        (settings'.filter (·.key = key)).map Written.lexemes
          = (settings.filter (·.key = key)).map Written.lexemes →
        ReadAlike key (settings'.flatMap Written.tokens) (settings.flatMap Written.tokens) := by
  have hfound := occurrences_written hkey
  refine ⟨⟨hfound, ?_, ?_, ?_, ?_, fun α _ => ?_⟩, fun settings' hkey' hsame => ?_⟩
  · rw [values, hfound]
  · rw [strings, hfound]
  · rw [string?, hfound]
  · rw [first?, hfound]
  · rw [member?, hfound]
  · refine ReadAlike.of_lexemes ?_
    rw [hfound, occurrences_written hkey', List.map_map, List.map_map]
    exact hsame

end

/-- `type = SOON, "FEATURE"`, `tags @B, 3` and `type @SYSTEM`, all at one place. -/
def sampleSettings : List Written :=
  [{ key := "type"
     word := ⟨.word "type", .start⟩
     equals := some ⟨.mark .equals, .start⟩
     first := ⟨none, ⟨.word "SOON", .start⟩, nofun, rfl⟩
     more := [(⟨.mark .comma, .start⟩, ⟨none, ⟨.string "FEATURE", .start⟩, nofun, rfl⟩)]
     word_is := rfl
     equals_is := by decide
     commas := by simp [Token.is] },
   { key := "tags"
     word := ⟨.word "tags", .start⟩
     equals := none
     first := ⟨some ⟨.mark .sigil, .start⟩, ⟨.word "B", .start⟩, by decide, rfl⟩
     more := [(⟨.mark .comma, .start⟩, ⟨none, ⟨.number "3", .start⟩, nofun, rfl⟩)]
     word_is := rfl
     equals_is := nofun
     commas := by simp [Token.is] },
   { key := "type"
     word := ⟨.word "type", .start⟩
     equals := none
     first := ⟨some ⟨.mark .sigil, .start⟩, ⟨.word "SYSTEM", .start⟩, by decide, rfl⟩
     more := []
     word_is := rfl
     equals_is := nofun
     commas := by simp }]

/-- A key that is stated twice has the values of both places, and the first of them that names a
member counts.  Nothing changes without the setting between them. -/
theorem readFrom_sampleSettings :
    values "type" (sampleSettings.flatMap Written.tokens) = ["SOON", "FEATURE", "SYSTEM"]
      ∧ string? "type" (sampleSettings.flatMap Written.tokens) = some "FEATURE"
      ∧ member? BoundedContextType "type" (sampleSettings.flatMap Written.tokens) = some .feature
      ∧ ReadAlike "type" ((sampleSettings.eraseIdx 1).flatMap Written.tokens)
        (sampleSettings.flatMap Written.tokens) := by
  have hkey : ∀ s ∈ sampleSettings, ∀ v ∈ s.values, v.isWord "type" = false := by decide
  have ⟨hread, halike⟩ := readFrom_written hkey
  refine ⟨hread.values_eq, hread.string?_eq, hread.member?_eq BoundedContextType, ?_⟩
  exact halike (sampleSettings.eraseIdx 1) (by decide) (by decide)

end ContextAtlas.Setting
