/-
# A printed value is read back

Whatever layout a value is printed in, the reader gives back the value and stops behind it.  The
reader limits how deep containers nest and has several ways to write one number, so the values
here are those without numbers whose containers nest within a bound.

* `Fits`: a value without numbers whose containers nest at most so many levels deep.
* `readText_escaped`: a text between its quotes is read back, whatever characters it holds.
* `readValue_renderAt`: a printed value is read back, at any depth and with anything behind it.
* `parse?_render`: a printed value as a whole text.
-/
import ContextAtlas.Json.Printer
import ContextAtlas.Json.Reader

namespace ContextAtlas.Json

/-! ## 1. Values that fit -/

/-- A value without numbers whose containers nest at most `levels` levels deep. -/
inductive Fits : Nat → Json → Prop where
  | null {levels : Nat} : Fits levels null
  | bool {levels : Nat} (b : Bool) : Fits levels (bool b)
  | string {levels : Nat} (s : String) : Fits levels (string s)
  | array {levels : Nat} {items : List Json} (h : ∀ v ∈ items, Fits levels v) :
    Fits (levels + 1) (array items)
  | object {levels : Nat} {fields : List (String × Json)} (h : ∀ f ∈ fields, Fits levels f.2) :
    Fits (levels + 1) (object fields)

theorem Fits.mono {m n : Nat} {v : Json} (h : Fits m v) (hmn : m ≤ n) : Fits n v := by
  induction h generalizing n with
  | null => exact .null
  | bool b => exact .bool b
  | string s => exact .string s
  | array _ ih =>
    obtain ⟨k, rfl⟩ : ∃ k, n = k + 1 := ⟨n - 1, by omega⟩
    exact .array fun v hv => ih v hv (by omega)
  | object _ ih =>
    obtain ⟨k, rfl⟩ : ∃ k, n = k + 1 := ⟨n - 1, by omega⟩
    exact .object fun f hf => ih f hf (by omega)

/-! ## 2. Texts -/

theorem hexValue?_hexDigit {n : Nat} (h : n < 16) : hexValue? (hexDigit n) = some n := by
  have all : ∀ k : Fin 16, hexValue? (hexDigit k) = some k.val := by decide
  exact all ⟨n, h⟩

/-- A control character is escaped by its code point. -/
theorem hexQuad?_control {n : Nat} (h : n < 32) :
    hexQuad? '0' '0' (hexDigit (n / 16)) (hexDigit (n % 16)) = some n := by
  have zero : hexValue? '0' = some 0 := rfl
  simp only [hexQuad?, zero, hexValue?_hexDigit (show n / 16 < 16 by omega),
    hexValue?_hexDigit (show n % 16 < 16 by omega), Option.bind_eq_bind, Option.bind_some]
  congr 1
  omega

/-- A character is read back from its escape. -/
theorem readText_escapeChar (c : Char) (text : List Char) :
    readText (escapeChar c ++ text) = consText c (readText text) := by
  fun_cases escapeChar c
  case case8 h =>
    have scalar : scalar? c.toNat = some c := by
      simp [scalar?, show ¬ 0xD800 ≤ c.toNat by omega, Char.ofNat_toNat]
    simp [readText, hexQuad?_control h, scalar]
  case case9 quote backslash _ _ _ _ _ control =>
    simp only [List.cons_append, List.nil_append]
    rw [readText]
    · simp [quote, backslash, control]
    · simp [backslash]
    · simp [backslash]
  all_goals
    subst_vars
    simp [readText, shortEscape?]

/-- A text is read back from between its quotes. -/
theorem readText_escaped (content rest : List Char) :
    readText (content.flatMap escapeChar ++ '"' :: rest) = some (content, rest) := by
  induction content with
  | nil => simp [readText]
  | cons c content ih => simp [readText_escapeChar, ih, consText]

/-! ## 3. Blanks -/

section

variable {layout : Layout} {depth : Nat} {gap text : List Char}

@[simp] theorem afterGap_nil : afterGap [] = [] := rfl

theorem afterGap_append (h : ∀ c ∈ gap, isGap c) : afterGap (gap ++ text) = afterGap text :=
  List.dropWhile_append_of_pos h

theorem afterGap_cons {c : Char} (h : isGap c = false) : afterGap (c :: text) = c :: text := by
  simp [afterGap, h]

/-- What stands at a line break is blank. -/
theorem isGap_of_mem_lineBreak {c : Char} (h : c ∈ layout.lineBreak depth) : isGap c := by
  cases layout with
  | compact => simp [Layout.lineBreak] at h
  | indented width =>
    simp only [Layout.lineBreak, List.mem_cons, List.mem_replicate] at h
    rcases h with rfl | ⟨-, rfl⟩ <;> rfl

@[simp] theorem afterGap_lineBreak :
    afterGap (layout.lineBreak depth ++ text) = afterGap text :=
  afterGap_append fun _ => isGap_of_mem_lineBreak

/-- Behind the name of a field comes the colon, and behind the colon at most blanks. -/
theorem exists_colon (layout : Layout) (text : List Char) :
    ∃ tail, layout.colon ++ text = ':' :: tail ∧ afterGap tail = afterGap text := by
  cases layout with
  | compact => exact ⟨text, rfl, rfl⟩
  | indented _ => exact ⟨' ' :: text, rfl, by simp [afterGap, isGap]⟩

/-- A printed value begins with a character that is no blank and closes no container. -/
theorem Fits.exists_head {levels : Nat} {v : Json} (h : Fits levels v) (layout : Layout)
    (depth : Nat) :
    ∃ c tail, renderAt layout depth v = c :: tail ∧ isGap c = false ∧ c ≠ ']' ∧ c ≠ '}' := by
  cases h with
  | null => exact ⟨'n', _, rfl, by decide⟩
  | bool b => cases b <;> exact ⟨_, _, rfl, by decide⟩
  | string s => exact ⟨'"', _, rfl, by decide⟩
  | @array _ items => cases items <;> exact ⟨'[', _, by simp only [renderAt]; rfl, by decide⟩
  | @object _ fields => cases fields <;> exact ⟨'{', _, by simp only [renderAt]; rfl, by decide⟩

theorem Fits.afterGap_renderAt {levels : Nat} {v : Json} (h : Fits levels v) :
    afterGap (renderAt layout depth v ++ text) = renderAt layout depth v ++ text := by
  obtain ⟨c, tail, hv, hc, -⟩ := h.exists_head layout depth
  rw [hv, List.cons_append, afterGap_cons hc]

end

/-! ## 4. Containers -/

section

variable {layout : Layout} {depth levels : Nat} {item : List Char → Option (Json × List Char)}

/-- The items of an array are read back one by one. -/
theorem readItems_renderItems (v : Json) (items : List Json) (gap rest : List Char)
    (hfits : ∀ w ∈ v :: items, Fits levels w)
    (hitem : ∀ w ∈ v :: items, ∀ rest, item (renderAt layout depth w ++ rest) = some (w, rest))
    (hgap : ∀ c ∈ gap, isGap c) :
    readItems item (gap ++ renderAt layout depth v ++ renderItems layout depth items
      ++ layout.lineBreak (depth - 1) ++ ']' :: rest) = some (v :: items, rest) := by
  have first (tail : List Char) :
      item (afterGap (gap ++ (renderAt layout depth v ++ tail))) = some (v, tail) := by
    rw [afterGap_append hgap, (hfits v (by simp)).afterGap_renderAt, hitem v (by simp)]
  cases items with
  | nil =>
    rw [readItems]
    simp [renderItems, first, afterGap_cons, isGap]
  | cons w items =>
    have next := readItems_renderItems w items (layout.lineBreak depth) rest
      (fun u hu => hfits u (List.mem_cons_of_mem _ hu))
      (fun u hu => hitem u (List.mem_cons_of_mem _ hu)) fun _ => isGap_of_mem_lineBreak
    rw [readItems]
    simp only [List.append_assoc] at next
    simp [renderItems, first, afterGap_cons, isGap, next]
    omega

/-- One field is read back. -/
theorem readField_render (key : String) (v : Json) (gap rest : List Char) (hfits : Fits levels v)
    (hitem : ∀ rest, item (renderAt layout depth v ++ rest) = some (v, rest))
    (hgap : ∀ c ∈ gap, isGap c) :
    readField item (gap ++ renderText key ++ layout.colon ++ renderAt layout depth v ++ rest)
      = some ((key, v), rest) := by
  obtain ⟨tail, hcolon, htail⟩ := exists_colon layout (renderAt layout depth v ++ rest)
  simp [readField, renderText, afterGap_append hgap, afterGap_cons, isGap, readText_escaped,
    hcolon, htail, hfits.afterGap_renderAt, hitem]

/-- The fields of an object are read back one by one. -/
theorem readFields_renderFields (key : String) (v : Json) (fields : List (String × Json))
    (gap rest : List Char) (hfits : ∀ f ∈ (key, v) :: fields, Fits levels f.2)
    (hitem : ∀ f ∈ (key, v) :: fields, ∀ rest,
      item (renderAt layout depth f.2 ++ rest) = some (f.2, rest))
    (hgap : ∀ c ∈ gap, isGap c) :
    readFields item (gap ++ renderText key ++ layout.colon ++ renderAt layout depth v
      ++ renderFields layout depth fields ++ layout.lineBreak (depth - 1) ++ '}' :: rest)
      = some ((key, v) :: fields, rest) := by
  have first (tail : List Char) :=
    readField_render key v gap tail (hfits _ List.mem_cons_self) (hitem _ List.mem_cons_self) hgap
  simp only [List.append_assoc] at first
  cases fields with
  | nil =>
    rw [readFields]
    simp [renderFields, first, afterGap_cons, isGap]
  | cons f fields =>
    obtain ⟨k, w⟩ := f
    have next := readFields_renderFields k w fields (layout.lineBreak depth) rest
      (fun g hg => hfits g (List.mem_cons_of_mem _ hg))
      (fun g hg => hitem g (List.mem_cons_of_mem _ hg)) fun _ => isGap_of_mem_lineBreak
    rw [readFields]
    simp only [List.append_assoc] at next
    simp [renderFields, first, afterGap_cons, isGap, next]
    omega

end

/-! ## 5. Values -/

/-- **A printed value is read back, at any depth and with anything behind it.** -/
theorem readValue_renderAt {levels : Nat} {v : Json} (h : Fits levels v) (layout : Layout)
    (depth : Nat) (rest : List Char) :
    readValue levels (renderAt layout depth v ++ rest) = some (v, rest) := by
  induction h generalizing depth rest with
  | null => simp [renderAt, readValue, readLeaf, afterWord?]
  | bool b => cases b <;> simp [renderAt, readValue, readLeaf, afterWord?]
  | string s => simp [renderAt, renderText, readValue, readLeaf, readText_escaped]
  | @array levels items hitems ih =>
    cases items with
    | nil => simp [renderAt, readValue, afterGap_cons, isGap]
    | cons v items =>
      have inner := readItems_renderItems v items [] rest hitems
        (fun w hw => ih w hw (depth + 1)) (by simp)
      obtain ⟨c, tail, hc, hgap, hclose, -⟩ :=
        (hitems v List.mem_cons_self).exists_head layout (depth + 1)
      simp only [hc, List.nil_append, List.cons_append, List.append_assoc,
        Nat.add_sub_cancel] at inner
      simp [renderAt, readValue, hc, afterGap_cons hgap, hclose, inner]
  | @object levels fields hfields ih =>
    cases fields with
    | nil => simp [renderAt, readValue, afterGap_cons, isGap]
    | cons f fields =>
      obtain ⟨key, v⟩ := f
      have inner := readFields_renderFields key v fields [] rest hfields
        (fun f hf => ih f hf (depth + 1)) (by simp)
      simp only [renderText, List.nil_append, List.cons_append, List.append_assoc,
        Nat.add_sub_cancel] at inner
      simp [renderAt, readValue, renderText, afterGap_cons, isGap, inner]

/-- **A value that nests no deeper than the reader allows is read back from its text, whatever the
layout of the text.** -/
theorem parse?_render {v : Json} (h : Fits maxDepth v) (layout : Layout) :
    parse? (render layout v) = some v := by
  have read := readValue_renderAt h layout 0 []
  have gap : afterGap (renderAt layout 0 v ++ []) = renderAt layout 0 v ++ [] :=
    h.afterGap_renderAt
  simp only [List.append_nil] at read gap
  simp [parse?, render, gap, read]

end ContextAtlas.Json
