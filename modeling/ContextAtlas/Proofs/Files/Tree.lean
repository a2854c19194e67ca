/-
# What is found below a path

A search below a path goes over everything that stands below it: it finds each location once, in the
order of the names on the way, and nothing else.

* `mem_locations`: the locations of a tree are those that something stands at;
* `mem_findBelow`: what is found stands below the path, and its own name has the ending;
* `pairwise_findBelow`: it is found in strict order, so nothing is found twice;
* `HasFileNames.not_unusable`: its path is one that a file can have, if the names in the tree are.
-/
import ContextAtlas.Files.Tree
import Mathlib.Data.List.Nodup

namespace ContextAtlas

theorem nodup_eraseDups {α : Type} [BEq α] [LawfulBEq α] : ∀ l : List α, l.eraseDups.Nodup
  | [] => .nil
  | a :: l => by
    rw [List.eraseDups_cons, List.nodup_cons]
    exact ⟨by simp [List.mem_eraseDups], nodup_eraseDups (l.filter fun b => !b == a)⟩
termination_by l => l.length
decreasing_by exact Nat.lt_succ_of_le (List.length_filter_le _ l)

namespace FileTree

variable {t : FileTree} {ending : String}

/-! ## 1. Locations -/

/-- The locations of a tree lie on the way to its entries. -/
theorem mem_locations_iff_exists {k : Location} :
    k ∈ t.locations ↔ k ≠ [] ∧ ∃ e ∈ t.entries, k <+: e.1 := by
  simp only [locations, List.mem_eraseDups, List.mem_flatMap, List.mem_map, List.mem_range]
  constructor
  · rintro ⟨e, he, n, hn, rfl⟩
    have hlength : (e.1.take (n + 1)).length ≠ 0 := by
      rw [List.length_take]
      omega
    exact ⟨fun hnil => hlength (by rw [hnil, List.length_nil]), e, he, List.take_prefix _ _⟩
  · rintro ⟨hk, e, he, hway⟩
    have hlength : 0 < k.length := List.length_pos_of_ne_nil hk
    have hle := hway.length_le
    refine ⟨e, he, k.length - 1, by omega, ?_⟩
    rw [Nat.sub_add_cancel hlength]
    exact (List.prefix_iff_eq_take.mp hway).symm

/-- The locations of a tree are those that something stands at, the root apart. -/
theorem mem_locations {k : Location} : k ∈ t.locations ↔ k ≠ [] ∧ (t.find? k).isSome = true := by
  rw [mem_locations_iff_exists]
  refine and_congr_right fun hk => ?_
  unfold find?
  cases hfind : t.entries.find? fun e => e.1 = k with
  | some e =>
    have hmem := List.mem_of_find?_eq_some hfind
    have hkey : e.1 = k := by simpa using List.find?_some hfind
    simp only [Option.isSome_some, iff_true]
    exact ⟨e, hmem, hkey ▸ List.prefix_refl _⟩
  | none => simp [hk]

/-! ## 2. Searching -/

/-- The order in which names are compared is total. -/
theorem namesLe_trans (a b c : List String) (hab : namesLe a b = true) (hbc : namesLe b c = true) :
    namesLe a c = true := by
  simp only [namesLe, Bool.not_eq_true', decide_eq_false_iff_not] at *
  exact List.le_trans hab hbc

theorem namesLe_total (a b : List String) : (namesLe a b || namesLe b a) = true := by
  simp only [namesLe, Bool.or_eq_true, Bool.not_eq_true', decide_eq_false_iff_not]
  exact List.le_total a b

theorem lt_of_namesLe {a b : List String} (h : namesLe a b = true) (hne : a ≠ b) : a < b := by
  simp only [namesLe, Bool.not_eq_true', decide_eq_false_iff_not] at h
  by_contra hnot
  exact hne (List.le_antisymm h hnot)

/-- What is below a location, as the names from there down. -/
theorem below_eq_some_iff {l k : Location} {names : List String} :
    (if l.isPrefixOf k ∧ l.length < k.length then some (k.drop l.length) else none) = some names
      ↔ k = l ++ names ∧ names ≠ [] := by
  rw [Option.ite_none_right_eq_some, List.isPrefixOf_iff_prefix]
  constructor
  · rintro ⟨⟨⟨rest, rfl⟩, hlength⟩, hnames⟩
    obtain rfl : rest = names := by simpa using hnames
    refine ⟨rfl, ?_⟩
    rintro rfl
    simp at hlength
  · rintro ⟨rfl, hne⟩
    have hpos : 0 < names.length := List.length_pos_of_ne_nil hne
    refine ⟨⟨List.prefix_append l names, ?_⟩, by simp⟩
    rw [List.length_append]
    omega

/-- What is found below a location, in the order in which the tree lists it. -/
def listedBelow (t : FileTree) (ending : String) (l : Location) : List (List String) :=
  (t.locations.filterMap fun k =>
    if l.isPrefixOf k ∧ l.length < k.length then some (k.drop l.length) else none).filter
      fun names => ending.toList.isSuffixOf (names.getLast?.getD "").toList

theorem namesBelow_eq (l : Location) :
    t.namesBelow ending l = (t.listedBelow ending l).mergeSort namesLe := rfl

/-- The names from a location down that are found there. -/
theorem mem_namesBelow {l : Location} {names : List String} :
    names ∈ t.namesBelow ending l ↔ names ≠ [] ∧ (t.find? (l ++ names)).isSome = true
      ∧ ending.toList <:+ (names.getLast?.getD "").toList := by
  simp only [namesBelow_eq, listedBelow, List.mem_mergeSort, List.mem_filter, List.mem_filterMap,
    below_eq_some_iff, mem_locations, List.isSuffixOf_iff_suffix]
  constructor
  · rintro ⟨⟨k, ⟨-, hfound⟩, rfl, hne⟩, hending⟩
    exact ⟨hne, hfound, hending⟩
  · rintro ⟨hne, hfound, hending⟩
    exact ⟨⟨l ++ names, ⟨by simp [hne], hfound⟩, rfl, hne⟩, hending⟩

theorem pairwise_namesBelow (l : Location) : (t.namesBelow ending l).Pairwise (· < ·) := by
  have hsorted : (t.namesBelow ending l).Pairwise fun a b => namesLe a b = true :=
    List.pairwise_mergeSort namesLe_trans namesLe_total _
  have hlocations : t.locations.Nodup := nodup_eraseDups _
  have hnodup : (t.namesBelow ending l).Nodup := by
    rw [namesBelow_eq, (List.mergeSort_perm _ _).nodup_iff]
    refine (hlocations.filterMap fun k k' names hk hk' => ?_).filter _
    rw [Option.mem_def, below_eq_some_iff] at hk hk'
    rw [hk.1, hk'.1]
  exact (hsorted.and hnodup).imp fun h => lt_of_namesLe h.1 h.2

section

variable {p q : Path}

/-- **What is found below a path is all that stands below it and whose own name has the ending.** -/
theorem mem_findBelow : q ∈ t.findBelow ending p ↔ ∃ l names, t.locate p = .ok l
    ∧ q = ⟨p.root, p.names ++ names⟩ ∧ names ≠ [] ∧ (t.find? (l ++ names)).isSome = true
    ∧ ending.toList <:+ (names.getLast?.getD "").toList := by
  unfold findBelow
  cases hl : t.locate p with
  | error e => simp
  | ok l =>
    simp only [List.mem_map, mem_namesBelow, Except.ok.injEq]
    constructor
    · rintro ⟨names, hnames, rfl⟩
      exact ⟨l, names, rfl, rfl, hnames⟩
    · rintro ⟨l', names, rfl, rfl, hnames⟩
      exact ⟨names, hnames, rfl⟩

/-- **What is found below a path is found in the order of its names, and only once.** -/
theorem pairwise_findBelow : (t.findBelow ending p).Pairwise fun a b => a.names < b.names := by
  unfold findBelow
  cases t.locate p with
  | error e => exact .nil
  | ok l =>
    refine List.pairwise_map.mpr ((pairwise_namesBelow l).imp fun hab => ?_)
    exact List.append_left_lt hab

/-- What a tree lists in order is found in this order. -/
theorem findBelow_of_listed {l : Location} (hl : t.locate p = .ok l)
    (hsorted : (t.listedBelow ending l).Pairwise fun a b => namesLe a b = true) :
    t.findBelow ending p
      = (t.listedBelow ending l).map fun names => ⟨p.root, p.names ++ names⟩ := by
  have hnames : t.namesBelow ending l = t.listedBelow ending l :=
    List.mergeSort_of_pairwise hsorted
  rw [findBelow, hl, ← hnames]

/-- The names in a tree are names that files can have. -/
def HasFileNames (t : FileTree) : Prop := ∀ e ∈ t.entries, ∀ name ∈ e.1, '\x00' ∉ name.toList

/-- In such a tree what is found below a usable path is usable. -/
theorem HasFileNames.not_unusable (ht : t.HasFileNames) (hp : p.isUnusable = false)
    (hq : q ∈ t.findBelow ending p) : q.isUnusable = false := by
  obtain ⟨l, names, -, rfl, hne, hfound, -⟩ := mem_findBelow.mp hq
  obtain ⟨-, e, he, hway⟩ :=
    mem_locations_iff_exists.mp (mem_locations.mpr ⟨by simp [hne], hfound⟩)
  have hnames : ∀ name ∈ names, '\x00' ∉ name.toList := fun name hname =>
    ht e he name (hway.subset (List.mem_append_right l hname))
  have hover : ∀ name ∈ p.names, '\x00' ∉ name.toList := by simpa [Path.isUnusable] using hp
  simp only [Path.isUnusable, List.any_eq_false, List.contains_iff_mem]
  intro name hname
  rcases List.mem_append.mp hname with hname | hname
  · exact hover name hname
  · exact hnames name hname

end

end FileTree

end ContextAtlas
