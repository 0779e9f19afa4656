import HardwareIR.SortedMap
import Mathlib.Data.List.AList
import Mathlib.Data.List.Induction

/-! # Sorted maps as finite maps

A sorted map is determined by its lookups (`SortedMap.ext_get?`), so that of the insertions that it
comes from only the last one at every key matters (`SortedMap.ofInsertions_eq_iff`).

A finite map may as well be kept as a table, which has its entries in no particular order and may
rearrange them whenever something is inserted, as hash tables do (`Table.Filled`).  A table has the
lookups of the sorted map after the same insertions (`Table.Filled.lookup_eq`), and sorting its
entries by key gives those of the sorted map, in whatever order the table has them
(`Table.Filled.sorted_eq`).
-/

namespace HardwareIR

open Std (TransOrd LawfulEqOrd OrientedOrd OrientedCmp TransCmp LawfulEqCmp)

variable {κ α : Type} {insertions insertions' : List (κ × α)}

/-! ## Insertions -/

section Insertions

variable [DecidableEq κ]

/-- The value that is inserted last at `key`. -/
def lastAt? (insertions : List (κ × α)) (key : κ) : Option α :=
  insertions.reverse.lookup key

theorem lastAt?_concat (insertions : List (κ × α)) (key k : κ) (value : α) :
    lastAt? (insertions ++ [(key, value)]) k =
      if k = key then some value else lastAt? insertions k := by
  by_cases same : k = key
  · simp [lastAt?, same]
  · have unequal : (k == key) = false := beq_false_of_ne same
    simp [lastAt?, List.lookup_cons, same, unequal]

theorem isSome_lastAt?_iff {key : κ} :
    (lastAt? insertions key).isSome = true ↔ key ∈ insertions.map (·.1) := by
  induction insertions using List.reverseRecOn with
  | nil => simp [lastAt?]
  | append_singleton earlier entry ih =>
    rw [lastAt?_concat, List.map_append, List.mem_append, List.map_singleton, List.mem_singleton,
      ← ih]
    by_cases same : key = entry.1 <;> simp [same]

theorem lastAt?_eq_none_iff {key : κ} :
    lastAt? insertions key = none ↔ key ∉ insertions.map (·.1) := by
  rw [← isSome_lastAt?_iff, Option.not_isSome_iff_eq_none]

end Insertions

/-! ## Sorted maps -/

namespace SortedMap

variable [Ord κ] {m m' : SortedMap κ α}

theorem nodup_entries [LawfulEqOrd κ] (m : SortedMap κ α) : m.entries.Nodup := by
  refine m.sorted.imp fun {a b} before same => ?_
  rw [same] at before
  simp at before

variable [TransOrd κ] [LawfulEqOrd κ]

theorem mem_entries_iff {entry : κ × α} : entry ∈ m.entries ↔ m.get? entry.1 = some entry.2 := by
  refine ⟨m.get?_of_mem, fun found => ?_⟩
  obtain ⟨first, found, same⟩ := Option.map_eq_some_iff.mp found
  have key_eq : compare entry.1 first.1 = .eq := by simpa using List.find?_some found
  have entry_eq : entry = first := Prod.ext (LawfulEqCmp.eq_of_compare key_eq) same.symm
  exact entry_eq ▸ List.mem_of_find?_eq_some found

/-- Entries in the order of their keys are those of a map if they are so in some order. -/
theorem eq_entries_of_perm {entries : List (κ × α)} (rearranged : entries.Perm m.entries)
    (ascending : entries.Pairwise fun a b => (compare a.1 b.1).isLE = true) :
    entries = m.entries := by
  refine rearranged.eq_of_pairwise ?_ ascending
    (m.sorted.imp fun before => Ordering.isLE_of_eq_lt before)
  intro a b mem mem' le le'
  -- Neither key comes before the other, and the map has one entry for a key.
  have key_eq : a.1 = b.1 := LawfulEqCmp.eq_of_compare (OrientedCmp.isLE_antisymm le le')
  have found := mem_entries_iff.mp (rearranged.mem_iff.mp mem)
  have found' := mem_entries_iff.mp mem'
  rw [key_eq, found'] at found
  exact Prod.ext key_eq (Option.some.inj found).symm

/-- Sorting finds the entries of a map from any order that they are in. -/
theorem mergeSort_eq_entries {entries : List (κ × α)} (rearranged : entries.Perm m.entries) :
    (entries.mergeSort fun a b => (compare a.1 b.1).isLE) = m.entries := by
  refine eq_entries_of_perm ((List.mergeSort_perm entries _).trans rearranged) ?_
  refine List.pairwise_mergeSort (fun a b c => TransCmp.isLE_trans) (fun a b => ?_) entries
  rw [OrientedOrd.eq_swap (a := a.1)]
  cases compare b.1 a.1 <;> rfl

/-- Maps with the same lookups are equal. -/
theorem ext_get? (same : ∀ key, m.get? key = m'.get? key) : m = m' := by
  have rearranged : m.entries.Perm m'.entries := by
    refine (List.perm_ext_iff_of_nodup m.nodup_entries m'.nodup_entries).mpr fun entry => ?_
    rw [mem_entries_iff, mem_entries_iff, same]
  have entries_eq := eq_entries_of_perm rearranged
    (m.sorted.imp fun before => Ordering.isLE_of_eq_lt before)
  cases m
  cases m'
  cases entries_eq
  rfl

/-- What insertions make of an empty map. -/
def ofInsertions (insertions : List (κ × α)) : SortedMap κ α :=
  insertions.foldl (fun m entry => m.insert entry.1 entry.2) ∅

variable [DecidableEq κ]

theorem get?_ofInsertions (insertions : List (κ × α)) (key : κ) :
    (ofInsertions insertions).get? key = lastAt? insertions key := by
  induction insertions using List.reverseRecOn with
  | nil => rfl
  | append_singleton earlier entry ih =>
    rw [ofInsertions, List.foldl_append, List.foldl_cons, List.foldl_nil, get?_insert,
      lastAt?_concat, ← ih, ofInsertions]

/-- Insertions make equal maps just if they end with the same values. -/
theorem ofInsertions_eq_iff : ofInsertions insertions = ofInsertions insertions' ↔
    ∀ key, lastAt? insertions key = lastAt? insertions' key := by
  constructor
  · intro same key
    rw [← get?_ofInsertions, same, get?_ofInsertions]
  · intro alike
    refine ext_get? fun key => ?_
    rw [get?_ofInsertions, alike, get?_ofInsertions]

end SortedMap

/-! ## Tables -/

/-- A finite map with its entries in whatever order they happen to be. -/
abbrev Table (κ α : Type) := AList fun _ : κ => α

namespace Table

/-- The entries as pairs. -/
def pairs (table : Table κ α) : List (κ × α) :=
  table.entries.map fun entry => (entry.1, entry.2)

/-- The entries as pairs, sorted by their keys. -/
def sorted [Ord κ] (table : Table κ α) : List (κ × α) :=
  table.pairs.mergeSort fun a b => (compare a.1 b.1).isLE

/-- Whether a table has as many entries as another one, and each of them is found there with an
equal value. -/
def same [DecidableEq κ] (equal : α → α → Bool) (table table' : Table κ α) : Bool :=
  table.entries.length == table'.entries.length &&
    table.entries.all fun entry => (table'.lookup entry.1).any (equal entry.2)

theorem nodup_pairs (table : Table κ α) : table.pairs.Nodup := by
  refine List.Nodup.map ?_ table.nodupKeys.nodup
  rintro ⟨key, value⟩ ⟨key', value'⟩ same
  cases same
  rfl

variable [DecidableEq κ] {table table' : Table κ α}

theorem mem_pairs_iff {entry : κ × α} :
    entry ∈ table.pairs ↔ table.lookup entry.1 = some entry.2 := by
  rw [pairs, List.mem_map, ← Option.mem_def, AList.mem_lookup_iff]
  constructor
  · rintro ⟨held, mem, rfl⟩
    exact mem
  · exact fun mem => ⟨_, mem, rfl⟩

/-- Tables are the same just if they have the same lookups. -/
theorem same_iff {equal : α → α → Bool} (decides : ∀ {a b}, equal a b = true ↔ a = b) :
    table.same equal table' = true ↔ ∀ key, table.lookup key = table'.lookup key := by
  rw [same, Bool.and_eq_true, beq_iff_eq, List.all_eq_true]
  constructor
  · rintro ⟨sizes, found⟩ key
    have subset : table.entries ⊆ table'.entries := by
      intro entry mem
      obtain ⟨value, there, equal_eq⟩ := (Option.any_eq_true _ _).mp (found entry mem)
      cases decides.mp equal_eq
      exact AList.mem_lookup_iff.mp there
    -- As there are as many entries, none is left over in the other table.
    have part := List.subperm_of_subset table.nodupKeys.nodup subset
    exact AList.perm_lookup (part.perm_of_length_le (Nat.le_of_eq sizes.symm))
  · intro lookups
    have rearranged : table.entries.Perm table'.entries :=
      List.lookup_ext table.nodupKeys table'.nodupKeys fun key value =>
        iff_of_eq (congrArg (value ∈ ·) (lookups key))
    refine ⟨rearranged.length_eq, fun entry mem => ?_⟩
    have there : table'.lookup entry.1 = some entry.2 :=
      AList.mem_lookup_iff.mpr (rearranged.mem_iff.mp mem)
    rw [there, Option.any_some]
    exact decides.mpr rfl

/-- A table comes from insertions.  It may have rearranged its entries after each of them. -/
inductive Filled : List (κ × α) → Table κ α → Prop where
  | empty : Filled [] ∅
  | insert {insertions : List (κ × α)} {table table' : Table κ α}
      (filled : Filled insertions table) (key : κ) (value : α)
      (rearranged : table'.entries.Perm (table.insert key value).entries) :
      Filled (insertions ++ [(key, value)]) table'

theorem Filled.lookup_eq (filled : table.Filled insertions) (key : κ) :
    table.lookup key = lastAt? insertions key := by
  induction filled with
  | empty => rfl
  | insert _ _ _ rearranged ih =>
    rw [AList.perm_lookup rearranged, lastAt?_concat]
    split
    next same => rw [same, AList.lookup_insert]
    next other => rw [AList.lookup_insert_ne other, ih]

section Sorted

variable [Ord κ] [TransOrd κ] [LawfulEqOrd κ]

/-- A table has the entries of the sorted map, in some order. -/
theorem Filled.pairs_perm (filled : table.Filled insertions) :
    table.pairs.Perm (SortedMap.ofInsertions insertions).entries := by
  refine (List.perm_ext_iff_of_nodup table.nodup_pairs (SortedMap.nodup_entries _)).mpr ?_
  intro entry
  rw [mem_pairs_iff, SortedMap.mem_entries_iff, filled.lookup_eq, SortedMap.get?_ofInsertions]

/-- In whatever order a table has its entries, sorting them makes no difference to it. -/
theorem Filled.sorted_eq (filled : table.Filled insertions) :
    table.sorted = (SortedMap.ofInsertions insertions).entries :=
  SortedMap.mergeSort_eq_entries filled.pairs_perm

theorem Filled.isEmpty_eq (filled : table.Filled insertions) :
    table.entries.isEmpty = (SortedMap.ofInsertions insertions).isEmpty := by
  rw [SortedMap.isEmpty, ← filled.pairs_perm.isEmpty_eq, pairs, List.isEmpty_map]

end Sorted

end Table

end HardwareIR
