/-! # Finite maps with sorted keys

A map is a list of entries in strictly ascending order of their keys.  The order is part of the
type, so a map has one representation, in whatever order it was filled.

* `get?`, `contains`, `insert` and `keys` are the interface, and `get?_insert` says what an
  insertion does to every lookup;
* `SortedSet` is a map to `Unit`.
-/

namespace HardwareIR

open Std (TransOrd LawfulEqOrd OrientedOrd)

/-- Finite maps from `κ` to `α`. -/
structure SortedMap (κ : Type) (α : Type) [Ord κ] where
  /-- Every key once, with its value. -/
  entries : List (κ × α)
  sorted : entries.Pairwise fun a b => compare a.1 b.1 = .lt

namespace SortedMap

variable {κ α : Type} [Ord κ]

instance [DecidableEq κ] [DecidableEq α] : DecidableEq (SortedMap κ α) := fun a b =>
  decidable_of_iff (a.entries = b.entries) (by cases a; cases b; simp)

def empty : SortedMap κ α := ⟨[], .nil⟩

instance : EmptyCollection (SortedMap κ α) := ⟨empty⟩

def get? (m : SortedMap κ α) (key : κ) : Option α :=
  (m.entries.find? fun entry => compare key entry.1 == .eq).map (·.2)

def contains (m : SortedMap κ α) (key : κ) : Bool :=
  (m.get? key).isSome

/-- The keys in ascending order. -/
def keys (m : SortedMap κ α) : List κ :=
  m.entries.map (·.1)

def size (m : SortedMap κ α) : Nat :=
  m.entries.length

def isEmpty (m : SortedMap κ α) : Bool :=
  m.entries.isEmpty

/-- Puts an entry at its place in a sorted list, over an entry of the same key. -/
def insertEntry (key : κ) (value : α) : List (κ × α) → List (κ × α)
  | [] => [(key, value)]
  | entry :: rest =>
    match compare key entry.1 with
    | .lt => (key, value) :: entry :: rest
    | .eq => (key, value) :: rest
    | .gt => entry :: insertEntry key value rest

/-- A key of the longer list is the new one or an old one. -/
theorem mem_keys_insertEntry {key : κ} {value : α} {entries : List (κ × α)} {e : κ × α}
    (h : e ∈ insertEntry key value entries) : e = (key, value) ∨ e ∈ entries := by
  induction entries with
  | nil => simpa [insertEntry] using h
  | cons entry rest ih =>
    unfold insertEntry at h
    split at h
    · simpa using h
    · rcases List.mem_cons.mp h with h | h
      · exact .inl h
      · exact .inr (List.mem_cons_of_mem _ h)
    · rcases List.mem_cons.mp h with h | h
      · exact .inr (h ▸ List.mem_cons_self)
      · exact (ih h).imp id (List.mem_cons_of_mem _)

theorem sorted_insertEntry [TransOrd κ] [LawfulEqOrd κ] (key : κ) (value : α)
    {entries : List (κ × α)} (h : entries.Pairwise fun a b => compare a.1 b.1 = .lt) :
    (insertEntry key value entries).Pairwise fun a b => compare a.1 b.1 = .lt := by
  induction entries with
  | nil => simp [insertEntry]
  | cons entry rest ih =>
    obtain ⟨head, tail⟩ := List.pairwise_cons.mp h
    unfold insertEntry
    split
    · rename_i lt
      refine List.pairwise_cons.mpr ⟨fun e he => ?_, h⟩
      rcases List.mem_cons.mp he with rfl | he
      · exact lt
      · exact Std.TransCmp.lt_trans lt (head e he)
    · rename_i eq
      refine List.pairwise_cons.mpr ⟨fun e he => ?_, tail⟩
      have same : key = entry.1 := Std.LawfulEqOrd.eq_of_compare eq
      exact same ▸ head e he
    · rename_i gt
      refine List.pairwise_cons.mpr ⟨fun e he => ?_, ih tail⟩
      rcases mem_keys_insertEntry he with rfl | he
      · exact Std.OrientedCmp.lt_of_gt gt
      · exact head e he

def insert [TransOrd κ] [LawfulEqOrd κ] (m : SortedMap κ α) (key : κ) (value : α) :
    SortedMap κ α :=
  ⟨insertEntry key value m.entries, sorted_insertEntry key value m.sorted⟩

/-! ## Lookups -/

theorem find?_insertEntry [DecidableEq κ] [TransOrd κ] [LawfulEqOrd κ] (key k : κ) (value : α)
    (entries : List (κ × α)) :
    ((insertEntry key value entries).find? fun entry => compare k entry.1 == .eq) =
      if k = key then some (key, value)
      else entries.find? fun entry => compare k entry.1 == .eq := by
  have self : ∀ a b : κ, (compare a b == .eq) = decide (a = b) := fun a b => by
    by_cases h : a = b
    · simp [h]
    · simp [h]
  simp only [self]
  induction entries with
  | nil => by_cases h : k = key <;> simp [insertEntry, h]
  | cons entry rest ih =>
    unfold insertEntry
    split
    · by_cases h : k = key <;> simp [h]
    · rename_i eq
      have same : key = entry.1 := Std.LawfulEqOrd.eq_of_compare eq
      by_cases h : k = key
      · simp [h]
      · simp [h, ← same]
    · rename_i gt
      by_cases h : k = entry.1
      · have ne : k ≠ key := by
          rintro rfl
          rw [h] at gt
          simp at gt
        have ne' : entry.1 ≠ key := h ▸ ne
        simp [h, ne']
      · simp [h, ih]

/-- An insertion changes the answer at its own key alone. -/
theorem get?_insert [DecidableEq κ] [TransOrd κ] [LawfulEqOrd κ] (m : SortedMap κ α)
    (key k : κ) (value : α) :
    (m.insert key value).get? k = if k = key then some value else m.get? k := by
  simp only [get?, insert, find?_insertEntry]
  split <;> simp

@[simp] theorem get?_empty (k : κ) : (empty : SortedMap κ α).get? k = none := rfl

/-- Every entry is found at its key. -/
theorem get?_of_mem [TransOrd κ] [LawfulEqOrd κ] (m : SortedMap κ α) {entry : κ × α}
    (mem : entry ∈ m.entries) : m.get? entry.1 = some entry.2 := by
  obtain ⟨before, after, split⟩ := List.append_of_mem mem
  have sorted := m.sorted
  rw [split, List.pairwise_append] at sorted
  have found : m.entries.find? (fun e => compare entry.1 e.1 == .eq) = some entry := by
    refine List.find?_eq_some_iff_append.mpr ⟨by simp, before, after, split, fun e earlier => ?_⟩
    have smaller := sorted.2.2 e earlier entry List.mem_cons_self
    simp [Std.OrientedCmp.gt_of_lt smaller]
  rw [get?, found]
  rfl

theorem contains_insert [DecidableEq κ] [TransOrd κ] [LawfulEqOrd κ] (m : SortedMap κ α)
    (key k : κ) (value : α) :
    (m.insert key value).contains k = true ↔ k = key ∨ m.contains k = true := by
  unfold contains
  rw [get?_insert]
  by_cases same : k = key <;> simp [same]

end SortedMap

/-- Finite sets, as maps that only say which keys are there. -/
abbrev SortedSet (κ : Type) [Ord κ] := SortedMap κ Unit

namespace SortedSet

variable {κ : Type} [Ord κ]

def add [TransOrd κ] [LawfulEqOrd κ] (s : SortedSet κ) (member : κ) : SortedSet κ :=
  s.insert member ()

theorem contains_add [DecidableEq κ] [TransOrd κ] [LawfulEqOrd κ] (s : SortedSet κ)
    (member k : κ) : (s.add member).contains k = true ↔ k = member ∨ s.contains k = true :=
  SortedMap.contains_insert s member k ()

/-- A set with several new members has these and the old ones. -/
theorem contains_foldl_add [DecidableEq κ] [TransOrd κ] [LawfulEqOrd κ] (s : SortedSet κ)
    (members : List κ) (k : κ) :
    (members.foldl add s).contains k = true ↔ k ∈ members ∨ s.contains k = true := by
  induction members generalizing s with
  | nil => simp
  | cons member rest ih =>
    rw [List.foldl_cons, ih, contains_add, List.mem_cons, or_left_comm, or_assoc]

end SortedSet

end HardwareIR
