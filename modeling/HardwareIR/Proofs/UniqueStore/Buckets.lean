import HardwareIR.UniqueStore
import Mathlib.Data.List.Range

/-! # Unique stores with buckets

A unique store is laid out for fast lookups as an arena of values and a table that has a bucket of
indices for every key (`BucketStore`).  A lookup then only goes through the bucket of its key.

`UniqueStore.bucketed` is the layout of a unique store.  The arena and the table stay in step: on
the layout of a store, lookups and interning answer as they do on the store, and interning leaves
the layout of what it leaves of the store (`UniqueStore.lookup_bucketed`,
`UniqueStore.intern_bucketed`).
-/

namespace HardwareIR

variable {κ α : Type} [DecidableEq κ]

/-- Values in the order in which they were stored, and for each key the indices of its values. -/
structure BucketStore (κ α : Type) where
  arena : List α := []
  buckets : κ → List Nat := fun _ => []

namespace BucketStore

/-- The first index in the bucket of `key` at which a value is stored that is wanted. -/
def lookup (b : BucketStore κ α) (key : κ) (wanted : α → Bool) : Option Nat :=
  (b.buckets key).find? fun index => (b.arena[index]?).any wanted

/-- The index of a value equal to `value` in the bucket of `key`.  If there is none yet, the value
goes into the arena and its index into the bucket. -/
def intern (b : BucketStore κ α) (key : κ) (value : α) (equal : α → α → Bool) :
    Nat × BucketStore κ α :=
  match b.lookup key (equal value) with
  | some index => (index, b)
  | none =>
    let index := b.arena.length
    (index, ⟨b.arena ++ [value], fun k => if k = key then b.buckets k ++ [index] else b.buckets k⟩)

def get? (b : BucketStore κ α) (index : Nat) : Option α :=
  b.arena[index]?

def size (b : BucketStore κ α) : Nat :=
  b.arena.length

def isEmpty (b : BucketStore κ α) : Bool :=
  b.arena.isEmpty

end BucketStore

namespace UniqueStore

/-- The indices of the values under `key`. -/
def bucket (s : UniqueStore κ α) (key : κ) : List Nat :=
  (List.range s.items.length).filter fun index => (s.items[index]?).any (·.1 == key)

/-- The layout of a unique store as an arena and a table of buckets. -/
def bucketed (s : UniqueStore κ α) : BucketStore κ α where
  arena := s.items.map (·.2)
  buckets := s.bucket

@[simp] theorem get?_bucketed (s : UniqueStore κ α) (index : Nat) :
    s.bucketed.get? index = s.get? index := by
  simp [BucketStore.get?, get?, bucketed]

@[simp] theorem size_bucketed (s : UniqueStore κ α) : s.bucketed.size = s.size := by
  simp [BucketStore.size, size, bucketed]

@[simp] theorem isEmpty_bucketed (s : UniqueStore κ α) : s.bucketed.isEmpty = s.isEmpty := by
  simp [BucketStore.isEmpty, isEmpty, bucketed]

/-- A new value goes to the end of the bucket of its key and into no other. -/
theorem bucket_append (s : UniqueStore κ α) (key key' : κ) (value : α) :
    bucket ⟨s.items ++ [(key, value)]⟩ key' =
      if key' = key then s.bucket key' ++ [s.items.length] else s.bucket key' := by
  have older : (List.range s.items.length).filter
      (fun index => ((s.items ++ [(key, value)])[index]?).any (·.1 == key')) = s.bucket key' := by
    refine List.filter_congr fun index mem => ?_
    rw [List.getElem?_append_left (List.mem_range.mp mem)]
  rw [bucket, List.length_append, List.length_singleton, List.range_succ, List.filter_append, older]
  by_cases filed : key' = key
  · simp [filed]
  · simp [filed, Ne.symm filed]

/-- Going through the indices of a list finds what going through the list itself finds. -/
theorem find?_range_length {β : Type} (xs : List β) (p : β → Bool) :
    ((List.range xs.length).find? fun index => (xs[index]?).any p) = xs.findIdx? p := by
  induction xs with
  | nil => rfl
  | cons x xs ih =>
    rw [List.length_cons, List.range_succ_eq_map, List.find?_cons, List.findIdx?_cons, ← ih]
    cases found : p x with
    | true => simp [found]
    | false =>
      simp only [List.getElem?_cons_zero, Option.any_some, found, List.find?_map]
      rfl

/-- The bucket of a key leaves nothing out that a lookup could find. -/
theorem lookup_bucketed (s : UniqueStore κ α) (key : κ) (wanted : α → Bool) :
    s.bucketed.lookup key wanted = s.lookup key wanted := by
  rw [lookup, ← find?_range_length]
  simp only [BucketStore.lookup, bucketed, bucket, List.find?_filter]
  congr 1
  funext index
  cases stored : s.items[index]? with
  | none => simp [stored]
  | some item => simp [stored, Bool.beq_eq_decide_eq]

/-- Interning keeps the arena and the table in step. -/
theorem intern_bucketed (s : UniqueStore κ α) (key : κ) (value : α) (equal : α → α → Bool) :
    s.bucketed.intern key value equal =
      ((s.intern key value equal).1, (s.intern key value equal).2.bucketed) := by
  rw [BucketStore.intern, lookup_bucketed, intern]
  cases looked : s.lookup key (equal value) with
  | some index => rfl
  | none =>
    have appended : bucket ⟨s.items ++ [(key, value)]⟩ = fun k =>
        if k = key then s.bucket k ++ [s.items.length] else s.bucket k :=
      funext fun k => s.bucket_append key k value
    simp [bucketed, appended]

end UniqueStore

end HardwareIR
