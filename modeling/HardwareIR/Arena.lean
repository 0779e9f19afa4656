/-! # Arenas

An arena keeps objects in numbered slots and hands out handles to them.  A freed slot is taken
again by a later object, the one freed last first; the slot then begins a new generation, so that
the handles to its former objects stay stale.

* `Arena.insert` allocates, `Arena.get?` looks up, `Arena.set` replaces, `Arena.erase` frees;
* the free list names exactly the vacant slots, each once, which is part of the type.

Slots are counted from zero here and from one in the names of the objects.
-/

namespace HardwareIR

inductive ObjectKind where
  | operation
  | block
  | region
deriving DecidableEq, Repr

def ObjectKind.word : ObjectKind → String
  | operation => "op"
  | block => "block"
  | region => "region"

/-- A reference to an object of one kind: its slot, and which of the slot's generations it is. -/
structure Handle (kind : ObjectKind) where
  slot : Nat
  generation : Nat
deriving DecidableEq, Repr

/-- The name of an object, such as `op_1`: the word of its kind and the number of its slot. -/
def Handle.name {kind : ObjectKind} (h : Handle kind) : String :=
  kind.word ++ "_" ++ toString (h.slot + 1)

abbrev OpRef := Handle .operation

abbrev BlockRef := Handle .block

abbrev RegionRef := Handle .region

structure Slot (α : Type) where
  /-- How many objects the slot has lost. -/
  generation : Nat
  content : Option α

/-- Objects of type `α` in numbered slots. -/
structure Arena (α : Type) where
  slots : List (Slot α) := []
  /-- The vacant slots, the one freed last in front. -/
  free : List Nat := []
  mem_free_iff : ∀ i, i ∈ free ↔ ∃ s, slots[i]? = some s ∧ s.content = none := by simp
  free_nodup : free.Nodup := by simp

namespace Arena

variable {α : Type} {kind : ObjectKind}

instance : EmptyCollection (Arena α) := ⟨{}⟩

/-- The object behind a handle, unless it was freed. -/
def get? (a : Arena α) (h : Handle kind) : Option α :=
  match a.slots[h.slot]? with
  | some s => if s.generation = h.generation then s.content else none
  | none => none

/-- A handle is live if its slot holds an object of its generation. -/
theorem get?_eq_some_iff {a : Arena α} {h : Handle kind} {object : α} :
    a.get? h = some object ↔ a.slots[h.slot]? = some ⟨h.generation, some object⟩ := by
  unfold get?
  constructor
  · intro live
    split at live
    · rename_i s hs
      split at live
      · rename_i same
        rw [hs, ← same, ← live]
      · cases live
    · cases live
  · intro live
    simp [live]

def size (a : Arena α) : Nat :=
  a.slots.countP (·.content.isSome)

/-- How many slots the arena has, vacant ones included. -/
def capacity (a : Arena α) : Nat :=
  a.slots.length

/-! ## Updates -/

/-- Puts an object into the slot freed last, or into a new one if none is vacant. -/
def insert (a : Arena α) (kind : ObjectKind) (object : α) : Handle kind × Arena α :=
  match a with
  | { slots, free := i :: rest, mem_free_iff, free_nodup } =>
    -- The slot is there; its generation went up when it was freed.
    let generation := ((slots[i]?).map (·.generation)).getD 0
    (⟨i, generation⟩,
      { slots := slots.set i ⟨generation, some object⟩
        free := rest
        mem_free_iff := by
          intro j
          obtain ⟨fresh, _⟩ := List.nodup_cons.mp free_nodup
          obtain ⟨s, hs, _⟩ := (mem_free_iff i).mp List.mem_cons_self
          have bound : i < slots.length := (List.getElem?_eq_some_iff.mp hs).1
          rw [List.getElem?_set]
          by_cases h : i = j
          · subst h
            simp [bound, fresh]
          · have ne : j ≠ i := fun e => h e.symm
            rw [if_neg h, ← mem_free_iff j]
            simp [ne]
        free_nodup := (List.nodup_cons.mp free_nodup).2 })
  | { slots, free := [], mem_free_iff, free_nodup } =>
    (⟨slots.length, 0⟩,
      { slots := slots ++ [⟨0, some object⟩]
        free := []
        mem_free_iff := by
          intro j
          refine ⟨fun h => absurd h List.not_mem_nil, fun ⟨s, hs, vacant⟩ => ?_⟩
          rw [List.getElem?_append] at hs
          split at hs
          · exact (mem_free_iff j).mpr ⟨s, hs, vacant⟩
          · rw [List.getElem?_singleton] at hs
            split at hs
            · rw [← Option.some.inj hs] at vacant
              cases vacant
            · cases hs
        free_nodup := free_nodup })

/-- Replaces the object behind a handle; a stale handle changes nothing. -/
def set (a : Arena α) (h : Handle kind) (object : α) : Arena α :=
  if live : (a.get? h).isSome then
    { a with
      slots := a.slots.set h.slot ⟨h.generation, some object⟩
      mem_free_iff := by
        intro j
        obtain ⟨old, hold⟩ := Option.isSome_iff_exists.mp live
        have hs := get?_eq_some_iff.mp hold
        rw [a.mem_free_iff j, List.getElem?_set]
        by_cases e : h.slot = j
        · subst e
          have bound : h.slot < a.slots.length := (List.getElem?_eq_some_iff.mp hs).1
          rw [if_pos rfl, if_pos bound, hs]
          simp
        · rw [if_neg e] }
  else a

/-- Changes the object behind a handle; a stale handle changes nothing. -/
def modify (a : Arena α) (h : Handle kind) (f : α → α) : Arena α :=
  match a.get? h with
  | some object => a.set h (f object)
  | none => a

/-- Frees the object behind a handle: its slot is vacant and in its next generation.  A stale
handle changes nothing. -/
def erase (a : Arena α) (h : Handle kind) : Arena α :=
  if live : (a.get? h).isSome then
    { slots := a.slots.set h.slot ⟨h.generation + 1, none⟩
      free := h.slot :: a.free
      mem_free_iff := by
        intro j
        obtain ⟨old, hold⟩ := Option.isSome_iff_exists.mp live
        have hs := get?_eq_some_iff.mp hold
        rw [List.mem_cons, a.mem_free_iff j, List.getElem?_set]
        by_cases e : h.slot = j
        · subst e
          have bound : h.slot < a.slots.length := (List.getElem?_eq_some_iff.mp hs).1
          simp [bound]
        · have ne : j ≠ h.slot := fun e' => e e'.symm
          rw [if_neg e]
          simp [ne]
      free_nodup := by
        refine List.nodup_cons.mpr ⟨fun mem => ?_, a.free_nodup⟩
        obtain ⟨old, hold⟩ := Option.isSome_iff_exists.mp live
        obtain ⟨s, hs, vacant⟩ := (a.mem_free_iff h.slot).mp mem
        rw [get?_eq_some_iff.mp hold] at hs
        rw [← Option.some.inj hs] at vacant
        cases vacant }
  else a

end Arena

end HardwareIR
