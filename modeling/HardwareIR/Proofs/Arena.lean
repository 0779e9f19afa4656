import HardwareIR.Arena
import Mathlib.Data.List.Nodup
import Mathlib.Data.List.Perm.Subperm

/-! # Lookups in arenas

What each update of an arena does to every lookup, and how many objects can live at once.  Slots
only ever go on to later generations (`Arena.Later`), so that a handle whose object was freed is
stale for good (`Arena.Retired`).  Arenas that have their slots in common (`Arena.SameSlots`) and
find the same objects are equal.  Nothing after this module looks into slots.
-/

namespace HardwareIR

variable {α : Type} {kind : ObjectKind}

/-! ## Slots -/

/-- What a handle finds in a slot. -/
def Slot.find? (s : Slot α) (h : Handle kind) : Option α :=
  if s.generation = h.generation then s.content else none

namespace Arena

theorem get?_of_slots_set {a a' : Arena α} {i : Nat} {s : Slot α} (bound : i < a.slots.length)
    (slots : a'.slots = a.slots.set i s) (h : Handle kind) :
    a'.get? h = if h.slot = i then s.find? h else a.get? h := by
  unfold get?
  rw [slots]
  by_cases place : h.slot = i
  · subst place
    simp [bound, Slot.find?]
  · have other : i ≠ h.slot := fun e => place e.symm
    simp [place, other]

theorem get?_of_slots_append {a a' : Arena α} {s : Slot α} (slots : a'.slots = a.slots ++ [s])
    (h : Handle kind) :
    a'.get? h = if h.slot = a.slots.length then s.find? h else a.get? h := by
  unfold get?
  rw [slots]
  by_cases place : h.slot = a.slots.length
  · simp [place, Slot.find?]
  · rcases Nat.lt_or_gt_of_ne place with below | above
    · simp [List.getElem?_append_left below, place]
    · have absent : a.slots[h.slot]? = none := List.getElem?_eq_none (by omega)
      have beyond : (a.slots ++ [s])[h.slot]? = none :=
        List.getElem?_eq_none (by simp only [List.length_append, List.length_singleton]; omega)
      simp [absent, beyond, place]

theorem bound_of_get? {a : Arena α} {h : Handle kind} {object : α}
    (found : a.get? h = some object) : h.slot < a.slots.length :=
  (List.getElem?_eq_some_iff.mp (get?_eq_some_iff.mp found)).1

/-- At the slot of a live handle, other handles are stale. -/
theorem get?_eq_none_of_slot {a : Arena α} {h h' : Handle kind} {object : α}
    (found : a.get? h = some object) (slot : h'.slot = h.slot) (other : h' ≠ h) :
    a.get? h' = none := by
  have generation : h.generation ≠ h'.generation := by
    intro same
    apply other
    cases h
    cases h'
    simp_all
  simp [get?, slot, get?_eq_some_iff.mp found, generation]

/-! ## Allocation -/

/-- A vacant slot that is filled is found by the handle of its generation only. -/
theorem get?_of_filled {a a' : Arena α} {i generation : Nat} {object : α}
    (vacant : ∀ g, a.get? (⟨i, g⟩ : Handle kind) = none)
    (filled : ∀ h : Handle kind,
      a'.get? h = if h.slot = i then Slot.find? ⟨generation, some object⟩ h else a.get? h)
    (h : Handle kind) : a'.get? h = if h = ⟨i, generation⟩ then some object else a.get? h := by
  rw [filled]
  obtain ⟨slot, g⟩ := h
  by_cases place : slot = i
  · subst place
    by_cases current : g = generation
    · simp [Slot.find?, current]
    · simp [Slot.find?, current, vacant, Ne.symm current]
  · simp [place]

/-- A new object goes into a vacant slot, in the generation that the slot is in, or into a slot of
its own. -/
theorem insert_cases (a : Arena α) (object : α) :
    (∃ i generation, a.slots[i]? = some ⟨generation, none⟩ ∧
      (a.insert kind object).1 = ⟨i, generation⟩ ∧
      (a.insert kind object).2.slots = a.slots.set i ⟨generation, some object⟩) ∨
    ((a.insert kind object).1 = ⟨a.slots.length, 0⟩ ∧
      (a.insert kind object).2.slots = a.slots ++ [⟨0, some object⟩]) := by
  cases free : a.free with
  | cons i rest =>
    -- The slot freed last is taken again.
    obtain ⟨⟨generation, content⟩, found, vacant⟩ :=
      (a.mem_free_iff i).mp (free ▸ List.mem_cons_self)
    cases vacant
    refine .inl ⟨i, generation, found, ?_⟩
    obtain ⟨slots, _, _, _⟩ := a
    subst free
    simp only [insert]
    rw [found]
    exact ⟨rfl, rfl⟩
  | nil =>
    obtain ⟨_, _, _, _⟩ := a
    subst free
    exact .inr ⟨rfl, rfl⟩

theorem get?_insert_pair (a : Arena α) (object : α) (h : Handle kind) :
    a.get? (a.insert kind object).1 = none ∧
      (a.insert kind object).2.get? h =
        if h = (a.insert kind object).1 then some object else a.get? h := by
  rcases a.insert_cases object with ⟨i, generation, found, handle, slots⟩ | ⟨handle, slots⟩
  · have bound : i < a.slots.length := (List.getElem?_eq_some_iff.mp found).1
    have stale : ∀ g, a.get? (⟨i, g⟩ : Handle kind) = none := by
      intro g
      simp [get?, found]
    rw [handle]
    exact ⟨stale generation, get?_of_filled stale (get?_of_slots_set bound slots) h⟩
  · have stale : ∀ g, a.get? (⟨a.slots.length, g⟩ : Handle kind) = none := by
      intro g
      simp [get?]
    rw [handle]
    exact ⟨stale 0, get?_of_filled stale (get?_of_slots_append slots) h⟩

/-- The handle of a new object was stale before. -/
theorem get?_insert_fresh (a : Arena α) (object : α) : a.get? (a.insert kind object).1 = none :=
  (a.get?_insert_pair object (a.insert kind object).1).1

theorem get?_insert (a : Arena α) (object : α) (h : Handle kind) :
    (a.insert kind object).2.get? h =
      if h = (a.insert kind object).1 then some object else a.get? h :=
  (a.get?_insert_pair object h).2

/-! ## Changes and erasure -/

theorem slots_set {a : Arena α} {h : Handle kind} {old : α} (found : a.get? h = some old)
    (object : α) : (a.set h object).slots = a.slots.set h.slot ⟨h.generation, some object⟩ := by
  have live : (a.get? h).isSome := by rw [found]; rfl
  rw [set, dif_pos live]

theorem slots_erase {a : Arena α} {h : Handle kind} {old : α} (found : a.get? h = some old) :
    (a.erase h).slots = a.slots.set h.slot ⟨h.generation + 1, none⟩ := by
  have live : (a.get? h).isSome := by rw [found]; rfl
  rw [erase, dif_pos live]

theorem erase_of_stale {a : Arena α} {h : Handle kind} (stale : a.get? h = none) :
    a.erase h = a := by
  have dead : ¬ (a.get? h).isSome := by rw [stale]; simp
  rw [erase, dif_neg dead]

theorem get?_modify (a : Arena α) (h h' : Handle kind) (f : α → α) :
    (a.modify h f).get? h' = if h' = h then (a.get? h).map f else a.get? h' := by
  unfold modify
  cases found : a.get? h with
  | none =>
    by_cases same : h' = h
    · rw [if_pos same, same]
      exact found
    · rw [if_neg same]
  | some object =>
    change (a.set h (f object)).get? h' = _
    rw [get?_of_slots_set (bound_of_get? found) (slots_set found (f object))]
    by_cases same : h' = h
    · subst same
      simp [Slot.find?]
    · rw [if_neg same]
      by_cases place : h'.slot = h.slot
      · rw [if_pos place, get?_eq_none_of_slot found place same]
        have generation : h.generation ≠ h'.generation := by
          intro e
          apply same
          cases h
          cases h'
          simp_all
        simp [Slot.find?, generation]
      · rw [if_neg place]

theorem get?_erase (a : Arena α) (h h' : Handle kind) :
    (a.erase h).get? h' = if h' = h then none else a.get? h' := by
  cases found : a.get? h with
  | none =>
    rw [erase_of_stale found]
    by_cases same : h' = h
    · rw [if_pos same, same]
      exact found
    · rw [if_neg same]
  | some object =>
    rw [get?_of_slots_set (bound_of_get? found) (slots_erase found)]
    by_cases same : h' = h
    · subst same
      simp [Slot.find?]
    · rw [if_neg same]
      by_cases place : h'.slot = h.slot
      · rw [if_pos place, get?_eq_none_of_slot found place same]
        simp [Slot.find?]
      · rw [if_neg place]

/-- Changing an object into itself changes nothing. -/
theorem modify_self (a : Arena α) (h : Handle kind) (f : α → α)
    (same : ∀ object, a.get? h = some object → f object = object) : a.modify h f = a := by
  unfold modify
  cases found : a.get? h with
  | none => rfl
  | some object =>
    have slots := slots_set found (f object)
    have live : (a.get? h).isSome := by rw [found]; rfl
    have unchanged : a.slots.set h.slot ⟨h.generation, some (f object)⟩ = a.slots := by
      rw [same object found]
      refine List.ext_getElem? fun i => ?_
      rw [List.getElem?_set]
      by_cases place : h.slot = i
      · subst place
        rw [if_pos rfl, if_pos (bound_of_get? found), get?_eq_some_iff.mp found]
      · rw [if_neg place]
    rw [unchanged] at slots
    change a.set h (f object) = a
    rw [set, dif_pos live] at slots ⊢
    cases a
    simp_all

/-! ## Room -/

/-- Two live handles to one slot are the same handle. -/
theorem eq_of_slot_eq {a : Arena α} {h h' : Handle kind} (live : (a.get? h).isSome)
    (live' : (a.get? h').isSome) (slot : h.slot = h'.slot) : h = h' := by
  obtain ⟨object, found⟩ := Option.isSome_iff_exists.mp live
  by_contra other
  rw [get?_eq_none_of_slot found slot.symm (Ne.symm other)] at live'
  cases live'

/-- There are no more live handles than slots. -/
theorem length_le_capacity {a : Arena α} {hs : List (Handle kind)} (nodup : hs.Nodup)
    (live : ∀ h ∈ hs, (a.get? h).isSome) : hs.length ≤ a.capacity := by
  have slots : (hs.map Handle.slot).Nodup :=
    List.Nodup.map_on (fun h mem h' mem' => eq_of_slot_eq (live h mem) (live h' mem')) nodup
  have range : hs.map Handle.slot ⊆ List.range a.capacity := by
    intro i mem
    obtain ⟨h, listed, rfl⟩ := List.mem_map.mp mem
    obtain ⟨object, found⟩ := Option.isSome_iff_exists.mp (live h listed)
    exact List.mem_range.mpr (bound_of_get? found)
  have bound := (List.subperm_of_subset slots range).length_le
  rwa [List.length_map, List.length_range] at bound

/-! ## Generations -/

/-- Every slot is still there, in the generation that it was in or in a later one. -/
def Later (a a' : Arena α) : Prop :=
  ∀ (i : Nat) (s : Slot α), a.slots[i]? = some s →
    ∃ s', a'.slots[i]? = some s' ∧ s.generation ≤ s'.generation

theorem Later.refl (a : Arena α) : a.Later a :=
  fun _ s found => ⟨s, found, Nat.le_refl _⟩

theorem Later.trans {a a' a'' : Arena α} (first : a.Later a') (second : a'.Later a'') :
    a.Later a'' := by
  intro i s found
  obtain ⟨s', found', before⟩ := first i s found
  obtain ⟨s'', found'', after⟩ := second i s' found'
  exact ⟨s'', found'', Nat.le_trans before after⟩

theorem later_of_slots_set {a a' : Arena α} {i : Nat} {s : Slot α}
    (slots : a'.slots = a.slots.set i s)
    (older : ∀ old, a.slots[i]? = some old → old.generation ≤ s.generation) : a.Later a' := by
  intro j old found
  have bound : j < a.slots.length := (List.getElem?_eq_some_iff.mp found).1
  rw [slots, List.getElem?_set]
  by_cases place : i = j
  · subst place
    rw [if_pos rfl, if_pos bound]
    exact ⟨s, rfl, older old found⟩
  · rw [if_neg place]
    exact ⟨old, found, Nat.le_refl _⟩

theorem later_insert (a : Arena α) (object : α) : a.Later (a.insert kind object).2 := by
  -- A vacant slot is taken in the generation that it is in.
  rcases a.insert_cases object with ⟨i, generation, vacant, -, slots⟩ | ⟨-, slots⟩
  · refine later_of_slots_set slots fun old found => ?_
    rw [vacant] at found
    cases found
    exact Nat.le_refl _
  · intro i s found
    have bound : i < a.slots.length := (List.getElem?_eq_some_iff.mp found).1
    rw [slots, List.getElem?_append_left bound]
    exact ⟨s, found, Nat.le_refl _⟩

theorem later_modify (a : Arena α) (h : Handle kind) (f : α → α) : a.Later (a.modify h f) := by
  unfold modify
  cases found : a.get? h with
  | none => exact .refl a
  | some object =>
    refine later_of_slots_set (slots_set found (f object)) fun old here => ?_
    rw [get?_eq_some_iff.mp found] at here
    cases here
    exact Nat.le_refl _

theorem later_erase (a : Arena α) (h : Handle kind) : a.Later (a.erase h) := by
  cases found : a.get? h with
  | none =>
    rw [erase_of_stale found]
    exact .refl a
  | some object =>
    -- This is the one edit that takes a slot to its next generation.
    refine later_of_slots_set (slots_erase found) fun old here => ?_
    rw [get?_eq_some_iff.mp found] at here
    cases here
    exact Nat.le_succ _

/-- The slot of a handle has gone on to a later generation. -/
def Retired (a : Arena α) (h : Handle kind) : Prop :=
  ∃ s, a.slots[h.slot]? = some s ∧ h.generation < s.generation

/-- A retired handle is stale for good. -/
theorem Retired.later {a a' : Arena α} {h : Handle kind} (retired : a.Retired h)
    (later : a.Later a') : a'.Retired h := by
  obtain ⟨s, found, older⟩ := retired
  obtain ⟨s', found', after⟩ := later h.slot s found
  exact ⟨s', found', Nat.lt_of_lt_of_le older after⟩

theorem Retired.get? {a : Arena α} {h : Handle kind} (retired : a.Retired h) :
    a.get? h = none := by
  obtain ⟨s, found, older⟩ := retired
  have other : s.generation ≠ h.generation := Nat.ne_of_gt older
  simp [Arena.get?, found, other]

/-- The handle of an object that is freed is retired. -/
theorem retired_erase {a : Arena α} {h : Handle kind} {object : α}
    (found : a.get? h = some object) : (a.erase h).Retired h := by
  refine ⟨⟨h.generation + 1, none⟩, ?_, Nat.lt_succ_self _⟩
  rw [slots_erase found, List.getElem?_set, if_pos rfl, if_pos (bound_of_get? found)]

/-! ## Slots in common -/

/-- Two arenas have as many slots, in the same generations, and the same of them are vacant. -/
structure SameSlots (a a' : Arena α) : Prop where
  generations : a'.slots.map Slot.generation = a.slots.map Slot.generation
  free : a'.free = a.free

theorem SameSlots.refl (a : Arena α) : a.SameSlots a :=
  ⟨rfl, rfl⟩

theorem SameSlots.trans {a a' a'' : Arena α} (first : a.SameSlots a') (second : a'.SameSlots a'') :
    a.SameSlots a'' :=
  ⟨second.generations.trans first.generations, second.free.trans first.free⟩

theorem SameSlots.symm {a a' : Arena α} (same : a.SameSlots a') : a'.SameSlots a :=
  ⟨same.generations.symm, same.free.symm⟩

theorem SameSlots.capacity {a a' : Arena α} (same : a.SameSlots a') : a'.capacity = a.capacity := by
  simpa [Arena.capacity] using congrArg List.length same.generations

theorem SameSlots.slot {a a' : Arena α} (same : a.SameSlots a') {i : Nat} {s : Slot α}
    (found : a.slots[i]? = some s) :
    ∃ s', a'.slots[i]? = some s' ∧ s'.generation = s.generation := by
  have generation : (a'.slots.map Slot.generation)[i]? = (a.slots.map Slot.generation)[i]? := by
    rw [same.generations]
  rwa [List.getElem?_map, List.getElem?_map, found, Option.map_some, Option.map_eq_some_iff]
    at generation

/-- Where the slots are the same, the same handles are live. -/
theorem SameSlots.exists_get? {a a' : Arena α} (same : a.SameSlots a') {h : Handle kind}
    {object : α} (found : a.get? h = some object) : ∃ object', a'.get? h = some object' := by
  have slot := get?_eq_some_iff.mp found
  obtain ⟨⟨generation, content⟩, slot', current⟩ := same.slot slot
  -- A vacant slot would be on the free list of both arenas.
  have occupied : h.slot ∉ a'.free := by
    rw [same.free, a.mem_free_iff]
    rintro ⟨s, here, vacant⟩
    rw [slot] at here
    cases here
    cases vacant
  rw [a'.mem_free_iff] at occupied
  cases content with
  | none => exact absurd ⟨_, slot', rfl⟩ occupied
  | some object' =>
    cases current
    exact ⟨object', get?_eq_some_iff.mpr slot'⟩

/-- Arenas with the same slots in which every handle finds the same are equal. -/
theorem SameSlots.eq {a a' : Arena α} (same : a.SameSlots a')
    (found : ∀ h : Handle kind, a'.get? h = a.get? h) : a' = a := by
  have slots : a'.slots = a.slots := by
    refine List.ext_getElem? fun i => ?_
    cases slot : a.slots[i]? with
    | none =>
      have lengths := congrArg List.length same.generations
      rw [List.length_map, List.length_map] at lengths
      rw [List.getElem?_eq_none_iff] at slot ⊢
      omega
    | some s =>
      obtain ⟨s', slot', current⟩ := same.slot slot
      have content := found ⟨i, s.generation⟩
      simp only [get?, slot, slot', current, ↓reduceIte] at content
      cases s
      cases s'
      simp_all
  have free := same.free
  cases a
  cases a'
  simp_all

theorem sameSlots_modify (a : Arena α) (h : Handle kind) (f : α → α) :
    a.SameSlots (a.modify h f) := by
  unfold modify
  cases found : a.get? h with
  | none => exact .refl a
  | some object =>
    have live : (a.get? h).isSome := by rw [found]; rfl
    refine ⟨?_, by simp only [set, dif_pos live]⟩
    rw [slots_set found, List.map_set]
    refine List.ext_getElem? fun i => ?_
    rw [List.getElem?_set]
    by_cases place : h.slot = i
    · subst place
      rw [if_pos rfl, List.length_map, if_pos (bound_of_get? found), List.getElem?_map,
        get?_eq_some_iff.mp found, Option.map_some]
    · rw [if_neg place]

theorem SameSlots.erase {a a' : Arena α} (same : a.SameSlots a') (h : Handle kind) :
    (a.erase h).SameSlots (a'.erase h) := by
  cases found : a.get? h with
  | some object =>
    obtain ⟨object', found'⟩ := same.exists_get? found
    have live : (a.get? h).isSome := by rw [found]; rfl
    have live' : (a'.get? h).isSome := by rw [found']; rfl
    refine ⟨?_, by simp only [Arena.erase, dif_pos live, dif_pos live', same.free]⟩
    rw [slots_erase found, slots_erase found', List.map_set, List.map_set, same.generations]
  | none =>
    have stale : a'.get? h = none := by
      cases found' : a'.get? h with
      | none => rfl
      | some object' =>
        obtain ⟨object, live⟩ := same.symm.exists_get? found'
        rw [found] at live
        cases live
    rw [erase_of_stale found, erase_of_stale stale]
    exact same

end Arena

end HardwareIR
