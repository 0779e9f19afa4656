import HardwareIR.Proofs.TypeStore.Grounded
import HardwareIR.Proofs.UniqueStore

/-! # Unique type stores

Types are filed by the hashes of their digests, each of them once (`TypeStore.Unique`).  In such a
store a type is found exactly at its handle, so that handles are as good as types.  It does not
matter which types have a hash in common: a type is filed by its own hash, and is compared with all
types that are filed by it.
-/

namespace HardwareIR

namespace TypeStore

variable {s : TypeStore} {ty ty' : TypeRef} {t : IRType}

/-- Types are filed by the hashes of their digests, each once. -/
structure Unique (s : TypeStore) : Prop where
  filed : ∀ item ∈ s.items, item.1 = s.key item.2
  distinct : (s.items.map (·.2)).Nodup

theorem empty_unique (hash : Digest → UInt64) : Unique { hash } :=
  ⟨fun _ mem => absurd mem List.not_mem_nil, List.nodup_nil⟩

theorem items_of_get (unique : s.Unique) (found : s.get ty = .ok t) :
    s.items[ty.index]? = some (s.key t, t) := by
  obtain ⟨⟨key, t'⟩, stored, same⟩ := Option.map_eq_some_iff.mp (get_eq_ok.mp found)
  have filed : key = s.key t' := unique.filed _ (List.mem_of_getElem? stored)
  rw [stored, filed, ← same]

/-- A type has one handle. -/
theorem Unique.eq_of_get (unique : s.Unique) (found : s.get ty = .ok t)
    (found' : s.get ty' = .ok t) : ty = ty' := by
  have bound := has_iff.mp ⟨t, found⟩
  have same : (s.items.map (·.2))[ty.index]? = (s.items.map (·.2))[ty'.index]? := by
    rw [List.getElem?_map, List.getElem?_map, get_eq_ok.mp found, get_eq_ok.mp found']
  have index : ty.index = ty'.index :=
    (List.getElem?_inj (by simpa using bound) unique.distinct).mp same
  cases ty
  cases ty'
  exact congrArg TypeRef.mk index

/-- What is found is a handle of the type. -/
theorem get_of_find? (found : s.find? t = some ty) : s.get ty = .ok t := by
  obtain ⟨index, looked, rfl⟩ := Option.map_eq_some_iff.mp found
  obtain ⟨t', stored, same, -⟩ := UniqueStore.lookup_eq_some_iff.mp looked
  rw [of_decide_eq_true same, get_eq_ok, stored]
  rfl

/-- What is found is the handle of the type, and every type that has a handle is found. -/
theorem Unique.find?_eq_some_iff (unique : s.Unique) : s.find? t = some ty ↔ s.get ty = .ok t := by
  refine ⟨get_of_find?, fun found => ?_⟩
  cases looked : s.find? t with
  | some ty' => rw [unique.eq_of_get (get_of_find? looked) found]
  | none =>
    have absent := UniqueStore.lookup_eq_none_iff.mp (Option.map_eq_none_iff.mp looked)
    have mem := List.mem_of_getElem? (items_of_get unique found)
    simpa [equal] using absent t mem

theorem Unique.find?_eq_none_iff (unique : s.Unique) :
    s.find? t = none ↔ ∀ ty, s.get ty ≠ .ok t := by
  rw [Option.eq_none_iff_forall_ne_some]
  exact forall_congr' fun ty => not_congr unique.find?_eq_some_iff

/-! ## Growth -/

/-- Types are filed alike all the time. -/
theorem key_add (s : TypeStore) (t t' : IRType) : (s.add t).2.key t' = s.key t' := rfl

theorem get_add_self (s : TypeStore) (t : IRType) : (s.add t).2.get (s.add t).1 = .ok t := by
  rcases s.add_cases t with ⟨found, same⟩ | ⟨-, last, appended⟩
  · rw [same]
    exact get_of_find? found
  · rw [get_eq_ok, appended, last]
    simp

theorem Unique.add (unique : s.Unique) (t : IRType) : (s.add t).2.Unique := by
  rcases s.add_cases t with ⟨-, same⟩ | ⟨absent, -, appended⟩
  · rw [same]
    exact unique
  · constructor
    · rw [appended]
      intro item mem
      rw [key_add]
      rcases List.mem_append.mp mem with old | new
      · exact unique.filed item old
      · rw [List.mem_singleton.mp new]
    · rw [appended, List.map_append, List.nodup_append]
      refine ⟨unique.distinct, by simp, ?_⟩
      rintro t' old t'' new rfl
      -- A type that is in the store already would have been found.
      rw [List.map_singleton, List.mem_singleton] at new
      subst new
      obtain ⟨index, stored⟩ := List.mem_iff_getElem?.mp old
      rw [List.getElem?_map] at stored
      exact unique.find?_eq_none_iff.mp absent ⟨index⟩ (get_eq_ok.mpr stored)

/-- A handle after a type was added is an old one or that of the type. -/
theorem has_add (has : (s.add t).2.Has ty) : s.Has ty ∨ ty = (s.add t).1 := by
  rcases s.add_cases t with ⟨-, same⟩ | ⟨-, last, appended⟩
  · rw [same] at has
    exact .inl has
  · rw [has_iff, appended, List.length_append, List.length_singleton] at has
    by_cases old : ty.index < s.items.length
    · exact .inl (has_iff.mpr old)
    · refine .inr ?_
      have index : ty.index = s.items.length := by omega
      rw [last, ← index]

end TypeStore

end HardwareIR
