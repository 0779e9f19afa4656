import HardwareIR.UniqueStore

/-! # Looking things up in a unique store

A lookup finds the first value under a key that is wanted, and `UniqueStore.intern` answers with
what a lookup finds or puts the value at the end.
-/

namespace HardwareIR

namespace UniqueStore

variable {κ α : Type} [DecidableEq κ] {s : UniqueStore κ α} {key : κ} {wanted : α → Bool}
  {index : Nat}

theorem lookup_eq_some_iff : s.lookup key wanted = some index ↔
    ∃ value, s.items[index]? = some (key, value) ∧ wanted value = true ∧
      ∀ earlier < index, ∀ value', s.items[earlier]? = some (key, value') →
        wanted value' = false := by
  rw [lookup, List.findIdx?_eq_some_iff_getElem]
  constructor
  · rintro ⟨bound, matching, first⟩
    simp only [Bool.and_eq_true, beq_iff_eq] at matching
    refine ⟨s.items[index].2, ?_, matching.2, ?_⟩
    · rw [List.getElem?_eq_getElem bound, ← matching.1]
    · intro earlier before value' stored
      obtain ⟨inside, same⟩ := List.getElem?_eq_some_iff.mp stored
      simpa [same] using first earlier before
  · rintro ⟨value, stored, want, first⟩
    obtain ⟨bound, same⟩ := List.getElem?_eq_some_iff.mp stored
    refine ⟨bound, by simp [same, want], fun earlier before => ?_⟩
    have inside : earlier < s.items.length := by omega
    -- An earlier item is filed under another key, or its value is not wanted.
    by_cases filed : s.items[earlier].1 = key
    · have stored' : s.items[earlier]? = some (key, s.items[earlier].2) := by
        rw [List.getElem?_eq_getElem inside, ← filed]
      simp [first earlier before _ stored']
    · simp [filed]

theorem lookup_eq_none_iff : s.lookup key wanted = none ↔
    ∀ value, (key, value) ∈ s.items → wanted value = false := by
  rw [lookup, List.findIdx?_eq_none_iff]
  constructor
  · intro none value mem
    simpa using none (key, value) mem
  · rintro none ⟨key', value⟩ mem
    by_cases filed : key' = key
    · subst filed
      simp [none value mem]
    · simp [filed]

end UniqueStore

end HardwareIR
