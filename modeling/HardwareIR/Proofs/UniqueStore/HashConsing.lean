import HardwareIR.Proofs.UniqueStore.Requests
import Mathlib.Data.Set.Card

/-! # Hash-consing

A unique store is a hash-consing table for any keys (`UniqueStore.hash_consing`).  Keys may be the
same for values that are not equal, and differ for values that are.  A value is found exactly at the
index that was given for an equal one under the same key; other values get an index of their own.
-/

namespace HardwareIR

namespace UniqueStore

variable {κ α : Type} {equal : α → α → Bool} {s : UniqueStore κ α} {entries : List (Entry κ α)}
  {requests : List (Request κ α)} {key key' : κ} {value value' : α} {index : Nat}

/-! ## Counting -/

/-- A key and all that is equal to a value. -/
def classOf (equal : α → α → Bool) (key : κ) (value : α) : κ × Set α :=
  (key, {other | equal value other = true})

section Counting

variable (equivalence : Equivalence fun value value' => equal value value' = true)
include equivalence

theorem classOf_eq_iff : classOf equal key value = classOf equal key' value' ↔
    key = key' ∧ equal value value' = true := by
  rw [classOf, classOf, Prod.mk.injEq]
  refine and_congr_right fun _ => ⟨fun classes => ?_, fun same => ?_⟩
  · have mem : value' ∈ {other | equal value other = true} := by
      rw [classes]
      exact equivalence.refl value'
    exact mem
  · ext other
    exact ⟨equivalence.trans (equivalence.symm same), equivalence.trans same⟩

theorem Recorded.nodup_classes (recorded : Recorded equal entries s) :
    (s.items.map fun item => classOf equal item.1 item.2).Nodup := by
  refine List.nodup_iff_getElem?_ne_getElem?.mpr fun i j before bound same => ?_
  rw [List.length_map] at bound
  rw [List.getElem?_map, List.getElem?_map, List.getElem?_eq_getElem bound,
    List.getElem?_eq_getElem (before.trans bound), Option.map_some, Option.map_some,
    Option.some.injEq, classOf_eq_iff equivalence] at same
  have stored : s.items[i]? = some (s.items[j].1, s.items[i].2) := by
    rw [List.getElem?_eq_getElem (before.trans bound), ← same.1]
  have stored' : s.items[j]? = some (s.items[j].1, s.items[j].2) :=
    List.getElem?_eq_getElem bound
  exact Nat.ne_of_lt before (recorded.apart i j _ _ _ stored stored' same.2)

theorem Recorded.mem_classes_iff (recorded : Recorded equal entries s) {c : κ × Set α} :
    c ∈ s.items.map (fun item => classOf equal item.1 item.2) ↔
      ∃ entry ∈ entries, classOf equal entry.key entry.value = c := by
  rw [List.mem_map]
  constructor
  · rintro ⟨⟨key, value⟩, mem, rfl⟩
    obtain ⟨index, stored⟩ := List.mem_iff_getElem?.mp mem
    exact ⟨⟨key, value, index⟩, recorded.stored _ _ _ stored, rfl⟩
  · rintro ⟨entry, mem, rfl⟩
    obtain ⟨value, stored, same⟩ := recorded.stands entry mem
    refine ⟨(entry.key, value), List.mem_of_getElem? stored, ?_⟩
    exact (classOf_eq_iff equivalence).mpr ⟨rfl, equivalence.symm same⟩

/-- There are as many stored values as classes of values that were interned. -/
theorem Recorded.size_eq_ncard (recorded : Recorded equal entries s) :
    s.size = {c | ∃ entry ∈ entries, classOf equal entry.key entry.value = c}.ncard := by
  classical
  have listed : {c | ∃ entry ∈ entries, classOf equal entry.key entry.value = c} =
      ((s.items.map fun item => classOf equal item.1 item.2).toFinset : Set (κ × Set α)) := by
    ext c
    exact ((List.mem_toFinset).trans (recorded.mem_classes_iff equivalence)).symm
  rw [listed, Set.ncard_coe_finset,
    List.toFinset_card_of_nodup (recorded.nodup_classes equivalence), List.length_map, size]

end Counting

variable [DecidableEq κ]

/-! ## Growth -/

/-- Stored values stay where they are. -/
theorem prefix_run (equal : α → α → Bool) (request : Request κ α) (s : UniqueStore κ α) :
    s.items <+: (request.run equal s).2.items := by
  cases request with
  | lookup key wanted => exact List.prefix_rfl
  | intern key value =>
    rw [Request.run]
    rcases s.intern_cases key value equal with ⟨index, -, interned⟩ | ⟨-, interned⟩
    · rw [interned]
    · rw [interned]
      exact List.prefix_append _ _

theorem prefix_after (equal : α → α → Bool) (requests : List (Request κ α))
    (s : UniqueStore κ α) : s.items <+: (after (Request.run equal) requests s).items := by
  induction requests generalizing s with
  | nil => exact List.prefix_rfl
  | cons request rest ih => exact (prefix_run equal request s).trans (ih _)

theorem get?_after (found : s.get? index = some value) :
    (after (Request.run equal) requests s).get? index = some value := by
  obtain ⟨key, stored⟩ := get?_eq_some_iff.mp found
  obtain ⟨later, appended⟩ := prefix_after equal requests s
  have bound := (List.getElem?_eq_some_iff.mp stored).1
  refine get?_eq_some_iff.mpr ⟨key, ?_⟩
  rw [← appended, List.getElem?_append_left bound]
  exact stored

theorem lt_size_of_lookup {wanted : α → Bool} (found : s.lookup key wanted = some index) :
    index < s.size := by
  obtain ⟨value, stored, -⟩ := lookup_eq_some_iff.mp found
  exact (List.getElem?_eq_some_iff.mp stored).1

theorem lt_size_of_run {request : Request κ α} (answer : (request.run equal s).1 = some index) :
    index < (request.run equal s).2.size := by
  cases request with
  | lookup key wanted => exact lt_size_of_lookup answer
  | intern key value =>
    rw [Request.run] at answer ⊢
    rcases s.intern_cases key value equal with ⟨index', found, interned⟩ | ⟨-, interned⟩
    · rw [interned] at answer ⊢
      cases answer
      exact lt_size_of_lookup found
    · rw [interned] at answer ⊢
      cases answer
      simp [size]

/-- An index that was given is that of a stored value. -/
theorem lt_size_of_mem_answers (given : some index ∈ answers (Request.run equal) requests s) :
    index < (after (Request.run equal) requests s).size := by
  induction requests generalizing s with
  | nil => cases given
  | cons request rest ih =>
    rcases List.mem_cons.mp given with answer | later
    · exact Nat.lt_of_lt_of_le (lt_size_of_run answer.symm) (prefix_after equal rest _).length_le
    · exact ih later

theorem mem_answers_of_mem_entries
    (mem : (⟨key, value, index⟩ : Entry κ α) ∈ entriesOf equal requests s) :
    some index ∈ answers (Request.run equal) requests s := by
  induction requests generalizing s with
  | nil => cases mem
  | cons request rest ih =>
    rcases List.mem_append.mp mem with now | later
    · cases request with
      | lookup => cases now
      | intern =>
        cases List.mem_singleton.mp now
        exact List.mem_cons_self
    · exact List.mem_cons_of_mem _ (ih later)

/-! ## Finding what was interned -/

/-- Under `key`, a value that is equal to `value` was interned and given `index`. -/
def Interned (equal : α → α → Bool) (entries : List (Entry κ α)) (key : κ) (value : α)
    (index : Nat) : Prop :=
  ∃ value', ⟨key, value', index⟩ ∈ entries ∧ equal value value' = true

/-- What a lookup finds was interned, under the key and as a value that is wanted. -/
theorem Recorded.of_lookup (recorded : Recorded equal entries s) {wanted : α → Bool}
    (found : s.lookup key wanted = some index) :
    ∃ value, ⟨key, value, index⟩ ∈ entries ∧ s.get? index = some value ∧ wanted value = true := by
  obtain ⟨value, stored, want, -⟩ := lookup_eq_some_iff.mp found
  exact ⟨value, recorded.stored _ _ _ stored, get?_eq_some_iff.mpr ⟨key, stored⟩, want⟩

/-- A lookup fails just if no value is wanted that stands for what was interned under the key. -/
theorem Recorded.lookup_none_iff (recorded : Recorded equal entries s) {wanted : α → Bool} :
    s.lookup key wanted = none ↔ ∀ entry ∈ entries, entry.key = key →
      ∀ value, s.get? entry.index = some value → wanted value = false := by
  rw [lookup_eq_none_iff]
  constructor
  · rintro none entry mem rfl value found
    obtain ⟨value', stored, -⟩ := recorded.stands entry mem
    obtain ⟨key', stored'⟩ := get?_eq_some_iff.mp found
    rw [stored] at stored'
    cases stored'
    exact none value (List.mem_of_getElem? stored)
  · intro none value mem
    obtain ⟨index, stored⟩ := List.mem_iff_getElem?.mp mem
    exact none _ (recorded.stored _ _ _ stored) rfl value (get?_eq_some_iff.mpr ⟨key, stored⟩)

section Equivalence

variable (equivalence : Equivalence fun value value' => equal value value' = true)
include equivalence

/-- A lookup finds the one value that stands for those that were interned and are equal. -/
theorem Recorded.lookup_equal_iff (recorded : Recorded equal entries s) :
    s.lookup key (equal value) = some index ↔ Interned equal entries key value index := by
  rw [lookup_eq_some_iff]
  constructor
  · rintro ⟨value', stored, same, -⟩
    exact ⟨value', recorded.stored _ _ _ stored, same⟩
  · rintro ⟨value', mem, same⟩
    obtain ⟨kept, stored, same'⟩ := recorded.stands _ mem
    have alike : equal value kept = true := equivalence.trans same same'
    refine ⟨kept, stored, alike, fun earlier before other stored' => ?_⟩
    -- If an earlier value were equal as well, there would be two for the same entries.
    by_contra unequal
    have alike' : equal other kept = true :=
      equivalence.trans (equivalence.symm (Bool.eq_true_of_not_eq_false unequal)) alike
    exact Nat.ne_of_lt before (recorded.apart _ _ _ _ _ stored' stored alike')

/-- What was not interned before is given an index that was not given before. -/
theorem Recorded.intern_of_new (recorded : Recorded equal entries s)
    (new : ∀ index, ¬ Interned equal entries key value index) :
    s.intern key value equal = (s.size, ⟨s.items ++ [(key, value)]⟩) := by
  rcases s.intern_cases key value equal with ⟨index, found, -⟩ | ⟨-, interned⟩
  · exact absurd ((recorded.lookup_equal_iff equivalence).mp found) (new index)
  · exact interned

/-- What was interned before is given its index again. -/
theorem Recorded.intern_of_old (recorded : Recorded equal entries s)
    (old : Interned equal entries key value index) :
    s.intern key value equal = (index, s) := by
  rw [UniqueStore.intern, (recorded.lookup_equal_iff equivalence).mpr old]

end Equivalence

/-! ## The table -/

/-- After requests to an empty store, the store is a hash-consing table of what was interned. -/
structure HashConsing (equal : α → α → Bool) (past : List (Request κ α)) : Prop where
  /-- Interning gives an index once more just if an equal value was interned under the key. -/
  given_before_iff : ∀ key value,
    some ((store equal past).intern key value equal).1 ∈ given equal past ↔
      ∃ index, Interned equal (interned equal past) key value index
  /-- It is then the index that was given for the equal value, and nothing is stored. -/
  intern_old : ∀ key value index, Interned equal (interned equal past) key value index →
    (store equal past).intern key value equal = (index, store equal past)
  /-- Otherwise it is the index of no value that is stored so far, but now of this one. -/
  intern_new : ∀ key value, (∀ index, ¬ Interned equal (interned equal past) key value index) →
    (store equal past).get? ((store equal past).intern key value equal).1 = none ∧
    ((store equal past).intern key value equal).2.get?
      ((store equal past).intern key value equal).1 = some value
  /-- A lookup of what is equal to a value finds the index that was given for an equal value. -/
  lookup_equal_iff : ∀ key value index,
    (store equal past).lookup key (equal value) = some index ↔
      Interned equal (interned equal past) key value index
  /-- Whatever a lookup is for, it finds an index that was given for a value under the key. -/
  lookup_found : ∀ key wanted index, (store equal past).lookup key wanted = some index →
    ∃ value, ⟨key, value, index⟩ ∈ interned equal past ∧
      (store equal past).get? index = some value ∧ wanted value = true
  /-- It finds nothing just if no value is wanted that was stored under the key. -/
  lookup_failed : ∀ key wanted, (store equal past).lookup key wanted = none ↔
    ∀ entry ∈ interned equal past, entry.key = key →
      ∀ value, (store equal past).get? entry.index = some value → wanted value = false
  /-- A lookup makes no difference to the store, neither at once nor later. -/
  lookup_unnoticed : ∀ key wanted future,
    store equal (past ++ .lookup key wanted :: future) = store equal (past ++ future)
  /-- At the index that was given for a value, an equal value is stored. -/
  stored : ∀ entry ∈ interned equal past, ∃ value,
    (store equal past).get? entry.index = some value ∧ equal entry.value value = true
  /-- It stays there, whatever requests come next. -/
  kept : ∀ index value future, (store equal past).get? index = some value →
    (store equal (past ++ future)).get? index = some value
  /-- The size is the number of keys with a class of equal values that were interned. -/
  size_eq : (store equal past).size =
    {c | ∃ entry ∈ interned equal past, classOf equal entry.key entry.value = c}.ncard
  isEmpty_iff : (store equal past).isEmpty = true ↔ (store equal past).size = 0
  /-- A store with buckets is in step with the store after the same requests. -/
  in_step : bucketStore equal past = (store equal past).bucketed
  /-- It has given the same answers to them. -/
  answers_alike : answers (Request.runBucketed equal) past {} = given equal past
  /-- It holds the same values at the same indices. -/
  values_alike : ∀ index, (bucketStore equal past).get? index = (store equal past).get? index
  size_alike : (bucketStore equal past).size = (store equal past).size
  isEmpty_alike : (bucketStore equal past).isEmpty = (store equal past).isEmpty

theorem recorded_store (equivalence : Equivalence fun value value' => equal value value' = true)
    (past : List (Request κ α)) : Recorded equal (interned equal past) (store equal past) :=
  recorded_empty.after equivalence past

theorem bucketStore_in_step (equal : α → α → Bool) (past : List (Request κ α)) :
    bucketStore equal past = (store equal past).bucketed ∧
      answers (Request.runBucketed equal) past {} = given equal past :=
  after_layout (Request.run_bucketed equal) past {}

/-- Of an index that interning gives once more, there is an entry already. -/
theorem given_intern_iff (equivalence : Equivalence fun value value' => equal value value' = true)
    (past : List (Request κ α)) (key : κ) (value : α) :
    some ((store equal past).intern key value equal).1 ∈ given equal past ↔
      ∃ index, Interned equal (interned equal past) key value index := by
  have recorded := recorded_store equivalence past
  constructor
  · intro before
    by_contra new
    rw [recorded.intern_of_new equivalence (not_exists.mp new)] at before
    exact Nat.lt_irrefl _ (lt_size_of_mem_answers before)
  · rintro ⟨index, old⟩
    rw [recorded.intern_of_old equivalence old]
    obtain ⟨value', mem, -⟩ := old
    exact mem_answers_of_mem_entries mem

theorem store_append (past future : List (Request κ α)) :
    store equal (past ++ future) = after (Request.run equal) future (store equal past) :=
  after_append (Request.run equal) past future {}

/-- Interning by an equality that is an equivalence makes a hash-consing table, whatever keys the
values come with. -/
theorem hash_consing (equivalence : Equivalence fun value value' => equal value value' = true)
    (past : List (Request κ α)) : HashConsing equal past := by
  have recorded := recorded_store equivalence past
  obtain ⟨layout, answered⟩ := bucketStore_in_step equal past
  exact {
    given_before_iff := fun key value => given_intern_iff equivalence past key value
    intern_old := fun key value index old => recorded.intern_of_old equivalence old
    intern_new := by
      intro key value new
      rw [recorded.intern_of_new equivalence new]
      constructor <;> simp [get?, size]
    lookup_equal_iff := fun key value index => recorded.lookup_equal_iff equivalence
    lookup_found := fun key wanted index found => recorded.of_lookup found
    lookup_failed := fun key wanted => recorded.lookup_none_iff
    lookup_unnoticed := by
      intro key wanted future
      rw [store_append, store_append]
      rfl
    stored := by
      intro entry mem
      obtain ⟨value, stored, same⟩ := recorded.stands entry mem
      exact ⟨value, get?_eq_some_iff.mpr ⟨entry.key, stored⟩, same⟩
    kept := by
      intro index value future found
      rw [store_append]
      exact get?_after found
    size_eq := recorded.size_eq_ncard equivalence
    isEmpty_iff := by simp [isEmpty, size]
    in_step := layout
    answers_alike := answered
    values_alike := by
      intro index
      rw [layout, get?_bucketed]
    size_alike := by
      rw [layout, size_bucketed]
    isEmpty_alike := by
      rw [layout, isEmpty_bucketed] }

/-- The remainders of two numbers are the same. -/
def sameRemainder (m n : Nat) : Bool :=
  m % 4 == n % 4

/-- Numbers under one key of which two are equal, and a number that is equal to one of them under
another key. -/
def remainderRequests : List (Request Nat Nat) :=
  [.intern 0 1, .intern 0 2, .intern 7 1, .lookup 0 (sameRemainder 6), .intern 0 5]

theorem hash_consing_remainders :
    (Equivalence fun m n => sameRemainder m n = true) ∧
      HashConsing sameRemainder remainderRequests ∧
      given sameRemainder remainderRequests = [some 0, some 1, some 2, some 1, some 0] ∧
      (store sameRemainder remainderRequests).size = 3 := by
  have equivalence : Equivalence fun m n => sameRemainder m n = true := by
    simp only [sameRemainder, beq_iff_eq]
    exact ⟨fun _ => rfl, Eq.symm, Eq.trans⟩
  exact ⟨equivalence, hash_consing equivalence remainderRequests, by decide, by decide⟩

end UniqueStore

end HardwareIR
