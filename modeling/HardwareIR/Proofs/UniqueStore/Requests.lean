import HardwareIR.Proofs.UniqueStore
import HardwareIR.Proofs.UniqueStore.Buckets

/-! # Requests to a unique store

A unique store is used by interning values and by looking values up (`Request`).  `Recorded` relates
a store to what was interned in it: a value that it holds stands for all the values that were
interned under its key and are equal to it, and is at the index that was given for them.  Every
request keeps this (`Recorded.run`), whatever keys the values come with, and so does any number of
them (`Recorded.after`).
-/

namespace HardwareIR

namespace UniqueStore

/-- A use of a unique store. -/
inductive Request (κ α : Type) where
  | intern (key : κ) (value : α)
  | lookup (key : κ) (wanted : α → Bool)

/-- A value that was interned, under which key, and the index that was given for it. -/
structure Entry (κ α : Type) where
  key : κ
  value : α
  index : Nat

/-! ## Runs

Requests are served one after another.  How one of them is served depends on how the store is laid
out.
-/

section Runs

variable {κ α σ τ : Type}

/-- What requests make of a store. -/
def after (serve : Request κ α → σ → Option Nat × σ) : List (Request κ α) → σ → σ
  | [], s => s
  | request :: rest, s => after serve rest (serve request s).2

/-- The answers to requests. -/
def answers (serve : Request κ α → σ → Option Nat × σ) : List (Request κ α) → σ → List (Option Nat)
  | [], _ => []
  | request :: rest, s => (serve request s).1 :: answers serve rest (serve request s).2

theorem after_append (serve : Request κ α → σ → Option Nat × σ) (past future : List (Request κ α))
    (s : σ) : after serve (past ++ future) s = after serve future (after serve past s) := by
  induction past generalizing s with
  | nil => rfl
  | cons request rest ih => exact ih _

variable {serve : Request κ α → σ → Option Nat × σ} {serve' : Request κ α → τ → Option Nat × τ}
  {layout : σ → τ}

/-- Two layouts that every request keeps in step are in step after any requests, and the answers on
them are the same. -/
theorem after_layout
    (step : ∀ request s, serve' request (layout s) =
      ((serve request s).1, layout (serve request s).2))
    (requests : List (Request κ α)) (s : σ) :
    after serve' requests (layout s) = layout (after serve requests s) ∧
      answers serve' requests (layout s) = answers serve requests s := by
  induction requests generalizing s with
  | nil => exact ⟨rfl, rfl⟩
  | cons request rest ih =>
    obtain ⟨served, answered⟩ := ih (serve request s).2
    simp only [after, answers, step]
    exact ⟨served, by rw [answered]⟩

end Runs

variable {κ α : Type} [DecidableEq κ]

def Request.run (equal : α → α → Bool) (request : Request κ α) (s : UniqueStore κ α) :
    Option Nat × UniqueStore κ α :=
  match request with
  | .intern key value => (some (s.intern key value equal).1, (s.intern key value equal).2)
  | .lookup key wanted => (s.lookup key wanted, s)

def Request.runBucketed (equal : α → α → Bool) (request : Request κ α) (b : BucketStore κ α) :
    Option Nat × BucketStore κ α :=
  match request with
  | .intern key value => (some (b.intern key value equal).1, (b.intern key value equal).2)
  | .lookup key wanted => (b.lookup key wanted, b)

theorem Request.run_bucketed (equal : α → α → Bool) (request : Request κ α)
    (s : UniqueStore κ α) :
    request.runBucketed equal s.bucketed =
      ((request.run equal s).1, (request.run equal s).2.bucketed) := by
  cases request with
  | intern key value => rw [runBucketed, intern_bucketed, run]
  | lookup key wanted => rw [runBucketed, lookup_bucketed, run]

/-- What a request adds to what was interned. -/
def Request.entries (equal : α → α → Bool) (s : UniqueStore κ α) :
    Request κ α → List (Entry κ α)
  | .intern key value => [⟨key, value, (s.intern key value equal).1⟩]
  | .lookup _ _ => []

/-- What requests add to what was interned. -/
def entriesOf (equal : α → α → Bool) : List (Request κ α) → UniqueStore κ α → List (Entry κ α)
  | [], _ => []
  | request :: rest, s => request.entries equal s ++ entriesOf equal rest (request.run equal s).2

/-- The store that requests to an empty one lead to. -/
def store (equal : α → α → Bool) (past : List (Request κ α)) : UniqueStore κ α :=
  after (Request.run equal) past {}

/-- The answers that were given to requests to an empty store. -/
def given (equal : α → α → Bool) (past : List (Request κ α)) : List (Option Nat) :=
  answers (Request.run equal) past {}

/-- What was interned by requests to an empty store. -/
def interned (equal : α → α → Bool) (past : List (Request κ α)) : List (Entry κ α) :=
  entriesOf equal past {}

/-- The store with buckets that requests to an empty one lead to. -/
def bucketStore (equal : α → α → Bool) (past : List (Request κ α)) : BucketStore κ α :=
  after (Request.runBucketed equal) past {}

/-! ## The record -/

section Records

variable {equal : α → α → Bool} {s : UniqueStore κ α} {entries : List (Entry κ α)}
  {key : κ} {value : α} {index : Nat}

omit [DecidableEq κ] in
theorem get?_eq_some_iff :
    s.get? index = some value ↔ ∃ key, s.items[index]? = some (key, value) := by
  rw [get?, Option.map_eq_some_iff]
  constructor
  · rintro ⟨⟨key, _⟩, stored, rfl⟩
    exact ⟨key, stored⟩
  · rintro ⟨key, stored⟩
    exact ⟨(key, value), stored, rfl⟩

/-- A value is interned at the index where one is found, or else at the end. -/
theorem intern_cases (s : UniqueStore κ α) (key : κ) (value : α) (equal : α → α → Bool) :
    (∃ index, s.lookup key (equal value) = some index ∧
      s.intern key value equal = (index, s)) ∨
    (s.lookup key (equal value) = none ∧
      s.intern key value equal = (s.size, ⟨s.items ++ [(key, value)]⟩)) := by
  rw [intern]
  cases s.lookup key (equal value) with
  | some index => exact .inl ⟨index, rfl, rfl⟩
  | none => exact .inr ⟨rfl, rfl⟩

/-- A store holds one value for all that were interned under one key and are equal. -/
structure Recorded (equal : α → α → Bool) (entries : List (Entry κ α)) (s : UniqueStore κ α) :
    Prop where
  stored : ∀ index key value, s.items[index]? = some (key, value) → ⟨key, value, index⟩ ∈ entries
  stands : ∀ entry ∈ entries, ∃ value, s.items[entry.index]? = some (entry.key, value) ∧
    equal entry.value value = true
  apart : ∀ (index index' : Nat) key value value', s.items[index]? = some (key, value) →
    s.items[index']? = some (key, value') → equal value value' = true → index = index'

omit [DecidableEq κ] in
theorem recorded_empty : Recorded equal [] ({} : UniqueStore κ α) := by
  constructor <;> simp

/-- A value that is equal to one under its key need not be stored. -/
theorem Recorded.found (recorded : Recorded equal entries s)
    (found : s.lookup key (equal value) = some index) :
    Recorded equal (entries ++ [⟨key, value, index⟩]) s where
  stored := fun i k v here => List.mem_append_left _ (recorded.stored i k v here)
  stands := by
    intro entry mem
    rcases List.mem_append.mp mem with old | new
    · exact recorded.stands entry old
    · cases List.mem_singleton.mp new
      obtain ⟨value', stored, same, -⟩ := UniqueStore.lookup_eq_some_iff.mp found
      exact ⟨value', stored, same⟩
  apart := recorded.apart

omit [DecidableEq κ] in
/-- Of the items and one behind them, each is at its old index or at the end. -/
theorem old_or_last {item : κ × α} {i : Nat} (here : (s.items ++ [(key, value)])[i]? = some item) :
    s.items[i]? = some item ∨ i = s.size ∧ item = (key, value) := by
  rcases Nat.lt_or_ge i s.items.length with before | beyond
  · rw [List.getElem?_append_left before] at here
    exact .inl here
  · rw [List.getElem?_append_right beyond, List.getElem?_singleton] at here
    split at here
    · have last : i = s.items.length := by omega
      exact .inr ⟨last, (Option.some.inj here).symm⟩
    · cases here

/-- A value that is equal to none under its key is stored behind the others. -/
theorem Recorded.absent (equivalence : Equivalence fun value value' => equal value value' = true)
    (recorded : Recorded equal entries s) (absent : s.lookup key (equal value) = none) :
    Recorded equal (entries ++ [⟨key, value, s.size⟩]) ⟨s.items ++ [(key, value)]⟩ := by
  have unlike : ∀ (i : Nat) value', s.items[i]? = some (key, value') → equal value value' = false :=
    fun i value' here => lookup_eq_none_iff.mp absent value' (List.mem_of_getElem? here)
  constructor
  · intro i k v here
    rcases old_or_last here with old | ⟨rfl, new⟩
    · exact List.mem_append_left _ (recorded.stored i k v old)
    · cases new
      exact List.mem_append_right _ List.mem_cons_self
  · intro entry mem
    rcases List.mem_append.mp mem with old | new
    · obtain ⟨v, stored, same⟩ := recorded.stands entry old
      have bound := (List.getElem?_eq_some_iff.mp stored).1
      exact ⟨v, (List.getElem?_append_left bound).trans stored, same⟩
    · cases List.mem_singleton.mp new
      exact ⟨value, by simp [size], equivalence.refl value⟩
  · intro i i' k v v' here here' same
    rcases old_or_last here with old | ⟨rfl, new⟩
    · rcases old_or_last here' with old' | ⟨rfl, new'⟩
      · exact recorded.apart i i' k v v' old old' same
      · cases new'
        have same' := equivalence.symm same
        simp [unlike i v old] at same'
    · rcases old_or_last here' with old' | ⟨rfl, new'⟩
      · cases new
        simp [unlike i' v' old'] at same
      · rfl

/-- Every request keeps the record. -/
theorem Recorded.run (equivalence : Equivalence fun value value' => equal value value' = true)
    (recorded : Recorded equal entries s) (request : Request κ α) :
    Recorded equal (entries ++ request.entries equal s) (request.run equal s).2 := by
  cases request with
  | lookup key wanted => simpa [Request.entries, Request.run] using recorded
  | intern key value =>
    simp only [Request.entries, Request.run]
    rcases s.intern_cases key value equal with ⟨index, found, interned⟩ | ⟨absent, interned⟩
    · rw [interned]
      exact recorded.found found
    · rw [interned]
      exact recorded.absent equivalence absent

theorem Recorded.after (equivalence : Equivalence fun value value' => equal value value' = true)
    (recorded : Recorded equal entries s) (requests : List (Request κ α)) :
    Recorded equal (entries ++ entriesOf equal requests s)
      (after (Request.run equal) requests s) := by
  induction requests generalizing entries s with
  | nil => simpa [entriesOf, UniqueStore.after] using recorded
  | cons request rest ih =>
    rw [entriesOf, UniqueStore.after, ← List.append_assoc]
    exact ih (recorded.run equivalence request)

end Records

end UniqueStore

end HardwareIR
