/-! # Interning

A unique store keeps one copy of each distinct value it is given, so that equal values get the same
index.  Values come with a key, which narrows the search: a value is only compared with those
stored under the same key.  Values are never removed, so an index always means the same value.
-/

namespace HardwareIR

/-- Distinct values of type `α`, each under a key of type `κ`, in the order in which they were first
given. -/
structure UniqueStore (κ α : Type) where
  items : List (κ × α) := []

namespace UniqueStore

variable {κ α : Type} [DecidableEq κ]

/-- The index of the first value under `key` for which `wanted` holds. -/
def lookup (s : UniqueStore κ α) (key : κ) (wanted : α → Bool) : Option Nat :=
  s.items.findIdx? fun item => item.1 == key && wanted item.2

/-- The index of a value equal to `value` under `key`, which is stored if there is none yet. -/
def intern (s : UniqueStore κ α) (key : κ) (value : α) (equal : α → α → Bool) :
    Nat × UniqueStore κ α :=
  match s.lookup key (equal value) with
  | some index => (index, s)
  | none => (s.items.length, ⟨s.items ++ [(key, value)]⟩)

def get? (s : UniqueStore κ α) (index : Nat) : Option α :=
  (s.items[index]?).map (·.2)

def size (s : UniqueStore κ α) : Nat :=
  s.items.length

def isEmpty (s : UniqueStore κ α) : Bool :=
  s.items.isEmpty

end UniqueStore

end HardwareIR
