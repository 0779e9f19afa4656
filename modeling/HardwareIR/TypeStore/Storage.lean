import HardwareIR.TypeStore.Basic

/-! # Sizes of stored values

A value of an integer type is stored in as many bytes as its bits fill.  The words of a memory lie
at multiples of its stride: the size of a word, rounded up to a multiple of its alignment, which is
a power of two and at most 16.  All of it is 32 bit arithmetic.
-/

namespace HardwareIR

/-- The number of bytes that `width` bits fill. -/
def byteWidth (width : UInt32) : UInt32 :=
  if width % 8 = 0 then width / 8 else width / 8 + 1

/-- The least power of two that is no less than `bytes`, but never more than 16. -/
def alignment (bytes : UInt32) : UInt32 :=
  if bytes ≤ 1 then 1 else if bytes ≤ 2 then 2 else if bytes ≤ 4 then 4 else if bytes ≤ 8 then 8
  else 16

/-- The least multiple of `step` that is no less than `n`. -/
def roundUp (n step : UInt32) : UInt32 :=
  if n % step = 0 then n else n + (step - n % step)

/-- The distance between words of `bytes` bytes. -/
def strideOf (bytes : UInt32) : UInt32 :=
  roundUp bytes (alignment bytes)

namespace TypeStore

/-- The bytes that a value takes, for the types that have a known size. -/
def byteWidth? (s : TypeStore) (ty : TypeRef) : Except Fault (Option UInt32) := do
  match ← s.get ty with
  | .integer width _ => return some (byteWidth width)
  | _ => return none

/-- The distance between the words of a memory of words of type `word`. -/
def stride? (s : TypeStore) (word : TypeRef) : Except Fault (Option UInt32) := do
  return (← s.byteWidth? word).map strideOf

end TypeStore

end HardwareIR
