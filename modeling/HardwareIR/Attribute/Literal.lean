import HardwareIR.Text.Hex

/-! # Integer literals

An integer literal is a word of at least one bit.  It has no sign of its own; it prints as an
unsigned hexadecimal number.

A literal can stand for the width of a type (`Literal.width32?`) if, read as a 64 bit number, it is
a 32 bit natural number.  To that end narrower words are sign extended, and of wider words only
the low 64 bits count.
-/

namespace HardwareIR

/-- A word of `width` bits. -/
structure Literal where
  width : Nat
  bits : BitVec width
  width_pos : 0 < width
deriving DecidableEq

namespace Literal

/-- The word of `width` bits that is `n` modulo a power of two, if there is a bit at all. -/
def ofNat? (width n : Nat) : Option Literal :=
  if h : 0 < width then some ⟨width, BitVec.ofNat width n, h⟩ else none

/-- The bits as an unsigned hexadecimal number. -/
def hex (l : Literal) : String :=
  Text.hex l.bits.toNat

/-- The bits as a 64 bit two's complement number. -/
def toInt64 (l : Literal) : Int :=
  if l.width < 64 then l.bits.toInt else (l.bits.setWidth 64).toInt

/-- The width that a literal stands for, if it is one. -/
def width32? (l : Literal) : Option UInt32 :=
  if 0 ≤ l.toInt64 ∧ l.toInt64 < UInt32.size then some (UInt32.ofNat l.toInt64.toNat) else none

end Literal

end HardwareIR
