/-! # Operators of parameter expressions

The operators that combine parameter values, how they are spelled, and how many operands each
takes: one for the logarithm, exactly two for the operators that are not associative, and two or
more for all others.
-/

namespace HardwareIR.Parameter

/-- An operator of a parameter expression. -/
inductive Opcode where
  | add
  | sub
  | mul
  | and
  | or
  | xor
  | shl
  | shrU
  | shrS
  | divU
  | divS
  | modU
  | modS
  | clog2
  | strConcat
deriving DecidableEq, Repr

/-- How many operands an operator takes. -/
inductive Arity where
  | exactly (n : Nat)
  | atLeast (n : Nat)
deriving DecidableEq, Repr

/-- Whether an arity admits `n` operands. -/
def Arity.admits : Arity → Nat → Bool
  | exactly m, n => n == m
  | atLeast m, n => m ≤ n

namespace Opcode

def name : Opcode → String
  | add => "add"
  | sub => "sub"
  | mul => "mul"
  | and => "and"
  | or => "or"
  | xor => "xor"
  | shl => "shl"
  | shrU => "shru"
  | shrS => "shrs"
  | divU => "divu"
  | divS => "divs"
  | modU => "modu"
  | modS => "mods"
  | clog2 => "clog2"
  | strConcat => "str.concat"

def arity : Opcode → Arity
  | clog2 => .exactly 1
  | add | mul | and | or | xor | strConcat => .atLeast 2
  | sub | shl | shrU | shrS | divU | divS | modU | modS => .exactly 2

/-- Whether an operator can be applied to `operands` operands. -/
def acceptsArity (opcode : Opcode) (operands : Nat) : Bool :=
  opcode.arity.admits operands

end Opcode

end HardwareIR.Parameter
