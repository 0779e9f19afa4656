/-! # The shortest decimal that reads back

A finite binary fraction is a positive integer times a power of two, and every decimal close
enough to it reads back as it.  This module finds the decimal with the fewest digits among those;
of two with equally many digits the nearer one, and of two equally near the larger.

All arithmetic is exact: a binary fraction has a finite decimal expansion, so the value and the
two ends of the interval of numbers that read back as it are integers over one power of ten.
-/

namespace HardwareIR.Decimal

/-- A positive binary fraction `mantissa * 2 ^ exponent`.  `evenGap` says whether the next smaller
fraction is as far away as the next larger one, which fails at the powers of two. -/
structure BinaryFraction where
  mantissa : Nat
  exponent : Int
  evenGap : Bool

/-- The decimal number `digits * 10 ^ exponent`. -/
structure DecimalFraction where
  digits : Nat
  exponent : Int
deriving DecidableEq, Repr

def digitCount (n : Nat) : Nat :=
  (Nat.toDigits 10 n).length

/-- The interval of numbers that read back as a binary fraction, over a common power of ten:
`value`, `low` and `high` stand for their multiples of `10 ^ scale`. -/
structure Rounding where
  value : Nat
  low : Nat
  high : Nat
  /-- Whether the two ends belong to the interval. -/
  closed : Bool
  scale : Int

/-- The rounding interval of `x` reaches half way to its neighbours.  Its ends read back as `x`
if the mantissa is even.  Two more decimal places than the value needs hold the halves and the
quarters of a unit in the last place. -/
def BinaryFraction.rounding (x : BinaryFraction) : Rounding :=
  let unit := if x.exponent < 0 then Nat.pow 5 x.exponent.natAbs else Nat.pow 2 x.exponent.toNat
  let value := 100 * x.mantissa * unit
  { value
    low := value - (if x.evenGap then 50 else 25) * unit
    high := value + 50 * unit
    closed := x.mantissa % 2 == 0
    scale := min x.exponent 0 - 2 }

/-- Whether the number `n * 10 ^ r.scale` reads back as the fraction. -/
def Rounding.accepts (r : Rounding) (n : Nat) : Bool :=
  if r.closed then r.low ≤ n && n ≤ r.high else r.low < n && n < r.high

/-- The nearest acceptable multiple of `grid`, if one of the two around the value is acceptable.
At the same distance the larger one is taken. -/
def Rounding.nearest? (r : Rounding) (grid : Nat) : Option Nat :=
  let below := r.value / grid
  let above := below + 1
  match r.accepts (below * grid), r.accepts (above * grid) with
  | true, true => some (if r.value - below * grid < above * grid - r.value then below else above)
  | true, false => some below
  | false, true => some above
  | false, false => none

/-- The first acceptable decimal on ever finer grids, from `10 ^ (places - 1)` down to `1`.  The
value itself lies on the last of them. -/
def Rounding.search (r : Rounding) : Nat → DecimalFraction
  | 0 => ⟨r.value, r.scale⟩
  | places + 1 =>
    match r.nearest? (10 ^ places) with
    | some digits => ⟨digits, r.scale + places⟩
    | none => r.search places

/-- Drops trailing zeros, at most `fuel` of them. -/
def DecimalFraction.trimmed : Nat → DecimalFraction → DecimalFraction
  | 0, d => d
  | fuel + 1, d =>
    if d.digits ≠ 0 ∧ d.digits % 10 = 0 then trimmed fuel ⟨d.digits / 10, d.exponent + 1⟩ else d

/-- The shortest decimal that reads back as `x`. -/
def BinaryFraction.shortest (x : BinaryFraction) : DecimalFraction :=
  let r := x.rounding
  let d := r.search (digitCount r.value)
  d.trimmed (digitCount d.digits)

end HardwareIR.Decimal
