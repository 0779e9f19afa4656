import HardwareIR.Decimal.Shortest

/-! # Floating point text

Doubles are printed with one digit before the point and the power of ten after an `e`, with the
fewest digits that read back: `1.5e0`, `1e21`, `5e-324`.  The sign of a zero shows (`-0e0`), an
infinity is `inf` or `-inf`, and a number that is none is `NaN` whatever its sign.
-/

namespace HardwareIR.Decimal

/-- What the 64 bits of a double mean. -/
inductive Double where
  | nan
  | infinite (negative : Bool)
  | zero (negative : Bool)
  | finite (negative : Bool) (magnitude : BinaryFraction)

/-- Reads the sign bit, the eleven bits of the exponent and the 52 bits of the fraction. -/
def Double.ofBits (bits : UInt64) : Double :=
  let negative := bits >>> 63 == 1
  let exponent := ((bits >>> 52) &&& 0x7ff).toNat
  let fraction := (bits &&& 0xfffffffffffff).toNat
  if exponent = 0x7ff then
    if fraction = 0 then .infinite negative else .nan
  else if exponent = 0 then
    if fraction = 0 then .zero negative
    else .finite negative ⟨fraction, -1074, true⟩
  else
    .finite negative ⟨(1 <<< 52) + fraction, (exponent : Int) - 1075, fraction ≠ 0 || exponent = 1⟩

/-- One digit, a point before further digits, and the power of ten of the first digit. -/
def DecimalFraction.scientific (d : DecimalFraction) : String :=
  match Nat.toDigits 10 d.digits with
  | [] => "0e0"
  | first :: rest =>
    let fraction := if rest.isEmpty then [] else '.' :: rest
    let power := d.exponent + rest.length
    String.ofList (first :: fraction) ++ "e" ++ toString power

def sign (negative : Bool) : String :=
  if negative then "-" else ""

def Double.print : Double → String
  | .nan => "NaN"
  | .infinite negative => sign negative ++ "inf"
  | .zero negative => sign negative ++ "0e0"
  | .finite negative magnitude => sign negative ++ magnitude.shortest.scientific

end HardwareIR.Decimal
