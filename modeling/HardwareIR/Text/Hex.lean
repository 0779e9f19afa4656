/-! # Hexadecimal numbers

Lower case, most significant digit first and without leading zeros, so that zero is `0`.
-/

namespace HardwareIR.Text

/-- The hexadecimal digits of `n`. -/
def hexDigits (n : Nat) : List Char :=
  Nat.toDigits 16 n

def hex (n : Nat) : String :=
  String.ofList (hexDigits n)

end HardwareIR.Text
