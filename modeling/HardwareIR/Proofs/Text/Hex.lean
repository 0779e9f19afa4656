import HardwareIR.Text.Hex

/-! # Reading hexadecimal numbers

The last digit of a number is its remainder, and the digits before it are those of its quotient
(`Text.hexDigits_eq`).  A number can therefore be read back from its digits.
-/

namespace HardwareIR

namespace Text

/-- The digits of numbers below the base are different. -/
theorem digitChar_inj {i j : Nat} (bound : i < 16) (bound' : j < 16)
    (same : Nat.digitChar i = Nat.digitChar j) : i = j := by
  have distinct : ∀ x y : Fin 16, Nat.digitChar x = Nat.digitChar y → x = y := by decide
  exact congrArg Fin.val (distinct ⟨i, bound⟩ ⟨j, bound'⟩ same)

/-- The last digit is the remainder, and before it are the digits of the quotient, if any. -/
theorem hexDigits_eq (n : Nat) : hexDigits n =
    (if n < 16 then [] else hexDigits (n / 16)) ++ [Nat.digitChar (n % 16)] := by
  unfold hexDigits
  rw [Nat.toDigits_eq_if (by decide)]
  split
  · rw [Nat.mod_eq_of_lt ‹n < 16›, List.nil_append]
  · rfl

theorem hexDigits_ne_nil (n : Nat) : hexDigits n ≠ [] := by
  rw [hexDigits_eq]
  simp

theorem hexDigits_inj {m n : Nat} (same : hexDigits m = hexDigits n) : m = n := by
  induction m using Nat.strongRecOn generalizing n with
  | _ m ih =>
    rw [hexDigits_eq m, hexDigits_eq n] at same
    obtain ⟨before, last⟩ := List.append_inj' same rfl
    have remainder : m % 16 = n % 16 :=
      digitChar_inj (Nat.mod_lt _ (by decide)) (Nat.mod_lt _ (by decide)) (by simpa using last)
    split at before <;> split at before
    · omega
    · exact absurd before.symm (hexDigits_ne_nil _)
    · exact absurd before (hexDigits_ne_nil _)
    · have quotient : m / 16 = n / 16 := ih (m / 16) (by omega) before
      omega

theorem hex_inj {m n : Nat} (same : hex m = hex n) : m = n :=
  hexDigits_inj (String.ofList_injective same)

end Text

end HardwareIR
