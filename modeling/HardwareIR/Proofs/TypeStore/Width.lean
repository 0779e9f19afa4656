import HardwareIR.Proofs.TypeStore.Unique
import Mathlib.Algebra.Order.Ring.Int
import Mathlib.Tactic.NormNum

/-! # Literals as widths

A request for an integer type of a literal width gives the integer type of that fixed width, if the
literal is one.  A literal is taken modulo `2 ^ 64` for this (`Literal.width32?_eq_some_iff`), so
that the number stays the same for literals of at most 64 bits, but a wider literal that is too
large for a width can be folded to a small one.
-/

namespace HardwareIR

namespace Literal

variable {l : Literal} {w : UInt32}

/-! ## The width of a literal -/

/-- Sign extension keeps the number, and cutting off bits keeps it modulo `2 ^ 64`. -/
theorem toInt64_eq (l : Literal) : l.toInt64 = l.bits.toInt.bmod (2 ^ 64) := by
  unfold toInt64
  split_ifs with narrow
  · have above := l.bits.toInt_lt
    have below := l.bits.le_toInt
    have small : (2 : Int) ^ (l.width - 1) ≤ 2 ^ 62 := by
      exact_mod_cast Nat.pow_le_pow_right (by decide : 0 < 2) (by omega : l.width - 1 ≤ 62)
    rw [Int.bmod_eq_of_le] <;> omega
  · have divides : 2 ^ 64 ∣ 2 ^ l.width := Nat.pow_dvd_pow 2 (by omega)
    rw [BitVec.toInt_setWidth, BitVec.toInt_eq_toNat_bmod, Int.bmod_bmod_of_dvd divides]

theorem width32?_eq_some_iff : l.width32? = some w ↔ l.bits.toInt % 2 ^ 64 = w.toNat := by
  have bound := w.toNat_lt
  have same : l.toInt64 % 2 ^ 64 = l.bits.toInt % 2 ^ 64 := by
    rw [toInt64_eq]
    exact Int.bmod_emod ..
  have above : l.toInt64 < 2 ^ 63 := by
    rw [toInt64_eq]
    exact Int.bmod_lt (by decide)
  have below : -2 ^ 63 ≤ l.toInt64 := by
    rw [toInt64_eq]
    exact Int.le_bmod (by decide)
  rw [← same]
  unfold width32?
  split_ifs with fits
  · -- The number is its own remainder, and the width that has it as its number.
    simp only [UInt32.size] at fits
    rw [Int.emod_eq_of_lt fits.1 (by omega), Option.some.injEq, ← UInt32.toNat_inj,
      UInt32.toNat_ofNat', Nat.mod_eq_of_lt (by omega)]
    omega
  · simp only [UInt32.size] at fits
    refine ⟨nofun, fun remainder => ?_⟩
    omega

theorem width32?_eq_none_iff :
    l.width32? = none ↔ ∀ w : UInt32, l.bits.toInt % 2 ^ 64 ≠ w.toNat := by
  rw [Option.eq_none_iff_forall_ne_some]
  exact forall_congr' fun w => not_congr width32?_eq_some_iff

/-- Nothing is cut off from a literal of at most 64 bits. -/
theorem toInt_emod_eq_iff (narrow : l.width ≤ 64) :
    l.bits.toInt % 2 ^ 64 = w.toNat ↔ l.bits.toInt = w.toNat := by
  have bound := w.toNat_lt
  have above := l.bits.toInt_lt
  have below := l.bits.le_toInt
  have small : (2 : Int) ^ (l.width - 1) ≤ 2 ^ 63 := by
    exact_mod_cast Nat.pow_le_pow_right (by decide : 0 < 2) (by omega : l.width - 1 ≤ 63)
  omega

end Literal

/-! ## Requests -/

namespace TypeStore

variable {s : TypeStore} {asked got : IRType}

/-- The handle that a request gives is that of a type. -/
def Gives (s : TypeStore) (asked got : IRType) : Prop :=
  (s.request asked).2.get (s.request asked).1 = .ok got

/-- A request gives the type that is asked for, with a literal width folded. -/
theorem gives_iff : s.Gives asked got ↔ asked.folded = got := by
  rw [Gives, request_eq, get_add_self, Except.ok.injEq]

/-- A request for an integer type of a literal width gives the signless integer type whose width is
the number of the literal modulo `2 ^ 64`, if there is one, and a type that carries the literal
otherwise.  Every literal whose number is a width is folded to that width.  It takes a literal of
more than 64 bits to be folded to another width than its number. -/
theorem literal_width_folds (s : TypeStore) (type : TypeRef) (l : Literal) :
    (∀ w sign, s.Gives (.parametric (.integer type l)) (.integer w sign) ↔
      sign = .signless ∧ l.bits.toInt % 2 ^ 64 = w.toNat) ∧
    (s.Gives (.parametric (.integer type l)) (.parametric (.integer type l)) ↔
      ∀ w : UInt32, l.bits.toInt % 2 ^ 64 ≠ w.toNat) ∧
    (∀ w : UInt32, l.bits.toInt = w.toNat →
      s.Gives (.parametric (.integer type l)) (.integer w .signless)) ∧
    (l.width ≤ 64 →
      (∀ w sign, s.Gives (.parametric (.integer type l)) (.integer w sign) ↔
        sign = .signless ∧ l.bits.toInt = w.toNat) ∧
      (s.Gives (.parametric (.integer type l)) (.parametric (.integer type l)) ↔
        ∀ w : UInt32, l.bits.toInt ≠ w.toNat)) := by
  have folds : ∀ w sign, s.Gives (.parametric (.integer type l)) (.integer w sign) ↔
      sign = .signless ∧ l.bits.toInt % 2 ^ 64 = w.toNat := by
    intro w sign
    rw [gives_iff, ← Literal.width32?_eq_some_iff, IRType.folded]
    cases l.width32? with
    | none => simp
    | some fixed => simp [and_comm, eq_comm]
  have carries : s.Gives (.parametric (.integer type l)) (.parametric (.integer type l)) ↔
      ∀ w : UInt32, l.bits.toInt % 2 ^ 64 ≠ w.toNat := by
    rw [gives_iff, ← Literal.width32?_eq_none_iff, IRType.folded]
    cases l.width32? <;> simp
  refine ⟨folds, carries, fun w number => ?_, fun narrow => ⟨fun w sign => ?_, ?_⟩⟩
  · have bound := w.toNat_lt
    exact (folds w .signless).mpr ⟨rfl, by omega⟩
  · rw [folds, Literal.toInt_emod_eq_iff narrow]
  · rw [carries]
    exact forall_congr' fun w => not_congr (Literal.toInt_emod_eq_iff narrow)

/-- The 128 bit literal `2 ^ 64 + 8`, which is no width, is folded to eight bits; eight itself is
folded whatever its bit width. -/
theorem literal_width_folds_wide :
    (TypeStore.Gives {} (.parametric (.integer ⟨0⟩ ⟨128, 0x10000000000000008#128, by decide⟩))
      (.integer 8 .signless)) ∧
    (0x10000000000000008#128).toInt ≠ 8 ∧
    TypeStore.Gives {} (.parametric (.integer ⟨0⟩ ⟨5, 8#5, by decide⟩)) (.integer 8 .signless) := by
  refine ⟨?_, by decide, ?_⟩
  · exact ((literal_width_folds {} ⟨0⟩ ⟨128, 0x10000000000000008#128, by decide⟩).1 8 .signless).mpr
      ⟨rfl, by decide⟩
  · exact (literal_width_folds {} ⟨0⟩ ⟨5, 8#5, by decide⟩).2.2.1 8 (by decide)

end TypeStore

end HardwareIR
