import HardwareIR.Proofs.Except
import HardwareIR.TypeStore.Storage
import Mathlib.Algebra.Order.Ring.Nat
import Mathlib.Data.Nat.Log
import Mathlib.Order.Bounds.Basic
import Mathlib.Order.Interval.Set.Defs

/-! # How much storage values take

Three roundings make the distance between words out of their bit width: up to bytes, up to a power
of two, and up to a multiple of it.  Each of them gives the least number of its kind
(`isLeast_byteWidth`, `isLeast_alignment`, `isLeast_roundUp`).

They are computed with words of 32 bits.  `strideInRange?` is the same computation with a stop at
the first result that is no such word, and it never stops (`strideInRange?_eq`).
-/

namespace HardwareIR

variable {w n step bytes : UInt32}

/-! ## Computations that stay in range -/

/-- A number as a word of 32 bits, if it is one. -/
def wordInRange? (n : Int) : Option UInt32 :=
  if 0 ≤ n ∧ n < 2 ^ 32 then some (.ofNat n.toNat) else none

theorem wordInRange?_eq_some_iff {n : Int} : wordInRange? n = some w ↔ n = w.toNat := by
  have bound := w.toNat_lt
  unfold wordInRange?
  split_ifs with inside
  · rw [Option.some.injEq, ← UInt32.toNat_inj, UInt32.toNat_ofNat', Nat.mod_eq_of_lt (by omega)]
    omega
  · exact ⟨nofun, fun same => absurd ⟨by omega, by omega⟩ inside⟩

/-- A quotient, rounded up. -/
def ceilDivInRange? (n d : UInt32) : Option UInt32 :=
  if d = 0 then none
  else if n % d = 0 then some (n / d)
  else wordInRange? ((n / d).toNat + 1)

/-- The least power of two that is no less than a number. -/
def powerOfTwoInRange? (n : UInt32) : Option UInt32 :=
  wordInRange? (2 ^ Nat.clog 2 n.toNat)

/-- A number, rounded up to a multiple. -/
def roundUpInRange? (n step : UInt32) : Option UInt32 :=
  if step = 0 then none
  else if n % step = 0 then some n
  else do
    let gap ← wordInRange? (step.toNat - (n % step).toNat)
    wordInRange? (n.toNat + gap.toNat)

/-- The distance between words of `w` bits. -/
def strideInRange? (w : UInt32) : Option UInt32 := do
  let bytes ← ceilDivInRange? w 8
  let step ← powerOfTwoInRange? (min bytes 16)
  roundUpInRange? bytes step

/-! ## Bytes -/

theorem toNat_byteWidth (w : UInt32) : (byteWidth w).toNat = (w.toNat + 7) / 8 := by
  have bound := w.toNat_lt
  unfold byteWidth
  split_ifs with full
  · have full := congrArg UInt32.toNat full
    simp only [UInt32.toNat_mod, UInt32.toNat_div, UInt32.reduceToNat] at full ⊢
    omega
  · have full := mt UInt32.toNat_inj.mp full
    simp only [UInt32.toNat_mod, UInt32.toNat_div, UInt32.toNat_add, UInt32.reduceToNat] at full ⊢
    omega

theorem isLeast_byteWidth (w : UInt32) :
    IsLeast {b | w.toNat ≤ 8 * b} (byteWidth w).toNat := by
  rw [toNat_byteWidth]
  constructor
  · show w.toNat ≤ 8 * ((w.toNat + 7) / 8)
    omega
  · intro b enough
    have enough : w.toNat ≤ 8 * b := enough
    omega

theorem byteWidth_le (w : UInt32) : (byteWidth w).toNat ≤ 2 ^ 29 := by
  have bound := w.toNat_lt
  rw [toNat_byteWidth]
  omega

theorem ceilDivInRange?_eq (w : UInt32) : ceilDivInRange? w 8 = some (byteWidth w) := by
  unfold ceilDivInRange? byteWidth
  rw [if_neg (by decide)]
  split_ifs with full
  · rfl
  · have bound := w.toNat_lt
    rw [wordInRange?_eq_some_iff, UInt32.toNat_add, UInt32.toNat_div, Nat.mod_eq_of_lt]
    · simp
    · simp only [UInt32.reduceToNat]
      omega

/-! ## Alignments -/

theorem isLeast_two_pow_clog (n : Nat) :
    IsLeast {p | p.isPowerOfTwo ∧ n ≤ p} (2 ^ Nat.clog 2 n) := by
  constructor
  · exact ⟨⟨_, rfl⟩, Nat.le_pow_clog (by decide) n⟩
  · rintro _ ⟨⟨e, rfl⟩, enough⟩
    exact Nat.pow_le_pow_right (by decide) (Nat.clog_le_of_le_pow enough)

theorem clog_eq_succ {n e : Nat} (above : 2 ^ e < n) (below : n ≤ 2 ^ (e + 1)) :
    Nat.clog 2 n = e + 1 := by
  have least := Nat.clog_le_of_le_pow below
  have greater := (Nat.lt_clog_iff_pow_lt (by decide)).mpr above
  omega

/-- The steps of the table are the powers of two up to 16. -/
theorem toNat_alignment (bytes : UInt32) :
    (alignment bytes).toNat = 2 ^ Nat.clog 2 (min bytes.toNat 16) := by
  unfold alignment
  simp only [UInt32.le_iff_toNat_le, UInt32.reduceToNat]
  split_ifs with one two four eight
  · rw [Nat.clog_of_right_le_one (by omega)]
    rfl
  · rw [clog_eq_succ (e := 0) (by omega) (by omega)]
    rfl
  · rw [clog_eq_succ (e := 1) (by omega) (by omega)]
    rfl
  · rw [clog_eq_succ (e := 2) (by omega) (by omega)]
    rfl
  · rw [clog_eq_succ (e := 3) (by omega) (by omega)]
    rfl

theorem isLeast_alignment (bytes : UInt32) :
    IsLeast {p | p.isPowerOfTwo ∧ min bytes.toNat 16 ≤ p} (alignment bytes).toNat := by
  rw [toNat_alignment]
  exact isLeast_two_pow_clog _

theorem alignment_le (bytes : UInt32) : (alignment bytes).toNat ≤ 16 :=
  (isLeast_alignment bytes).2 ⟨⟨4, rfl⟩, Nat.min_le_right ..⟩

theorem alignment_pos (bytes : UInt32) : 0 < (alignment bytes).toNat := by
  rw [toNat_alignment]
  exact Nat.two_pow_pos _

theorem powerOfTwoInRange?_eq (bytes : UInt32) :
    powerOfTwoInRange? (min bytes 16) = some (alignment bytes) := by
  rw [powerOfTwoInRange?, wordInRange?_eq_some_iff, toNat_alignment, UInt32.toNat_min]
  simp

/-! ## Multiples -/

theorem mod_eq_zero_iff : n % step = 0 ↔ n.toNat % step.toNat = 0 := by
  rw [← UInt32.toNat_inj, UInt32.toNat_mod, UInt32.toNat_zero]

/-- What is missing to the next multiple. -/
theorem toNat_gap (pos : 0 < step.toNat) :
    (step - n % step).toNat = step.toNat - n.toNat % step.toNat := by
  rw [UInt32.toNat_sub_of_le, UInt32.toNat_mod]
  rw [UInt32.le_iff_toNat_le, UInt32.toNat_mod]
  exact (Nat.mod_lt n.toNat pos).le

theorem toNat_roundUp (pos : 0 < step.toNat) (fits : n.toNat + step.toNat ≤ 2 ^ 32) :
    (roundUp n step).toNat =
      if n.toNat % step.toNat = 0 then n.toNat
      else n.toNat + (step.toNat - n.toNat % step.toNat) := by
  have rest := Nat.mod_lt n.toNat pos
  unfold roundUp
  simp only [mod_eq_zero_iff]
  split_ifs with whole
  · rfl
  · rw [UInt32.toNat_add, toNat_gap pos, Nat.mod_eq_of_lt (by omega)]

theorem isLeast_roundUp (pos : 0 < step.toNat) (fits : n.toNat + step.toNat ≤ 2 ^ 32) :
    IsLeast {m | step.toNat ∣ m ∧ n.toNat ≤ m} (roundUp n step).toNat := by
  rw [toNat_roundUp pos fits]
  have rest := Nat.mod_lt n.toNat pos
  have parts := Nat.div_add_mod n.toNat step.toNat
  split_ifs with whole
  · exact ⟨⟨Nat.dvd_of_mod_eq_zero whole, le_rfl⟩, fun m multiple => multiple.2⟩
  · -- The number lies between two multiples, and the upper one is given.
    have upper : n.toNat + (step.toNat - n.toNat % step.toNat) =
        step.toNat * (n.toNat / step.toNat + 1) := by
      rw [Nat.mul_succ]
      omega
    constructor
    · exact ⟨⟨_, upper⟩, by omega⟩
    · rintro m ⟨⟨k, rfl⟩, enough⟩
      rw [upper]
      have further : n.toNat / step.toNat < k := by
        by_contra small
        have below := Nat.mul_le_mul_left step.toNat (Nat.le_of_not_lt small)
        omega
      exact Nat.mul_le_mul_left step.toNat further

theorem roundUpInRange?_eq (pos : 0 < step.toNat) (fits : n.toNat + step.toNat ≤ 2 ^ 32) :
    roundUpInRange? n step = some (roundUp n step) := by
  have rounded := toNat_roundUp pos fits
  have nonzero : step ≠ 0 := by
    rintro rfl
    cases pos
  unfold roundUpInRange?
  rw [if_neg nonzero]
  split_ifs with whole
  · rw [roundUp, if_pos whole]
  · rw [if_neg (mt mod_eq_zero_iff.mpr whole)] at rounded
    have rest := Nat.mod_lt n.toNat pos
    have gap : wordInRange? (step.toNat - (n % step).toNat) = some (step - n % step) := by
      rw [wordInRange?_eq_some_iff, toNat_gap pos, UInt32.toNat_mod]
      omega
    rw [gap, Option.bind_eq_bind, Option.bind_some, wordInRange?_eq_some_iff, toNat_gap pos,
      rounded]
    rfl

/-! ## Strides -/

theorem byteWidth_add_alignment_le (w : UInt32) :
    (byteWidth w).toNat + (alignment (byteWidth w)).toNat ≤ 2 ^ 32 := by
  have width := byteWidth_le w
  have aligned := alignment_le (byteWidth w)
  omega

/-- All results on the way to a stride are words. -/
theorem strideInRange?_eq (w : UInt32) : strideInRange? w = some (strideOf (byteWidth w)) := by
  simp only [strideInRange?, ceilDivInRange?_eq, powerOfTwoInRange?_eq, Option.bind_eq_bind,
    Option.bind_some]
  exact roundUpInRange?_eq (alignment_pos _) (byteWidth_add_alignment_le w)

/-- The bytes of a word of a memory. -/
def wordBytes (bytes stride : UInt32) (k : Nat) : Set Nat :=
  Set.Ico (k * stride.toNat) (k * stride.toNat + bytes.toNat)

theorem not_mem_wordBytes {stride : UInt32} (fits : bytes.toNat ≤ stride.toNat) {j k byte : Nat}
    (other : j ≠ k) (mem : byte ∈ wordBytes bytes stride j) : byte ∉ wordBytes bytes stride k := by
  have before : ∀ {j k : Nat}, j < k → j * stride.toNat + bytes.toNat ≤ k * stride.toNat := by
    intro j k less
    have next := Nat.mul_le_mul_right stride.toNat less
    rw [Nat.succ_mul] at next
    omega
  intro mem'
  rw [wordBytes, Set.mem_Ico] at mem mem'
  rcases Nat.lt_or_gt_of_ne other with less | greater
  · have apart := before less
    omega
  · have apart := before greater
    omega

/-- How words of `width` bits are stored: in `bytes` bytes, at multiples of `stride`, which is the
least multiple of `align` that has room for them. -/
structure Storage (width bytes align stride : UInt32) : Prop where
  bytes_least : IsLeast {b | width.toNat ≤ 8 * b} bytes.toNat
  align_least : IsLeast {a | a.isPowerOfTwo ∧ min bytes.toNat 16 ≤ a} align.toNat
  stride_least : IsLeast {m | align.toNat ∣ m ∧ bytes.toNat ≤ m} stride.toNat
  align_le : align.toNat ≤ 16
  padding_lt : stride.toNat - bytes.toNat < align.toNat
  apart : ∀ j k, j ≠ k → ∀ byte ∈ wordBytes bytes stride j, byte ∉ wordBytes bytes stride k
  bytes_inRange : ceilDivInRange? width 8 = some bytes
  stride_inRange : strideInRange? width = some stride

theorem storage_byteWidth (w : UInt32) :
    Storage w (byteWidth w) (alignment (byteWidth w)) (strideOf (byteWidth w)) := by
  have pos := alignment_pos (byteWidth w)
  have fits := byteWidth_add_alignment_le w
  have least : IsLeast _ (strideOf (byteWidth w)).toNat := isLeast_roundUp pos fits
  constructor
  case bytes_least => exact isLeast_byteWidth w
  case align_least => exact isLeast_alignment _
  case stride_least => exact least
  case align_le => exact alignment_le _
  case padding_lt =>
    rw [strideOf, toNat_roundUp pos fits]
    have rest := Nat.mod_lt (byteWidth w).toNat pos
    split_ifs <;> omega
  case apart => exact fun j k other byte mem => not_mem_wordBytes least.1.2 other mem
  case bytes_inRange => exact ceilDivInRange?_eq w
  case stride_inRange => exact strideInRange?_eq w

namespace TypeStore

variable {s : TypeStore} {ty : TypeRef} {type : IRType}

/-- The sizes of integers of a fixed width are those of their storage, and other types have no
sizes. -/
theorem stored_sizes (stored : s.get ty = .ok type) :
    (∀ width sign, type = .integer width sign → ∃ bytes align stride,
      s.byteWidth? ty = .ok (some bytes) ∧ s.stride? ty = .ok (some stride) ∧
        Storage width bytes align stride) ∧
    (type.isInteger = false → s.byteWidth? ty = .ok none ∧ s.stride? ty = .ok none) := by
  constructor
  · rintro width sign rfl
    have bytes : s.byteWidth? ty = .ok (some (byteWidth width)) := by
      rw [byteWidth?, stored, Except.bind_ok]
      rfl
    refine ⟨_, _, _, bytes, ?_, storage_byteWidth width⟩
    rw [stride?, bytes, Except.bind_ok, Except.pure_eq_ok, Option.map_some]
  · intro other
    have bytes : s.byteWidth? ty = .ok none := by
      rw [byteWidth?, stored, Except.bind_ok]
      cases type with
      | integer width sign => cases other
      | parametric _ | state _ | memory _ _ _ | storage _ | simInstance _ => rfl
    refine ⟨bytes, ?_⟩
    rw [stride?, bytes, Except.bind_ok, Except.pure_eq_ok, Option.map_none]

/-- Close to the widest integers there can be, words lie 512 MiB apart, with 15 bytes between
them. -/
theorem stored_sizes_wide :
    let s := (TypeStore.add {} (.integer 4294967169 .signless)).2
    s.get ⟨0⟩ = .ok (.integer 4294967169 .signless) ∧
      s.byteWidth? ⟨0⟩ = .ok (some 536870897) ∧ s.stride? ⟨0⟩ = .ok (some 536870912) ∧
      ∃ align, Storage 4294967169 536870897 align 536870912 := by
  intro s
  have stored : s.get ⟨0⟩ = .ok (.integer 4294967169 .signless) := rfl
  obtain ⟨bytes, align, stride, found, found', storage⟩ := (stored_sizes stored).1 _ _ rfl
  cases found
  cases found'
  exact ⟨stored, rfl, rfl, align, storage⟩

end TypeStore

end HardwareIR
