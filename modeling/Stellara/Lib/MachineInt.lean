import Mathlib.Data.Int.Notation
import Mathlib.Data.Int.Order.Basic
import Mathlib.Order.Lattice
import Mathlib.Order.MinMax
import Stellara.Lib.Guard

/-!
# Machine integers

Integers of a fixed format, with the three kinds of arithmetic a program uses on them: checked
operations, which abort when the exact result is outside the format, saturating ones, which
move it to the nearest bound, and conversions, which reduce it modulo the size of the format.
The values themselves are integers.

## Main definitions

* `IntFormat`: a format, given by its bounds
* `IntFormat.checked`, `IntFormat.checkedNat`: the exact result, or an abort
* `IntFormat.checkedSub`: the difference of two unsigned integers, or an abort
* `IntFormat.checkedDiv`: the quotient rounded towards zero, or an abort
* `IntFormat.saturate`: the nearest value of the format
* `IntFormat.wrap`: the value of the format with the same remainder

## Main results

* `IntFormat.checked_eq_ok`, `IntFormat.checkedNat_eq_ok`: a checked operation that returns
  is exact
* `IntFormat.saturate_of_mem`: a saturating operation is exact inside the format
-/

universe w

/-- A format of machine integers: its least and its greatest value. -/
structure IntFormat where
  lo : ℤ
  hi : ℤ
  lo_nonpos : lo ≤ 0
  hi_nonneg : 0 ≤ hi

namespace IntFormat

/-- Signed 128-bit integers. -/
def i128 : IntFormat where
  lo := -170141183460469231731687303715884105728
  hi := 170141183460469231731687303715884105727
  lo_nonpos := by decide
  hi_nonneg := by decide

/-- Unsigned 128-bit integers. -/
def u128 : IntFormat := ⟨0, 340282366920938463463374607431768211455, by decide, by decide⟩

/-- Unsigned 64-bit integers. -/
def u64 : IntFormat := ⟨0, 18446744073709551615, by decide, by decide⟩

/-- Unsigned 32-bit integers. -/
def u32 : IntFormat := ⟨0, 4294967295, by decide, by decide⟩

/-- Unsigned 256-bit integers. -/
def u256 : IntFormat :=
  ⟨0, 115792089237316195423570985008687907853269984665640564039457584007913129639935, by decide,
    by decide⟩

variable (F : IntFormat) {ε : Type w} {e : ε}

/-- The values of a format. -/
def Mem (x : ℤ) : Prop := F.lo ≤ x ∧ x ≤ F.hi

instance (x : ℤ) : Decidable (F.Mem x) := inferInstanceAs (Decidable (_ ∧ _))

/-- The exact result `x`, or an abort when it is outside the format. -/
def checked (e : ε) (x : ℤ) : Except ε ℤ := if F.Mem x then .ok x else .error e

/-- The exact natural result `n`, or an abort when it is outside the format. -/
def checkedNat (e : ε) (n : ℕ) : Except ε ℕ := if (n : ℤ) ≤ F.hi then .ok n else .error e

/-- The value of the format nearest to `x`. -/
def saturate (x : ℤ) : ℤ := max F.lo (min x F.hi)

/-- The value of the format that differs from `x` by a multiple of the size of the format. -/
def wrap (x : ℤ) : ℤ := F.lo + (x - F.lo) % (F.hi - F.lo + 1)

/-- The quotient rounded towards zero, or an abort when the divisor is zero or the quotient is
outside the format. -/
def checkedDiv (e₀ e : ε) (x y : ℤ) : Except ε ℤ :=
  if y = 0 then .error e₀ else F.checked e (x.tdiv y)

/-- The difference of two unsigned integers, or an abort when it is negative. -/
def checkedSub (e : ε) (n m : ℕ) : Except ε ℕ := if m ≤ n then .ok (n - m) else .error e

variable {F} {x y : ℤ} {n m : ℕ}

@[simp] theorem checked_eq_ok : F.checked e x = .ok y ↔ F.Mem x ∧ y = x := by
  by_cases h : F.Mem x <;> simp [checked, h, eq_comm]

@[simp] theorem checkedNat_eq_ok : F.checkedNat e n = .ok m ↔ (n : ℤ) ≤ F.hi ∧ m = n := by
  by_cases h : (n : ℤ) ≤ F.hi <;> simp [checkedNat, h, eq_comm]

theorem checkedNat_eq_error {e' : ε} :
    F.checkedNat e n = .error e' ↔ F.hi < (n : ℤ) ∧ e = e' := by
  by_cases h : (n : ℤ) ≤ F.hi
  · simp [checkedNat, h, not_lt.mpr h]
  · simp [checkedNat, h, not_le.mp h]

@[simp] theorem checkedSub_eq_ok {k : ℕ} : checkedSub e n m = .ok k ↔ m ≤ n ∧ k = n - m := by
  by_cases h : m ≤ n <;> simp [checkedSub, h, eq_comm]

@[simp] theorem checkedDiv_eq_ok {e₀ : ε} {z : ℤ} :
    F.checkedDiv e₀ e x y = .ok z ↔ y ≠ 0 ∧ F.Mem (x.tdiv y) ∧ z = x.tdiv y := by
  by_cases h : y = 0 <;> simp [checkedDiv, h]

theorem checked_ne_error {e' : ε} (h : e ≠ e') : F.checked e x ≠ .error e' := by
  by_cases hx : F.Mem x <;> simp [checked, hx, h]

theorem checkedNat_ne_error {e' : ε} (h : e ≠ e') : F.checkedNat e n ≠ .error e' := by
  by_cases hn : (n : ℤ) ≤ F.hi <;> simp [checkedNat, hn, h]

theorem checked_of_mem (h : F.Mem x) : F.checked e x = .ok x := by simp [checked, h]

@[simp] theorem checked_zero : F.checked e 0 = .ok 0 :=
  checked_of_mem ⟨F.lo_nonpos, F.hi_nonneg⟩

theorem saturate_of_mem (h : F.Mem x) : F.saturate x = x := by
  simp [saturate, min_eq_left h.2, max_eq_right h.1]

theorem saturate_of_nonneg (h : 0 ≤ x) (hx : x ≤ F.hi) : F.saturate x = x :=
  saturate_of_mem ⟨F.lo_nonpos.trans h, hx⟩

@[simp] theorem saturate_zero : F.saturate 0 = 0 := saturate_of_nonneg le_rfl F.hi_nonneg

theorem saturate_le_hi : F.saturate x ≤ F.hi :=
  max_le (F.lo_nonpos.trans F.hi_nonneg) (min_le_right _ _)

/-- Saturation never exceeds a non-negative exact result. -/
theorem saturate_le_of_nonneg (h : 0 ≤ x) : F.saturate x ≤ x :=
  max_le (le_trans F.lo_nonpos h) (min_le_left _ _)

/-- A positive result of a saturating operation is at most the exact result. -/
theorem saturate_le_of_pos (h : 0 < F.saturate x) : F.saturate x ≤ x := by
  refine saturate_le_of_nonneg (not_lt.mp fun hx => absurd h (not_lt.mpr ?_))
  exact max_le F.lo_nonpos ((min_le_left _ _).trans hx.le)

theorem saturate_nonneg (h : 0 ≤ x) : 0 ≤ F.saturate x :=
  le_max_of_le_right (le_min h F.hi_nonneg)

/-- A conversion never exceeds a value that is not below the format. -/
theorem wrap_le_of_lo_le (h : F.lo ≤ x) : F.wrap x ≤ x := by
  have hsize : 0 < F.hi - F.lo + 1 := by
    have := F.lo_nonpos
    have := F.hi_nonneg
    omega
  have hdiv : 0 ≤ (F.hi - F.lo + 1) * ((x - F.lo) / (F.hi - F.lo + 1)) :=
    Int.mul_nonneg hsize.le (Int.ediv_nonneg (by omega) hsize.le)
  have := Int.emod_add_mul_ediv (x - F.lo) (F.hi - F.lo + 1)
  unfold wrap
  omega

/-- A conversion keeps the values of the format. -/
theorem wrap_of_mem (h : F.Mem x) : F.wrap x = x := by
  rw [wrap, Int.emod_eq_of_lt (by have := h.1; omega) (by have := h.2; omega)]
  omega

theorem wrap_mem : F.Mem (F.wrap x) := by
  have hsize : 0 < F.hi - F.lo + 1 := by
    have := F.lo_nonpos
    have := F.hi_nonneg
    omega
  have hnonneg := Int.emod_nonneg (x - F.lo) hsize.ne'
  have hlt := Int.emod_lt_of_pos (x - F.lo) hsize
  unfold wrap
  exact ⟨by omega, by omega⟩

theorem saturate_mono (h : x ≤ y) : F.saturate x ≤ F.saturate y :=
  max_le_max le_rfl (min_le_min h le_rfl)

end IntFormat
