import Mathlib.Algebra.BigOperators.Group.List.Basic
import Mathlib.Algebra.Order.Ring.Int
import Mathlib.Tactic.Linarith

/-!
# Sums of floors

An amount is divided in parts, and each part is paid in whole units, rounded down. What is paid is
at most what the whole amount is worth in units, and less than one unit a part is lost.

## Main definitions

* `Floored D total n paid`: `total` has `n` parts, of which `paid` units of `D` are whole

## Main results

* `Floored.le`, `Floored.lt`: the two bounds of the units that are paid
-/

/-- `paid` is the sum of the floors of `n` parts of `total`, in units of `D`. -/
inductive Floored (D : ℤ) : ℤ → ℕ → ℤ → Prop
  | nil : Floored D 0 0 0
  | add {total paid : ℤ} {n : ℕ} (part : ℤ) :
      Floored D total n paid → Floored D (total + part) (n + 1) (paid + part / D)

namespace Floored

variable {D total paid : ℤ} {n : ℕ}

/-- Each part loses at most `D - 1`. -/
theorem bounds (hD : 0 < D) (h : Floored D total n paid) :
    paid * D ≤ total ∧ total ≤ paid * D + n * (D - 1) := by
  induction h with
  | nil => simp
  | @add total paid n part _ ih =>
    have hdiv := Int.mul_ediv_add_emod part D
    have hnonneg := Int.emod_nonneg part hD.ne'
    have hlt := Int.emod_lt_of_pos part hD
    push_cast
    constructor
    · linarith [add_mul paid (part / D) D, mul_comm D (part / D)]
    · linarith [add_mul paid (part / D) D, mul_comm D (part / D), add_mul (n : ℤ) 1 (D - 1)]

/-- At most the whole amount is paid. -/
theorem le (hD : 0 < D) (h : Floored D total n paid) : paid ≤ total / D :=
  (Int.le_ediv_iff_mul_le hD).mpr (h.bounds hD).1

/-- Less than one unit a part is lost. -/
theorem lt (hD : 0 < D) (h : Floored D total n paid) (hn : 0 < n) : total / D < paid + n := by
  rw [Int.ediv_lt_iff_lt_mul hD]
  have hn' : (0 : ℤ) < n := Int.natCast_pos.mpr hn
  have hupper := (h.bounds hD).2
  linarith [add_mul paid (n : ℤ) D, mul_sub (n : ℤ) D 1]

end Floored
