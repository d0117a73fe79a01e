import Mathlib.Algebra.Order.BigOperators.Group.List
import Mathlib.Algebra.Order.Ring.Abs
import Mathlib.Data.Nat.Sqrt
import Mathlib.Tactic.Linarith

/-!
# Means and deviations of lists of integers

The mean of a list of integers, the sum of the squared distances from a point, the variance and the
standard deviation, all rounded down. For positive integers the deviation is bounded by a multiple
of the mean that depends on the length of the list only. The square root is the limit of Newton's
method: no step from above goes below it, and a step that does not descend starts at it.

## Main definitions

* `Dispersion.mean`, `Dispersion.squares`, `Dispersion.variance`, `Dispersion.deviation`

## Main results

* `Dispersion.deviation_le`: a bound on the deviation of positive integers
* `Dispersion.sqrt_le_newton`, `Dispersion.eq_sqrt_of_newton`: Newton's method
-/

namespace Dispersion

/-- The mean of a list, rounded down. -/
def mean (xs : List ℤ) : ℤ := xs.sum / xs.length

/-- The sum of the squared distances from `c`. -/
def squares (c : ℤ) (xs : List ℤ) : ℤ := (xs.map fun x => (x - c) * (x - c)).sum

/-- The mean of the squared distances from the mean, rounded down. -/
def variance (xs : List ℤ) : ℤ := squares (mean xs) xs / xs.length

/-- The square root of the variance, rounded down. -/
def deviation (xs : List ℤ) : ℤ := (variance xs).toNat.sqrt

variable {xs : List ℤ} {x c : ℤ}

/-! ## Bounds -/

theorem squares_nonneg (c : ℤ) (xs : List ℤ) : 0 ≤ squares c xs := by
  refine List.sum_nonneg fun y hy => ?_
  obtain ⟨x, -, rfl⟩ := List.mem_map.mp hy
  exact mul_self_nonneg _

/-- Every squared distance is at most their sum. -/
theorem square_le_squares (h : x ∈ xs) : (x - c) * (x - c) ≤ squares c xs := by
  refine List.single_le_sum (fun y hy => ?_) _ (List.mem_map_of_mem h)
  obtain ⟨x, -, rfl⟩ := List.mem_map.mp hy
  exact mul_self_nonneg _

theorem variance_nonneg (xs : List ℤ) : 0 ≤ variance xs :=
  Int.ediv_nonneg (squares_nonneg _ _) (Int.natCast_nonneg _)

theorem deviation_nonneg (xs : List ℤ) : 0 ≤ deviation xs := Int.natCast_nonneg _

/-- The square of the deviation is at most the variance. -/
theorem deviation_sq_le (xs : List ℤ) : deviation xs * deviation xs ≤ variance xs := by
  have hsqrt := Nat.sqrt_le (variance xs).toNat
  have hcast : ((variance xs).toNat : ℤ) = variance xs := Int.toNat_of_nonneg (variance_nonneg xs)
  unfold deviation
  rw [← hcast]
  exact_mod_cast hsqrt

/-- A list of one element is at its mean. -/
theorem squares_mean_of_length_lt (h : xs.length < 2) : squares (mean xs) xs = 0 := by
  match xs, h with
  | [], _ => rfl
  | [x], _ => simp [squares, mean]

section Positive

variable (hpos : ∀ x ∈ xs, 0 < x)

include hpos

theorem length_le_sum : (xs.length : ℤ) ≤ xs.sum := by
  have hsum := List.card_nsmul_le_sum xs 1 fun x hx => hpos x hx
  simpa using hsum

/-- The mean of positive integers is positive. -/
theorem mean_pos (hne : xs ≠ []) : 0 < mean xs := by
  have hlength : 0 < (xs.length : ℤ) := by exact_mod_cast List.length_pos_iff.mpr hne
  refine (Int.le_ediv_iff_mul_le hlength).mpr ?_
  simpa using length_le_sum hpos

theorem le_sum (hx : x ∈ xs) : x ≤ xs.sum :=
  List.single_le_sum (fun y hy => (hpos y hy).le) x hx

/-- No element is farther from the mean than twice the length times the mean. -/
theorem abs_sub_mean_le (hx : x ∈ xs) : |x - mean xs| ≤ 2 * xs.length * mean xs := by
  have hne : xs ≠ [] := List.ne_nil_of_mem hx
  have hlength : 0 < (xs.length : ℤ) := by exact_mod_cast List.length_pos_iff.mpr hne
  have hmean := mean_pos hpos hne
  have hsum : xs.sum < (mean xs + 1) * xs.length := Int.lt_ediv_add_one_mul_self _ hlength
  have hle := le_sum hpos hx
  have hlow := hpos x hx
  -- the sum is below the length times the next integer after the mean
  have hstep : (mean xs + 1) * xs.length ≤ 2 * xs.length * mean xs := by nlinarith
  have hlength_mean : mean xs ≤ xs.length * mean xs := by nlinarith
  rw [abs_le]
  constructor <;> linarith

theorem variance_le : variance xs ≤ 2 * xs.length * mean xs * (2 * xs.length * mean xs) := by
  rcases eq_or_ne xs [] with rfl | hne
  · simp [variance, squares]
  have hlength : 0 < (xs.length : ℤ) := by exact_mod_cast List.length_pos_iff.mpr hne
  refine Int.ediv_le_of_le_mul hlength ?_
  have hsum := List.sum_le_card_nsmul (xs.map fun x => (x - mean xs) * (x - mean xs))
    (2 * xs.length * mean xs * (2 * xs.length * mean xs)) fun y hy => ?_
  · rw [List.length_map, nsmul_eq_mul, mul_comm] at hsum
    exact hsum
  · obtain ⟨x, hx, rfl⟩ := List.mem_map.mp hy
    rw [← abs_mul_abs_self]
    have hdist := abs_sub_mean_le hpos hx
    exact mul_self_le_mul_self (abs_nonneg _) hdist

/-- The deviation of positive integers is at most twice their number times their mean. -/
theorem deviation_le : deviation xs ≤ 2 * xs.length * mean xs := by
  rcases eq_or_ne xs [] with rfl | hne
  · simp [deviation, variance, squares]
  have hmean := mean_pos hpos hne
  refine (mul_self_le_mul_self_iff (deviation_nonneg xs) ?_).mpr
    ((deviation_sq_le xs).trans (variance_le hpos))
  exact mul_nonneg (mul_nonneg (by decide) (Int.natCast_nonneg _)) hmean.le

end Positive

/-! ## Newton's method -/

variable {n k : ℕ}

/-- A step of Newton's method does not go below the square root. -/
theorem sqrt_le_newton (hk : 0 < k) : n.sqrt ≤ (k + n / k) / 2 := by
  have hsqrt := Nat.sqrt_le n
  have hroot : 2 * n.sqrt ≤ k + n / k := by
    rcases Nat.le_total (2 * n.sqrt) k with hle | hge
    · exact hle.trans (Nat.le_add_right _ _)
    · -- the square of the difference of `k` and the root is not negative
      obtain ⟨d, hd⟩ := Nat.exists_eq_add_of_le hge
      have hmul : d * k ≤ n := by nlinarith [sq_nonneg ((k : ℤ) - n.sqrt)]
      have hdiv := (Nat.le_div_iff_mul_le hk).mpr hmul
      omega
  omega

/-- The sum in a step of Newton's method from a guess up to `n` is at most `n + 1`. -/
theorem newton_sum_le (hk : 0 < k) (hle : k ≤ n) : k + n / k ≤ n + 1 := by
  have hdiv : 0 < n / k := Nat.div_pos hle hk
  have hmul := Nat.mul_div_le n k
  nlinarith

/-- A step of Newton's method that does not descend starts at the square root, or below it. -/
theorem eq_sqrt_of_newton (hk : 0 < k) (hle : n.sqrt ≤ k) (hstop : k ≤ (k + n / k) / 2) :
    k = n.sqrt := by
  refine le_antisymm (Nat.le_sqrt.mpr ?_) hle
  refine (Nat.le_div_iff_mul_le hk).mp ?_
  omega

end Dispersion
