import Stellara.Lib.Dispersion
import Stellara.Lib.Loop
import Stellara.Amm.Fees

/-!
# The premium for volatility

The premium on the fee tier of a pool is a tenth of the volatility of its sampled prices, up to a
bound, where the volatility is the standard deviation in basis points of the mean. For positive
samples the computation of the fee is exact, except that the sum of the squared distances from the
mean may not fit. Then it overflows.

## Main definitions

* `volatilityBps`, `premium`: the volatility of samples, and the premium for it
* `periodSamples`: the samples of the last periods

## Main results

* `isqrt_eq`, `isqrt_isGreatest`: Newton's method computes the square root, in both its copies
* `computeDynamicFee_eq`: the fee is the tier plus the premium, or the squares do not fit
* `lastSamples_eq`: when the samples that are read are those of the last periods
-/

namespace Stellara.Amm

open Dispersion

/-! ## Volatility -/

/-- The deviation of samples from their mean, in basis points of the mean. -/
def volatilityBps (samples : List ℤ) : ℤ := deviation samples * 10000 / mean samples

/-- The premium for the volatility of samples, in basis points. -/
def premium (samples : List ℤ) : ℕ :=
  min ((volatilityBps samples).toNat / volatilityDivisor) maxFeePremiumBps

theorem premium_le (samples : List ℤ) : premium samples ≤ maxFeePremiumBps := min_le_right _ _

/-- A single sample has no premium. -/
theorem premium_of_length_lt {samples : List ℤ} (h : samples.length < 2) : premium samples = 0 := by
  have hvariance : variance samples = 0 := by
    rw [variance, squares_mean_of_length_lt h, Int.zero_ediv]
  have hdeviation : deviation samples = 0 := by
    rw [deviation, hvariance]
    rfl
  rw [premium, volatilityBps, hdeviation, zero_mul, Int.zero_ediv]
  rfl

/-- The volatility of positive samples is bounded by their number. -/
theorem volatilityBps_le {samples : List ℤ} (hpos : ∀ x ∈ samples, 0 < x) (hne : samples ≠ []) :
    volatilityBps samples ≤ 2 * samples.length * 10000 := by
  have hmean := mean_pos hpos hne
  refine Int.ediv_le_of_le_mul hmean ?_
  calc deviation samples * 10000
      ≤ 2 * samples.length * mean samples * 10000 :=
        Int.mul_le_mul_of_nonneg_right (deviation_le hpos) (by decide)
    _ = 2 * samples.length * 10000 * mean samples := mul_right_comm _ _ _

/-! ## The square root -/

/-- A round that descends computes the guess after the next one. -/
theorem isqrtStep_next {n x y : ℕ} (hpos : 0 < y) (hlt : y < x)
    (hmem : IntFormat.i128.Mem ((y + n / y : ℕ) : ℤ)) :
    isqrtStep n ((x : ℤ), (y : ℤ)) = .ok (.next ((y : ℤ), (((y + n / y) / 2 : ℕ) : ℤ))) := by
  have hquotient : IntFormat.i128.Mem ((n : ℤ).tdiv y) :=
    ⟨IntFormat.i128.lo_nonpos.trans (Int.natCast_nonneg _),
      (Int.ofNat_le.mpr (Nat.le_add_left _ _)).trans hmem.2⟩
  have hchecked : IntFormat.i128.checked (Fault.overflow : Fault AmmError)
      ((y : ℤ) + (n : ℤ).tdiv y) = .ok ((y + n / y : ℕ) : ℤ) := IntFormat.checked_of_mem hmem
  rw [isqrtStep, if_pos (Int.ofNat_lt.mpr hlt), IntFormat.checkedDiv,
    if_neg (Int.natCast_ne_zero.mpr hpos.ne'), IntFormat.checked_of_mem hquotient, Except.ok_bind,
    hchecked]
  rfl

/-- A guess that is not below the root of `n`, and the one after it. -/
def Guess (n : ℕ) (p : ℤ × ℤ) : Prop :=
  ∃ k : ℕ, 0 < k ∧ k ≤ n ∧ n.sqrt ≤ k ∧ p = ((k : ℤ), (((k + n / k) / 2 : ℕ) : ℤ))

/-- A round stops at the root, or goes on with a smaller guess. -/
theorem Guess.round {n : ℕ} {p : ℤ × ℤ} (h : Guess n p) (hle : (n : ℤ) + 1 ≤ i128Max) :
    (∃ p', isqrtStep n p = .ok (.stop p') ∧ p'.1 = n.sqrt) ∨
      ∃ p', isqrtStep n p = .ok (.next p') ∧ Guess n p' ∧ p'.1.toNat < p.1.toNat := by
  obtain ⟨k, hk, hkn, hroot, rfl⟩ := h
  have hdiv : 0 < n / k := Nat.div_pos hkn hk
  -- the guess descends as long as the one after it is smaller, and is the root when it is not
  by_cases hlt : (k + n / k) / 2 < k
  · have hpos : 0 < (k + n / k) / 2 := by omega
    have hsum := newton_sum_le hpos (hlt.le.trans hkn)
    have hmem : IntFormat.i128.Mem
        (((k + n / k) / 2 + n / ((k + n / k) / 2) : ℕ) : ℤ) := by
      refine ⟨IntFormat.i128.lo_nonpos.trans (Int.natCast_nonneg _), ?_⟩
      unfold i128Max at hle
      omega
    exact .inr ⟨_, isqrtStep_next hpos hlt hmem,
      ⟨_, hpos, hlt.le.trans hkn, sqrt_le_newton hk, rfl⟩,
      (Int.toNat_natCast _).trans_lt (hlt.trans_eq (Int.toNat_natCast k).symm)⟩
  · refine .inl ⟨_, if_neg fun h => hlt (Int.ofNat_lt.mp h), ?_⟩
    exact congrArg _ (eq_sqrt_of_newton hk hroot (not_lt.mp hlt))

/-- Newton's method computes the square root of every number whose successor fits. -/
theorem isqrt_eq {n : ℤ} (hnn : 0 ≤ n) (hle : n + 1 ≤ i128Max) :
    isqrt n = .ok (n.toNat.sqrt : ℤ) := by
  lift n to ℕ using hnn
  rw [Int.toNat_natCast]
  rcases Nat.eq_zero_or_pos n with rfl | hn
  · rfl
  -- the first guess is `n` itself, and the one after it the half of its successor
  have hfirst : ((n : ℤ) + 1).tdiv 2 = (((n + n / n) / 2 : ℕ) : ℤ) := by
    rw [Nat.div_self hn]
    rfl
  have hstart : Guess n ((n : ℤ), ((n : ℤ) + 1).tdiv 2) :=
    ⟨n, hn, le_rfl, Nat.sqrt_le_self n, by rw [hfirst]⟩
  have hsum : IntFormat.i128.Mem ((n : ℤ) + 1) :=
    ⟨IntFormat.i128.lo_nonpos.trans (by omega), hle⟩
  obtain ⟨p, hloop, hp⟩ := loop_total (I := Guess n) (fun p => p.1.toNat)
    (fun p h => h.round hle) (n + 1) _ hstart (by simp)
  rw [isqrt, if_neg (by omega), IntFormat.checked_of_mem hsum, Except.ok_bind, Int.toNat_natCast,
    hloop, Except.ok_bind]
  exact congrArg Except.ok hp

theorem IlHedge.isqrt_eq (n : ℤ) : IlHedge.isqrt n = Amm.isqrt n := rfl

/-- The root of a natural number is the greatest integer whose square is not above it. -/
theorem isGreatest_sqrt (n : ℕ) : IsGreatest {r : ℤ | r * r ≤ n} n.sqrt := by
  have hmem : (n.sqrt : ℤ) * n.sqrt ≤ n := by exact_mod_cast Nat.sqrt_le n
  refine ⟨hmem, ?_⟩
  intro r hr
  have hsq : r.natAbs * r.natAbs ≤ n := by
    have habs : ((r.natAbs * r.natAbs : ℕ) : ℤ) ≤ n := by
      rw [Int.natCast_mul, Int.natAbs_mul_self' r]
      exact hr
    exact_mod_cast habs
  exact Int.le_natAbs.trans (by exact_mod_cast Nat.le_sqrt.mpr hsq)

/-- Both copies of the square root return the greatest integer whose square is not above the
number, which is any that has a successor in the format. -/
theorem isqrt_isGreatest {n : ℤ} (hnn : 0 ≤ n) (hlt : n < 2 ^ 127 - 1) :
    ∃ root, isqrt n = .ok root ∧ IlHedge.isqrt n = .ok root ∧ IsGreatest {r | r * r ≤ n} root := by
  have hroot : isqrt n = .ok (n.toNat.sqrt : ℤ) := isqrt_eq hnn hlt
  refine ⟨_, hroot, (IlHedge.isqrt_eq n).trans hroot, ?_⟩
  have hgreatest := isGreatest_sqrt n.toNat
  rwa [Int.toNat_of_nonneg hnn] at hgreatest

theorem isqrt_isGreatest_ninetyNine : (0 : ℤ) ≤ 99 ∧ (99 : ℤ) < 2 ^ 127 - 1 ∧
    ∃ root, isqrt 99 = .ok root ∧ IlHedge.isqrt 99 = .ok root ∧
      IsGreatest {r | r * r ≤ 99} root :=
  ⟨by decide, by decide, isqrt_isGreatest (by decide) (by decide)⟩

/-! ## Sums -/

section Sums

variable {samples : List ℤ}

/-- Numbers that are not negative are summed exactly, when their sum fits. -/
theorem checkedSum_eq (hnn : ∀ x ∈ samples, 0 ≤ x) {sum : ℤ} (hsum : 0 ≤ sum)
    (hle : sum ≤ i128Max) :
    checkedSum samples sum =
      if sum + samples.sum ≤ i128Max then .ok (sum + samples.sum) else .error .overflow := by
  induction samples generalizing sum with
  | nil => rw [List.sum_nil, add_zero, if_pos hle, checkedSum]
  | cons x xs ih =>
    have hx := hnn x List.mem_cons_self
    have hxs : ∀ y ∈ xs, 0 ≤ y := fun y hy => hnn y (List.mem_cons_of_mem x hy)
    have hrest : 0 ≤ xs.sum := List.sum_nonneg hxs
    rw [checkedSum, List.sum_cons, ← add_assoc]
    by_cases hfits : sum + x ≤ i128Max
    · have hmem : IntFormat.i128.Mem (sum + x) :=
        ⟨IntFormat.i128.lo_nonpos.trans (add_nonneg hsum hx), hfits⟩
      rw [IntFormat.checked_of_mem hmem, Except.ok_bind, ih hxs (add_nonneg hsum hx) hfits]
    · have hover : ¬ sum + x + xs.sum ≤ i128Max := by omega
      rw [IntFormat.checked, if_neg fun hmem => hfits hmem.2, Except.error_bind, if_neg hover]

theorem squaredDistance_eq {c x : ℤ} (hc : 0 ≤ c) (hcle : c ≤ i128Max) (hx : 0 ≤ x)
    (hxle : x ≤ i128Max) : squaredDistance c x =
      if (x - c) * (x - c) ≤ i128Max then .ok ((x - c) * (x - c)) else .error .overflow := by
  have hlo : IntFormat.i128.lo ≤ -i128Max := by decide
  have hmem : IntFormat.i128.Mem (x - c) := by
    unfold i128Max at *
    exact ⟨by omega, by omega⟩
  have hsq : IntFormat.i128.lo ≤ (x - c) * (x - c) :=
    IntFormat.i128.lo_nonpos.trans (mul_self_nonneg _)
  rw [squaredDistance, IntFormat.checked_of_mem hmem, Except.ok_bind]
  exact if_congr (and_iff_right hsq) rfl rfl

/-- The squared distances are summed exactly, when their sum fits. -/
theorem squares_eq {c : ℤ} (hc : 0 ≤ c) (hcle : c ≤ i128Max) (hnn : ∀ x ∈ samples, 0 ≤ x)
    (hle : ∀ x ∈ samples, x ≤ i128Max) :
    (samples.mapM (squaredDistance c) >>= fun squares => checkedSum squares 0) =
      if squares c samples ≤ i128Max then .ok (squares c samples) else .error .overflow := by
  have hstep : ∀ x ∈ samples, squaredDistance c x =
      if (x - c) * (x - c) ≤ i128Max then .ok ((x - c) * (x - c)) else .error .overflow :=
    fun x hx => squaredDistance_eq hc hcle (hnn x hx) (hle x hx)
  by_cases hall : ∀ x ∈ samples, (x - c) * (x - c) ≤ i128Max
  · rw [Except.mapM_eq_ok fun x hx => (hstep x hx).trans (if_pos (hall x hx)), Except.ok_bind,
      checkedSum_eq (fun y hy => ?_) le_rfl IntFormat.i128.hi_nonneg, zero_add]
    · rfl
    · obtain ⟨x, -, rfl⟩ := List.mem_map.mp hy
      exact mul_self_nonneg _
  · -- a square that does not fit makes the sum too large as well
    push Not at hall
    obtain ⟨x, hx, hlarge⟩ := hall
    have hover : ¬ squares c samples ≤ i128Max := not_le.mpr (hlarge.trans_le (square_le_squares hx))
    rw [if_neg hover, Except.mapM_eq_error (fun y hy => ?_)
      ⟨x, hx, (hstep x hx).trans (if_neg (not_le.mpr hlarge))⟩, Except.error_bind]
    rw [hstep y hy]
    split
    · exact .inl ⟨_, rfl⟩
    · exact .inr rfl

end Sums

/-! ## The fee -/

section Fee

variable {samples : List ℤ} {baseFee : ℕ}

/-- A deviation whose square fits can be scaled to basis points. -/
theorem deviation_scaled (h : variance samples ≤ i128Max) :
    IntFormat.i128.Mem (deviation samples * 10000) := by
  have hsq := (deviation_sq_le samples).trans h
  have hnn := deviation_nonneg samples
  have hlt : deviation samples < 18446744073709551616 := by
    by_contra hge
    have hmul := mul_self_le_mul_self (by decide) (not_lt.mp hge)
    exact absurd (hmul.trans hsq) (by decide)
  refine ⟨IntFormat.i128.lo_nonpos.trans (Int.mul_nonneg hnn (by decide)), ?_⟩
  have hhi : (18446744073709551616 : ℤ) * 10000 ≤ IntFormat.i128.hi := by decide
  omega

/-- The variance of two samples or more fits with room to spare. -/
theorem variance_fits (hlength : 2 ≤ samples.length)
    (hfits : squares (mean samples) samples ≤ i128Max) : variance samples + 1 ≤ i128Max := by
  have hlengthPos : (samples.length : ℤ) ≠ 0 := by exact_mod_cast (by omega : samples.length ≠ 0)
  have hhalf : variance samples ≤ i128Max / 2 := by
    refine Int.le_ediv_of_mul_le (by decide) ?_
    have hmul : variance samples * samples.length ≤ squares (mean samples) samples :=
      Int.ediv_mul_le _ hlengthPos
    nlinarith [variance_nonneg samples]
  have hbound : i128Max / 2 + 1 ≤ i128Max := by decide
  omega

theorem volatilityBps_nonneg (hpos : ∀ x ∈ samples, 0 < x) (hne : samples ≠ []) :
    0 ≤ volatilityBps samples :=
  Int.ediv_nonneg (Int.mul_nonneg (deviation_nonneg _) (by decide)) (mean_pos hpos hne).le

/-- The volatility of the samples of the last periods is not truncated. -/
theorem wrap_volatilityBps (hpos : ∀ x ∈ samples, 0 < x) (hne : samples ≠ [])
    (hperiods : samples.length ≤ oraclePeriods) :
    IntFormat.u32.wrap (volatilityBps samples) = volatilityBps samples := by
  have hvolatility := volatilityBps_le hpos hne
  have hcast : (samples.length : ℤ) ≤ oraclePeriods := by exact_mod_cast hperiods
  have hhi : (2 * oraclePeriods * 10000 : ℤ) ≤ IntFormat.u32.hi := by decide
  exact IntFormat.wrap_of_mem ⟨volatilityBps_nonneg hpos hne, by omega⟩

/-- The fee for two samples or more is the base fee plus the premium, or the squares do not fit. -/
theorem dynamicFee_eq (hlength : 2 ≤ samples.length) (hperiods : samples.length ≤ oraclePeriods)
    (hpos : ∀ x ∈ samples, 0 < x) (hsum : samples.sum ≤ i128Max)
    (hbase : ((baseFee + maxFeePremiumBps : ℕ) : ℤ) ≤ IntFormat.u32.hi) :
    dynamicFee baseFee (mean samples) samples =
      if squares (mean samples) samples ≤ i128Max then .ok (baseFee + premium samples)
      else .error .overflow := by
  have hne : samples ≠ [] := List.ne_nil_of_length_pos (by omega)
  have hmean := mean_pos hpos hne
  have hmeanLe : mean samples ≤ i128Max :=
    (Int.ediv_le_self _ (List.sum_nonneg fun x hx => (hpos x hx).le)).trans hsum
  have hsquares := squares_eq hmean.le hmeanLe (fun x hx => (hpos x hx).le)
    fun x hx => (le_sum hpos hx).trans hsum
  unfold dynamicFee
  rw [← bind_assoc, hsquares]
  split
  · rename_i hfits
    have hvariance := variance_fits hlength hfits
    have hvarianceLe : variance samples ≤ i128Max := by omega
    have hpremium := premium_le samples
    -- no step after the sum of the squares overflows, and no value is truncated
    rw [Except.ok_bind, Int.tdiv_eq_ediv_of_nonneg (squares_nonneg _ _)]
    show (isqrt (variance samples) >>= fun root => _) = _
    rw [isqrt_eq (variance_nonneg samples) hvariance, Except.ok_bind]
    show (IntFormat.i128.checked Fault.overflow (deviation samples * 10000) >>= fun scaled => _) = _
    rw [IntFormat.checked_of_mem (deviation_scaled hvarianceLe), Except.ok_bind, max_eq_left hmean,
      Int.tdiv_eq_ediv_of_nonneg (Int.mul_nonneg (deviation_nonneg _) (by decide))]
    show IntFormat.u32.checkedNat Fault.overflow (baseFee + min ((IntFormat.u32.wrap
      (volatilityBps samples)).toNat / volatilityDivisor) maxFeePremiumBps) = _
    rw [wrap_volatilityBps hpos hne hperiods]
    exact IntFormat.checkedNat_eq_ok.mpr ⟨by unfold premium at hpremium; omega, rfl⟩
  · rw [Except.error_bind]

/-! ## Samples -/

variable {now : ℕ} {poolKey : PoolKey} {stored : PriceSamples}

theorem length_lastSamples_le : (lastSamples now poolKey stored).length ≤ oraclePeriods :=
  (List.length_filterMap_le _ _).trans_eq List.length_range

theorem mem_lastSamples {x : ℤ} (h : x ∈ lastSamples now poolKey stored) :
    ∃ period, stored.lookup (poolKey, period) = some x := by
  obtain ⟨i, -, hi⟩ := List.mem_filterMap.mp h
  exact ⟨_, hi⟩

/-- The fee is the base fee plus the premium for the samples that are read, or the sum of their
squared distances does not fit. -/
theorem computeDynamicFee_eq (hpos : ∀ x ∈ lastSamples now poolKey stored, 0 < x)
    (hsum : (lastSamples now poolKey stored).sum ≤ i128Max)
    (hbase : ((baseFee + maxFeePremiumBps : ℕ) : ℤ) ≤ IntFormat.u32.hi) :
    computeDynamicFee now poolKey baseFee stored =
      if squares (mean (lastSamples now poolKey stored)) (lastSamples now poolKey stored) ≤ i128Max
      then .ok (baseFee + premium (lastSamples now poolKey stored),
        (lastSamples now poolKey stored).length)
      else .error .overflow := by
  have hperiods : (lastSamples now poolKey stored).length ≤ oraclePeriods := length_lastSamples_le
  unfold computeDynamicFee
  generalize lastSamples now poolKey stored = last at hpos hsum hperiods ⊢
  have hnn : ∀ x ∈ last, 0 ≤ x := fun x hx => (hpos x hx).le
  have hchecked : checkedSum last 0 = (.ok last.sum : Outcome AmmError ℤ) := by
    rw [checkedSum_eq hnn le_rfl IntFormat.i128.hi_nonneg, zero_add, if_pos hsum]
  simp only [hchecked, Except.ok_bind]
  by_cases hlength : last.length < 2
  · have hfits : 0 ≤ i128Max := IntFormat.i128.hi_nonneg
    rw [if_pos hlength, squares_mean_of_length_lt hlength, if_pos hfits,
      premium_of_length_lt hlength, add_zero]
  · have hne : last ≠ [] := List.ne_nil_of_length_pos (by omega)
    have hmean : last.sum.tdiv last.length = mean last :=
      Int.tdiv_eq_ediv_of_nonneg (List.sum_nonneg hnn)
    rw [if_neg hlength, hmean, if_neg (mean_pos hpos hne).ne',
      dynamicFee_eq (not_lt.mp hlength) hperiods hpos hsum hbase]
    split <;> rfl

end Fee

/-! ## Periods -/

section Periods

variable {now : ℕ} {poolKey : PoolKey} {samples : PriceSamples}

/-- The samples of the last periods, each once, the latest first. The first period is the last of
them when there are not enough. -/
def periodSamples (now : ℕ) (poolKey : PoolKey) (samples : PriceSamples) : List ℤ :=
  (List.range (min oraclePeriods (now / oraclePeriodSecs + 1))).filterMap fun i =>
    samples.lookup (poolKey, now / oraclePeriodSecs - i)

/-- There are enough periods, or the first one has no sample. -/
def ReadOnce (now : ℕ) (poolKey : PoolKey) (samples : PriceSamples) : Prop :=
  oraclePeriods ≤ now / oraclePeriodSecs + 1 ∨ samples.lookup (poolKey, 0) = none

/-- No sample is read twice when there are enough periods, or the first one has no sample. -/
theorem lastSamples_eq (h : ReadOnce now poolKey samples) :
    lastSamples now poolKey samples = periodSamples now poolKey samples := by
  unfold lastSamples periodSamples
  rcases Nat.le_total oraclePeriods (now / oraclePeriodSecs + 1) with hle | hge
  · rw [Nat.min_eq_left hle]
  rw [Nat.min_eq_right hge]
  obtain ⟨early, hearly⟩ := Nat.exists_eq_add_of_le hge
  rw [hearly, List.range_add, List.filterMap_append, List.append_right_eq_self,
    List.filterMap_eq_nil_iff]
  intro i hi
  obtain ⟨j, hj, rfl⟩ := List.mem_map.mp hi
  have hperiod : now / oraclePeriodSecs - (now / oraclePeriodSecs + 1 + j) = 0 := by omega
  rw [hperiod]
  -- the periods before the first one are read as the first one, which has no sample
  rcases h with henough | hnone
  · rw [List.mem_range] at hj
    omega
  · exact hnone

end Periods

end Stellara.Amm
