import Stellara.Amm.Effects
import Mathlib.Algebra.BigOperators.Group.List.Basic

/-!
# Rounding of deposits

The liquidity of a deposit is computed from the desired amounts with two divisions, and the
amounts to transfer are computed from that liquidity with two more. All of them round down, so
that a deposit never costs more than what was desired. For the same reason the parts of a
liquidity never stand for more than the whole.

## Main results

* `amountA_le_of_liquidity`, `amountB_le_of_liquidity`: what the liquidity that an amount provides
  stands for
* `amountsForLiquidity_parts`: the amounts of the parts of a liquidity
* `rounding_favours_pool`: both, for the ranges of the contract
-/

namespace Stellara.Amm

section Deposits

variable {liquidity lower upper price a b : ℤ}

/-- The liquidity that an amount of token a provides stands for no more than the amount. -/
theorem amountA_le_of_liquidity (hl : 0 < lower) (hu : 0 < upper) (hpos : 0 < liquidity)
    (h : Unsaturated liquidity lower upper (clampPrice lower upper price))
    (hle : liquidity ≤ liquidityFromA a upper (clampPrice lower upper price)) :
    amountA liquidity lower upper price ≤ max a 0 := by
  have hc := clampPrice_pos hl hu price
  rw [amountA_eq h hl hu hpos.le]
  generalize clampPrice lower upper price = c at *
  split
  · rename_i hlt
    obtain ⟨step, -, ⟨hprod, -⟩, hstep, -⟩ := liquidityFromA_step hc hlt hpos hle
    refine le_max_of_le_left (Int.ediv_le_of_le_mul hc ?_)
    have hquot : liquidity * (upper - c) / upper * upper ≤ liquidity * (upper - c) :=
      Int.ediv_mul_le _ hu.ne'
    -- scaled by the upper price, the roundings of both directions go the same way
    refine Int.le_of_mul_le_mul_right ?_ hu
    calc liquidity * (upper - c) / upper * Q64 * upper
        = liquidity * (upper - c) / upper * upper * Q64 := by ring
      _ ≤ step * c * Q64 := Int.mul_le_mul_of_nonneg_right (hquot.trans hprod) Q64_pos.le
      _ = step * Q64 * c := by ring
      _ ≤ a * upper * c := Int.mul_le_mul_of_nonneg_right hstep hc.le
      _ = a * c * upper := by ring
  · exact le_max_right _ _

/-- The liquidity that an amount of token b provides stands for no more than the amount. -/
theorem amountB_le_of_liquidity {liqB : ℤ} (hpos : 0 < liquidity)
    (h : liquidityFromB b lower (clampPrice lower upper price) = .ok liqB)
    (hle : liquidity ≤ liqB) : amountB liquidity lower upper price ≤ max b 0 := by
  rw [amountB_eq hpos.le]
  generalize clampPrice lower upper price = c at *
  split
  · rename_i hlt
    have hdiff : 0 < c - lower := by omega
    simp only [liquidityFromB, if_pos hlt, Except.bind_eq_ok, IntFormat.checked_eq_ok] at h
    obtain ⟨product, ⟨-, rfl⟩, h⟩ := h
    obtain rfl := Except.ok.inj h
    rw [max_eq_left (show 1 ≤ c - lower by omega)] at hle
    have hproduct : 0 < b * Q64 := pos_of_tdiv_pos hdiff (hpos.trans_le hle)
    rw [Int.tdiv_eq_ediv_of_nonneg hproduct.le] at hle
    exact le_max_of_le_left (Int.ediv_le_of_le_mul Q64_pos (Int.mul_le_of_le_ediv hdiff hle))
  · exact le_max_right _ _

/-- The liquidity that two amounts provide stands for no more than the amounts. -/
theorem amounts_le_of_liquidity {actualA actualB : ℤ} (hl : 0 < lower) (hu : 0 < upper)
    (h : liquidityFromAmounts a b lower upper price = .ok liquidity) (hne : liquidity ≠ 0)
    (hamounts : amountsForLiquidity liquidity lower upper price = .ok (actualA, actualB)) :
    actualA ≤ max a 0 ∧ actualB ≤ max b 0 := by
  obtain ⟨⟨hpos, -⟩, hsat⟩ := liquidityFromAmounts_unsaturated hl hu h hne hamounts
  obtain ⟨-, rfl, rfl⟩ := amountsForLiquidity_eq_ok hamounts
  simp only [liquidityFromAmounts, Except.bind_eq_ok] at h
  obtain ⟨liqB, hliqB, h⟩ := h
  have hmin := Except.ok.inj h
  constructor
  · apply amountA_le_of_liquidity hl hu hpos hsat
    omega
  · apply amountB_le_of_liquidity hpos hliqB
    omega

end Deposits

/-! ## Parts of a liquidity -/

section Parts

variable {liquidity lower upper price : ℤ}

/-- The amounts of the parts of a liquidity can be computed, and sum to at most its own. -/
theorem amountsForLiquidity_parts (hl : 0 < lower) (hu : 0 < upper) :
    ∀ {parts : List ℤ}, (∀ part ∈ parts, 0 ≤ part) →
      Unsaturated parts.sum lower upper (clampPrice lower upper price) →
      ∃ amounts, parts.mapM (amountsForLiquidity · lower upper price) = .ok amounts ∧
        (amounts.map Prod.fst).sum ≤ amountA parts.sum lower upper price ∧
        (amounts.map Prod.snd).sum ≤ amountB parts.sum lower upper price := by
  intro parts
  induction parts with
  | nil =>
    intro _ h
    exact ⟨[], rfl, amountA_nonneg h hl hu le_rfl, amountB_nonneg le_rfl⟩
  | cons part rest ih =>
    intro hnn h
    rw [List.sum_cons] at h ⊢
    obtain ⟨hpart, hrest⟩ := List.forall_mem_cons.mp hnn
    have hsum : 0 ≤ rest.sum := List.sum_nonneg hrest
    obtain ⟨amounts, hamounts, hA, hB⟩ := ih hrest (h.mono hu (by omega))
    have hhead := amountsForLiquidity_of_unsaturated (h.mono hu (show part ≤ part + rest.sum by omega))
      hpart
    -- the first part and all others are two parts of the whole
    have haddA := amountA_add_le h hl hu hpart (by omega)
    have haddB : amountB part lower upper price + amountB (part + rest.sum - part) lower upper price ≤
        amountB (part + rest.sum) lower upper price := amountB_add_le hpart (by omega)
    rw [add_sub_cancel_left] at haddA haddB
    refine ⟨(amountA part lower upper price, amountB part lower upper price) :: amounts, ?_, ?_, ?_⟩
    · rw [List.mapM_cons, hhead, hamounts]
      rfl
    · rw [List.map_cons, List.sum_cons]
      omega
    · rw [List.map_cons, List.sum_cons]
      omega

end Parts

variable {τ : Type} [TokenClient τ Address Address]

/-- In every range a deposit that succeeds transfers at most the desired amounts; and the amounts of
the parts of a liquidity sum to at most those of the whole, unless a product saturates or overflows
for the whole. -/
theorem rounding_favours_pool {tickLower tickUpper lower upper : ℤ}
    (hlower : tickToSqrtPrice tickLower = .ok lower) (hupper : tickToSqrtPrice tickUpper = .ok upper) :
    (∀ (now : ℕ) (caller tokenA tokenB : Address) (desiredA desiredB minA minB : ℤ)
        (s s' : State τ) (result : AddLiquidityResult),
      addLiquidity now caller tokenA tokenB tickLower tickUpper desiredA desiredB minA minB s =
        .ok (result, s') →
      result.amountA ≤ max desiredA 0 ∧ result.amountB ≤ max desiredB 0) ∧
    ∀ (price liquidity : ℤ) (parts : List ℤ), (∀ part ∈ parts, 0 ≤ part) → parts.sum = liquidity →
      Unsaturated liquidity lower upper (clampPrice lower upper price) →
      ∃ amountA amountB amounts,
        amountsForLiquidity liquidity lower upper price = .ok (amountA, amountB) ∧
        parts.mapM (amountsForLiquidity · lower upper price) = .ok amounts ∧
        (amounts.map Prod.fst).sum ≤ amountA ∧ (amounts.map Prod.snd).sum ≤ amountB := by
  obtain ⟨⟨hminL, hmaxL⟩, rfl⟩ := tickToSqrtPrice_eq_ok.mp hlower
  obtain ⟨⟨hminU, hmaxU⟩, rfl⟩ := tickToSqrtPrice_eq_ok.mp hupper
  have hl := sqrtPriceAt_pos hminL
  have hu := sqrtPriceAt_pos hminU
  constructor
  · intro now caller tokenA tokenB desiredA desiredB minA minB s s' result h
    obtain ⟨pool, pool', liquidity, actualA, actualB, -, -, -, -, -, -, -, -, ⟨hliquidity, hne⟩,
      hamounts, -, -, -, -, rfl, -⟩ := addLiquidity_eq_ok h
    exact amounts_le_of_liquidity hl hu hliquidity hne hamounts
  · intro price liquidity parts hnn hsum h
    subst hsum
    obtain ⟨amounts, hamounts, hA, hB⟩ := amountsForLiquidity_parts hl hu hnn h
    exact ⟨_, _, amounts, amountsForLiquidity_of_unsaturated h (List.sum_nonneg hnn), hamounts, hA,
      hB⟩

/-- The range of all ticks. -/
theorem rounding_favours_pool_full :
    (∀ (now : ℕ) (caller tokenA tokenB : Address) (desiredA desiredB minA minB : ℤ)
        (s s' : State (Balances Address Address)) (result : AddLiquidityResult),
      addLiquidity now caller tokenA tokenB (-8192) 8192 desiredA desiredB minA minB s =
        .ok (result, s') →
      result.amountA ≤ max desiredA 0 ∧ result.amountB ≤ max desiredB 0) ∧
    ∀ (price liquidity : ℤ) (parts : List ℤ), (∀ part ∈ parts, 0 ≤ part) → parts.sum = liquidity →
      Unsaturated liquidity 12247334978884438016 27784196929994764288
        (clampPrice 12247334978884438016 27784196929994764288 price) →
      ∃ amountA amountB amounts,
        amountsForLiquidity liquidity 12247334978884438016 27784196929994764288 price =
          .ok (amountA, amountB) ∧
        parts.mapM (amountsForLiquidity · 12247334978884438016 27784196929994764288 price) =
          .ok amounts ∧
        (amounts.map Prod.fst).sum ≤ amountA ∧ (amounts.map Prod.snd).sum ≤ amountB :=
  rounding_favours_pool (by decide) (by decide)

end Stellara.Amm
