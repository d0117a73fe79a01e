import Stellara.Amm.SwapMath

/-!
# Swap steps that end before their target

A step down whose input does not pay for the whole way to the target should end at the price that
the input pays for, and pay out no more than the exact output there. The product of the current
price and the unit of the fixed point is past the greatest word for every price of the table. It
saturates, the quotient is below every price of the table, and so the step always ends at the
target. It does what it should only where the difference vanishes in rounding.

## Main definitions

* `inputAfterFee`, `inputToTarget`: what a step can spend, and what the way to the target costs
* `partialPrice`, `PartialOutput`: where a partial step should end, and what it may pay out
* `ExactPartialStep`: a partial step that does both
* `Vanishes`: the way that is not paid for vanishes in rounding

## Main results

* `stepDown_jumps`: a partial step ends at the target
* `partialStep_iff`: when a partial step does what it should
-/

namespace Stellara.Amm

/-! ## What a partial step should do -/

/-- What a step can spend once the fee is deducted from its input. -/
def inputAfterFee (amountIn : ℤ) (feeBps : ℕ) : ℤ :=
  max (amountIn - (amountIn * feeBps).tdiv 10000) 0

/-- What the way down to the target costs. -/
def inputToTarget (current target liquidity : ℤ) : ℤ :=
  (IntFormat.i128.saturate ((IntFormat.i128.saturate (liquidity * (current - target))).tdiv current *
    Q64)).tdiv target

/-- The price that an input pays for: the formula of a partial step, without saturation. -/
def partialPrice (current liquidity input : ℤ) : ℤ :=
  current * Q64 / (input * current / liquidity + Q64)

/-- The output `amountOut` is at most `liquidity * (current - p) / Q64` for the exact price
`p = liquidity * current * Q64 / (liquidity * Q64 + input * current)`, which makes the bound
`liquidity * input * current ^ 2 / (Q64 * (liquidity * Q64 + input * current))`. -/
def PartialOutput (current liquidity input amountOut : ℤ) : Prop :=
  amountOut * (Q64 * (liquidity * Q64 + input * current)) ≤ liquidity * input * current * current

/-- A step ends at the price that its input pays for, between the target and the current price, and
pays out at most the exact output. -/
structure ExactPartialStep (current target liquidity input : ℤ) (step : SwapStep) : Prop where
  price : step.newSqrtPrice = partialPrice current liquidity input
  between : target ≤ step.newSqrtPrice ∧ step.newSqrtPrice ≤ current
  output : PartialOutput current liquidity input step.amountOut

/-- The rest of the way to the target vanishes in rounding: the price that the input pays for rounds
to the target, and the whole way is worth less than one unit of output more than the exact
output. -/
def Vanishes (current target liquidity input : ℤ) : Prop :=
  partialPrice current liquidity input = target ∧
    min (liquidity * (current - target)) i128Max <
      (liquidity * input * current * current / (Q64 * (liquidity * Q64 + input * current)) + 1) * Q64

instance (current target liquidity input : ℤ) : Decidable (Vanishes current target liquidity input) :=
  inferInstanceAs (Decidable (_ ∧ _))

/-! ## What it does -/

section Steps

variable {current target liquidity input : ℤ}

theorem saturate_eq_min {x : ℤ} (h : 0 ≤ x) : IntFormat.i128.saturate x = min x i128Max :=
  max_eq_right (IntFormat.i128.lo_nonpos.trans (le_min h IntFormat.i128.hi_nonneg))

/-- The price that a partial step computes is below the table, where its first product saturates. -/
theorem saturated_price_lt {term : ℤ} (htarget : OnTable target) (hcurrent : 0 ≤ current)
    (hterm : 0 ≤ term) :
    (IntFormat.i128.saturate (current * Q64)).tdiv (max (IntFormat.i128.saturate (term + Q64)) 1) <
      target := by
  have hone : 0 < Q64 := Q64_pos
  have hden : Q64 ≤ IntFormat.i128.saturate (term + Q64) := by
    have hmono := IntFormat.saturate_mono (F := IntFormat.i128) (show Q64 ≤ term + Q64 by omega)
    rwa [IntFormat.saturate_of_nonneg hone.le (by decide)] at hmono
  rw [max_eq_left (show 1 ≤ IntFormat.i128.saturate (term + Q64) by omega),
    Int.tdiv_eq_ediv_of_nonneg (IntFormat.saturate_nonneg (Int.mul_nonneg hcurrent hone.le))]
  generalize IntFormat.i128.saturate (term + Q64) = den at *
  have hhalf : (2 : ℤ) ^ 63 ≤ target := le_trans (by decide) htarget.1
  -- the least denominator times half a unit of prices is past the greatest word
  apply Int.ediv_lt_of_lt_mul (by omega)
  calc IntFormat.i128.saturate (current * Q64)
      ≤ i128Max := IntFormat.saturate_le_hi
    _ < 2 ^ 63 * Q64 := by decide
    _ ≤ target * Q64 := Int.mul_le_mul_of_nonneg_right hhalf hone.le
    _ ≤ target * den := Int.mul_le_mul_of_nonneg_left hden htarget.pos.le

/-- A partial step to a price of the table ends there, whatever its input pays for. -/
theorem stepDown_jumps (htarget : OnTable target) (hlt : target < current) (hpos : 0 < liquidity)
    (hinput : 0 ≤ input) (hshort : input < inputToTarget current target liquidity) :
    stepDown current target liquidity input =
      (target, input, min (liquidity * (current - target)) i128Max / Q64) := by
  have hcurrent : 0 < current := htarget.pos.trans hlt
  have hne : ¬ (current = 0 ∨ target = 0) := by
    have := htarget.pos
    omega
  have hterm : 0 ≤ (IntFormat.i128.saturate (input * current)).tdiv (max liquidity 1) :=
    saturate_tdiv_nonneg (Int.mul_nonneg hinput hcurrent.le) (by omega)
  have hprod : 0 ≤ liquidity * (current - target) := Int.mul_nonneg hpos.le (by omega)
  have hword : 0 ≤ min (liquidity * (current - target)) i128Max :=
    le_min hprod IntFormat.i128.hi_nonneg
  have hbelow := saturated_price_lt htarget hcurrent.le hterm
  unfold inputToTarget at hshort
  simp only [stepDown, if_neg hne, if_neg (not_le.mpr hshort), max_eq_right hbelow.le]
  rw [saturate_eq_min hprod, Int.tdiv_eq_ediv_of_nonneg hword]

/-- What is paid out for the whole way is at most the exact output exactly when it is worth less
than one unit more. -/
theorem partialOutput_iff (hcurrent : 0 < current) (hpos : 0 < liquidity) (hinput : 0 ≤ input)
    (x : ℤ) :
    PartialOutput current liquidity input (x / Q64) ↔ x <
      (liquidity * input * current * current / (Q64 * (liquidity * Q64 + input * current)) + 1) *
        Q64 := by
  have hden : 0 < Q64 * (liquidity * Q64 + input * current) := by
    have hscaled : 0 < liquidity * Q64 := Int.mul_pos hpos Q64_pos
    have hpaid : 0 ≤ input * current := Int.mul_nonneg hinput hcurrent.le
    exact Int.mul_pos Q64_pos (by omega)
  unfold PartialOutput
  rw [← Int.le_ediv_iff_mul_le hden, ← Int.ediv_lt_iff_lt_mul Q64_pos, Int.lt_add_one_iff]

end Steps

/-- A step down whose input does not pay for the way to the target ends at the price that the input
pays for, and pays out at most the exact output, exactly when the rest of the way vanishes in
rounding. -/
theorem partialStep_iff {current target liquidity amountIn : ℤ} {feeBps : ℕ} {step : SwapStep}
    (htarget : OnTable target) (hlt : target < current) (hpos : 0 < liquidity)
    (h : computeSwapStep current target liquidity amountIn feeBps = .ok step)
    (hshort : inputAfterFee amountIn feeBps < inputToTarget current target liquidity) :
    ExactPartialStep current target liquidity (inputAfterFee amountIn feeBps) step ↔
      Vanishes current target liquidity (inputAfterFee amountIn feeBps) := by
  obtain ⟨hfee, hstep⟩ := computeSwapStep_eq_ok h
  have hinput : 0 ≤ inputAfterFee amountIn feeBps := le_max_right _ _
  have hcurrent : 0 < current := htarget.pos.trans hlt
  rw [hfee] at hstep
  change _ = stepTo current target liquidity (inputAfterFee amountIn feeBps) at hstep
  rw [stepTo, if_pos hlt, stepDown_jumps htarget hlt hpos hinput hshort] at hstep
  obtain ⟨hprice, hrest⟩ := Prod.mk.inj hstep
  obtain ⟨-, hout⟩ := Prod.mk.inj hrest
  generalize inputAfterFee amountIn feeBps = input at *
  have houtput := partialOutput_iff hcurrent hpos hinput (min (liquidity * (current - target)) i128Max)
  rw [← hout] at houtput
  constructor
  · intro hexact
    exact ⟨hexact.price.symm.trans hprice, houtput.mp hexact.output⟩
  · rintro ⟨hexact, hvanish⟩
    exact
      { price := hprice.trans hexact.symm
        between := by omega
        output := houtput.mpr hvanish }

/-- Two units of the fixed point above the target, the rest vanishes. -/
theorem partialStep_iff_vanishes :
    ExactPartialStep 14602006891169203640 14602006891169203638 5053127268084711609618 873
        ⟨873, 547, 0, 14602006891169203638⟩ ↔
      Vanishes 14602006891169203640 14602006891169203638 5053127268084711609618 873 :=
  @partialStep_iff _ _ _ 873 5 _ (by decide) (by decide) (by decide) (by decide) (by decide)

/-- One unit of token a moves the price a whole tick, and pays for 49362 units of token b. -/
theorem partialStep_jumps :
    computeSwapStep Q64 18445833487268012840 1000000000 1 30 =
        .ok ⟨1, 49362, 0, 18445833487268012840⟩ ∧
      inputAfterFee 1 30 < inputToTarget Q64 18445833487268012840 1000000000 ∧
      ¬ ExactPartialStep Q64 18445833487268012840 1000000000 (inputAfterFee 1 30)
        ⟨1, 49362, 0, 18445833487268012840⟩ := by
  refine ⟨by decide, by decide, fun h => ?_⟩
  have hprice := h.price
  exact absurd hprice (by decide)

end Stellara.Amm
