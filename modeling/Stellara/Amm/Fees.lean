import Mathlib.Algebra.Order.Group.Unbundled.Int
import Stellara.Amm.Pool

/-!
# Fees and the impermanent loss hedge

The fee of a pool is its tier plus a premium for the volatility of the prices sampled in the
last periods. A swap adds its fee to the fee growth of the pool, and a position accrues what
grew within its range. A deposit whose estimated impermanent loss reaches a threshold adds a
part of its amounts to the reserve of the pool, which is released as liquidity is removed.

## Main definitions

* `computeDynamicFee`: the fee for the sampled prices
* `accumulateFeeGrowth`, `accruePositionFees`: from the fees of a swap to those of a position
* `estimateIlBps`, `computeHedgeReserve`, `computeHedgeRelease`: the hedge
-/

namespace Stellara.Amm

/-! ## Fee tiers -/

def feeTierLow : ℕ := 5

def feeTierMid : ℕ := 30

def feeTierHigh : ℕ := 100

/-- Whether a fee tier is one of the three supported values. -/
def isValidFeeTier (feeTier : ℕ) : Bool :=
  feeTier = feeTierLow ∨ feeTier = feeTierMid ∨ feeTier = feeTierHigh

/-! ## The price oracle -/

/-- Maximum additional fee that volatility can add, in basis points. -/
def maxFeePremiumBps : ℕ := 50

def volatilityDivisor : ℕ := 10

/-- Number of periods the volatility is computed from. -/
def oraclePeriods : ℕ := 24

/-- Duration of a period in seconds. -/
def oraclePeriodSecs : ℕ := 3600

/-- The price samples by pool and period. -/
abbrev PriceSamples := Store (PoolKey × ℕ) ℤ

/-- Record the price for the current period. -/
def recordPriceSample (now : ℕ) (poolKey : PoolKey) (sqrtPrice : ℤ) (samples : PriceSamples) :
    PriceSamples :=
  samples.insert (poolKey, now / oraclePeriodSecs) sqrtPrice

/-- The samples of the last periods, the latest first. -/
def lastSamples (now : ℕ) (poolKey : PoolKey) (samples : PriceSamples) : List ℤ :=
  (List.range oraclePeriods).filterMap fun i =>
    samples.lookup (poolKey, now / oraclePeriodSecs - i)

/-- One round of Newton's method for the square root of `n`, on a guess and the next one. -/
def isqrtStep (n : ℤ) (p : ℤ × ℤ) : Outcome AmmError (Round (ℤ × ℤ)) :=
  if p.2 < p.1 then do
    let quotient ← IntFormat.i128.checkedDiv (.panic "attempt to divide by zero") .overflow n p.2
    let sum ← IntFormat.i128.checked .overflow (p.2 + quotient)
    .ok (.next (p.2, sum.tdiv 2))
  else .ok (.stop p)

/-- Integer square root via Newton's method; every round lowers the guess. -/
def isqrt (n : ℤ) : Outcome AmmError ℤ :=
  if n ≤ 0 then .ok 0
  else do
    let sum ← IntFormat.i128.checked .overflow (n + 1)
    let result ← loop (isqrtStep n) (n.toNat + 1) (n, sum.tdiv 2)
    let p ← orAbort .diverges result
    .ok p.1

/-- The sum of a list of integers, added from the left. -/
def checkedSum : List ℤ → ℤ → Outcome AmmError ℤ
  | [], sum => .ok sum
  | x :: xs, sum => do
    let sum ← IntFormat.i128.checked .overflow (sum + x)
    checkedSum xs sum

/-- The squared distance of a sample from the mean. -/
def squaredDistance (mean sample : ℤ) : Outcome AmmError ℤ := do
  let diff ← IntFormat.i128.checked .overflow (sample - mean)
  IntFormat.i128.checked .overflow (diff * diff)

/-- The dynamic fee for a mean and the samples it is the mean of. -/
def dynamicFee (baseFee : ℕ) (mean : ℤ) (samples : List ℤ) : Outcome AmmError ℕ := do
  let squares ← samples.mapM (squaredDistance mean)
  let varianceSum ← checkedSum squares 0
  let variance := varianceSum.tdiv samples.length
  let root ← isqrt variance
  let scaled ← IntFormat.i128.checked .overflow (root * 10000)
  let volBps := scaled.tdiv (max mean 1)
  let premium := min ((IntFormat.u32.wrap volBps).toNat / volatilityDivisor) maxFeePremiumBps
  IntFormat.u32.checkedNat .overflow (baseFee + premium)

/-- The fee of a pool for the volatility of its last samples, and their number. -/
def computeDynamicFee (now : ℕ) (poolKey : PoolKey) (baseFee : ℕ) (samples : PriceSamples) :
    Outcome AmmError (ℕ × ℕ) := do
  let last := lastSamples now poolKey samples
  let sum ← checkedSum last 0
  if last.length < 2 then .ok (baseFee, last.length)
  else
    let mean := sum.tdiv last.length
    if mean = 0 then .ok (baseFee, last.length)
    else do
      let fee ← dynamicFee baseFee mean last
      .ok (fee, last.length)

/-! ## Fee growth -/

/-- Add the fee of a swap to the fee growth per unit of liquidity. -/
def accumulateFeeGrowth (feeAmount liquidity globalFeeGrowth : ℤ) : Outcome AmmError ℤ :=
  if liquidity = 0 then .ok globalFeeGrowth
  else do
    let product ← IntFormat.i128.checked .overflow (feeAmount * Q64)
    IntFormat.i128.checked .overflow (globalFeeGrowth + product.tdiv liquidity)

/-- What a position is owed of one token after the fee growth inside its range went from
`growthLast` to `growthNow`. -/
def accrueToken (liquidity growthLast growthNow owed : ℤ) : Outcome AmmError ℤ := do
  let feePerUnit ← IntFormat.i128.checked .overflow (growthNow - growthLast)
  if 0 < feePerUnit then do
    let product ← IntFormat.i128.checked .overflow (liquidity * feePerUnit)
    IntFormat.i128.checked .overflow (owed + product.tdiv Q64)
  else .ok owed

/-- Update the fees a position has accrued since its last checkpoint. -/
def accruePositionFees (position : LpPosition) (feeGrowthInsideANow feeGrowthInsideBNow : ℤ) :
    Outcome AmmError LpPosition := do
  let tokensOwedA ← accrueToken position.liquidity position.feeGrowthInsideALast
    feeGrowthInsideANow position.tokensOwedA
  let tokensOwedB ← accrueToken position.liquidity position.feeGrowthInsideBLast
    feeGrowthInsideBNow position.tokensOwedB
  .ok { position with
    tokensOwedA := tokensOwedA
    tokensOwedB := tokensOwedB
    feeGrowthInsideALast := feeGrowthInsideANow
    feeGrowthInsideBLast := feeGrowthInsideBNow }

/-! ## The hedge -/

/-- The estimated impermanent loss, in basis points, from which the reserve is funded. -/
def hedgeThresholdBps : ℤ := 200

/-- The part of a deposit that is added to the reserve, in basis points. -/
def hedgeRatioBps : ℤ := 500

/-- Precision of ratios. -/
def scale : ℤ := 1000000

/-- The impermanent loss, in basis points, at a price, of a position entered at the price of
the middle tick of its range. -/
def ilBpsAt (tickLower tickUpper sqrtPrice : ℤ) : ℤ :=
  match tickToSqrtPrice ((tickLower + tickUpper).tdiv 2) with
  | .error _ => 0
  | .ok entrySqrtPrice =>
    if entrySqrtPrice = 0 then 0
    else
      let sqrtRScaled := (IntFormat.i128.saturate (sqrtPrice * scale)).tdiv entrySqrtPrice
      let rScaled := (IntFormat.i128.saturate (sqrtRScaled * sqrtRScaled)).tdiv scale
      let numerator := 2 * sqrtRScaled
      let denominator := scale + rScaled
      let ilScaled := (IntFormat.i128.saturate (numerator * scale)).tdiv (max denominator 1) - scale
      (ilScaled * 10000).tdiv scale

/-- The copy of the integer square root in the hedge. -/
def IlHedge.isqrt (n : ℤ) : Outcome AmmError ℤ :=
  if n ≤ 0 then .ok 0
  else do
    let sum ← IntFormat.i128.checked .overflow (n + 1)
    let result ← loop (fun p => if p.2 < p.1 then do
        let quotient ←
          IntFormat.i128.checkedDiv (.panic "attempt to divide by zero") .overflow n p.2
        let sum ← IntFormat.i128.checked .overflow (p.2 + quotient)
        .ok (.next (p.2, sum.tdiv 2))
      else .ok (.stop p)) (n.toNat + 1) (n, sum.tdiv 2)
    let p ← orAbort .diverges result
    .ok p.1

/-- Estimate the impermanent loss of a position, in basis points. -/
def estimateIlBps (position : LpPosition) (pool : PoolState) : ℤ :=
  ilBpsAt position.tickLower position.tickUpper pool.sqrtPrice

/-- The reserve to add for a deposit; none below the threshold. -/
def computeHedgeReserve (ilBps amountA amountB : ℤ) : Outcome AmmError (ℤ × ℤ) :=
  if |ilBps| < hedgeThresholdBps then .ok (0, 0)
  else do
    let productA ← IntFormat.i128.checked .overflow (amountA * hedgeRatioBps)
    let productB ← IntFormat.i128.checked .overflow (amountB * hedgeRatioBps)
    .ok (productA.tdiv 10000, productB.tdiv 10000)

/-- The reserve to release when a part of a liquidity is removed. -/
def computeHedgeRelease (pool : PoolState) (liquidityRemoved totalLiquidity : ℤ) :
    Outcome AmmError (ℤ × ℤ) :=
  if totalLiquidity = 0 then .ok (0, 0)
  else do
    let productA ← IntFormat.i128.checked .overflow (pool.ilReserveA * liquidityRemoved)
    let productB ← IntFormat.i128.checked .overflow (pool.ilReserveB * liquidityRemoved)
    .ok (productA.tdiv (max totalLiquidity 1), productB.tdiv (max totalLiquidity 1))

end Stellara.Amm
