import Stellara.Amm.Contract
import Stellara.Amm.SwapMath

/-!
# What the calls of the market maker do

Each entry point is read backwards, from the fact that it returned to the state it leaves. The
fee growth within a range and the fees a position accrues are described in exact arithmetic,
which the checked operations of the contract agree with whenever they return.

## Main definitions

* `exactGrowthInside`, `unaccrued`: the growth within a range, and what a liquidity accrues
* `feeGain`: what a swap adds to the growth

## Main results

* `createPool_eq_ok`, `addLiquidity_eq_ok`, `removeLiquidity_eq_ok`, `collectFees_eq_ok`,
  `swap_eq_ok`, `updateDynamicFee_eq_ok`, `setPauseLevel_eq_ok`: what a call does
-/

namespace Stellara.Amm

/-! ## Fee growth -/

/-- The fee growth of one token within a range, in exact arithmetic. -/
def exactGrowthInside (fees : TickFees) (poolKey : PoolKey) (currentTick growthGlobal : ℤ)
    (tickLower tickUpper : ℤ) (isA : Bool) : ℤ :=
  let fogLower := readTickFeeOutside fees poolKey tickLower isA
  let fogUpper := readTickFeeOutside fees poolKey tickUpper isA
  growthGlobal - (if tickLower ≤ currentTick then fogLower else growthGlobal - fogLower) -
    (if currentTick < tickUpper then fogUpper else growthGlobal - fogUpper)

/-- The fees that a liquidity has not accrued yet, in exact arithmetic. -/
def unaccrued (liquidity growthLast growthNow : ℤ) : ℤ :=
  if 0 < growthNow - growthLast then (liquidity * (growthNow - growthLast)).tdiv Q64 else 0

/-- What a fee adds to the growth of a pool. -/
def feeGain (feePaid liquidity : ℤ) : ℤ := (feePaid * Q64).tdiv liquidity

section Fees

variable {fees fees' : TickFees} {poolKey : PoolKey} {pool pool' : PoolState}

theorem growthInside_eq_ok {currentTick growthGlobal tickLower tickUpper growth : ℤ} {isA : Bool}
    (h : growthInside fees poolKey currentTick growthGlobal tickLower tickUpper isA = .ok growth) :
    growth = exactGrowthInside fees poolKey currentTick growthGlobal tickLower tickUpper isA := by
  by_cases hl : tickLower ≤ currentTick <;> by_cases hu : currentTick < tickUpper <;>
    simp only [growthInside, exactGrowthInside, hl, hu, if_true, if_false, Except.ok_bind,
      Except.bind_eq_ok, IntFormat.checked_eq_ok] at h ⊢
  · obtain ⟨_, ⟨-, rfl⟩, -, rfl⟩ := h
    rfl
  · obtain ⟨_, ⟨-, rfl⟩, _, ⟨-, rfl⟩, -, rfl⟩ := h
    rfl
  · obtain ⟨_, ⟨-, rfl⟩, _, ⟨-, rfl⟩, -, rfl⟩ := h
    rfl
  · obtain ⟨_, ⟨-, rfl⟩, _, ⟨-, rfl⟩, _, ⟨-, rfl⟩, -, rfl⟩ := h
    rfl

theorem feeGrowthInside_eq_ok {tickLower tickUpper insideA insideB : ℤ}
    (h : feeGrowthInside fees poolKey pool tickLower tickUpper = .ok (insideA, insideB)) :
    insideA = exactGrowthInside fees poolKey pool.currentTick pool.feeGrowthGlobalA tickLower
        tickUpper true ∧
      insideB = exactGrowthInside fees poolKey pool.currentTick pool.feeGrowthGlobalB tickLower
        tickUpper false := by
  simp only [feeGrowthInside, Except.bind_eq_ok] at h
  obtain ⟨a, ha, b, hb, h⟩ := h
  obtain ⟨rfl, rfl⟩ := Prod.mk.inj (Except.ok.inj h)
  exact ⟨growthInside_eq_ok ha, growthInside_eq_ok hb⟩

theorem accrueToken_eq_ok {liquidity growthLast growthNow owed owed' : ℤ}
    (h : accrueToken liquidity growthLast growthNow owed = .ok owed') :
    owed' = owed + unaccrued liquidity growthLast growthNow := by
  simp only [accrueToken, Except.bind_eq_ok, IntFormat.checked_eq_ok] at h
  obtain ⟨perUnit, ⟨-, rfl⟩, h⟩ := h
  unfold unaccrued
  split at h
  · rename_i hpos
    simp only [Except.bind_eq_ok, IntFormat.checked_eq_ok] at h
    obtain ⟨product, ⟨-, rfl⟩, -, rfl⟩ := h
    rw [if_pos hpos]
  · rename_i hpos
    rw [if_neg hpos, add_zero]
    exact (Except.ok.inj h).symm

/-- The position after its fees were accrued up to the growth `insideA`, `insideB`. -/
def accrued (p : LpPosition) (insideA insideB : ℤ) : LpPosition :=
  { p with
    tokensOwedA := p.tokensOwedA + unaccrued p.liquidity p.feeGrowthInsideALast insideA
    tokensOwedB := p.tokensOwedB + unaccrued p.liquidity p.feeGrowthInsideBLast insideB
    feeGrowthInsideALast := insideA
    feeGrowthInsideBLast := insideB }

/-- The position after `r` units of its liquidity were removed. -/
def afterRemoval (p : LpPosition) (insideA insideB r : ℤ) : LpPosition :=
  { accrued p insideA insideB with liquidity := p.liquidity - r }

/-- The position after its fees were collected. -/
def afterCollection (p : LpPosition) (insideA insideB : ℤ) : LpPosition :=
  let q := accrued p insideA insideB
  { q with
    tokensOwedA := if 0 < q.tokensOwedA then 0 else q.tokensOwedA
    tokensOwedB := if 0 < q.tokensOwedB then 0 else q.tokensOwedB }

theorem accruePositionFees_eq_ok {p p' : LpPosition} {insideA insideB : ℤ}
    (h : accruePositionFees p insideA insideB = .ok p') : p' = accrued p insideA insideB := by
  simp only [accruePositionFees, Except.bind_eq_ok] at h
  obtain ⟨owedA, hA, owedB, hB, h⟩ := h
  obtain rfl := Except.ok.inj h
  rw [accrueToken_eq_ok hA, accrueToken_eq_ok hB]
  rfl

theorem accumulateFeeGrowth_eq_ok {feePaid liquidity growth growth' : ℤ} (hne : liquidity ≠ 0)
    (h : accumulateFeeGrowth feePaid liquidity growth = .ok growth') :
    growth' = growth + feeGain feePaid liquidity := by
  rw [accumulateFeeGrowth, if_neg hne] at h
  simp only [Except.bind_eq_ok, IntFormat.checked_eq_ok] at h
  obtain ⟨product, ⟨-, rfl⟩, -, rfl⟩ := h
  rfl

/-- What a swap writes into its pool. -/
theorem swapPool_eq_ok {step : SwapStep} {zeroForOne : Bool} (hne : pool.liquidity ≠ 0)
    (h : swapPool pool step zeroForOne = .ok pool') :
    pool' = { pool with
      sqrtPrice := step.newSqrtPrice
      currentTick := sqrtPriceToTick step.newSqrtPrice
      feeGrowthGlobalA := pool.feeGrowthGlobalA +
        if zeroForOne then feeGain step.feePaid pool.liquidity else 0
      feeGrowthGlobalB := pool.feeGrowthGlobalB +
        if zeroForOne then 0 else feeGain step.feePaid pool.liquidity
      totalVolume := pool.totalVolume + step.amountIn } := by
  cases zeroForOne with
  | true =>
    simp only [swapPool, if_true, Except.ok_bind, Except.bind_eq_ok, IntFormat.checked_eq_ok] at h
    obtain ⟨growth, hgrowth, volume, ⟨-, rfl⟩, h⟩ := h
    obtain rfl := Except.ok.inj h
    rw [accumulateFeeGrowth_eq_ok hne hgrowth]
    simp
  | false =>
    simp only [swapPool, Bool.false_eq_true, if_false, Except.ok_bind, Except.bind_eq_ok,
      IntFormat.checked_eq_ok] at h
    obtain ⟨growth, hgrowth, volume, ⟨-, rfl⟩, h⟩ := h
    obtain rfl := Except.ok.inj h
    rw [accumulateFeeGrowth_eq_ok hne hgrowth]
    simp

/-- The tick fees after a tick was crossed. -/
def crossed (fees : TickFees) (poolKey : PoolKey) (pool : PoolState) (tick : ℤ) : TickFees :=
  (fees.insert (poolKey, tick, true)
      (pool.feeGrowthGlobalA - readTickFeeOutside fees poolKey tick true)).insert
    (poolKey, tick, false) (pool.feeGrowthGlobalB - readTickFeeOutside fees poolKey tick false)

theorem crossTick_eq_ok {tick : ℤ} (h : crossTick fees poolKey pool tick = .ok fees') :
    fees' = crossed fees poolKey pool tick := by
  simp only [crossTick, Except.bind_eq_ok, IntFormat.checked_eq_ok] at h
  obtain ⟨newA, ⟨-, rfl⟩, newB, ⟨-, rfl⟩, h⟩ := h
  exact (Except.ok.inj h).symm

/-- Crossing a tick flips what grew outside it, and only there. -/
theorem readTickFeeOutside_crossed (tick : ℤ) (key : PoolKey) (tick' : ℤ) (isA : Bool) :
    readTickFeeOutside (crossed fees poolKey pool tick) key tick' isA =
      if key = poolKey ∧ tick' = tick then
        (if isA then pool.feeGrowthGlobalA else pool.feeGrowthGlobalB) -
          readTickFeeOutside fees key tick' isA
      else readTickFeeOutside fees key tick' isA := by
  by_cases h : key = poolKey ∧ tick' = tick
  · obtain ⟨rfl, rfl⟩ := h
    cases isA <;> simp [readTickFeeOutside, crossed]
  · have hne : ∀ b, (key, tick', isA) ≠ (poolKey, tick, b) := fun b heq =>
      h ⟨congrArg (·.1) heq, congrArg (·.2.1) heq⟩
    simp only [readTickFeeOutside, crossed, Store.lookup_insert_ite, if_neg (hne _), if_neg h]

/-- What a swap writes into the tick fees. -/
theorem swapTickFees_eq_ok {newTick : ℤ} {zeroForOne : Bool}
    (h : swapTickFees fees poolKey pool newTick zeroForOne = .ok fees') :
    fees' = if newTick = pool.currentTick then fees
      else crossed fees poolKey pool
        (if zeroForOne then pool.currentTick else targetTick pool.currentTick zeroForOne) := by
  unfold swapTickFees at h
  split at h
  · rename_i heq
    rw [if_pos heq]
    exact (Except.ok.inj h).symm
  · rename_i hne
    rw [if_neg hne]
    exact crossTick_eq_ok h

end Fees

/-! ## Targets of swaps -/

/-- The fee of a swap. -/
def swapFee (pool : PoolState) (amountIn : ℤ) : ℤ := (amountIn * pool.dynamicFeeBps).tdiv 10000

/-- What a swap pays for its step. -/
def netInput (pool : PoolState) (amountIn : ℤ) : ℤ := max (amountIn - swapFee pool amountIn) 0

/-- The price that a swap moves to at most. -/
def targetPrice (pool : PoolState) (zeroForOne : Bool) : ℤ :=
  sqrtPriceAt (targetTick pool.currentTick zeroForOne)

/-- A swap that leaves the price where it is: it starts at its target, or what it pays moves the
price towards a higher target by less than one unit. -/
def Still (pool : PoolState) (target after : ℤ) : Prop :=
  target = pool.sqrtPrice ∨ pool.sqrtPrice < target ∧ after * Q64 < pool.liquidity ∧
    after < (IntFormat.i128.saturate (pool.liquidity * (target - pool.sqrtPrice))).tdiv Q64

theorem targetTick_mem (currentTick : ℤ) (zeroForOne : Bool) :
    minTick ≤ targetTick currentTick zeroForOne ∧ targetTick currentTick zeroForOne ≤ maxTick := by
  unfold targetTick minTick maxTick
  omega

theorem netInput_nonneg (pool : PoolState) (amountIn : ℤ) : 0 ≤ netInput pool amountIn :=
  le_max_right _ _

theorem swapFee_nonneg (pool : PoolState) {amountIn : ℤ} (h : 0 ≤ amountIn) :
    0 ≤ swapFee pool amountIn :=
  Int.tdiv_nonneg (Int.mul_nonneg h (Int.natCast_nonneg _)) (by decide)

theorem netInput_le (pool : PoolState) {amountIn : ℤ} (h : 0 ≤ amountIn) :
    netInput pool amountIn ≤ amountIn := by
  have hfee := swapFee_nonneg pool h
  unfold netInput
  omega

theorem onTable_targetPrice (pool : PoolState) (zeroForOne : Bool) :
    OnTable (targetPrice pool zeroForOne) :=
  onTable_sqrtPriceAt (targetTick_mem _ _).1 (targetTick_mem _ _).2

/-- The tokens of a swap are those of its pool. -/
theorem orderTokens_tokens (tokenIn tokenOut : Address) :
    if (orderTokens tokenIn tokenOut).2 then
      (orderTokens tokenIn tokenOut).1 = ⟨tokenIn, tokenOut⟩
    else (orderTokens tokenIn tokenOut).1 = ⟨tokenOut, tokenIn⟩ := by
  unfold orderTokens
  split <;> simp

/-- A price that is not below the table is not below the target of a sale of token a. -/
theorem targetPrice_le {pool : PoolState} (htick : pool.currentTick = sqrtPriceToTick pool.sqrtPrice)
    (h : (tableEntry 0).2 ≤ pool.sqrtPrice) : targetPrice pool true ≤ pool.sqrtPrice := by
  rcases le_total pool.sqrtPrice (tableEntry 32).2 with hle | hge
  · -- the target is one tick below that of the price, or the least tick
    refine sqrtPriceAt_le ⟨h, hle⟩ (targetTick_mem _ _).1 ?_ (targetTick_mem _ _).2
    obtain ⟨hmin, hmax⟩ := sqrtPriceToTick_mem pool.sqrtPrice
    simp only [targetTick, htick, if_true]
    omega
  · -- above the table every price on it is lower
    exact (onTable_targetPrice pool true).2.trans hge

/-- A price that is not above the table is not above the target of a sale of token b. -/
theorem le_targetPrice {pool : PoolState} (htick : pool.currentTick = sqrtPriceToTick pool.sqrtPrice)
    (h : pool.sqrtPrice ≤ (tableEntry 32).2) : pool.sqrtPrice ≤ targetPrice pool false := by
  rcases le_total (tableEntry 0).2 pool.sqrtPrice with hle | hge
  · obtain ⟨hmin, hmax⟩ := sqrtPriceToTick_mem pool.sqrtPrice
    rcases hmax.lt_or_eq with hlt | heq
    · refine le_sqrtPriceAt ⟨hle, h⟩ (targetTick_mem _ _).1 ?_ (targetTick_mem _ _).2
      simp only [targetTick, htick, Bool.false_eq_true, if_false]
      omega
    · -- the target is the last entry of the table
      have hlast : targetTick pool.currentTick false = maxTick := by
        rw [htick, heq]
        decide
      rw [targetPrice, hlast, sqrtPriceAt_maxTick]
      exact h
  · -- below the table every price on it is higher
    exact hge.trans (onTable_targetPrice pool false).1

/-- On the table the target of a swap is in its direction. -/
theorem targetPrice_side {pool : PoolState}
    (htick : pool.currentTick = sqrtPriceToTick pool.sqrtPrice) (h : OnTable pool.sqrtPrice)
    (zeroForOne : Bool) :
    if zeroForOne then targetPrice pool zeroForOne ≤ pool.sqrtPrice
    else pool.sqrtPrice ≤ targetPrice pool zeroForOne := by
  cases zeroForOne with
  | true => exact targetPrice_le htick h.1
  | false => exact le_targetPrice htick h.2

/-! ## Pools -/

section Calls

variable {τ : Type} {s s' : State τ}

/-- A pool as it is created. -/
def newPool (tokenA tokenB : Address) (feeTier : ℕ) (initSqrtPrice : ℤ) : PoolState :=
  { tokenA := tokenA
    tokenB := tokenB
    sqrtPrice := initSqrtPrice
    currentTick := sqrtPriceToTick initSqrtPrice
    liquidity := 0
    feeTier := feeTier
    dynamicFeeBps := feeTier
    feeGrowthGlobalA := 0
    feeGrowthGlobalB := 0
    totalVolume := 0
    activeLiquidity := 0
    ilReserveA := 0
    ilReserveB := 0 }

theorem createPool_eq_ok {caller tokenA tokenB : Address} {feeTier : ℕ} {initSqrtPrice : ℤ}
    (h : createPool caller tokenA tokenB feeTier initSqrtPrice s = .ok s') :
    (isValidFeeTier feeTier = true ∧ 0 < initSqrtPrice ∧
        s.pools.lookup ⟨tokenA, tokenB⟩ = none) ∧
      s' = { s with
        pools := s.pools.insert ⟨tokenA, tokenB⟩ (newPool tokenA tokenB feeTier initSqrtPrice)
        poolCount := s.poolCount + 1
        events := s.events ++ [.poolCr ⟨tokenA, tokenB⟩] } := by
  simp only [createPool, Except.bind_eq_ok, require_eq_ok, exists_const,
    IntFormat.checkedNat_eq_ok] at h
  obtain ⟨_, -, _, -, _, -, htier, hprice, hnone, count, ⟨-, rfl⟩, h⟩ := h
  exact ⟨⟨htier, hprice, hnone⟩, (Except.ok.inj h).symm⟩

theorem updateDynamicFee_eq_ok {now fee : ℕ} {tokenA tokenB : Address}
    (h : updateDynamicFee now tokenA tokenB s = .ok (fee, s')) :
    ∃ pool, s.pools.lookup ⟨tokenA, tokenB⟩ = some pool ∧
      s' = { s with
        pools := s.pools.insert ⟨tokenA, tokenB⟩ { pool with dynamicFeeBps := fee }
        events := s.events ++ [.feeUpd ⟨tokenA, tokenB⟩ fee] } := by
  simp only [updateDynamicFee, requirePool, Except.bind_eq_ok, orAbort_eq_ok, Prod.exists] at h
  obtain ⟨_, -, pool, hpool, newFee, count, -, h⟩ := h
  obtain ⟨rfl, rfl⟩ := Prod.mk.inj (Except.ok.inj h)
  exact ⟨pool, hpool, rfl⟩

theorem setPauseLevel_eq_ok {admin : Address} {permission : Symbol} {level : PauseLevel}
    {event : Event} (h : setPauseLevel admin permission level event s = .ok s') :
    s' = { s with
      breaker := { s.breaker with
        state := some { CircuitBreaker.getState s.breaker with pauseLevel := level } }
      events := s.events ++ [event] } := by
  simp only [setPauseLevel, Except.bind_eq_ok] at h
  obtain ⟨_, -, _, -, _, -, h⟩ := h
  exact (Except.ok.inj h).symm

/-! ## Liquidity -/

variable [TokenClient τ Address Address]

/-- A position as it is created. -/
def newPosition (now id : ℕ) (owner : Address) (poolKey : PoolKey) (tickLower tickUpper : ℤ)
    (liquidity insideA insideB : ℤ) : LpPosition :=
  { id := id
    owner := owner
    poolKey := poolKey
    tickLower := tickLower
    tickUpper := tickUpper
    liquidity := liquidity
    feeGrowthInsideALast := insideA
    feeGrowthInsideBLast := insideB
    tokensOwedA := 0
    tokensOwedB := 0
    createdAt := now }

theorem addActive_eq_ok {pool pool' : PoolState} {tickLower tickUpper liquidity : ℤ}
    (h : addActive pool tickLower tickUpper liquidity = .ok pool') :
    pool' = { pool with
        liquidity := if tickLower ≤ pool.currentTick ∧ pool.currentTick < tickUpper then
          pool.liquidity + liquidity else pool.liquidity
        activeLiquidity := if tickLower ≤ pool.currentTick ∧ pool.currentTick < tickUpper then
          max (pool.activeLiquidity + liquidity) 0 else max pool.activeLiquidity 0 } ∧
      (tickLower ≤ pool.currentTick ∧ pool.currentTick < tickUpper →
        IntFormat.i128.Mem (pool.liquidity + liquidity) ∧
          IntFormat.i128.Mem (pool.activeLiquidity + liquidity)) := by
  unfold addActive at h
  split at h
  · rename_i hin
    simp only [Except.bind_eq_ok, IntFormat.checked_eq_ok] at h
    obtain ⟨total, ⟨hmem, rfl⟩, active, ⟨hmemActive, rfl⟩, h⟩ := h
    obtain rfl := Except.ok.inj h
    exact ⟨by simp only [if_pos hin], fun _ => ⟨hmem, hmemActive⟩⟩
  · rename_i hin
    obtain rfl := Except.ok.inj h
    exact ⟨by simp only [if_neg hin], fun hin' => absurd hin' hin⟩

theorem removeActive_eq_ok {pool pool' : PoolState} {tickLower tickUpper liquidity : ℤ}
    (h : removeActive pool tickLower tickUpper liquidity = .ok pool') :
    pool' = { pool with
      liquidity := if tickLower ≤ pool.currentTick ∧ pool.currentTick < tickUpper then
        max (pool.liquidity - liquidity) 0 else pool.liquidity
      activeLiquidity := if tickLower ≤ pool.currentTick ∧ pool.currentTick < tickUpper then
        max (pool.activeLiquidity - liquidity) 0 else pool.activeLiquidity } := by
  unfold removeActive at h
  split at h
  · rename_i hin
    simp only [Except.bind_eq_ok, IntFormat.checked_eq_ok] at h
    obtain ⟨total, ⟨-, rfl⟩, active, ⟨-, rfl⟩, h⟩ := h
    obtain rfl := Except.ok.inj h
    simp only [if_pos hin]
  · rename_i hin
    obtain rfl := Except.ok.inj h
    simp only [if_neg hin]

theorem addLiquidity_eq_ok {now : ℕ} {caller tokenA tokenB : Address} {tickLower tickUpper : ℤ}
    {amountDesiredA amountDesiredB minA minB : ℤ} {result : AddLiquidityResult}
    (h : addLiquidity now caller tokenA tokenB tickLower tickUpper amountDesiredA amountDesiredB
      minA minB s = .ok (result, s')) :
    ∃ pool pool' liquidity actualA actualB insideA insideB reserveA reserveB tokens₁ tokens₂,
      (caller ≠ s.contractAddress ∧ tickLower < tickUpper ∧ minTick ≤ tickLower ∧
        tickUpper ≤ maxTick) ∧
      s.pools.lookup ⟨tokenA, tokenB⟩ = some pool ∧
      (liquidityFromAmounts amountDesiredA amountDesiredB (sqrtPriceAt tickLower)
        (sqrtPriceAt tickUpper) pool.sqrtPrice = .ok liquidity ∧ liquidity ≠ 0) ∧
      amountsForLiquidity liquidity (sqrtPriceAt tickLower) (sqrtPriceAt tickUpper)
        pool.sqrtPrice = .ok (actualA, actualB) ∧
      (transferPositive s.tokens tokenA caller s.contractAddress actualA = .ok tokens₁ ∧
        transferPositive tokens₁ tokenB caller s.contractAddress actualB = .ok tokens₂) ∧
      addActive pool tickLower tickUpper liquidity = .ok pool' ∧
      feeGrowthInside s.tickFees ⟨tokenA, tokenB⟩ pool' tickLower tickUpper =
        .ok (insideA, insideB) ∧
      computeHedgeReserve (ilBpsAt tickLower tickUpper pool'.sqrtPrice) actualA actualB =
        .ok (reserveA, reserveB) ∧
      result = ⟨s.positionCount + 1, actualA, actualB, liquidity⟩ ∧
      s' = { s with
        tokens := tokens₂
        positionCount := s.positionCount + 1
        positions := AList.insert (s.positionCount + 1) (newPosition now (s.positionCount + 1)
          caller ⟨tokenA, tokenB⟩ tickLower tickUpper liquidity insideA insideB) s.positions
        ownerPositions := s.ownerPositions.insert caller
          ((s.ownerPositions.lookup caller).getD [] ++ [s.positionCount + 1])
        pools := s.pools.insert ⟨tokenA, tokenB⟩ { pool' with
          ilReserveA := pool'.ilReserveA + reserveA
          ilReserveB := pool'.ilReserveB + reserveB }
        events := s.events ++
          [.liqAdd (s.positionCount + 1) caller actualA actualB liquidity] } := by
  simp only [addLiquidity, requireAuth, requirePool, mintPosition, estimateIlBps,
    Except.bind_eq_ok, require_eq_ok, exists_const, orAbort_eq_ok, IntFormat.checked_eq_ok,
    IntFormat.checkedNat_eq_ok, Prod.exists] at h
  obtain ⟨hcaller, _, -, _, -, hticks, -, pool, hpool, lower, hlower, upper, hupper, liquidity,
    hliquidity, hne, actualA, actualB, hamounts, -, tokens₁, htransfer₁, tokens₂, htransfer₂, pool',
    hactive, insideA, insideB, hinside, position, s₁, ⟨id, ⟨-, rfl⟩, hmint⟩, reserveA, reserveB,
    hreserve, ilReserveA, ⟨-, rfl⟩, ilReserveB, ⟨-, rfl⟩, h⟩ := h
  obtain ⟨rfl, rfl⟩ := Prod.mk.inj (Except.ok.inj hmint)
  obtain ⟨rfl, rfl⟩ := Prod.mk.inj (Except.ok.inj h)
  -- both bounds passed the check of their ticks
  obtain ⟨⟨hmin, -⟩, rfl⟩ := tickToSqrtPrice_eq_ok.mp hlower
  obtain ⟨⟨-, hmax⟩, rfl⟩ := tickToSqrtPrice_eq_ok.mp hupper
  exact ⟨pool, pool', liquidity, actualA, actualB, insideA, insideB, reserveA, reserveB, tokens₁,
    tokens₂, ⟨hcaller, hticks, hmin, hmax⟩, hpool, ⟨hliquidity, hne⟩, hamounts,
    ⟨htransfer₁, htransfer₂⟩, hactive, hinside, hreserve, rfl, rfl⟩

theorem releaseReserve_eq_ok {pool pool' : PoolState} {hedgeA hedgeB : ℤ}
    (h : releaseReserve pool hedgeA hedgeB = .ok pool') :
    pool' = { pool with
      ilReserveA := max (pool.ilReserveA - hedgeA) 0
      ilReserveB := max (pool.ilReserveB - hedgeB) 0 } := by
  simp only [releaseReserve, Except.bind_eq_ok, IntFormat.checked_eq_ok] at h
  obtain ⟨a, ⟨-, rfl⟩, b, ⟨-, rfl⟩, h⟩ := h
  exact (Except.ok.inj h).symm

/-- The positions after `p` was stored; one without liquidity is deleted. -/
def stored (positions : Store ℕ LpPosition) (p : LpPosition) : Store ℕ LpPosition :=
  if p.liquidity = 0 then positions.erase p.id else positions.insert p.id p

/-- The lists of the owners after `p` was stored; the id of one without liquidity is taken out. -/
def listed (owned : Store Address (List ℕ)) (caller : Address) (p : LpPosition) :
    Store Address (List ℕ) :=
  if p.liquidity = 0 then
    owned.insert caller (((owned.lookup caller).getD []).filter (· ≠ p.id))
  else owned

omit [TokenClient τ Address Address] in
/-- Storing a position writes the positions and the lists of the owners only. -/
theorem storePosition_eq (s : State τ) (caller : Address) (p : LpPosition) :
    storePosition s caller p = { s with
      positions := stored s.positions p, ownerPositions := listed s.ownerPositions caller p } := by
  unfold storePosition stored listed
  split
  · rfl
  · rfl

theorem removeLiquidity_eq_ok {caller : Address} {id : ℕ} {r minA minB : ℤ}
    {result : RemoveLiquidityResult}
    (h : removeLiquidity caller id r minA minB s = .ok (result, s')) :
    ∃ p pool insideA insideB pool₁ pool₂ amtA amtB hedgeA hedgeB tokens₁ tokens₂,
      s.positions.lookup id = some p ∧
      (p.owner = caller ∧ 0 < r ∧ r ≤ p.liquidity) ∧
      s.pools.lookup p.poolKey = some pool ∧
      feeGrowthInside s.tickFees p.poolKey pool p.tickLower p.tickUpper =
        .ok (insideA, insideB) ∧
      amountsForLiquidity r (sqrtPriceAt p.tickLower) (sqrtPriceAt p.tickUpper) pool.sqrtPrice =
        .ok (amtA, amtB) ∧
      ¬ (amtA < minA ∨ amtB < minB) ∧
      computeHedgeRelease pool r p.liquidity = .ok (hedgeA, hedgeB) ∧
      releaseReserve pool hedgeA hedgeB = .ok pool₁ ∧
      removeActive pool₁ p.tickLower p.tickUpper r = .ok pool₂ ∧
      (transferPositive s.tokens pool₂.tokenA s.contractAddress caller (amtA + hedgeA) =
          .ok tokens₁ ∧
        transferPositive tokens₁ pool₂.tokenB s.contractAddress caller (amtB + hedgeB) =
          .ok tokens₂) ∧
      result = ⟨amtA + hedgeA, amtB + hedgeB, hedgeA, hedgeB⟩ ∧
      s' = { s with
        tokens := tokens₂
        positions := stored s.positions (afterRemoval p insideA insideB r)
        ownerPositions := listed s.ownerPositions caller (afterRemoval p insideA insideB r)
        pools := s.pools.insert p.poolKey pool₂
        events := s.events ++ [.liqRm id caller (amtA + hedgeA) (amtB + hedgeB)] } := by
  simp only [removeLiquidity, requirePosition, requirePool, Except.bind_eq_ok, require_eq_ok,
    exists_const, orAbort_eq_ok, IntFormat.checked_eq_ok, Prod.exists] at h
  obtain ⟨_, -, _, -, p, hp, howner, hguard, pool, hpool, insideA, insideB, hinside, q, hq, lower,
    hlower, upper, hupper, amtA, amtB, hamounts, hmin, hedgeA, hedgeB, hrelease, pool₁, hpool₁,
    outA, ⟨-, rfl⟩, outB, ⟨-, rfl⟩, pool₂, hactive, tokens₁, htransfer₁, tokens₂, htransfer₂, h⟩ := h
  obtain rfl := accruePositionFees_eq_ok hq
  obtain ⟨-, rfl⟩ := tickToSqrtPrice_eq_ok.mp hlower
  obtain ⟨-, rfl⟩ := tickToSqrtPrice_eq_ok.mp hupper
  obtain ⟨rfl, rfl⟩ := Prod.mk.inj (Except.ok.inj h)
  -- what is left is stored, or deleted with its entry in the list of the owner
  have hstore := storePosition_eq { s with tokens := tokens₂ } caller
    (afterRemoval p insideA insideB r)
  refine ⟨p, pool, insideA, insideB, pool₁, pool₂, amtA, amtB, hedgeA, hedgeB, tokens₁, tokens₂,
    hp, ⟨howner, by omega, by omega⟩, hpool, hinside, hamounts, hmin, hrelease, hpool₁,
    hactive, ⟨htransfer₁, htransfer₂⟩, rfl, ?_⟩
  exact congrArg (fun s => publish (writePool s p.poolKey pool₂) _) hstore

theorem collectFees_eq_ok {caller : Address} {id : ℕ} {owedA owedB : ℤ}
    (h : collectFees caller id s = .ok ((owedA, owedB), s')) :
    ∃ p pool insideA insideB tokens₁ tokens₂,
      s.positions.lookup id = some p ∧ p.owner = caller ∧
      s.pools.lookup p.poolKey = some pool ∧
      feeGrowthInside s.tickFees p.poolKey pool p.tickLower p.tickUpper =
        .ok (insideA, insideB) ∧
      (owedA = (accrued p insideA insideB).tokensOwedA ∧
        owedB = (accrued p insideA insideB).tokensOwedB) ∧
      (transferPositive s.tokens pool.tokenA s.contractAddress caller owedA = .ok tokens₁ ∧
        transferPositive tokens₁ pool.tokenB s.contractAddress caller owedB = .ok tokens₂) ∧
      s' = { s with
        tokens := tokens₂
        positions := s.positions.insert p.id (afterCollection p insideA insideB)
        events := s.events ++ [.feeCol id caller owedA owedB] } := by
  simp only [collectFees, requirePosition, requirePool, Except.bind_eq_ok, require_eq_ok,
    exists_const, orAbort_eq_ok, Prod.exists] at h
  obtain ⟨_, -, _, -, p, hp, howner, pool, hpool, insideA, insideB, hinside, q, hq, tokens₁,
    htransfer₁, tokens₂, htransfer₂, h⟩ := h
  obtain rfl := accruePositionFees_eq_ok hq
  obtain ⟨howed, rfl⟩ := Prod.mk.inj (Except.ok.inj h)
  obtain ⟨rfl, rfl⟩ := Prod.mk.inj howed
  exact ⟨p, pool, insideA, insideB, tokens₁, tokens₂, hp, howner, hpool, hinside, ⟨rfl, rfl⟩,
    ⟨htransfer₁, htransfer₂⟩, rfl⟩

/-! ## Swaps -/

theorem swap_eq_ok {now : ℕ} {caller tokenIn tokenOut : Address} {amountIn minAmountOut : ℤ}
    {result : SwapResult}
    (h : swap now caller tokenIn tokenOut amountIn minAmountOut s = .ok (result, s')) :
    ∃ pool pool' step fees' tokens₁ tokens₂,
      (caller ≠ s.contractAddress ∧ 0 < amountIn) ∧
      (s.pools.lookup (orderTokens tokenIn tokenOut).1 = some pool ∧ pool.liquidity ≠ 0) ∧
      computeSwapStep pool.sqrtPrice
        (sqrtPriceAt (targetTick pool.currentTick (orderTokens tokenIn tokenOut).2))
        pool.liquidity amountIn pool.dynamicFeeBps = .ok step ∧
      swapPool pool step (orderTokens tokenIn tokenOut).2 = .ok pool' ∧
      swapTickFees s.tickFees (orderTokens tokenIn tokenOut).1 pool pool'.currentTick
        (orderTokens tokenIn tokenOut).2 = .ok fees' ∧
      (tokenTransfer s.tokens tokenIn caller s.contractAddress step.amountIn =
          (.ok tokens₁ : Outcome AmmError τ) ∧
        tokenTransfer tokens₁ tokenOut s.contractAddress caller step.amountOut =
          (.ok tokens₂ : Outcome AmmError τ)) ∧
      result = ⟨step.amountIn, step.amountOut, step.feePaid, step.newSqrtPrice,
        pool'.currentTick⟩ ∧
      s' = { s with
        samples := recordPriceSample now (orderTokens tokenIn tokenOut).1 pool.sqrtPrice s.samples
        tickFees := fees'
        tokens := tokens₂
        pools := s.pools.insert (orderTokens tokenIn tokenOut).1 pool'
        events := s.events ++ [.swap caller step.amountIn step.amountOut step.feePaid] } := by
  simp only [swap, requireAuth, requirePool, Except.bind_eq_ok, require_eq_ok, exists_const,
    orAbort_eq_ok] at h
  obtain ⟨hcaller, _, -, _, -, hpos, pool, hpool, hne, target, htarget, step, hstep, -, pool', hpool',
    fees', hfees, tokens₁, htransfer₁, tokens₂, htransfer₂, h⟩ := h
  obtain ⟨-, rfl⟩ := tickToSqrtPrice_eq_ok.mp htarget
  obtain ⟨rfl, rfl⟩ := Prod.mk.inj (Except.ok.inj h)
  exact ⟨pool, pool', step, fees', tokens₁, tokens₂, ⟨hcaller, hpos⟩, ⟨hpool, hne⟩, hstep, hpool',
    hfees, ⟨htransfer₁, htransfer₂⟩, rfl, rfl⟩

end Calls

end Stellara.Amm
