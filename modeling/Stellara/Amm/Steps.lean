import Stellara.Amm.Effects

/-!
# The steps of the market maker

A call changes the pools, the positions and the fees at ticks in one of six ways. What follows
about runs is shown for these six kinds of steps, not for the calls.

## Main definitions

* `PoolCreated`, `LiquidityAdded`, `LiquidityRemoved`, `FeesCollected`, `SwapMove`, `FeeUpdated`:
  the kinds of steps
* `Step`: any of them, or none

## Main results

* `execute_step`: every call that returns is a step
* `swap_move`: a swap is a move of its pool
-/

namespace Stellara.Amm

/-- Two states of a pool with the same price and the same fee growth. -/
structure SameMarket (pool pool' : PoolState) : Prop where
  tokenA : pool'.tokenA = pool.tokenA
  tokenB : pool'.tokenB = pool.tokenB
  sqrtPrice : pool'.sqrtPrice = pool.sqrtPrice
  currentTick : pool'.currentTick = pool.currentTick
  growthA : pool'.feeGrowthGlobalA = pool.feeGrowthGlobalA
  growthB : pool'.feeGrowthGlobalB = pool.feeGrowthGlobalB

/-- The position provides liquidity at a tick of its pool. -/
def LpPosition.Covers (p : LpPosition) (tick : ℤ) : Prop := p.tickLower ≤ tick ∧ tick < p.tickUpper

instance (p : LpPosition) (tick : ℤ) : Decidable (p.Covers tick) :=
  inferInstanceAs (Decidable (_ ∧ _))

/-- The growth of the fees in one token within the range of a position. -/
def insideNow (fees : TickFees) (pool : PoolState) (p : LpPosition) (isA : Bool) : ℤ :=
  exactGrowthInside fees p.poolKey pool.currentTick
    (if isA then pool.feeGrowthGlobalA else pool.feeGrowthGlobalB) p.tickLower p.tickUpper isA

/-! ## Ranges -/

/-- The position provides liquidity to the pool at the tick `currentTick`. -/
def InRange (poolKey : PoolKey) (currentTick : ℤ) (p : LpPosition) : Prop :=
  p.poolKey = poolKey ∧ p.tickLower ≤ currentTick ∧ currentTick < p.tickUpper

instance (poolKey : PoolKey) (currentTick : ℤ) (p : LpPosition) :
    Decidable (InRange poolKey currentTick p) :=
  inferInstanceAs (Decidable (_ ∧ _ ∧ _))

/-- The number of positions that provide liquidity to a pool at a tick. -/
def rangeCount (positions : Store ℕ LpPosition) (poolKey : PoolKey) (currentTick : ℤ) : ℤ :=
  positions.total fun _ p => if InRange poolKey currentTick p then 1 else 0

/-- The liquidity that positions provide to a pool at a tick. -/
def rangeLiquidity (positions : Store ℕ LpPosition) (poolKey : PoolKey) (currentTick : ℤ) : ℤ :=
  positions.total fun _ p => if InRange poolKey currentTick p then p.liquidity else 0

/-- A new position adds its liquidity at the ticks of its range. -/
theorem rangeLiquidity_insert_new {positions : Store ℕ LpPosition} {id : ℕ}
    (hnew : positions.lookup id = none) (p : LpPosition) (poolKey : PoolKey) (tick : ℤ) :
    rangeLiquidity (positions.insert id p) poolKey tick =
      (if InRange poolKey tick p then p.liquidity else 0) + rangeLiquidity positions poolKey tick :=
  Store.total_insert_new hnew

variable {τ : Type}

/-! ## Kinds of steps -/

structure PoolCreated (s s' : State τ) (poolKey : PoolKey) (pool : PoolState) : Prop where
  fresh : s.pools.lookup poolKey = none
  price_pos : 0 < pool.sqrtPrice
  pool_eq : pool = newPool poolKey.tokenA poolKey.tokenB pool.feeTier pool.sqrtPrice
  pools : s'.pools = s.pools.insert poolKey pool
  positions : s'.positions = s.positions
  positionCount : s'.positionCount = s.positionCount
  tickFees : s'.tickFees = s.tickFees

structure LiquidityAdded (s s' : State τ) (pool pool' : PoolState) (p : LpPosition) : Prop where
  lookup : s.pools.lookup p.poolKey = some pool
  id_eq : p.id = s.positionCount + 1
  tickLower : minTick ≤ p.tickLower
  ticks : p.tickLower < p.tickUpper
  tickUpper : p.tickUpper ≤ maxTick
  liquidity_pos : 0 < p.liquidity
  liquidity_le : p.liquidity ≤ i128Max
  owedA : p.tokensOwedA = 0
  owedB : p.tokensOwedB = 0
  insideA : p.feeGrowthInsideALast = insideNow s.tickFees pool p true
  insideB : p.feeGrowthInsideBLast = insideNow s.tickFees pool p false
  market : SameMarket pool pool'
  liquidity : pool'.liquidity =
    if p.Covers pool.currentTick then pool.liquidity + p.liquidity else pool.liquidity
  pool_le : pool.liquidity ≤ i128Max → pool'.liquidity ≤ i128Max
  active : pool'.activeLiquidity = if p.Covers pool.currentTick
    then max (pool.activeLiquidity + p.liquidity) 0 else max pool.activeLiquidity 0
  pools : s'.pools = s.pools.insert p.poolKey pool'
  positions : s'.positions = AList.insert (s.positionCount + 1) p s.positions
  positionCount : s'.positionCount = s.positionCount + 1
  tickFees : s'.tickFees = s.tickFees

structure LiquidityRemoved (s s' : State τ) (id : ℕ) (pool pool' : PoolState) (p : LpPosition)
    (r : ℤ) : Prop where
  lookup_position : s.positions.lookup id = some p
  lookup : s.pools.lookup p.poolKey = some pool
  pos : 0 < r
  le : r ≤ p.liquidity
  market : SameMarket pool pool'
  liquidity : pool'.liquidity =
    if p.Covers pool.currentTick then max (pool.liquidity - r) 0 else pool.liquidity
  active : pool'.activeLiquidity =
    if p.Covers pool.currentTick then max (pool.activeLiquidity - r) 0 else pool.activeLiquidity
  pools : s'.pools = s.pools.insert p.poolKey pool'
  positions : s'.positions = stored s.positions
    (afterRemoval p (insideNow s.tickFees pool p true) (insideNow s.tickFees pool p false) r)
  positionCount : s'.positionCount = s.positionCount
  tickFees : s'.tickFees = s.tickFees

structure FeesCollected (s s' : State τ) (id : ℕ) (pool : PoolState) (p : LpPosition) : Prop where
  lookup_position : s.positions.lookup id = some p
  lookup : s.pools.lookup p.poolKey = some pool
  pools : s'.pools = s.pools
  positions : s'.positions = s.positions.insert p.id
    (afterCollection p (insideNow s.tickFees pool p true) (insideNow s.tickFees pool p false))
  positionCount : s'.positionCount = s.positionCount
  tickFees : s'.tickFees = s.tickFees

/-- How a swap of `amountIn` units moves its pool. -/
structure SwapMove (s s' : State τ) (poolKey : PoolKey) (zeroForOne : Bool) (amountIn : ℤ)
    (pool pool' : PoolState) (result : SwapResult) : Prop where
  lookup : s.pools.lookup poolKey = some pool
  liquidity_ne : pool.liquidity ≠ 0
  amountIn_pos : 0 < amountIn
  step : (result.newSqrtPrice, result.amountIn, result.amountOut) =
    stepTo pool.sqrtPrice (targetPrice pool zeroForOne) pool.liquidity (netInput pool amountIn)
  feePaid : result.feePaid = swapFee pool amountIn
  pool_eq : pool' = { pool with
    sqrtPrice := result.newSqrtPrice
    currentTick := sqrtPriceToTick result.newSqrtPrice
    feeGrowthGlobalA := pool.feeGrowthGlobalA +
      if zeroForOne then feeGain result.feePaid pool.liquidity else 0
    feeGrowthGlobalB := pool.feeGrowthGlobalB +
      if zeroForOne then 0 else feeGain result.feePaid pool.liquidity
    totalVolume := pool.totalVolume + result.amountIn }
  pools : s'.pools = s.pools.insert poolKey pool'
  positions : s'.positions = s.positions
  positionCount : s'.positionCount = s.positionCount
  tickFees : s'.tickFees = if pool'.currentTick = pool.currentTick then s.tickFees
    else crossed s.tickFees poolKey pool
      (if zeroForOne then pool.currentTick else targetTick pool.currentTick zeroForOne)

structure FeeUpdated (s s' : State τ) (poolKey : PoolKey) (pool pool' : PoolState) : Prop where
  lookup : s.pools.lookup poolKey = some pool
  market : SameMarket pool pool'
  liquidity : pool'.liquidity = pool.liquidity
  active : pool'.activeLiquidity = pool.activeLiquidity
  pools : s'.pools = s.pools.insert poolKey pool'
  positions : s'.positions = s.positions
  positionCount : s'.positionCount = s.positionCount
  tickFees : s'.tickFees = s.tickFees

/-- Nothing changes but the pause level. -/
structure Untouched (s s' : State τ) : Prop where
  pools : s'.pools = s.pools
  positions : s'.positions = s.positions
  positionCount : s'.positionCount = s.positionCount
  tickFees : s'.tickFees = s.tickFees

/-- The step that a call is. -/
inductive Step (s s' : State τ) : Call → Result → Prop
  | created {caller tokenA tokenB : Address} {feeTier : ℕ} {initSqrtPrice : ℤ} {pool : PoolState}
      (hprice : pool.sqrtPrice = initSqrtPrice)
      (h : PoolCreated s s' ⟨tokenA, tokenB⟩ pool) :
      Step s s' (.createPool caller tokenA tokenB feeTier initSqrtPrice) .unit
  | added {caller tokenA tokenB : Address} {tickLower tickUpper : ℤ}
      {amountDesiredA amountDesiredB minA minB : ℤ} {result : AddLiquidityResult}
      {pool pool' : PoolState} {p : LpPosition} (hkey : p.poolKey = ⟨tokenA, tokenB⟩)
      (hid : result.positionId = p.id) (h : LiquidityAdded s s' pool pool' p) :
      Step s s' (.addLiquidity caller tokenA tokenB tickLower tickUpper amountDesiredA
        amountDesiredB minA minB) (.added result)
  | removed {caller : Address} {id : ℕ} {r minA minB : ℤ} {result : RemoveLiquidityResult}
      {pool pool' : PoolState} {p : LpPosition} (h : LiquidityRemoved s s' id pool pool' p r) :
      Step s s' (.removeLiquidity caller id r minA minB) (.removed result)
  | collected {caller : Address} {id : ℕ} {owedA owedB : ℤ} {pool : PoolState} {p : LpPosition}
      (hA : owedA = (accrued p (insideNow s.tickFees pool p true)
        (insideNow s.tickFees pool p false)).tokensOwedA)
      (hB : owedB = (accrued p (insideNow s.tickFees pool p true)
        (insideNow s.tickFees pool p false)).tokensOwedB)
      (h : FeesCollected s s' id pool p) :
      Step s s' (.collectFees caller id) (.collected owedA owedB)
  | swapped {caller tokenIn tokenOut : Address} {amountIn minAmountOut : ℤ} {result : SwapResult}
      {pool pool' : PoolState}
      (h : SwapMove s s' (orderTokens tokenIn tokenOut).1 (orderTokens tokenIn tokenOut).2 amountIn
        pool pool' result) :
      Step s s' (.swap caller tokenIn tokenOut amountIn minAmountOut) (.swapped result)
  | repriced {tokenA tokenB : Address} {fee : ℕ} {pool pool' : PoolState}
      (h : FeeUpdated s s' ⟨tokenA, tokenB⟩ pool pool') :
      Step s s' (.updateDynamicFee tokenA tokenB) (.fee fee)
  | paused {admin : Address} (h : Untouched s s') : Step s s' (.pause admin) .unit
  | unpaused {admin : Address} (h : Untouched s s') : Step s s' (.unpause admin) .unit

/-! ## Calls are steps -/

section Calls

variable {s s' : State τ}

/-- The price and the fee growth of a pool stay as they are. -/
theorem sameMarket_refl (pool : PoolState) : SameMarket pool pool := ⟨rfl, rfl, rfl, rfl, rfl, rfl⟩

theorem addActive_market {pool pool' : PoolState} {tickLower tickUpper liquidity : ℤ}
    (h : addActive pool tickLower tickUpper liquidity = .ok pool') : SameMarket pool pool' := by
  rw [(addActive_eq_ok h).1]
  exact { sameMarket_refl pool with }

/-- A removal leaves the market of the pool. -/
theorem removal_market {pool pool₁ pool₂ : PoolState} {hedgeA hedgeB tickLower tickUpper r : ℤ}
    (h₁ : releaseReserve pool hedgeA hedgeB = .ok pool₁)
    (h₂ : removeActive pool₁ tickLower tickUpper r = .ok pool₂) : SameMarket pool pool₂ := by
  rw [removeActive_eq_ok h₂, releaseReserve_eq_ok h₁]
  exact { sameMarket_refl pool with }

theorem setPauseLevel_untouched {admin : Address} {permission : Symbol} {level : PauseLevel}
    {event : Event} (h : setPauseLevel admin permission level event s = .ok s') :
    Untouched s s' := by
  rw [setPauseLevel_eq_ok h]
  exact ⟨rfl, rfl, rfl, rfl⟩

theorem createPool_created {caller tokenA tokenB : Address} {feeTier : ℕ} {initSqrtPrice : ℤ}
    (h : createPool caller tokenA tokenB feeTier initSqrtPrice s = .ok s') :
    PoolCreated s s' ⟨tokenA, tokenB⟩ (newPool tokenA tokenB feeTier initSqrtPrice) := by
  obtain ⟨⟨-, hprice, hnone⟩, hs'⟩ := createPool_eq_ok h
  rw [hs']
  exact
    { fresh := hnone
      price_pos := hprice
      pool_eq := rfl
      pools := rfl
      positions := rfl
      positionCount := rfl
      tickFees := rfl }

theorem updateDynamicFee_updated {now : ℕ} {tokenA tokenB : Address} {fee : ℕ}
    (h : updateDynamicFee now tokenA tokenB s = .ok (fee, s')) :
    ∃ pool pool', FeeUpdated s s' ⟨tokenA, tokenB⟩ pool pool' := by
  obtain ⟨pool, hpool, hs'⟩ := updateDynamicFee_eq_ok h
  rw [hs']
  exact ⟨pool, { pool with dynamicFeeBps := fee },
    { lookup := hpool
      market := { sameMarket_refl pool with }
      liquidity := rfl
      active := rfl
      pools := rfl
      positions := rfl
      positionCount := rfl
      tickFees := rfl }⟩

variable [TokenClient τ Address Address]

theorem addLiquidity_added {now : ℕ} {caller tokenA tokenB : Address} {tickLower tickUpper : ℤ}
    {amountDesiredA amountDesiredB minA minB : ℤ} {result : AddLiquidityResult}
    (h : addLiquidity now caller tokenA tokenB tickLower tickUpper amountDesiredA amountDesiredB
      minA minB s = .ok (result, s')) :
    ∃ pool pool' p, p.poolKey = ⟨tokenA, tokenB⟩ ∧ result.positionId = p.id ∧
      LiquidityAdded s s' pool pool' p := by
  obtain ⟨pool, pool', liquidity, actualA, actualB, insideA, insideB, reserveA, reserveB, tokens₁,
    tokens₂, ⟨-, hticks, hmin, hmax⟩, hpool, ⟨hliquidity, hne⟩, hamounts, -, hactive,
    hinside, -, rfl, hs'⟩ := addLiquidity_eq_ok h
  -- the liquidity was computed from amounts, so it is a positive word
  obtain ⟨⟨hpos, hle⟩, -⟩ := liquidityFromAmounts_unsaturated (sqrtPriceAt_pos hmin)
    (sqrtPriceAt_pos (hmin.trans hticks.le)) hliquidity hne hamounts
  have hmarket := addActive_market hactive
  obtain ⟨hpool', hmem⟩ := addActive_eq_ok hactive
  have htotal : pool'.liquidity = if tickLower ≤ pool.currentTick ∧ pool.currentTick < tickUpper
      then pool.liquidity + liquidity else pool.liquidity := by rw [hpool']
  -- the growth is read in the new state of the pool, where it is the same
  obtain ⟨hinsideA, hinsideB⟩ := feeGrowthInside_eq_ok hinside
  rw [hmarket.currentTick, hmarket.growthA] at hinsideA
  rw [hmarket.currentTick, hmarket.growthB] at hinsideB
  rw [hs']
  exact ⟨pool, { pool' with
      ilReserveA := pool'.ilReserveA + reserveA, ilReserveB := pool'.ilReserveB + reserveB },
    newPosition now (s.positionCount + 1) caller ⟨tokenA, tokenB⟩ tickLower tickUpper liquidity
      insideA insideB, rfl, rfl,
    { lookup := hpool
      id_eq := rfl
      tickLower := hmin
      ticks := hticks
      tickUpper := hmax
      liquidity_pos := hpos
      liquidity_le := hle
      owedA := rfl
      owedB := rfl
      insideA := hinsideA
      insideB := hinsideB
      market := { hmarket with }
      liquidity := htotal
      pool_le := fun hbound => by
        show pool'.liquidity ≤ i128Max
        rw [htotal]
        split
        · exact (hmem ‹_›).1.2
        · exact hbound
      active := by
        show pool'.activeLiquidity = _
        rw [hpool']
        rfl
      pools := rfl
      positions := rfl
      positionCount := rfl
      tickFees := rfl }⟩

theorem removeLiquidity_removed {caller : Address} {id : ℕ} {r minA minB : ℤ}
    {result : RemoveLiquidityResult}
    (h : removeLiquidity caller id r minA minB s = .ok (result, s')) :
    ∃ pool pool' p, LiquidityRemoved s s' id pool pool' p r := by
  obtain ⟨p, pool, insideA, insideB, pool₁, pool₂, amtA, amtB, hedgeA, hedgeB, tokens₁, tokens₂,
    hp, ⟨-, hpos, hle⟩, hpool, hinside, -, -, -, hpool₁, hpool₂, -, -, hs'⟩ :=
    removeLiquidity_eq_ok h
  obtain ⟨rfl, rfl⟩ := feeGrowthInside_eq_ok hinside
  rw [hs']
  -- the reserve is released first, which the liquidity does not depend on
  have hremove := removeActive_eq_ok hpool₂
  rw [releaseReserve_eq_ok hpool₁] at hremove
  exact ⟨pool, pool₂, p,
    { lookup_position := hp
      lookup := hpool
      pos := hpos
      le := hle
      market := removal_market hpool₁ hpool₂
      liquidity := by rw [hremove]; rfl
      active := by rw [hremove]; rfl
      pools := rfl
      positions := rfl
      positionCount := rfl
      tickFees := rfl }⟩

theorem collectFees_collected {caller : Address} {id : ℕ} {owedA owedB : ℤ}
    (h : collectFees caller id s = .ok ((owedA, owedB), s')) :
    ∃ pool p, owedA = (accrued p (insideNow s.tickFees pool p true)
        (insideNow s.tickFees pool p false)).tokensOwedA ∧
      owedB = (accrued p (insideNow s.tickFees pool p true)
        (insideNow s.tickFees pool p false)).tokensOwedB ∧ FeesCollected s s' id pool p := by
  obtain ⟨p, pool, insideA, insideB, tokens₁, tokens₂, hp, -, hpool, hinside, ⟨hA, hB⟩, -, hs'⟩ :=
    collectFees_eq_ok h
  obtain ⟨rfl, rfl⟩ := feeGrowthInside_eq_ok hinside
  rw [hs']
  exact ⟨pool, p, hA, hB,
    { lookup_position := hp
      lookup := hpool
      pools := rfl
      positions := rfl
      positionCount := rfl
      tickFees := rfl }⟩

theorem swap_move {now : ℕ} {caller tokenIn tokenOut : Address} {amountIn minAmountOut : ℤ}
    {result : SwapResult}
    (h : swap now caller tokenIn tokenOut amountIn minAmountOut s = .ok (result, s')) :
    ∃ pool pool', SwapMove s s' (orderTokens tokenIn tokenOut).1 (orderTokens tokenIn tokenOut).2
      amountIn pool pool' result := by
  obtain ⟨pool, pool', step, fees', tokens₁, tokens₂, ⟨-, hpos⟩, ⟨hpool, hne⟩, hstep, hswap, hfees,
    -, rfl, rfl⟩ := swap_eq_ok h
  obtain ⟨hfee, hstepTo⟩ := computeSwapStep_eq_ok hstep
  -- the step is of the input without the fee
  rw [hfee] at hstepTo
  exact ⟨pool, pool',
    { lookup := hpool
      liquidity_ne := hne
      amountIn_pos := hpos
      step := hstepTo
      feePaid := hfee
      pool_eq := swapPool_eq_ok hne hswap
      pools := rfl
      positions := rfl
      positionCount := rfl
      tickFees := swapTickFees_eq_ok hfees }⟩

/-- Every call that returns is a step. -/
theorem execute_step {now : ℕ} {call : Call} {result : Result}
    (h : execute now s call = .ok (result, s')) : Step s s' call result := by
  cases call with
  | createPool caller tokenA tokenB feeTier initSqrtPrice =>
    obtain ⟨t, ht, rfl, rfl⟩ := Except.map_pair_eq_ok.mp h
    exact .created rfl (createPool_created ht)
  | addLiquidity caller tokenA tokenB tickLower tickUpper amountDesiredA amountDesiredB minA minB =>
    obtain ⟨⟨added, t⟩, ht, rfl, rfl⟩ := Except.map_pair_eq_ok.mp h
    obtain ⟨pool, pool', p, hkey, hid, hadded⟩ := addLiquidity_added ht
    exact .added hkey hid hadded
  | removeLiquidity caller id r minA minB =>
    obtain ⟨⟨removed, t⟩, ht, rfl, rfl⟩ := Except.map_pair_eq_ok.mp h
    obtain ⟨pool, pool', p, hremoved⟩ := removeLiquidity_removed ht
    exact .removed hremoved
  | collectFees caller id =>
    obtain ⟨⟨⟨owedA, owedB⟩, t⟩, ht, rfl, rfl⟩ := Except.map_pair_eq_ok.mp h
    obtain ⟨pool, p, hA, hB, hcollected⟩ := collectFees_collected ht
    exact .collected hA hB hcollected
  | swap caller tokenIn tokenOut amountIn minAmountOut =>
    obtain ⟨⟨swapped, t⟩, ht, rfl, rfl⟩ := Except.map_pair_eq_ok.mp h
    obtain ⟨pool, pool', hmove⟩ := swap_move ht
    exact .swapped hmove
  | updateDynamicFee tokenA tokenB =>
    obtain ⟨⟨fee, t⟩, ht, rfl, rfl⟩ := Except.map_pair_eq_ok.mp h
    obtain ⟨pool, pool', hupdated⟩ := updateDynamicFee_updated ht
    exact .repriced hupdated
  | pause admin =>
    obtain ⟨t, ht, rfl, rfl⟩ := Except.map_pair_eq_ok.mp h
    exact .paused (setPauseLevel_untouched ht)
  | unpause admin =>
    obtain ⟨t, ht, rfl, rfl⟩ := Except.map_pair_eq_ok.mp h
    exact .unpaused (setPauseLevel_untouched ht)

end Calls

end Stellara.Amm
