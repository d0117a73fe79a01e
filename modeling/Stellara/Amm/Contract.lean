import Stellara.Amm.Fees
import Stellara.Shared.Acl
import Stellara.Shared.CircuitBreaker

/-!
# The automated market maker

Liquidity providers deposit two tokens of a pool in a range of ticks, and anybody swaps one
token of a pool for the other. A swap makes one step, to the next tick at most.

## Main definitions

* `State`: the storage of the contract
* `createPool`, `addLiquidity`, `removeLiquidity`, `collectFees`, `swap`, `updateDynamicFee`: the
  entry points
* `contract`: the market maker as a transactional contract
-/

namespace Stellara.Amm

/-! ## Storage -/

inductive Event where
  | poolCr (poolKey : PoolKey)
  | liqAdd (positionId : ℕ) (caller : Address) (amountA amountB liquidity : ℤ)
  | liqRm (positionId : ℕ) (caller : Address) (amountA amountB : ℤ)
  | feeCol (positionId : ℕ) (caller : Address) (owedA owedB : ℤ)
  | swap (caller : Address) (amountIn amountOut feePaid : ℤ)
  | feeUpd (poolKey : PoolKey) (newFee : ℕ)
  | paused
  | unpaused
deriving DecidableEq, Repr

/-- The storage of the contract, its events and the tokens. -/
structure State (τ : Type) where
  contractAddress : Address
  initialized : Bool
  acl : ACL.Storage
  breaker : CircuitBreaker.Storage
  poolCount : ℕ
  pools : Store PoolKey PoolState
  tickFees : TickFees
  samples : PriceSamples
  positionCount : ℕ
  positions : Store ℕ LpPosition
  ownerPositions : Store Address (List ℕ)
  tokens : τ
  events : List Event

variable {τ : Type}

/-- The contract before `init`. -/
def State.empty (contractAddress : Address) (tokens : τ) : State τ :=
  ⟨contractAddress, false, .empty, .empty, 0, ∅, ∅, ∅, 0, ∅, ∅, tokens, []⟩

def requirePool (s : State τ) (poolKey : PoolKey) : Outcome AmmError PoolState :=
  orAbort (.error .poolNotFound) (s.pools.lookup poolKey)

def writePool (s : State τ) (poolKey : PoolKey) (pool : PoolState) : State τ :=
  { s with pools := s.pools.insert poolKey pool }

def requirePosition (s : State τ) (positionId : ℕ) : Outcome AmmError LpPosition :=
  orAbort (.error .positionNotFound) (s.positions.lookup positionId)

def writePosition (s : State τ) (position : LpPosition) : State τ :=
  { s with positions := s.positions.insert position.id position }

/-- Delete a position, and its id from the list of its owner. -/
def deletePosition (s : State τ) (owner : Address) (positionId : ℕ) : State τ :=
  { s with
    positions := s.positions.erase positionId
    ownerPositions := s.ownerPositions.insert owner
      (((s.ownerPositions.lookup owner).getD []).filter (· ≠ positionId)) }

/-- Create a new position, and add its id to the list of its owner. -/
def mintPosition (now : ℕ) (owner : Address) (poolKey : PoolKey) (tickLower tickUpper : ℤ)
    (liquidity feeGrowthInsideA feeGrowthInsideB : ℤ) (s : State τ) :
    Outcome AmmError (LpPosition × State τ) := do
  let positionId ← IntFormat.u64.checkedNat .overflow (s.positionCount + 1)
  let position : LpPosition :=
    { id := positionId
      owner := owner
      poolKey := poolKey
      tickLower := tickLower
      tickUpper := tickUpper
      liquidity := liquidity
      feeGrowthInsideALast := feeGrowthInsideA
      feeGrowthInsideBLast := feeGrowthInsideB
      tokensOwedA := 0
      tokensOwedB := 0
      createdAt := now }
  let s := writePosition { s with positionCount := positionId } position
  .ok (position, { s with
    ownerPositions := s.ownerPositions.insert owner
      ((s.ownerPositions.lookup owner).getD [] ++ [positionId]) })

def publish (s : State τ) (event : Event) : State τ :=
  { s with events := s.events ++ [event] }

/-! ## Guards -/

def requireInit (s : State τ) : Outcome AmmError Unit :=
  require (s.initialized = true) (.error .notInitialized)

def requireNotPaused (s : State τ) : Outcome AmmError Unit :=
  require ((CircuitBreaker.getState s.breaker).pauseLevel ≠ .full) (.error .paused)

/-! ## Administration -/

/-- The permissions of the administrator. -/
def adminAcl (admin : Address) (acl : ACL.Storage) : ACL.Storage :=
  ACL.assignPermission "admin" "manage_acl" <| ACL.assignPermission "admin" "create_pool" <|
  ACL.assignPermission "admin" "unpause" <| ACL.assignPermission "admin" "pause" <|
  ACL.assignRole admin "admin" <| ACL.createRole "admin" acl

def init (now : ℕ) (admin : Address) (cbConfig : CircuitBreakerConfig) (s : State τ) :
    Outcome AmmError (State τ) := do
  require (s.initialized = false) (.error .unauthorized)
  .ok { s with
    acl := adminAcl admin s.acl
    initialized := true
    poolCount := 0
    breaker := CircuitBreaker.init now cbConfig s.breaker }

/-- Store a pause level. -/
def setPauseLevel (admin : Address) (permission : Symbol) (level : PauseLevel) (event : Event)
    (s : State τ) : Outcome AmmError (State τ) := do
  requireAuth s.contractAddress admin
  requireInit s
  ACL.requirePermission admin permission s.acl
  let state := { CircuitBreaker.getState s.breaker with pauseLevel := level }
  .ok (publish { s with breaker := { s.breaker with state := some state } } event)

def pause (admin : Address) (s : State τ) : Outcome AmmError (State τ) :=
  setPauseLevel admin "pause" .full .paused s

def unpause (admin : Address) (s : State τ) : Outcome AmmError (State τ) :=
  setPauseLevel admin "unpause" .none .unpaused s

def createPool (caller tokenA tokenB : Address) (feeTier : ℕ) (initSqrtPrice : ℤ) (s : State τ) :
    Outcome AmmError (State τ) := do
  requireAuth s.contractAddress caller
  requireInit s
  ACL.requirePermission caller "create_pool" s.acl
  require (isValidFeeTier feeTier = true) (.error .invalidFeeTier)
  require (0 < initSqrtPrice) (.error .invalidAmount)
  let poolKey : PoolKey := ⟨tokenA, tokenB⟩
  require (s.pools.lookup poolKey = none) (.error .poolAlreadyExists)
  let pool : PoolState :=
    { tokenA := tokenA
      tokenB := tokenB
      sqrtPrice := initSqrtPrice
      currentTick := sqrtPriceToTick initSqrtPrice
      liquidity := 0
      feeTier := feeTier
      dynamicFeeBps := feeTier
      feeGrowthGlobalA := 0
      feeGrowthGlobalB := 0
      totalVolume := 0
      activeLiquidity := 0
      ilReserveA := 0
      ilReserveB := 0 }
  let poolCount ← IntFormat.u64.checkedNat .overflow (s.poolCount + 1)
  .ok (publish { writePool s poolKey pool with poolCount := poolCount } (.poolCr poolKey))

/-- Recompute the fee of a pool. -/
def updateDynamicFee (now : ℕ) (tokenA tokenB : Address) (s : State τ) :
    Outcome AmmError (ℕ × State τ) := do
  requireInit s
  let poolKey : PoolKey := ⟨tokenA, tokenB⟩
  let pool ← requirePool s poolKey
  let (newFee, _) ← computeDynamicFee now poolKey pool.feeTier s.samples
  .ok (newFee, publish (writePool s poolKey { pool with dynamicFeeBps := newFee })
    (.feeUpd poolKey newFee))

/-! ## Liquidity -/

section Tokens

variable [TokenClient τ Address Address]

/-- Transfer a positive amount; nothing is transferred otherwise. -/
def transferPositive (tokens : τ) (token src dst : Address) (amount : ℤ) : Outcome AmmError τ :=
  if 0 < amount then tokenTransfer tokens token src dst amount else .ok tokens

/-- The pool after `liquidity` was added to it in the range of its current tick or elsewhere. -/
def addActive (pool : PoolState) (tickLower tickUpper liquidity : ℤ) :
    Outcome AmmError PoolState :=
  if tickLower ≤ pool.currentTick ∧ pool.currentTick < tickUpper then do
    let total ← IntFormat.i128.checked .overflow (pool.liquidity + liquidity)
    let active ← IntFormat.i128.checked .overflow (pool.activeLiquidity + liquidity)
    .ok { pool with liquidity := total, activeLiquidity := max active 0 }
  else .ok { pool with activeLiquidity := max pool.activeLiquidity 0 }

structure AddLiquidityResult where
  positionId : ℕ
  amountA : ℤ
  amountB : ℤ
  liquidity : ℤ
deriving DecidableEq, Repr

def addLiquidity (now : ℕ) (caller tokenA tokenB : Address) (tickLower tickUpper : ℤ)
    (amountDesiredA amountDesiredB minA minB : ℤ) (s : State τ) :
    Outcome AmmError (AddLiquidityResult × State τ) := do
  requireAuth s.contractAddress caller
  requireInit s
  requireNotPaused s
  require (tickLower < tickUpper) (.error .invalidTickRange)
  require (¬ (amountDesiredA ≤ 0 ∧ amountDesiredB ≤ 0)) (.error .invalidAmount)
  let poolKey : PoolKey := ⟨tokenA, tokenB⟩
  let pool ← requirePool s poolKey
  let sqrtLower ← tickToSqrtPrice tickLower
  let sqrtUpper ← tickToSqrtPrice tickUpper
  let liquidity ← liquidityFromAmounts amountDesiredA amountDesiredB sqrtLower sqrtUpper
    pool.sqrtPrice
  require (liquidity ≠ 0) (.error .insufficientLiquidity)
  let (actualA, actualB) ← amountsForLiquidity liquidity sqrtLower sqrtUpper pool.sqrtPrice
  require (¬ (actualA < minA ∨ actualB < minB)) (.error .slippageExceeded)
  let tokens ← transferPositive s.tokens tokenA caller s.contractAddress actualA
  let tokens ← transferPositive tokens tokenB caller s.contractAddress actualB
  let pool ← addActive pool tickLower tickUpper liquidity
  let (insideA, insideB) ← feeGrowthInside s.tickFees poolKey pool tickLower tickUpper
  let (position, s) ← mintPosition now caller poolKey tickLower tickUpper liquidity insideA insideB
    { s with tokens := tokens }
  let (reserveA, reserveB) ← computeHedgeReserve (estimateIlBps position pool) actualA actualB
  let ilReserveA ← IntFormat.i128.checked .overflow (pool.ilReserveA + reserveA)
  let ilReserveB ← IntFormat.i128.checked .overflow (pool.ilReserveB + reserveB)
  .ok (⟨position.id, actualA, actualB, liquidity⟩,
    publish (writePool s poolKey { pool with ilReserveA := ilReserveA, ilReserveB := ilReserveB })
      (.liqAdd position.id caller actualA actualB liquidity))

structure RemoveLiquidityResult where
  amountA : ℤ
  amountB : ℤ
  hedgeA : ℤ
  hedgeB : ℤ
deriving DecidableEq, Repr

/-- The pool after `liquidity` was removed from it in the range of its current tick or
elsewhere. -/
def removeActive (pool : PoolState) (tickLower tickUpper liquidity : ℤ) :
    Outcome AmmError PoolState :=
  if tickLower ≤ pool.currentTick ∧ pool.currentTick < tickUpper then do
    let total ← IntFormat.i128.checked .overflow (pool.liquidity - liquidity)
    let active ← IntFormat.i128.checked .overflow (pool.activeLiquidity - liquidity)
    .ok { pool with liquidity := max total 0, activeLiquidity := max active 0 }
  else .ok pool

/-- The pool after a part of its reserve was released. -/
def releaseReserve (pool : PoolState) (hedgeA hedgeB : ℤ) : Outcome AmmError PoolState := do
  let ilReserveA ← IntFormat.i128.checked .overflow (pool.ilReserveA - hedgeA)
  let ilReserveB ← IntFormat.i128.checked .overflow (pool.ilReserveB - hedgeB)
  .ok { pool with ilReserveA := max ilReserveA 0, ilReserveB := max ilReserveB 0 }

/-- Store a position; one without liquidity is deleted. -/
def storePosition (s : State τ) (caller : Address) (position : LpPosition) : State τ :=
  if position.liquidity = 0 then deletePosition s caller position.id else writePosition s position

def removeLiquidity (caller : Address) (positionId : ℕ) (liquidityToRemove minA minB : ℤ)
    (s : State τ) : Outcome AmmError (RemoveLiquidityResult × State τ) := do
  requireAuth s.contractAddress caller
  requireInit s
  let position ← requirePosition s positionId
  require (position.owner = caller) (.error .unauthorized)
  require (¬ (liquidityToRemove ≤ 0 ∨ position.liquidity < liquidityToRemove))
    (.error .invalidAmount)
  let poolKey := position.poolKey
  let pool ← requirePool s poolKey
  let (insideA, insideB) ← feeGrowthInside s.tickFees poolKey pool position.tickLower
    position.tickUpper
  let position ← accruePositionFees position insideA insideB
  let sqrtLower ← tickToSqrtPrice position.tickLower
  let sqrtUpper ← tickToSqrtPrice position.tickUpper
  let (amountA, amountB) ← amountsForLiquidity liquidityToRemove sqrtLower sqrtUpper pool.sqrtPrice
  require (¬ (amountA < minA ∨ amountB < minB)) (.error .slippageExceeded)
  let (hedgeA, hedgeB) ← computeHedgeRelease pool liquidityToRemove position.liquidity
  let pool ← releaseReserve pool hedgeA hedgeB
  let outA ← IntFormat.i128.checked .overflow (amountA + hedgeA)
  let outB ← IntFormat.i128.checked .overflow (amountB + hedgeB)
  let pool ← removeActive pool position.tickLower position.tickUpper liquidityToRemove
  let tokens ← transferPositive s.tokens pool.tokenA s.contractAddress caller outA
  let tokens ← transferPositive tokens pool.tokenB s.contractAddress caller outB
  let s := storePosition { s with tokens := tokens } caller
    { position with liquidity := position.liquidity - liquidityToRemove }
  .ok (⟨outA, outB, hedgeA, hedgeB⟩,
    publish (writePool s poolKey pool) (.liqRm positionId caller outA outB))

def collectFees (caller : Address) (positionId : ℕ) (s : State τ) :
    Outcome AmmError ((ℤ × ℤ) × State τ) := do
  requireAuth s.contractAddress caller
  requireInit s
  let position ← requirePosition s positionId
  require (position.owner = caller) (.error .unauthorized)
  let pool ← requirePool s position.poolKey
  let (insideA, insideB) ← feeGrowthInside s.tickFees position.poolKey pool position.tickLower
    position.tickUpper
  let position ← accruePositionFees position insideA insideB
  let owedA := position.tokensOwedA
  let owedB := position.tokensOwedB
  let tokens ← transferPositive s.tokens pool.tokenA s.contractAddress caller owedA
  let tokens ← transferPositive tokens pool.tokenB s.contractAddress caller owedB
  let position := { position with
    tokensOwedA := if 0 < owedA then 0 else owedA
    tokensOwedB := if 0 < owedB then 0 else owedB }
  .ok ((owedA, owedB),
    publish (writePosition { s with tokens := tokens } position)
      (.feeCol positionId caller owedA owedB))

/-! ## Swaps -/

structure SwapResult where
  amountIn : ℤ
  amountOut : ℤ
  feePaid : ℤ
  newSqrtPrice : ℤ
  newTick : ℤ
deriving DecidableEq, Repr

/-- The pool of two tokens, and whether the first is its token a. -/
def orderTokens (tokenIn tokenOut : Address) : PoolKey × Bool :=
  if tokenIn < tokenOut then (⟨tokenIn, tokenOut⟩, true) else (⟨tokenOut, tokenIn⟩, false)

/-- The tick that a swap moves the price to at most. -/
def targetTick (currentTick : ℤ) (zeroForOne : Bool) : ℤ :=
  min (max (if zeroForOne then currentTick - 1 else currentTick + 1) minTick) maxTick

/-- The pool after a swap step. -/
def swapPool (pool : PoolState) (step : SwapStep) (zeroForOne : Bool) :
    Outcome AmmError PoolState := do
  let growthA ← if zeroForOne
    then accumulateFeeGrowth step.feePaid pool.liquidity pool.feeGrowthGlobalA
    else .ok pool.feeGrowthGlobalA
  let growthB ← if zeroForOne then .ok pool.feeGrowthGlobalB
    else accumulateFeeGrowth step.feePaid pool.liquidity pool.feeGrowthGlobalB
  let totalVolume ← IntFormat.i128.checked .overflow (pool.totalVolume + step.amountIn)
  .ok { pool with
    sqrtPrice := step.newSqrtPrice
    currentTick := sqrtPriceToTick step.newSqrtPrice
    feeGrowthGlobalA := growthA
    feeGrowthGlobalB := growthB
    totalVolume := totalVolume }

/-- Flip the fee growth at the tick that a swap crosses, if it leaves its tick. -/
def swapTickFees (fees : TickFees) (poolKey : PoolKey) (pool : PoolState) (newTick : ℤ)
    (zeroForOne : Bool) : Outcome AmmError TickFees :=
  if newTick = pool.currentTick then .ok fees
  else crossTick fees poolKey pool
    (if zeroForOne then pool.currentTick else targetTick pool.currentTick zeroForOne)

def swap (now : ℕ) (caller tokenIn tokenOut : Address) (amountIn minAmountOut : ℤ) (s : State τ) :
    Outcome AmmError (SwapResult × State τ) := do
  requireAuth s.contractAddress caller
  requireInit s
  requireNotPaused s
  require (0 < amountIn) (.error .invalidAmount)
  let (poolKey, zeroForOne) := orderTokens tokenIn tokenOut
  let pool ← requirePool s poolKey
  require (pool.liquidity ≠ 0) (.error .insufficientLiquidity)
  let samples := recordPriceSample now poolKey pool.sqrtPrice s.samples
  let targetSqrt ← tickToSqrtPrice (targetTick pool.currentTick zeroForOne)
  let step ← computeSwapStep pool.sqrtPrice targetSqrt pool.liquidity amountIn pool.dynamicFeeBps
  require (minAmountOut ≤ step.amountOut) (.error .slippageExceeded)
  let newPool ← swapPool pool step zeroForOne
  let tickFees ← swapTickFees s.tickFees poolKey pool newPool.currentTick zeroForOne
  let tokens ← tokenTransfer s.tokens tokenIn caller s.contractAddress step.amountIn
  let tokens ← tokenTransfer tokens tokenOut s.contractAddress caller step.amountOut
  let s := writePool { s with samples := samples, tickFees := tickFees, tokens := tokens } poolKey
    newPool
  .ok (⟨step.amountIn, step.amountOut, step.feePaid, step.newSqrtPrice, newPool.currentTick⟩,
    publish s (.swap caller step.amountIn step.amountOut step.feePaid))

/-! ## The contract -/

inductive Call where
  | createPool (caller tokenA tokenB : Address) (feeTier : ℕ) (initSqrtPrice : ℤ)
  | addLiquidity (caller tokenA tokenB : Address) (tickLower tickUpper : ℤ)
      (amountDesiredA amountDesiredB minA minB : ℤ)
  | removeLiquidity (caller : Address) (positionId : ℕ) (liquidityToRemove minA minB : ℤ)
  | collectFees (caller : Address) (positionId : ℕ)
  | swap (caller tokenIn tokenOut : Address) (amountIn minAmountOut : ℤ)
  | updateDynamicFee (tokenA tokenB : Address)
  | pause (admin : Address)
  | unpause (admin : Address)
deriving DecidableEq, Repr

/-- What a call returns. -/
inductive Result where
  | unit
  | added (result : AddLiquidityResult)
  | removed (result : RemoveLiquidityResult)
  | collected (owedA owedB : ℤ)
  | swapped (result : SwapResult)
  | fee (newFee : ℕ)
deriving DecidableEq, Repr

/-- Execute a call. -/
def execute (now : ℕ) (s : State τ) : Call → Outcome AmmError (Result × State τ)
  | .createPool caller tokenA tokenB feeTier initSqrtPrice =>
    (Result.unit, ·) <$> createPool caller tokenA tokenB feeTier initSqrtPrice s
  | .addLiquidity caller tokenA tokenB tickLower tickUpper amountDesiredA amountDesiredB minA minB =>
    (fun p => (Result.added p.1, p.2)) <$> addLiquidity now caller tokenA tokenB tickLower tickUpper
      amountDesiredA amountDesiredB minA minB s
  | .removeLiquidity caller positionId liquidityToRemove minA minB =>
    (fun p => (Result.removed p.1, p.2)) <$> removeLiquidity caller positionId liquidityToRemove
      minA minB s
  | .collectFees caller positionId =>
    (fun p => (Result.collected p.1.1 p.1.2, p.2)) <$> collectFees caller positionId s
  | .swap caller tokenIn tokenOut amountIn minAmountOut =>
    (fun p => (Result.swapped p.1, p.2)) <$> swap now caller tokenIn tokenOut amountIn
      minAmountOut s
  | .updateDynamicFee tokenA tokenB =>
    (fun p => (Result.fee p.1, p.2)) <$> updateDynamicFee now tokenA tokenB s
  | .pause admin => (Result.unit, ·) <$> pause admin s
  | .unpause admin => (Result.unit, ·) <$> unpause admin s

/-- The market maker, after `init`. -/
def contract (τ : Type) [TokenClient τ Address Address] :
    Contract (State τ) Call Result (Fault AmmError) where
  exec now call s := execute now s call

end Tokens

end Stellara.Amm
