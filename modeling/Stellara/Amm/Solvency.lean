import Stellara.Amm.Steps

/-!
# Solvency of the market maker

The contract owes every position the amounts of its liquidity at the current price of its pool,
the fees it is owed and those it has not accrued yet, and it keeps the reserves of the pools. It
is solvent when it owns all of this. Fees and reserves are credited without a transfer, and the
amounts of a swap are rounded in favour of the trader, so the contract is solvent as long as
swaps and deposits avoid what is not paid for.

## Main definitions

* `liabilities`, `Solvent`: what the contract owes, and that it owns as much
* `exitCalls`, `CanExit`: the owners of positions withdraw all there is, in any order
* `Funded`: a call that credits nothing without a transfer
* `Books`: the pools and the positions of a contract to which nothing was credited

## Main results

* `Books.addPool`, `Books.update`, `Books.mint`, `Books.move`: what each kind of write preserves
* `Books.total_move_le`: what a sum over the positions of a pool grows by, from what one grows by
* `Books.total_amountA_le`, `Books.total_amountB_le`: what the amounts grow by when a price moves
-/

namespace Stellara.Amm

/-! ## Requirements -/

namespace LpPosition

def sqrtLower (p : LpPosition) : ℤ := sqrtPriceAt p.tickLower

def sqrtUpper (p : LpPosition) : ℤ := sqrtPriceAt p.tickUpper

/-- The amount of token a that the liquidity of a position stands for at a price. -/
def amountA (p : LpPosition) (price : ℤ) : ℤ :=
  Amm.amountA p.liquidity p.sqrtLower p.sqrtUpper price

/-- The amount of token b that the liquidity of a position stands for at a price. -/
def amountB (p : LpPosition) (price : ℤ) : ℤ :=
  Amm.amountB p.liquidity p.sqrtLower p.sqrtUpper price

/-- The position with another liquidity. -/
def withLiquidity (p : LpPosition) (liquidity : ℤ) : LpPosition := { p with liquidity := liquidity }

@[simp] theorem withLiquidity_liquidity (p : LpPosition) (liquidity : ℤ) :
    (p.withLiquidity liquidity).liquidity = liquidity := rfl

end LpPosition

/-- What a position claims of token a: its amount, what it is owed, and what it has not accrued
yet. -/
def claimA (fees : TickFees) (pool : PoolState) (p : LpPosition) : ℤ :=
  p.amountA pool.sqrtPrice + p.tokensOwedA + unaccrued p.liquidity p.feeGrowthInsideALast
    (exactGrowthInside fees p.poolKey pool.currentTick pool.feeGrowthGlobalA p.tickLower
      p.tickUpper true)

/-- What a position claims of token b. -/
def claimB (fees : TickFees) (pool : PoolState) (p : LpPosition) : ℤ :=
  p.amountB pool.sqrtPrice + p.tokensOwedB + unaccrued p.liquidity p.feeGrowthInsideBLast
    (exactGrowthInside fees p.poolKey pool.currentTick pool.feeGrowthGlobalB p.tickLower
      p.tickUpper false)

variable {τ : Type}

/-- What a position claims of a token. -/
def claim (s : State τ) (token : Address) (p : LpPosition) : ℤ :=
  (s.pools.lookup p.poolKey).elim 0 fun pool =>
    (if pool.tokenA = token then claimA s.tickFees pool p else 0) +
      (if pool.tokenB = token then claimB s.tickFees pool p else 0)

/-- The reserve of a pool in a token. -/
def reserve (token : Address) (pool : PoolState) : ℤ :=
  (if pool.tokenA = token then pool.ilReserveA else 0) +
    (if pool.tokenB = token then pool.ilReserveB else 0)

/-- What the contract owes: the claims of the positions and the reserves of the pools. -/
def liabilities (s : State τ) (token : Address) : ℤ :=
  s.positions.total (fun _ p => claim s token p) + s.pools.total (fun _ pool => reserve token pool)

/-- The contract owns what it owes, of every token. -/
def Solvent (s : State (Balances Address Address)) : Prop :=
  ∀ token, liabilities s token ≤ s.tokens.balance token s.contractAddress

/-- The owners of the positions `ids` collect their fees and remove their liquidity, one after
another. -/
def exitCalls (s : State τ) (ids : List ℕ) : List Call :=
  ids.flatMap fun id => (s.positions.lookup id).elim [] fun p =>
    [.collectFees p.owner id, .removeLiquidity p.owner id p.liquidity 0 0]

/-- The owners of positions can withdraw all there is: in whatever order they do, every call
commits. -/
def CanExit (s : State (Balances Address Address)) : Prop :=
  ∀ (now : ℕ) (ids : List ℕ), ids.Nodup → (∀ id ∈ ids, (s.positions.lookup id).isSome) →
    ((contract (Balances Address Address)).play ⟨now, s⟩
      ((exitCalls s ids).map fun call => (now, call))).2.map (·.call) = exitCalls s ids

/-! ## Funded calls -/

/-- A swap that moves the price towards `target` in a way that the contract can afford. -/
structure Affordable (s : State (Balances Address Address)) (poolKey : PoolKey) (pool : PoolState)
    (target after : ℤ) : Prop where
  /-- No bound of a position of the pool is crossed. -/
  apart : ∀ id p, s.positions.lookup id = some p → p.poolKey = poolKey →
    (p.tickLower ≤ pool.currentTick ↔ p.tickLower ≤ sqrtPriceToTick target) ∧
      (p.tickUpper ≤ pool.currentTick ↔ p.tickUpper ≤ sqrtPriceToTick target)
  /-- No product of the amounts of a position saturates at the target. -/
  unsaturated : ∀ id p, s.positions.lookup id = some p → p.poolKey = poolKey →
    Unsaturated p.liquidity p.sqrtLower p.sqrtUpper (clampPrice p.sqrtLower p.sqrtUpper target)
  /-- The first product of the step does not saturate. -/
  product : pool.liquidity * |target - pool.sqrtPrice| ≤ i128Max
  /-- A sale pays for the whole step, whose second product does not saturate. -/
  down : target < pool.sqrtPrice →
    pool.liquidity * (pool.sqrtPrice - target) / pool.sqrtPrice * Q64 ≤ i128Max ∧
      pool.liquidity * (pool.sqrtPrice - target) / pool.sqrtPrice * Q64 / target ≤ after
  /-- What the contract owns beyond its liabilities covers the rounding of the step. -/
  surplus : ∀ token, token = poolKey.tokenA ∨ token = poolKey.tokenB →
    liabilities s token + 3 * (rangeCount s.positions poolKey pool.currentTick + 1) ≤
      s.tokens.balance token s.contractAddress

/-- A swap in a pool that is funded: its price is on the table, its fee is too small to be
credited, and it leaves the price where it is or is affordable. -/
def FundedSwap (s : State (Balances Address Address)) (poolKey : PoolKey) (zeroForOne : Bool)
    (amountIn : ℤ) (pool : PoolState) : Prop :=
  OnTable pool.sqrtPrice ∧ swapFee pool amountIn * Q64 < pool.liquidity ∧
    (Still pool (targetPrice pool zeroForOne) (netInput pool amountIn) ∨
      Affordable s poolKey pool (targetPrice pool zeroForOne) (netInput pool amountIn))

/-- A call that credits nothing without a transfer. -/
def Funded (s : State (Balances Address Address)) : Call → Prop
  | .addLiquidity _ tokenA tokenB tickLower tickUpper _ _ _ _ =>
    ∀ pool, s.pools.lookup ⟨tokenA, tokenB⟩ = some pool →
      |ilBpsAt tickLower tickUpper pool.sqrtPrice| < hedgeThresholdBps
  | .swap _ tokenIn tokenOut amountIn _ =>
    ∀ pool, s.pools.lookup (orderTokens tokenIn tokenOut).1 = some pool →
      FundedSwap s (orderTokens tokenIn tokenOut).1 (orderTokens tokenIn tokenOut).2 amountIn pool
  | _ => True

/-- A new pool has its tokens in order. -/
def Ordered : Call → Prop
  | .createPool _ tokenA tokenB _ _ => tokenA < tokenB
  | _ => True

/-! ## The books -/

/-- The price of a pool. -/
def spot (pools : Store PoolKey PoolState) (poolKey : PoolKey) : Option ℤ :=
  (pools.lookup poolKey).map (·.sqrtPrice)

/-- What the liquidity of a position stands for, of a token, at a price. -/
def heldAt (token : Address) (p : LpPosition) (price : ℤ) : ℤ :=
  (if p.poolKey.tokenA = token then p.amountA price else 0) +
    (if p.poolKey.tokenB = token then p.amountB price else 0)

/-- What the liquidity of a position stands for, of a token. -/
def held (prices : PoolKey → Option ℤ) (token : Address) (p : LpPosition) : ℤ :=
  (prices p.poolKey).elim 0 (heldAt token p)

/-- What the liquidity of all positions stands for, of a token. -/
def holdings (prices : PoolKey → Option ℤ) (positions : Store ℕ LpPosition) (token : Address) : ℤ :=
  positions.total fun _ p => held prices token p

/-- A pool to which neither fees nor a reserve were credited. -/
structure CleanPool (poolKey : PoolKey) (pool : PoolState) : Prop where
  tokenA : pool.tokenA = poolKey.tokenA
  tokenB : pool.tokenB = poolKey.tokenB
  ordered : poolKey.tokenA < poolKey.tokenB
  currentTick : pool.currentTick = sqrtPriceToTick pool.sqrtPrice
  growthA : pool.feeGrowthGlobalA = 0
  growthB : pool.feeGrowthGlobalB = 0
  reserveA : pool.ilReserveA = 0
  reserveB : pool.ilReserveB = 0
  liquidity_le : pool.liquidity ≤ i128Max
  active : 0 ≤ pool.activeLiquidity ∧ pool.activeLiquidity ≤ i128Max

/-- A position to which no fees were credited, in a pool of which `prices` has the price. -/
structure CleanPosition (c : Address) (prices : PoolKey → Option ℤ) (id : ℕ) (p : LpPosition) :
    Prop where
  id_eq : p.id = id
  owner : p.owner ≠ c
  liquidity_pos : 0 < p.liquidity
  liquidity_le : p.liquidity ≤ i128Max
  tickLower : minTick ≤ p.tickLower
  ticks : p.tickLower < p.tickUpper
  tickUpper : p.tickUpper ≤ maxTick
  growthA : p.feeGrowthInsideALast = 0
  growthB : p.feeGrowthInsideBLast = 0
  owedA : p.tokensOwedA = 0
  owedB : p.tokensOwedB = 0
  price : ∃ price, prices p.poolKey = some price ∧
    Unsaturated p.liquidity p.sqrtLower p.sqrtUpper (clampPrice p.sqrtLower p.sqrtUpper price)

/-- Nothing was credited to the pools and the positions of the contract `c`. -/
structure Books (c : Address) (fees : TickFees) (pools : Store PoolKey PoolState)
    (positionCount : ℕ) (positions : Store ℕ LpPosition) : Prop where
  outside : ∀ poolKey tick isA, readTickFeeOutside fees poolKey tick isA = 0
  pool : ∀ poolKey pool, pools.lookup poolKey = some pool → CleanPool poolKey pool
  liquidity : ∀ poolKey pool, pools.lookup poolKey = some pool →
    pool.liquidity = rangeLiquidity positions poolKey pool.currentTick
  position : ∀ id p, positions.lookup id = some p → CleanPosition c (spot pools) id p
  fresh : ∀ id, positionCount < id → positions.lookup id = none

section Prices

variable {pools : Store PoolKey PoolState} {poolKey : PoolKey} {pool pool' : PoolState}

theorem spot_of_lookup (h : pools.lookup poolKey = some pool) :
    spot pools poolKey = some pool.sqrtPrice := by
  rw [spot, h, Option.map_some]

/-- Only a price that is written changes. -/
theorem spot_insert (key : PoolKey) :
    spot (pools.insert poolKey pool') key =
      if key = poolKey then some pool'.sqrtPrice else spot pools key := by
  rw [spot, Store.lookup_insert_ite]
  split <;> rfl

/-- A write that leaves the price of a pool leaves all prices. -/
theorem spot_insert_of_eq (h : pools.lookup poolKey = some pool)
    (hprice : pool'.sqrtPrice = pool.sqrtPrice) : spot (pools.insert poolKey pool') = spot pools := by
  ext1 key
  rw [spot_insert]
  split
  · rename_i hkey
    rw [hkey, hprice, spot_of_lookup h]
  · rfl

end Prices

namespace CleanPosition

variable {c : Address} {prices prices' : PoolKey → Option ℤ} {id : ℕ} {p : LpPosition} {price : ℤ}

theorem sqrtLower_pos (h : CleanPosition c prices id p) : 0 < p.sqrtLower :=
  sqrtPriceAt_pos h.tickLower

theorem sqrtUpper_pos (h : CleanPosition c prices id p) : 0 < p.sqrtUpper :=
  sqrtPriceAt_pos (h.tickLower.trans h.ticks.le)

theorem unsaturated (h : CleanPosition c prices id p) (hprice : prices p.poolKey = some price) :
    Unsaturated p.liquidity p.sqrtLower p.sqrtUpper (clampPrice p.sqrtLower p.sqrtUpper price) := by
  obtain ⟨price', hprice', hsat⟩ := h.price
  obtain rfl := Option.some.inj (hprice.symm.trans hprice')
  exact hsat

theorem amountA_nonneg (h : CleanPosition c prices id p) (hprice : prices p.poolKey = some price) :
    0 ≤ p.amountA price :=
  Amm.amountA_nonneg (h.unsaturated hprice) h.sqrtLower_pos h.sqrtUpper_pos h.liquidity_pos.le

theorem amountB_nonneg (h : CleanPosition c prices id p) (price : ℤ) : 0 ≤ p.amountB price :=
  Amm.amountB_nonneg h.liquidity_pos.le

theorem heldAt_nonneg (h : CleanPosition c prices id p) (hprice : prices p.poolKey = some price)
    (token : Address) : 0 ≤ heldAt token p price := by
  have hA := h.amountA_nonneg hprice
  have hB := h.amountB_nonneg price
  unfold heldAt
  split <;> split <;> omega

theorem held_eq (hprice : prices p.poolKey = some price) (token : Address) :
    held prices token p = heldAt token p price := by
  rw [held, hprice, Option.elim_some]

theorem held_nonneg (h : CleanPosition c prices id p) (token : Address) :
    0 ≤ held prices token p := by
  obtain ⟨price, hprice, -⟩ := h.price
  rw [held_eq hprice]
  exact h.heldAt_nonneg hprice token

/-- A position stays clean when its own price stays. -/
theorem congr (h : CleanPosition c prices id p) (heq : prices' p.poolKey = prices p.poolKey) :
    CleanPosition c prices' id p :=
  { h with price := heq.symm ▸ h.price }

/-- A part of the liquidity of a clean position makes a clean position. -/
theorem shrink (h : CleanPosition c prices id p) {liquidity : ℤ} (hpos : 0 < liquidity)
    (hle : liquidity ≤ p.liquidity) :
    CleanPosition c prices id (p.withLiquidity liquidity) := by
  obtain ⟨price, hprice, hsat⟩ := h.price
  exact { h with
    liquidity_pos := hpos
    liquidity_le := hle.trans h.liquidity_le
    price := ⟨price, hprice, hsat.mono h.sqrtUpper_pos hle⟩ }

end CleanPosition

namespace Books

variable {c : Address} {fees : TickFees} {pools : Store PoolKey PoolState} {positionCount : ℕ}
  {positions : Store ℕ LpPosition} {poolKey : PoolKey} {pool pool' : PoolState} {id : ℕ}
  {p : LpPosition}

theorem exists_pool (h : Books c fees pools positionCount positions)
    (hp : positions.lookup id = some p) : ∃ pool, pools.lookup p.poolKey = some pool := by
  obtain ⟨price, hprice, -⟩ := (h.position id p hp).price
  obtain ⟨pool, hpool, -⟩ := Option.map_eq_some_iff.mp hprice
  exact ⟨pool, hpool⟩

/-- What the liquidity of one position stands for is a part of the holdings. -/
theorem held_le_holdings (h : Books c fees pools positionCount positions)
    (hp : positions.lookup id = some p) (token : Address) :
    held (spot pools) token p ≤ holdings (spot pools) positions token :=
  -- no position stands for less than nothing
  Store.le_total (f := fun _ p => held (spot pools) token p)
    (fun id' p' hp' => (h.position id' p' hp').held_nonneg token) hp

/-- The liquidity of one position in range is a part of that of its pool. -/
theorem liquidity_le (h : Books c fees pools positionCount positions)
    (hp : positions.lookup id = some p) (hpool : pools.lookup poolKey = some pool)
    (hin : InRange poolKey pool.currentTick p) : p.liquidity ≤ pool.liquidity := by
  have hle := Store.le_total
    (f := fun _ p => if InRange poolKey pool.currentTick p then p.liquidity else 0)
    (fun id' p' hp' => by
      split
      · exact (h.position id' p' hp').liquidity_pos.le
      · exact le_rfl) hp
  rw [if_pos hin] at hle
  rwa [h.liquidity poolKey pool hpool]

/-- A new pool has no positions. -/
theorem addPool (h : Books c fees pools positionCount positions)
    (hnone : pools.lookup poolKey = none) (hpool : CleanPool poolKey pool)
    (hzero : pool.liquidity = 0) :
    Books c fees (pools.insert poolKey pool) positionCount positions ∧
      ∀ token, holdings (spot (pools.insert poolKey pool)) positions token =
        holdings (spot pools) positions token := by
  -- the pool of every position is another one
  have hother : ∀ id p, positions.lookup id = some p → p.poolKey ≠ poolKey := by
    rintro id p hp rfl
    obtain ⟨pool', hpool'⟩ := h.exists_pool hp
    rw [hnone] at hpool'
    cases hpool'
  have hspot : ∀ id p, positions.lookup id = some p →
      spot (pools.insert poolKey pool) p.poolKey = spot pools p.poolKey := fun id p hp => by
    rw [spot_insert, if_neg (hother id p hp)]
  refine ⟨⟨h.outside, ?_, ?_, fun id p hp => (h.position id p hp).congr (hspot id p hp), h.fresh⟩,
    fun token => Store.total_congr fun id p hp => by rw [held, held, hspot id p hp]⟩
  · intro key pool' hlookup
    rcases Store.eq_or_lookup_of_insert hlookup with ⟨rfl, rfl⟩ | ⟨-, hold⟩
    · exact hpool
    · exact h.pool key pool' hold
  · intro key pool' hlookup
    rcases Store.eq_or_lookup_of_insert hlookup with ⟨rfl, rfl⟩ | ⟨-, hold⟩
    · rw [hzero, rangeLiquidity, Store.total_congr (g := fun _ _ => 0)
        fun id p hp => if_neg fun hin => hother id p hp hin.1]
      simp [Store.total]
    · exact h.liquidity key pool' hold

/-- A write of a pool that leaves its price, together with one of positions. -/
theorem update (h : Books c fees pools positionCount positions)
    (hpool : pools.lookup poolKey = some pool) (hclean : CleanPool poolKey pool')
    (hprice : pool'.sqrtPrice = pool.sqrtPrice) {positions' : Store ℕ LpPosition}
    {positionCount' : ℕ}
    (hposition : ∀ id p, positions'.lookup id = some p → CleanPosition c (spot pools) id p)
    (hfresh : ∀ id, positionCount' < id → positions'.lookup id = none)
    (hliquidity : pool'.liquidity = rangeLiquidity positions' poolKey pool.currentTick)
    (hother : ∀ key tick, key ≠ poolKey →
      rangeLiquidity positions' key tick = rangeLiquidity positions key tick) :
    Books c fees (pools.insert poolKey pool') positionCount' positions' := by
  refine ⟨h.outside, ?_, ?_, ?_, hfresh⟩
  · intro key pool'' hlookup
    rcases Store.eq_or_lookup_of_insert hlookup with ⟨rfl, rfl⟩ | ⟨-, hold⟩
    · exact hclean
    · exact h.pool key pool'' hold
  · intro key pool'' hlookup
    rcases Store.eq_or_lookup_of_insert hlookup with ⟨rfl, rfl⟩ | ⟨hne, hold⟩
    · -- the price stays, so the tick does, and the sum is over the same range
      rw [hclean.currentTick, hprice, ← (h.pool _ _ hpool).currentTick, hliquidity]
    · rw [hother key _ hne, h.liquidity key pool'' hold]
  · rw [spot_insert_of_eq hpool hprice]
    exact hposition

/-- A new position is stored, and its pool counts its liquidity. -/
theorem mint (h : Books c fees pools positionCount positions)
    (hpool : pools.lookup poolKey = some pool) (hclean : CleanPool poolKey pool')
    (hprice : pool'.sqrtPrice = pool.sqrtPrice) {p : LpPosition} (hkey : p.poolKey = poolKey)
    (hp : CleanPosition c (spot pools) (positionCount + 1) p)
    (hliquidity : pool'.liquidity =
      if p.Covers pool.currentTick then pool.liquidity + p.liquidity else pool.liquidity) :
    Books c fees (pools.insert poolKey pool') (positionCount + 1)
      (positions.insert (positionCount + 1) p) := by
  have hnew : positions.lookup (positionCount + 1) = none := h.fresh _ (by omega)
  refine h.update hpool hclean hprice (fun id q hq => ?_) (fun id hlt => ?_) ?_
    fun key tick hne => ?_
  · rcases Store.eq_or_lookup_of_insert hq with ⟨rfl, rfl⟩ | ⟨-, hold⟩
    · exact hp
    · exact h.position id q hold
  · rw [Store.lookup_insert_ite, if_neg (by omega)]
    exact h.fresh id (by omega)
  · rw [hliquidity, rangeLiquidity_insert_new hnew, h.liquidity _ _ hpool]
    -- the pool counts the new position just when it is in range
    by_cases hcovers : p.Covers pool.currentTick
    · rw [if_pos hcovers, if_pos ⟨hkey, hcovers⟩, add_comm]
    · rw [if_neg hcovers, if_neg fun hin => hcovers hin.2, zero_add]
  · rw [rangeLiquidity_insert_new hnew, if_neg fun hin => hne (hin.1.symm.trans hkey), zero_add]

end Books

/-! ## Price moves -/

/-- The tick that a position starts at, or ends at, is on the same side of both prices. -/
def Apart (price price' : ℤ) (p : LpPosition) : Prop :=
  (p.tickLower ≤ sqrtPriceToTick price ↔ p.tickLower ≤ sqrtPriceToTick price') ∧
    (p.tickUpper ≤ sqrtPriceToTick price ↔ p.tickUpper ≤ sqrtPriceToTick price')

namespace CleanPosition

variable {c : Address} {prices : PoolKey → Option ℤ} {id : ℕ} {p : LpPosition} {price price' : ℤ}

/-- A position in range has the price between its own. -/
theorem mem_range (h : CleanPosition c prices id p) (hprice : OnTable price)
    (hl : p.tickLower ≤ sqrtPriceToTick price) (hu : sqrtPriceToTick price < p.tickUpper) :
    p.sqrtLower ≤ price ∧ price ≤ p.sqrtUpper :=
  -- the bounds of the range are prices of ticks, and the tick of the price is between them
  have hticks := h.ticks
  have hupper := h.tickUpper
  ⟨sqrtPriceAt_le hprice h.tickLower hl (by omega),
    le_sqrtPriceAt hprice (h.tickLower.trans h.ticks.le) hu h.tickUpper⟩

/-- A position in range has the next price between its own, too. -/
theorem mem_range_of_apart (h : CleanPosition c prices id p) (hprice' : OnTable price')
    (hapart : Apart price price' p) (hl : p.tickLower ≤ sqrtPriceToTick price)
    (hu : sqrtPriceToTick price < p.tickUpper) : p.sqrtLower ≤ price' ∧ price' ≤ p.sqrtUpper := by
  refine h.mem_range hprice' (hapart.1.mp hl) ?_
  by_contra hout
  exact absurd (hapart.2.mpr (not_lt.mp hout)) (not_le.mpr hu)

/-- Out of range, the price does not matter. -/
theorem clampPrice_eq (h : CleanPosition c prices id p) (hprice : OnTable price)
    (hprice' : OnTable price') (hapart : Apart price price' p)
    (hout : ¬ (p.tickLower ≤ sqrtPriceToTick price ∧ sqrtPriceToTick price < p.tickUpper)) :
    clampPrice p.sqrtLower p.sqrtUpper price' = clampPrice p.sqrtLower p.sqrtUpper price := by
  have hticks := h.ticks
  have hupper := h.tickUpper
  by_cases hl : p.tickLower ≤ sqrtPriceToTick price
  · -- the range is below both prices
    have hu : p.tickUpper ≤ sqrtPriceToTick price := not_lt.mp fun hlt => hout ⟨hl, hlt⟩
    have hmin := h.tickLower.trans h.ticks.le
    have h₁ : p.sqrtUpper ≤ price := sqrtPriceAt_le hprice hmin hu h.tickUpper
    have h₂ : p.sqrtUpper ≤ price' :=
      sqrtPriceAt_le hprice' hmin (hapart.2.mp hu) h.tickUpper
    unfold clampPrice
    omega
  · -- the range is above both prices
    have hl' : ¬ p.tickLower ≤ sqrtPriceToTick price' := fun hle => hl (hapart.1.mpr hle)
    have h₁ : price ≤ p.sqrtLower :=
      le_sqrtPriceAt hprice h.tickLower (not_le.mp hl) (by omega)
    have h₂ : price' ≤ p.sqrtLower :=
      le_sqrtPriceAt hprice' h.tickLower (not_le.mp hl') (by omega)
    unfold clampPrice
    omega

/-- How the amount of token a of a position follows the price of its pool. -/
theorem amountA_move (h : CleanPosition c prices id p) (hread : prices p.poolKey = some price)
    (hprice : OnTable price) (hprice' : OnTable price') (hapart : Apart price price' p)
    (hsat : Unsaturated p.liquidity p.sqrtLower p.sqrtUpper
      (clampPrice p.sqrtLower p.sqrtUpper price')) :
    price * price' * (p.amountA price' - p.amountA price) ≤
      if InRange p.poolKey (sqrtPriceToTick price) p then
        3 * (price * price') + Q64 * (price - price') * p.liquidity
      else 0 := by
  split
  · rename_i hin
    obtain ⟨hl, hu⟩ := h.mem_range hprice hin.2.1 hin.2.2
    obtain ⟨hl', hu'⟩ := h.mem_range_of_apart hprice' hapart hin.2.1 hin.2.2
    have hunsat := h.unsaturated hread
    rw [clampPrice_of_mem hl hu] at hunsat
    rw [clampPrice_of_mem hl' hu'] at hsat
    have hmove := Amm.amountA_move hunsat hsat h.liquidity_pos.le h.sqrtLower_pos hl hu hl' hu'
      hprice.Q64_le hprice'.Q64_le
    unfold LpPosition.amountA
    linarith
  · rename_i hin
    -- out of range the amount does not depend on the price
    have hclamp := h.clampPrice_eq hprice hprice' hapart fun hout => hin ⟨rfl, hout⟩
    simp only [LpPosition.amountA, Amm.amountA, hclamp, Int.sub_self, Int.mul_zero, le_refl]

/-- How the amount of token b of a position follows the price of its pool. -/
theorem amountB_move (h : CleanPosition c prices id p) (hprice : OnTable price)
    (hprice' : OnTable price') (hapart : Apart price price' p) :
    Q64 * (p.amountB price' - p.amountB price) ≤
      if InRange p.poolKey (sqrtPriceToTick price) p then
        Q64 + (price' - price) * p.liquidity
      else 0 := by
  split
  · rename_i hin
    obtain ⟨hl, hu⟩ := h.mem_range hprice hin.2.1 hin.2.2
    obtain ⟨hl', hu'⟩ := h.mem_range_of_apart hprice' hapart hin.2.1 hin.2.2
    have hmove := Amm.amountB_move h.liquidity_pos.le hl hu hl' hu'
    unfold LpPosition.amountB
    linarith
  · rename_i hin
    -- out of range the amount does not depend on the price
    have hclamp := h.clampPrice_eq hprice hprice' hapart fun hout => hin ⟨rfl, hout⟩
    simp only [LpPosition.amountB, Amm.amountB, hclamp, Int.sub_self, Int.mul_zero, le_refl]

end CleanPosition

namespace Books

variable {c : Address} {fees fees' : TickFees} {pools : Store PoolKey PoolState}
  {positionCount : ℕ} {positions : Store ℕ LpPosition} {poolKey : PoolKey} {pool pool' : PoolState}

/-- A pool moves its price while its positions stay in or out of range. -/
theorem move (h : Books c fees pools positionCount positions)
    (hpool : pools.lookup poolKey = some pool) (hclean : CleanPool poolKey pool')
    (hliquidity : pool'.liquidity = pool.liquidity)
    (hfees : ∀ key tick isA, readTickFeeOutside fees' key tick isA = 0)
    (hapart : ∀ id p, positions.lookup id = some p → p.poolKey = poolKey →
      Apart pool.sqrtPrice pool'.sqrtPrice p)
    (hsat : ∀ id p, positions.lookup id = some p → p.poolKey = poolKey →
      Unsaturated p.liquidity p.sqrtLower p.sqrtUpper
        (clampPrice p.sqrtLower p.sqrtUpper pool'.sqrtPrice)) :
    Books c fees' (pools.insert poolKey pool') positionCount positions := by
  refine ⟨hfees, ?_, ?_, ?_, h.fresh⟩
  · intro key pool'' hlookup
    rcases Store.eq_or_lookup_of_insert hlookup with ⟨rfl, rfl⟩ | ⟨-, hold⟩
    · exact hclean
    · exact h.pool key pool'' hold
  · intro key pool'' hlookup
    rcases Store.eq_or_lookup_of_insert hlookup with ⟨rfl, rfl⟩ | ⟨-, hold⟩
    · rw [hliquidity, h.liquidity _ _ hpool, hclean.currentTick, (h.pool _ _ hpool).currentTick]
      refine Store.total_congr fun id p hp => ?_
      -- the position is in range at both ticks or at none
      have hiff : InRange key (sqrtPriceToTick pool.sqrtPrice) p ↔
          InRange key (sqrtPriceToTick pool''.sqrtPrice) p :=
        and_congr_right fun hkey => and_congr (hapart id p hp hkey).1 <|
          not_le.symm.trans <| (not_congr (hapart id p hp hkey).2).trans not_le
      simp only [hiff]
    · exact h.liquidity key pool'' hold
  · intro id p hp
    -- only the positions of this pool see another price
    by_cases hkey : p.poolKey = poolKey
    · refine { h.position id p hp with price := ⟨pool'.sqrtPrice, ?_, hsat id p hp hkey⟩ }
      rw [spot_insert, if_pos hkey]
    · refine (h.position id p hp).congr ?_
      rw [spot_insert, if_neg hkey]

/-- When a position in range grows by a slope in its liquidity and an error, up to a scale, and the
others do not grow, the positions of a pool grow by the slope in the liquidity of the pool and the
errors. -/
theorem total_move_le (h : Books c fees pools positionCount positions)
    (hpool : pools.lookup poolKey = some pool) {growth : LpPosition → ℤ}
    {scale error slope gain : ℤ} (hscale : 0 < scale)
    (hgrowth : ∀ id p, positions.lookup id = some p → p.poolKey = poolKey →
      scale * growth p ≤ if InRange poolKey pool.currentTick p then
        error * scale + slope * p.liquidity else 0)
    (hgain : slope * pool.liquidity ≤ (gain + error) * scale) :
    positions.total (fun _ p => if p.poolKey = poolKey then growth p else 0) ≤
      gain + error * (rangeCount positions poolKey pool.currentTick + 1) := by
  -- the bound of one position, and zero for those of other pools and out of range
  have hterm : ∀ id p, positions.lookup id = some p →
      scale * (if p.poolKey = poolKey then growth p else 0) ≤
      error * scale * (if InRange poolKey pool.currentTick p then 1 else 0) +
        slope * (if InRange poolKey pool.currentTick p then p.liquidity else 0) := by
    intro id p hp
    by_cases hkey : p.poolKey = poolKey
    · have hle := hgrowth id p hp hkey
      rw [if_pos hkey]
      split at hle
      · rename_i hin
        simpa [hin] using hle
      · rename_i hin
        simpa [hin] using hle
    · have hout : ¬ InRange poolKey pool.currentTick p := fun hin => hkey hin.1
      simp [hkey, hout]
  -- in the sum the liquidity of the positions in range is that of the pool
  have hsum := Store.total_le_total hterm
  rw [Store.total_add, Store.total_mul_left, Store.total_mul_left, Store.total_mul_left] at hsum
  change _ ≤ _ * rangeCount positions poolKey pool.currentTick +
    _ * rangeLiquidity positions poolKey pool.currentTick at hsum
  rw [← h.liquidity poolKey pool hpool] at hsum
  refine Int.le_of_mul_le_mul_left ?_ hscale
  linarith

/-- What the amounts of token a grow by, when the price of a pool moves. -/
theorem total_amountA_le (h : Books c fees pools positionCount positions)
    (hpool : pools.lookup poolKey = some pool) {price' gain : ℤ}
    (hprice : OnTable pool.sqrtPrice) (hprice' : OnTable price')
    (hapart : ∀ id p, positions.lookup id = some p → p.poolKey = poolKey →
      Apart pool.sqrtPrice price' p)
    (hsat : ∀ id p, positions.lookup id = some p → p.poolKey = poolKey →
      Unsaturated p.liquidity p.sqrtLower p.sqrtUpper (clampPrice p.sqrtLower p.sqrtUpper price'))
    (hgain : pool.liquidity * (pool.sqrtPrice - price') * Q64 ≤
      (gain + 3) * (pool.sqrtPrice * price')) :
    positions.total (fun _ p => if p.poolKey = poolKey then
      p.amountA price' - p.amountA pool.sqrtPrice else 0) ≤
        gain + 3 * (rangeCount positions poolKey pool.currentTick + 1) := by
  have hslope : Q64 * (pool.sqrtPrice - price') * pool.liquidity ≤
      (gain + 3) * (pool.sqrtPrice * price') := by linarith
  refine h.total_move_le hpool (Int.mul_pos hprice.pos hprice'.pos) ?_ hslope
  rintro id p hp rfl
  have hmove := (h.position id p hp).amountA_move (spot_of_lookup hpool) hprice hprice'
    (hapart id p hp rfl) (hsat id p hp rfl)
  rwa [← (h.pool _ _ hpool).currentTick] at hmove

/-- What the amounts of token b grow by, when the price of a pool moves. -/
theorem total_amountB_le (h : Books c fees pools positionCount positions)
    (hpool : pools.lookup poolKey = some pool) {price' gain : ℤ}
    (hprice : OnTable pool.sqrtPrice) (hprice' : OnTable price')
    (hapart : ∀ id p, positions.lookup id = some p → p.poolKey = poolKey →
      Apart pool.sqrtPrice price' p)
    (hgain : pool.liquidity * (price' - pool.sqrtPrice) ≤ (gain + 1) * Q64) :
    positions.total (fun _ p => if p.poolKey = poolKey then
      p.amountB price' - p.amountB pool.sqrtPrice else 0) ≤
        gain + (rangeCount positions poolKey pool.currentTick + 1) := by
  have hslope : (price' - pool.sqrtPrice) * pool.liquidity ≤ (gain + 1) * Q64 := by linarith
  have hmove : ∀ id p, positions.lookup id = some p → p.poolKey = poolKey →
      Q64 * (p.amountB price' - p.amountB pool.sqrtPrice) ≤
        if InRange poolKey pool.currentTick p then
          1 * Q64 + (price' - pool.sqrtPrice) * p.liquidity else 0 := by
    rintro id p hp rfl
    have hposition := (h.position id p hp).amountB_move hprice hprice' (hapart id p hp rfl)
    rw [← (h.pool _ _ hpool).currentTick] at hposition
    rwa [Int.one_mul]
  have hsum := h.total_move_le hpool Q64_pos hmove hslope
  rwa [Int.one_mul] at hsum

/-- The holdings change by the amounts of the positions of the pool that moves. -/
theorem holdings_move (hpool : pools.lookup poolKey = some pool) (token : Address) :
    holdings (spot (pools.insert poolKey pool')) positions token =
      holdings (spot pools) positions token +
        (if poolKey.tokenA = token then positions.total (fun _ p => if p.poolKey = poolKey then
          p.amountA pool'.sqrtPrice - p.amountA pool.sqrtPrice else 0) else 0) +
        (if poolKey.tokenB = token then positions.total (fun _ p => if p.poolKey = poolKey then
          p.amountB pool'.sqrtPrice - p.amountB pool.sqrtPrice else 0) else 0) := by
  rw [← Store.total_ite, ← Store.total_ite, holdings, holdings, ← Store.total_add,
    ← Store.total_add]
  refine Store.total_congr fun id p hp => ?_
  -- term by term: positions of other pools keep their price
  by_cases hkey : p.poolKey = poolKey
  · subst hkey
    have hspot : spot (pools.insert p.poolKey pool') p.poolKey = some pool'.sqrtPrice := by
      rw [spot_insert, if_pos rfl]
    rw [CleanPosition.held_eq (spot_of_lookup hpool), CleanPosition.held_eq hspot]
    unfold heldAt
    simp only [if_pos]
    split <;> split <;> omega
  · simp only [held, spot_insert, if_neg hkey, ite_self, Int.add_zero]

end Books

end Stellara.Amm
