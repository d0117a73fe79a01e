import Stellara.Host.Soroban

/-!
# Pool state, tick math and swap math

A position provides liquidity between two ticks. Prices are square roots in fixed point with
64 fractional bits, and the price of a tick is interpolated in a table. Divisions truncate, and
some products saturate.

## Main definitions

* `PoolState`, `LpPosition`: a pool, and a position in it
* `tickToSqrtPrice`, `sqrtPriceToTick`: the price of a tick, and the tick of a price
* `amountsForLiquidity`, `liquidityFromAmounts`: the tokens of a liquidity, and conversely
* `computeSwapStep`: one step of a swap
* `feeGrowthInside`, `crossTick`: the fee growth within a range of ticks

## Main results

* `sqrtPriceAt_pos`: the prices of ticks are positive
* `amountA_add_le`, `amountB_add_le`: the amounts of two parts of a liquidity are at most those
  of the whole
* `liquidityFromAmounts_unsaturated`: no product saturates for a liquidity that is computed
  from amounts
-/

namespace Stellara.Amm

/-! ## Data types -/

structure PoolKey where
  tokenA : Address
  tokenB : Address
deriving DecidableEq, Repr

structure PoolState where
  tokenA : Address
  tokenB : Address
  sqrtPrice : ℤ
  currentTick : ℤ
  liquidity : ℤ
  feeTier : ℕ
  dynamicFeeBps : ℕ
  feeGrowthGlobalA : ℤ
  feeGrowthGlobalB : ℤ
  totalVolume : ℤ
  activeLiquidity : ℤ
  ilReserveA : ℤ
  ilReserveB : ℤ
deriving DecidableEq, Repr

structure LpPosition where
  id : ℕ
  owner : Address
  poolKey : PoolKey
  tickLower : ℤ
  tickUpper : ℤ
  liquidity : ℤ
  feeGrowthInsideALast : ℤ
  feeGrowthInsideBLast : ℤ
  tokensOwedA : ℤ
  tokensOwedB : ℤ
  createdAt : ℕ
deriving DecidableEq, Repr

inductive AmmError where
  | notInitialized
  | poolAlreadyExists
  | poolNotFound
  | invalidTickRange
  | insufficientLiquidity
  | invalidAmount
  | unauthorized
  | paused
  | invalidFeeTier
  | positionNotFound
  | slippageExceeded
deriving DecidableEq, Repr

/-! ## Constants -/

/-- Scaling factor for fixed-point arithmetic with 64 fractional bits. -/
def Q64 : ℤ := 18446744073709551616

/-- The greatest signed integer of 128 bits. -/
def i128Max : ℤ := IntFormat.i128.hi

def minTick : ℤ := -8192

def maxTick : ℤ := 8192

/-- The ticks `-8192`, `-7680`, …, `8192`, with their square root prices. -/
def tickSqrtTable : List (ℤ × ℤ) :=
  [(-8192, 12247334978884438016), (-7680, 12564898345393909760), (-7168, 12890695869940434944),
    (-6656, 13224941057498855424), (-6144, 13567852949053179904), (-5632, 13919656265140750336),
    (-5120, 14280581553118414848), (-4608, 14650865338247188480), (-4096, 15030750278694412288),
    (-3584, 15420485324554993664), (-3072, 15820325880995923968), (-2560, 16230533975631024128),
    (-2048, 16651378430235568128), (-1536, 17083135036913317888), (-1024, 17526086738831433728),
    (-512, 17980523815641698304), (0, 18446744073709551616), (512, 18925053041275609088),
    (1024, 19415764168677568512), (1536, 19919199033763692544), (2048, 20435687552632508416),
    (2560, 20965568195836801024), (3072, 21509188210193616896), (3584, 22066903846345601024),
    (4096, 22639080592222822400), (4608, 23226093412558073856), (5120, 23828326994612617216),
    (5632, 24446176000273354752), (6144, 25080045324686745600), (6656, 25730350361598795776),
    (7168, 26397517275575197696), (7680, 27081983281279832064), (8192, 27784196929994764288)]

def tableEntry (i : ℕ) : ℤ × ℤ := tickSqrtTable.getD i (0, 0)

/-! ## Tick and price math -/

/-- The index of the table entry at or below a tick that has another entry above it. -/
def lowerIndex (tick : ℤ) : ℕ :=
  min ((tick - minTick).tdiv 512).toNat (tickSqrtTable.length - 2)

/-- Linear interpolation between the two table entries around a tick. -/
def sqrtPriceAt (tick : ℤ) : ℤ :=
  let (t₀, s₀) := tableEntry (lowerIndex tick)
  let (t₁, s₁) := tableEntry (lowerIndex tick + 1)
  s₀ + ((s₁ - s₀) * (tick - t₀)).tdiv (t₁ - t₀)

/-- The square root price of a tick. -/
def tickToSqrtPrice (tick : ℤ) : Outcome AmmError ℤ := do
  require (¬ (tick < minTick ∨ maxTick < tick)) (.error .invalidTickRange)
  .ok (sqrtPriceAt tick)

/-- The tick of a price between two neighbouring entries of a table. -/
def searchTable (sqrtPrice : ℤ) : List (ℤ × ℤ) → Option ℤ
  | (t₀, s₀) :: (t₁, s₁) :: rest =>
    if s₀ ≤ sqrtPrice ∧ sqrtPrice < s₁ then
      some (t₀ + ((sqrtPrice - s₀) * 512).tdiv (max (s₁ - s₀) 1))
    else searchTable sqrtPrice ((t₁, s₁) :: rest)
  | _ => none

/-- Recover the approximate tick from a square root price. -/
def sqrtPriceToTick (sqrtPrice : ℤ) : ℤ :=
  match searchTable sqrtPrice tickSqrtTable with
  | some tick => tick
  | none => if sqrtPrice ≤ (tableEntry 0).2 then minTick else maxTick

/-! ## Liquidity math -/

/-- The price, moved into the range of a position. -/
def clampPrice (sqrtPriceLower sqrtPriceUpper currentSqrtPrice : ℤ) : ℤ :=
  min (max currentSqrtPrice sqrtPriceLower) sqrtPriceUpper

/-- The amount of token a from the current price to the upper end of the range. -/
def amountA (liquidity sqrtPriceLower sqrtPriceUpper currentSqrtPrice : ℤ) : ℤ :=
  let sqCur := clampPrice sqrtPriceLower sqrtPriceUpper currentSqrtPrice
  if sqCur < sqrtPriceUpper then
    let step₁ := (IntFormat.i128.saturate (liquidity * (sqrtPriceUpper - sqCur))).tdiv
      (max sqrtPriceUpper 1)
    (IntFormat.i128.saturate (step₁ * Q64)).tdiv (max sqCur 1)
  else 0

/-- The amount of token b from the lower end of the range to the current price. -/
def amountB (liquidity sqrtPriceLower sqrtPriceUpper currentSqrtPrice : ℤ) : ℤ :=
  let sqCur := clampPrice sqrtPriceLower sqrtPriceUpper currentSqrtPrice
  if sqrtPriceLower < sqCur then (liquidity * (sqCur - sqrtPriceLower)).tdiv Q64 else 0

/-- The amounts of both tokens that `liquidity` units in a range stand for. -/
def amountsForLiquidity (liquidity sqrtPriceLower sqrtPriceUpper currentSqrtPrice : ℤ) :
    Outcome AmmError (ℤ × ℤ) := do
  let sqCur := clampPrice sqrtPriceLower sqrtPriceUpper currentSqrtPrice
  -- the product of token b is the only one that does not saturate
  require (sqrtPriceLower < sqCur → IntFormat.i128.Mem (liquidity * (sqCur - sqrtPriceLower)))
    .overflow
  .ok (amountA liquidity sqrtPriceLower sqrtPriceUpper currentSqrtPrice,
    amountB liquidity sqrtPriceLower sqrtPriceUpper currentSqrtPrice)

/-- The liquidity that an amount of token a provides from `sqCur` to the upper end. -/
def liquidityFromA (amountA sqrtPriceUpper sqCur : ℤ) : ℤ :=
  -- the source also tests whether the prices are equal, which this test excludes
  if sqCur < sqrtPriceUpper then
    let step₁ := (IntFormat.i128.saturate (amountA * sqrtPriceUpper)).tdiv Q64
    (IntFormat.i128.saturate (step₁ * sqCur)).tdiv (sqrtPriceUpper - sqCur)
  else i128Max

/-- The liquidity that an amount of token b provides from the lower end to `sqCur`. -/
def liquidityFromB (amountB sqrtPriceLower sqCur : ℤ) : Outcome AmmError ℤ :=
  if sqrtPriceLower < sqCur then do
    let product ← IntFormat.i128.checked .overflow (amountB * Q64)
    .ok (product.tdiv (max (sqCur - sqrtPriceLower) 1))
  else .ok i128Max

/-- The greatest liquidity that both amounts can provide. -/
def liquidityFromAmounts (amountA amountB sqrtPriceLower sqrtPriceUpper currentSqrtPrice : ℤ) :
    Outcome AmmError ℤ := do
  let sqCur := clampPrice sqrtPriceLower sqrtPriceUpper currentSqrtPrice
  let liqA := liquidityFromA amountA sqrtPriceUpper sqCur
  let liqB ← liquidityFromB amountB sqrtPriceLower sqCur
  .ok (max (min liqA liqB) 0)

/-! ## Swap math -/

/-- Result of a single swap step. -/
structure SwapStep where
  amountIn : ℤ
  amountOut : ℤ
  feePaid : ℤ
  newSqrtPrice : ℤ
deriving DecidableEq, Repr

/-- A step that lowers the price: its new price, input and output. -/
def stepDown (currentSqrtPrice targetSqrtPrice liquidity amountAfterFee : ℤ) : ℤ × ℤ × ℤ :=
  let maxIn :=
    if currentSqrtPrice = 0 ∨ targetSqrtPrice = 0 then 0
    else
      let step₁ := (IntFormat.i128.saturate
        (liquidity * (currentSqrtPrice - targetSqrtPrice))).tdiv currentSqrtPrice
      (IntFormat.i128.saturate (step₁ * Q64)).tdiv targetSqrtPrice
  let (newSqrtPrice, amountIn) :=
    if maxIn ≤ amountAfterFee then (targetSqrtPrice, maxIn)
    else
      let term := (IntFormat.i128.saturate (amountAfterFee * currentSqrtPrice)).tdiv
        (max liquidity 1)
      let den := IntFormat.i128.saturate (term + Q64)
      let newSqrtPrice := (IntFormat.i128.saturate (currentSqrtPrice * Q64)).tdiv (max den 1)
      (max newSqrtPrice targetSqrtPrice, amountAfterFee)
  (newSqrtPrice, amountIn,
    (IntFormat.i128.saturate (liquidity * (currentSqrtPrice - newSqrtPrice))).tdiv Q64)

/-- A step that raises the price: its new price, input and output. -/
def stepUp (currentSqrtPrice targetSqrtPrice liquidity amountAfterFee : ℤ) : ℤ × ℤ × ℤ :=
  let maxIn := (IntFormat.i128.saturate
    (liquidity * (targetSqrtPrice - currentSqrtPrice))).tdiv Q64
  let (newSqrtPrice, amountIn) :=
    if maxIn ≤ amountAfterFee then (targetSqrtPrice, maxIn)
    else
      let moved := (IntFormat.i128.saturate (amountAfterFee * Q64)).tdiv (max liquidity 1)
      (min (IntFormat.i128.saturate (currentSqrtPrice + moved)) targetSqrtPrice, amountAfterFee)
  (newSqrtPrice, amountIn,
    if currentSqrtPrice = 0 ∨ newSqrtPrice = 0 then 0
    else
      let step₁ := (IntFormat.i128.saturate
        (liquidity * (newSqrtPrice - currentSqrtPrice))).tdiv currentSqrtPrice
      (IntFormat.i128.saturate (step₁ * Q64)).tdiv newSqrtPrice)

/-- Execute one swap step for an exact input; the direction is that of the target price. -/
def computeSwapStep (currentSqrtPrice targetSqrtPrice liquidity amountInRemaining : ℤ)
    (feeBps : ℕ) : Outcome AmmError SwapStep := do
  let product ← IntFormat.i128.checked .overflow (amountInRemaining * feeBps)
  let feePaid := product.tdiv 10000
  let amountAfterFee := max (amountInRemaining - feePaid) 0
  let (newSqrtPrice, amountIn, amountOut) :=
    if targetSqrtPrice < currentSqrtPrice then
      stepDown currentSqrtPrice targetSqrtPrice liquidity amountAfterFee
    else stepUp currentSqrtPrice targetSqrtPrice liquidity amountAfterFee
  .ok ⟨amountIn, amountOut, feePaid, newSqrtPrice⟩

/-! ## Fee growth at ticks -/

/-- The fee growth outside a tick, by pool, tick and token: `true` stands for token a. -/
abbrev TickFees := Store (PoolKey × ℤ × Bool) ℤ

def readTickFeeOutside (fees : TickFees) (poolKey : PoolKey) (tick : ℤ) (isA : Bool) : ℤ :=
  (fees.lookup (poolKey, tick, isA)).getD 0

/-- The fee growth of one token within a range: what did not grow below or above it. -/
def growthInside (fees : TickFees) (poolKey : PoolKey) (currentTick growthGlobal : ℤ)
    (tickLower tickUpper : ℤ) (isA : Bool) : Outcome AmmError ℤ := do
  let fogLower := readTickFeeOutside fees poolKey tickLower isA
  let fogUpper := readTickFeeOutside fees poolKey tickUpper isA
  let below ← if tickLower ≤ currentTick then .ok fogLower
    else IntFormat.i128.checked .overflow (growthGlobal - fogLower)
  let above ← if currentTick < tickUpper then .ok fogUpper
    else IntFormat.i128.checked .overflow (growthGlobal - fogUpper)
  let notBelow ← IntFormat.i128.checked .overflow (growthGlobal - below)
  IntFormat.i128.checked .overflow (notBelow - above)

/-- The fee growth of both tokens within a range. -/
def feeGrowthInside (fees : TickFees) (poolKey : PoolKey) (pool : PoolState)
    (tickLower tickUpper : ℤ) : Outcome AmmError (ℤ × ℤ) := do
  let insideA ← growthInside fees poolKey pool.currentTick pool.feeGrowthGlobalA tickLower
    tickUpper true
  let insideB ← growthInside fees poolKey pool.currentTick pool.feeGrowthGlobalB tickLower
    tickUpper false
  .ok (insideA, insideB)

/-- Cross a tick: flip its fee growth outside. -/
def crossTick (fees : TickFees) (poolKey : PoolKey) (pool : PoolState) (tick : ℤ) :
    Outcome AmmError TickFees := do
  let newA ← IntFormat.i128.checked .overflow
    (pool.feeGrowthGlobalA - readTickFeeOutside fees poolKey tick true)
  let newB ← IntFormat.i128.checked .overflow
    (pool.feeGrowthGlobalB - readTickFeeOutside fees poolKey tick false)
  .ok ((fees.insert (poolKey, tick, true) newA).insert (poolKey, tick, false) newB)

/-! ## Prices of ticks -/

theorem tableEntry_fst : ∀ i < 33, (tableEntry i).1 = -8192 + 512 * i := by decide

theorem tableEntry_snd : ∀ i < 32, 0 < (tableEntry i).2 ∧
    (tableEntry i).2 < (tableEntry (i + 1)).2 := by decide

theorem lowerIndex_lt (tick : ℤ) : lowerIndex tick < 32 := by
  have : tickSqrtTable.length - 2 = 31 := rfl
  unfold lowerIndex
  omega

/-- The table entry of a tick is not above the tick. -/
theorem tableEntry_le {tick : ℤ} (h : minTick ≤ tick) : (tableEntry (lowerIndex tick)).1 ≤ tick := by
  have hnn : 0 ≤ tick - minTick := Int.sub_nonneg_of_le h
  rw [tableEntry_fst _ (by have := lowerIndex_lt tick; omega), lowerIndex,
    Int.tdiv_eq_ediv_of_nonneg hnn]
  unfold minTick at *
  omega

theorem sqrtPriceAt_pos {tick : ℤ} (h : minTick ≤ tick) : 0 < sqrtPriceAt tick := by
  have hlt := lowerIndex_lt tick
  obtain ⟨hpos, hstep⟩ := tableEntry_snd _ hlt
  have hle := tableEntry_le h
  have hfst := tableEntry_fst (lowerIndex tick) (by omega)
  have hnext := tableEntry_fst (lowerIndex tick + 1) (by omega)
  -- the interpolated part is a quotient of two non-negative numbers
  have hinterp : 0 ≤ (((tableEntry (lowerIndex tick + 1)).2 - (tableEntry (lowerIndex tick)).2) *
      (tick - (tableEntry (lowerIndex tick)).1)).tdiv
      ((tableEntry (lowerIndex tick + 1)).1 - (tableEntry (lowerIndex tick)).1) :=
    Int.tdiv_nonneg (Int.mul_nonneg (by omega) (by omega)) (by push_cast at hnext; omega)
  exact Int.add_pos_of_pos_of_nonneg hpos hinterp

theorem tickToSqrtPrice_eq_ok {tick price : ℤ} :
    tickToSqrtPrice tick = .ok price ↔
      (minTick ≤ tick ∧ tick ≤ maxTick) ∧ sqrtPriceAt tick = price := by
  simp only [tickToSqrtPrice, Except.bind_eq_ok, require_eq_ok, exists_const, Except.ok.injEq,
    not_or, not_lt]

/-! ## Rounding of amounts -/

theorem Q64_pos : 0 < Q64 := by decide

/-- No product of the amounts of a liquidity saturates or overflows at the price `sqCur`. -/
structure Unsaturated (liquidity sqrtPriceLower sqrtPriceUpper sqCur : ℤ) : Prop where
  product : sqCur < sqrtPriceUpper → liquidity * (sqrtPriceUpper - sqCur) ≤ i128Max
  scaled : sqCur < sqrtPriceUpper →
    liquidity * (sqrtPriceUpper - sqCur) / sqrtPriceUpper * Q64 ≤ i128Max
  productB : sqrtPriceLower < sqCur → liquidity * (sqCur - sqrtPriceLower) ≤ i128Max

instance (liquidity sqrtPriceLower sqrtPriceUpper sqCur : ℤ) :
    Decidable (Unsaturated liquidity sqrtPriceLower sqrtPriceUpper sqCur) :=
  decidable_of_iff
    ((sqCur < sqrtPriceUpper → liquidity * (sqrtPriceUpper - sqCur) ≤ i128Max) ∧
      (sqCur < sqrtPriceUpper →
        liquidity * (sqrtPriceUpper - sqCur) / sqrtPriceUpper * Q64 ≤ i128Max) ∧
      (sqrtPriceLower < sqCur → liquidity * (sqCur - sqrtPriceLower) ≤ i128Max))
    ⟨fun h => ⟨h.1, h.2.1, h.2.2⟩, fun h => ⟨h.product, h.scaled, h.productB⟩⟩

section Rounding

variable {liquidity r lower upper price : ℤ}

theorem clampPrice_pos (hl : 0 < lower) (hu : 0 < upper) (price : ℤ) :
    0 < clampPrice lower upper price := by
  unfold clampPrice
  omega

theorem Unsaturated.mono {sqCur : ℤ} (h : Unsaturated liquidity lower upper sqCur)
    (hu : 0 < upper) (hr : r ≤ liquidity) : Unsaturated r lower upper sqCur := by
  constructor
  · intro hlt
    exact (Int.mul_le_mul_of_nonneg_right hr (by omega)).trans (h.product hlt)
  · intro hlt
    have hmul := Int.mul_le_mul_of_nonneg_right hr (show 0 ≤ upper - sqCur by omega)
    exact (Int.mul_le_mul_of_nonneg_right (Int.ediv_le_ediv hu hmul) Q64_pos.le).trans
      (h.scaled hlt)
  · intro hlt
    exact (Int.mul_le_mul_of_nonneg_right hr (by omega)).trans (h.productB hlt)

/-- Without saturation the amount of token a is two divisions that round down. -/
theorem amountA_eq (h : Unsaturated liquidity lower upper (clampPrice lower upper price))
    (hl : 0 < lower) (hu : 0 < upper) (hnn : 0 ≤ liquidity) :
    amountA liquidity lower upper price =
      if clampPrice lower upper price < upper then
        liquidity * (upper - clampPrice lower upper price) / upper * Q64 /
          clampPrice lower upper price
      else 0 := by
  have hc := clampPrice_pos hl hu price
  unfold amountA
  split
  · rename_i hlt
    have hprod : 0 ≤ liquidity * (upper - clampPrice lower upper price) :=
      Int.mul_nonneg hnn (by omega)
    have hstep : 0 ≤ liquidity * (upper - clampPrice lower upper price) / upper * Q64 :=
      Int.mul_nonneg (Int.ediv_nonneg hprod hu.le) Q64_pos.le
    simp only [if_pos hlt, max_eq_left (show 1 ≤ upper by omega),
      max_eq_left (show 1 ≤ clampPrice lower upper price by omega)]
    rw [IntFormat.saturate_of_nonneg hprod (h.product hlt), Int.tdiv_eq_ediv_of_nonneg hprod,
      IntFormat.saturate_of_nonneg hstep (h.scaled hlt), Int.tdiv_eq_ediv_of_nonneg hstep]
  · rename_i hlt
    simp only [if_neg hlt]

theorem amountB_eq (hnn : 0 ≤ liquidity) :
    amountB liquidity lower upper price =
      if lower < clampPrice lower upper price then
        liquidity * (clampPrice lower upper price - lower) / Q64
      else 0 := by
  unfold amountB
  split
  · rename_i hlt
    simp only [if_pos hlt]
    rw [Int.tdiv_eq_ediv_of_nonneg (Int.mul_nonneg hnn (by omega))]
  · rename_i hlt
    simp only [if_neg hlt]

/-- The amounts of token a of two parts of a liquidity are at most that of the whole. -/
theorem amountA_add_le (h : Unsaturated liquidity lower upper (clampPrice lower upper price))
    (hl : 0 < lower) (hu : 0 < upper) (hr : 0 ≤ r) (hle : r ≤ liquidity) :
    amountA r lower upper price + amountA (liquidity - r) lower upper price ≤
      amountA liquidity lower upper price := by
  have hc := clampPrice_pos hl hu price
  rw [amountA_eq h hl hu (hr.trans hle), amountA_eq (h.mono hu hle) hl hu hr,
    amountA_eq (h.mono hu (by omega)) hl hu (by omega)]
  split
  · generalize clampPrice lower upper price = c at hc ⊢
    -- dropping the remainder of each part loses at least that of the whole
    have hinner : r * (upper - c) / upper + (liquidity - r) * (upper - c) / upper ≤
        liquidity * (upper - c) / upper := by
      refine (Int.ediv_add_ediv_le_add_ediv hu).trans (le_of_eq ?_)
      rw [← Int.add_mul]
      congr 2
      omega
    refine (Int.ediv_add_ediv_le_add_ediv hc).trans (Int.ediv_le_ediv hc ?_)
    rw [← Int.add_mul]
    exact Int.mul_le_mul_of_nonneg_right hinner Q64_pos.le
  · exact le_rfl

/-- The amounts of token b of two parts of a liquidity are at most that of the whole. -/
theorem amountB_add_le (hr : 0 ≤ r) (hle : r ≤ liquidity) :
    amountB r lower upper price + amountB (liquidity - r) lower upper price ≤
      amountB liquidity lower upper price := by
  rw [amountB_eq hr, amountB_eq (hr.trans hle), amountB_eq (by omega : 0 ≤ liquidity - r)]
  split
  · refine (Int.ediv_add_ediv_le_add_ediv Q64_pos).trans (le_of_eq ?_)
    rw [← Int.add_mul]
    congr 2
    omega
  · exact le_rfl

theorem amountA_nonneg (h : Unsaturated liquidity lower upper (clampPrice lower upper price))
    (hl : 0 < lower) (hu : 0 < upper) (hnn : 0 ≤ liquidity) :
    0 ≤ amountA liquidity lower upper price := by
  rw [amountA_eq h hl hu hnn]
  split
  · exact Int.ediv_nonneg (Int.mul_nonneg (Int.ediv_nonneg (Int.mul_nonneg hnn (by omega)) hu.le)
      Q64_pos.le) (clampPrice_pos hl hu price).le
  · exact le_rfl

theorem amountB_nonneg (hnn : 0 ≤ liquidity) : 0 ≤ amountB liquidity lower upper price := by
  rw [amountB_eq hnn]
  split
  · exact Int.ediv_nonneg (Int.mul_nonneg hnn (by omega)) Q64_pos.le
  · exact le_rfl

theorem amountA_le (h : Unsaturated liquidity lower upper (clampPrice lower upper price))
    (hl : 0 < lower) (hu : 0 < upper) (hnn : 0 ≤ liquidity) :
    amountA liquidity lower upper price ≤ i128Max := by
  rw [amountA_eq h hl hu hnn]
  split
  · rename_i hlt
    refine (Int.ediv_le_self _ ?_).trans (h.scaled hlt)
    exact Int.mul_nonneg (Int.ediv_nonneg (Int.mul_nonneg hnn (by omega)) hu.le) Q64_pos.le
  · exact IntFormat.i128.hi_nonneg

theorem amountB_le (h : Unsaturated liquidity lower upper (clampPrice lower upper price))
    (hnn : 0 ≤ liquidity) : amountB liquidity lower upper price ≤ i128Max := by
  rw [amountB_eq hnn]
  split
  · rename_i hlt
    exact (Int.ediv_le_self _ (Int.mul_nonneg hnn (by omega))).trans (h.productB hlt)
  · exact IntFormat.i128.hi_nonneg

theorem amountsForLiquidity_eq_ok {a b : ℤ}
    (h : amountsForLiquidity liquidity lower upper price = .ok (a, b)) :
    (lower < clampPrice lower upper price →
      liquidity * (clampPrice lower upper price - lower) ≤ i128Max) ∧
      a = amountA liquidity lower upper price ∧ b = amountB liquidity lower upper price := by
  simp only [amountsForLiquidity, Except.bind_eq_ok, require_eq_ok, exists_const] at h
  obtain ⟨hmem, h⟩ := h
  obtain ⟨rfl, rfl⟩ := Prod.mk.inj (Except.ok.inj h)
  exact ⟨fun hlt => (hmem hlt).2, rfl, rfl⟩

/-- The amounts of an unsaturated liquidity can be computed. -/
theorem amountsForLiquidity_of_unsaturated
    (h : Unsaturated liquidity lower upper (clampPrice lower upper price)) (hnn : 0 ≤ liquidity) :
    amountsForLiquidity liquidity lower upper price =
      .ok (amountA liquidity lower upper price, amountB liquidity lower upper price) := by
  unfold amountsForLiquidity
  have hmem : lower < clampPrice lower upper price →
      IntFormat.i128.Mem (liquidity * (clampPrice lower upper price - lower)) := fun hlt =>
    ⟨IntFormat.i128.lo_nonpos.trans (Int.mul_nonneg hnn (by omega)), h.productB hlt⟩
  simp only [require, if_pos hmem, Except.ok_bind]

/-- A positive quotient by a positive number has a positive dividend. -/
theorem pos_of_tdiv_pos {x d : ℤ} (hd : 0 < d) (h : 0 < x.tdiv d) : 0 < x := by
  by_contra hneg
  have hnn : 0 ≤ (-x).tdiv d := Int.tdiv_nonneg (by omega) hd.le
  rw [Int.neg_tdiv] at hnn
  omega

/-- The first quotient that a liquidity from an amount of token a is computed from bounds both, and
neither product saturates. -/
theorem liquidityFromA_step {a sqCur : ℤ} (hc : 0 < sqCur) (hlt : sqCur < upper)
    (hpos : 0 < liquidity) (hle : liquidity ≤ liquidityFromA a upper sqCur) :
    ∃ step, 0 < step ∧
      (liquidity * (upper - sqCur) ≤ step * sqCur ∧ liquidity * (upper - sqCur) ≤ i128Max) ∧
      step * Q64 ≤ a * upper ∧ step * Q64 ≤ i128Max := by
  have hdiff : 0 < upper - sqCur := by omega
  simp only [liquidityFromA, if_pos hlt] at hle
  generalize hstep : (IntFormat.i128.saturate (a * upper)).tdiv Q64 = step at hle
  have hX : 0 < IntFormat.i128.saturate (step * sqCur) :=
    pos_of_tdiv_pos hdiff (hpos.trans_le hle)
  rw [Int.tdiv_eq_ediv_of_nonneg hX.le] at hle
  -- the liquidity is at most a quotient of the saturated product, hence bounded by the exact one
  have hprod : liquidity * (upper - sqCur) ≤ IntFormat.i128.saturate (step * sqCur) :=
    Int.mul_le_of_le_ediv hdiff hle
  have hexact : liquidity * (upper - sqCur) ≤ step * sqCur :=
    hprod.trans (IntFormat.saturate_le_of_pos hX)
  -- a positive liquidity forces the step before it to be positive
  have hsteppos : 0 < step := by
    have hmul : 0 < step * sqCur := (Int.mul_pos hpos hdiff).trans_le hexact
    exact Int.pos_of_mul_pos_left hmul hc
  have hsat : 0 < IntFormat.i128.saturate (a * upper) :=
    pos_of_tdiv_pos Q64_pos (hsteppos.trans_eq hstep.symm)
  rw [Int.tdiv_eq_ediv_of_nonneg hsat.le] at hstep
  have hscaled : step * Q64 ≤ IntFormat.i128.saturate (a * upper) :=
    Int.mul_le_of_le_ediv Q64_pos hstep.ge
  exact ⟨step, hsteppos, ⟨hexact, hprod.trans IntFormat.saturate_le_hi⟩,
    hscaled.trans (IntFormat.saturate_le_of_pos hsat), hscaled.trans IntFormat.saturate_le_hi⟩

/-- A liquidity from an amount of token a has unsaturated products of token a. -/
theorem liquidityFromA_bounds {a sqCur : ℤ} (hc : 0 < sqCur) (hlt : sqCur < upper)
    (hpos : 0 < liquidity) (hle : liquidity ≤ liquidityFromA a upper sqCur) :
    liquidity * (upper - sqCur) ≤ i128Max ∧
      liquidity * (upper - sqCur) / upper * Q64 ≤ i128Max := by
  obtain ⟨step, hsteppos, ⟨hexact, hprod⟩, -, hscaled⟩ := liquidityFromA_step hc hlt hpos hle
  refine ⟨hprod, ?_⟩
  have hquot : liquidity * (upper - sqCur) / upper ≤ step :=
    Int.ediv_le_of_le_mul (by omega)
      (hexact.trans (Int.mul_le_mul_of_nonneg_left hlt.le hsteppos.le))
  exact (Int.mul_le_mul_of_nonneg_right hquot Q64_pos.le).trans hscaled

/-- No product saturates for a liquidity that is computed from amounts. -/
theorem liquidityFromAmounts_unsaturated {a b amtA amtB : ℤ} (hl : 0 < lower) (hu : 0 < upper)
    (h : liquidityFromAmounts a b lower upper price = .ok liquidity) (hne : liquidity ≠ 0)
    (hamounts : amountsForLiquidity liquidity lower upper price = .ok (amtA, amtB)) :
    (0 < liquidity ∧ liquidity ≤ i128Max) ∧
      Unsaturated liquidity lower upper (clampPrice lower upper price) := by
  obtain ⟨hproductB, -, -⟩ := amountsForLiquidity_eq_ok hamounts
  have hc := clampPrice_pos hl hu price
  simp only [liquidityFromAmounts, Except.bind_eq_ok] at h
  generalize clampPrice lower upper price = c at *
  obtain ⟨liqB, -, h⟩ := h
  obtain rfl := Except.ok.inj h
  have hpos : 0 < max (min (liquidityFromA a upper c) liqB) 0 := by omega
  -- the liquidity granted is at most that of either token
  have hleA : max (min (liquidityFromA a upper c) liqB) 0 ≤ liquidityFromA a upper c := by omega
  generalize max (min (liquidityFromA a upper c) liqB) 0 = L at *
  refine ⟨⟨hpos, ?_⟩, fun hlt => (liquidityFromA_bounds hc hlt hpos hleA).1,
    fun hlt => (liquidityFromA_bounds hc hlt hpos hleA).2, hproductB⟩
  by_cases hlt : c < upper
  · have hmul := (liquidityFromA_bounds hc hlt hpos hleA).1
    have hone := Int.mul_le_mul_of_nonneg_left (show 1 ≤ upper - c by omega) hpos.le
    rw [Int.mul_one] at hone
    exact hone.trans hmul
  · rw [liquidityFromA, if_neg hlt] at hleA
    exact hleA

end Rounding

end Stellara.Amm
