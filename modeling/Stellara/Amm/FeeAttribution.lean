import Mathlib.Algebra.Order.Field.Rat
import Mathlib.Tactic.FieldSimp
import Mathlib.Tactic.Positivity
import Stellara.Amm.ActiveLiquidity

/-!
# Whom the fees of swaps are attributed to

The fee growth within a range is what grew globally, less what grew below and above. A swap flips
the growth outside one tick with the global growth before its own fee is added, so the fee goes to
the positions in range at the tick that the swap reaches, and ticks that are skipped are not
flipped. As long as the swap flips just the bounds that it crosses, and a position is in range at
both ticks or at none, the position is attributed its share of the fee, up to rounding.

## Main definitions

* `share`: what a swap owes to a position
* `Attributes`: a swap that attributes its fee to a position as it should
* `exactFees`: what a position has earned, before rounding

## Main results

* `exactGrowthInside_swap`: how the growth within a range follows a swap
* `Step.exactFees`: what a step adds to the fees of a position
* `fees_attributed`: every run
* `last_fee_lost`: a swap whose fee the only position in range does not get
-/

namespace Stellara.Amm

variable {τ : Type}

/-! ## Fees of positions -/

namespace LpPosition

/-- What a position is owed of one token. -/
def owed (p : LpPosition) (isA : Bool) : ℤ := if isA then p.tokensOwedA else p.tokensOwedB

/-- The fee growth up to which the fees of a position are accrued. -/
def growthLast (p : LpPosition) (isA : Bool) : ℤ :=
  if isA then p.feeGrowthInsideALast else p.feeGrowthInsideBLast

end LpPosition

/-- The growth within the range of a position that it has not accrued yet. -/
def sinceAccrual (s : State τ) (p : LpPosition) (isA : Bool) : ℤ :=
  (s.pools.lookup p.poolKey).elim 0 fun pool => insideNow s.tickFees pool p isA - p.growthLast isA

/-- The fees that a position would accrue now. -/
def pending (s : State τ) (p : LpPosition) (isA : Bool) : ℤ :=
  (s.pools.lookup p.poolKey).elim 0 fun pool =>
    unaccrued p.liquidity (p.growthLast isA) (insideNow s.tickFees pool p isA)

/-- The fees of a position, before those it has not accrued yet are rounded. -/
def exactFees (s : State τ) (p : LpPosition) (isA : Bool) : ℚ :=
  p.owed isA + p.liquidity * sinceAccrual s p isA / Q64

/-! ## Fees of swaps -/

/-- What a call pays the owner of a position out of its fees. -/
def paid (id : ℕ) (isA : Bool) : Call → Result → ℤ
  | .collectFees _ i, .collected owedA owedB => if i = id then if isA then owedA else owedB else 0
  | _, _ => 0

/-- The share of a position in the fee of a swap: proportional to its liquidity, if the swap starts
in its range. -/
def share (s : State τ) (id : ℕ) (isA : Bool) : Call → Result → ℚ
  | .swap _ tokenIn tokenOut _ _, .swapped r =>
    (s.positions.lookup id).elim 0 fun p => (s.pools.lookup p.poolKey).elim 0 fun pool =>
      if (p.poolKey = (orderTokens tokenIn tokenOut).1 ∧ isA = (orderTokens tokenIn tokenOut).2) ∧
          p.Covers pool.currentTick then r.feePaid * p.liquidity / pool.liquidity else 0
  | _, _ => 0

/-- The units that may be lost to rounding: one for each accrual of the position, and one for each
swap in its pool. -/
def units (s : State τ) (id : ℕ) (isA : Bool) : Call → ℚ
  | .removeLiquidity _ i _ _ _ | .collectFees _ i => if i = id then 1 else 0
  | .swap _ tokenIn tokenOut _ _ => (s.positions.lookup id).elim 0 fun p =>
      if p.poolKey = (orderTokens tokenIn tokenOut).1 ∧ isA = (orderTokens tokenIn tokenOut).2
      then 1 else 0
  | _ => 0

/-- The tick whose growth a swap flips when it leaves its tick. -/
def flippedTick (pool : PoolState) (zeroForOne : Bool) : ℤ :=
  if zeroForOne then pool.currentTick else targetTick pool.currentTick zeroForOne

/-- A swap from the tick `tick` to the tick `reached` flips the bound `bound` just when it crosses
it. -/
def FlipsRight (bound flipped tick reached : ℤ) : Prop :=
  (bound ≤ tick ↔ bound ≤ reached) ↔ ¬ (reached ≠ tick ∧ bound = flipped)

instance (bound flipped tick reached : ℤ) : Decidable (FlipsRight bound flipped tick reached) :=
  inferInstanceAs (Decidable ((_ ↔ _) ↔ _))

/-- The share of a position in a fee is at most one unit; or the position is in range at both ticks
or at none, and where it is, its liquidity is at most `2 ^ 64`. -/
def Proportional (p : LpPosition) (tick reached feePaid liquidity : ℤ) : Prop :=
  feePaid * p.liquidity ≤ liquidity ∨
    (p.Covers tick ↔ p.Covers reached) ∧ (p.Covers tick → p.liquidity ≤ Q64)

instance (p : LpPosition) (tick reached feePaid liquidity : ℤ) :
    Decidable (Proportional p tick reached feePaid liquidity) :=
  inferInstanceAs (Decidable (_ ∨ (_ ↔ _) ∧ (_ → _)))

/-- A swap attributes its fee to a position of its pool as it should. -/
def AttributesTo (pool : PoolState) (zeroForOne : Bool) (amountIn : ℤ) (p : LpPosition) : Prop :=
  FlipsRight p.tickLower (flippedTick pool zeroForOne) pool.currentTick
      (reachedTick pool zeroForOne amountIn) ∧
    FlipsRight p.tickUpper (flippedTick pool zeroForOne) pool.currentTick
      (reachedTick pool zeroForOne amountIn) ∧
    Proportional p pool.currentTick (reachedTick pool zeroForOne amountIn) (swapFee pool amountIn)
      pool.liquidity

instance (pool : PoolState) (zeroForOne : Bool) (amountIn : ℤ) (p : LpPosition) :
    Decidable (AttributesTo pool zeroForOne amountIn p) :=
  inferInstanceAs (Decidable (_ ∧ _ ∧ _))

/-- A call is not a swap in the pool of a position, or attributes its fee to it as it should. -/
def Attributes (s : State τ) (id : ℕ) : Call → Prop
  | .swap _ tokenIn tokenOut amountIn _ =>
    ∀ p ∈ s.positions.lookup id, p.poolKey = (orderTokens tokenIn tokenOut).1 →
      ∀ pool ∈ s.pools.lookup p.poolKey,
        AttributesTo pool (orderTokens tokenIn tokenOut).2 amountIn p
  | _ => True

instance (s : State τ) (id : ℕ) : (call : Call) → Decidable (Attributes s id call)
  | .swap _ _ _ _ _ => inferInstanceAs (Decidable (∀ p ∈ _, _ → ∀ pool ∈ _, _))
  | .createPool _ _ _ _ _ | .addLiquidity _ _ _ _ _ _ _ _ _ | .removeLiquidity _ _ _ _ _
  | .collectFees _ _ | .updateDynamicFee _ _ | .pause _ | .unpause _ => isTrue trivial

/-! ## Growth -/

section Growth

variable {fees fees' : TickFees} {poolKey : PoolKey} {tick reached flipped tickLower tickUpper : ℤ}
  {growth gain : ℤ} {isA : Bool}

variable (growth gain) in
/-- What grew on a side of a bound that is flipped just when the side changes. -/
theorem growthOutside_swap (outside : ℤ) {before after flips : Prop} [Decidable before]
    [Decidable after] [Decidable flips] (h : (before ↔ after) ↔ ¬ flips) :
    (if after then (if flips then growth - outside else outside)
      else growth + gain - if flips then growth - outside else outside) =
      (if before then outside else growth - outside) + if after then 0 else gain := by
  by_cases hflip : flips
  · -- the bound is crossed, and its growth outside is flipped
    have hcrossed : ¬ (before ↔ after) := fun heq => h.mp heq hflip
    rw [if_pos hflip]
    by_cases hafter : after
    · rw [if_pos hafter, if_pos hafter, if_neg fun hbefore => hcrossed (iff_of_true hbefore hafter),
        add_zero]
    · rw [if_neg hafter, if_neg hafter,
        if_pos (not_not.mp fun hbefore => hcrossed (iff_of_false hbefore hafter))]
      omega
  · -- the bound is neither crossed nor flipped
    rw [if_neg hflip, if_congr (h.mpr hflip) rfl rfl]
    split <;> omega

/-- When a swap flips the bounds of a range just when it crosses them, the range gains the fee if
the tick that the swap reaches is in it. -/
theorem exactGrowthInside_swap
    (hfees : ∀ bound, readTickFeeOutside fees' poolKey bound isA =
      if reached ≠ tick ∧ bound = flipped then growth - readTickFeeOutside fees poolKey bound isA
      else readTickFeeOutside fees poolKey bound isA)
    (hticks : tickLower < tickUpper) (hlower : FlipsRight tickLower flipped tick reached)
    (hupper : FlipsRight tickUpper flipped tick reached) :
    exactGrowthInside fees' poolKey reached (growth + gain) tickLower tickUpper isA =
      exactGrowthInside fees poolKey tick growth tickLower tickUpper isA +
        if tickLower ≤ reached ∧ reached < tickUpper then gain else 0 := by
  -- the range keeps what neither grew below its lower bound nor above its upper one
  have hbelow := growthOutside_swap growth gain (readTickFeeOutside fees poolKey tickLower isA)
    hlower
  have hupper' : (tick < tickUpper ↔ reached < tickUpper) ↔
      ¬ (reached ≠ tick ∧ tickUpper = flipped) := by
    rw [← not_le, ← not_le, not_iff_not]
    exact hupper
  have habove := growthOutside_swap growth gain (readTickFeeOutside fees poolKey tickUpper isA)
    hupper'
  simp only [exactGrowthInside, hfees]
  rw [hbelow, habove]
  split <;> split <;> split <;> split <;> split <;> omega

end Growth

/-! ## Rounding -/

section Rounding

variable {liquidity growthLast growthNow feePaid poolLiquidity : ℤ}

theorem Q64_rat_pos : (0 : ℚ) < Q64 := by exact_mod_cast Q64_pos

/-- An accrual loses less than one unit. -/
theorem unaccrued_bounds (hnn : 0 ≤ liquidity) (hle : 0 ≤ growthNow - growthLast) :
    (unaccrued liquidity growthLast growthNow : ℚ) ≤
        liquidity * ((growthNow - growthLast : ℤ) : ℚ) / Q64 ∧
      liquidity * ((growthNow - growthLast : ℤ) : ℚ) / Q64 ≤
        unaccrued liquidity growthLast growthNow + 1 := by
  have heq : unaccrued liquidity growthLast growthNow =
      liquidity * (growthNow - growthLast) / Q64 := by
    unfold unaccrued
    split
    · exact Int.tdiv_eq_ediv_of_nonneg (Int.mul_nonneg hnn hle)
    · have hzero : growthNow - growthLast = 0 := by omega
      rw [hzero, Int.mul_zero, Int.zero_ediv]
  -- floor division is within one unit of the exact quotient
  have hlow := Int.ediv_mul_le (liquidity * (growthNow - growthLast)) Q64_pos.ne'
  have hhigh := Int.lt_ediv_add_one_mul_self (liquidity * (growthNow - growthLast)) Q64_pos
  rw [heq]
  generalize liquidity * (growthNow - growthLast) / Q64 = fees at *
  constructor
  · rw [le_div_iff₀ Q64_rat_pos]
    exact_mod_cast hlow
  · rw [div_le_iff₀ Q64_rat_pos]
    exact_mod_cast hhigh.le

variable (growthLast growthNow) in
theorem unaccrued_nonneg (hnn : 0 ≤ liquidity) : 0 ≤ unaccrued liquidity growthLast growthNow := by
  unfold unaccrued
  split
  · exact Int.tdiv_nonneg (Int.mul_nonneg hnn (by omega)) Q64_pos.le
  · exact le_rfl

/-- What a swap adds to the growth is its fee for a unit of liquidity, rounded down. -/
theorem feeGain_bounds (hfee : 0 ≤ feePaid) (hpos : 0 < poolLiquidity) :
    0 ≤ feeGain feePaid poolLiquidity ∧
      (feeGain feePaid poolLiquidity : ℚ) / Q64 ≤ feePaid / poolLiquidity ∧
      (feePaid : ℚ) / poolLiquidity ≤ (feeGain feePaid poolLiquidity + 1) / Q64 := by
  have hnn : 0 ≤ feePaid * Q64 := Int.mul_nonneg hfee Q64_pos.le
  have heq : feeGain feePaid poolLiquidity = feePaid * Q64 / poolLiquidity :=
    Int.tdiv_eq_ediv_of_nonneg hnn
  -- the two bounds of floor division, cleared of the divisors
  have hlow := Int.ediv_mul_le (feePaid * Q64) hpos.ne'
  have hhigh := (Int.lt_ediv_add_one_mul_self (feePaid * Q64) hpos).le
  have hposQ : (0 : ℚ) < poolLiquidity := by exact_mod_cast hpos
  rw [heq]
  refine ⟨Int.ediv_nonneg hnn hpos.le, ?_, ?_⟩
  · rw [div_le_div_iff₀ Q64_rat_pos hposQ]
    exact_mod_cast hlow
  · rw [div_le_div_iff₀ hposQ Q64_rat_pos]
    exact_mod_cast hhigh

/-- The error of a swap whose share is at most one unit, or whose position has at most `2 ^ 64`
units of liquidity. -/
theorem share_error {p : LpPosition} {tick reached : ℤ} (hfee : 0 ≤ feePaid)
    (hpos : 0 < poolLiquidity) (hnn : 0 ≤ p.liquidity)
    (h : Proportional p tick reached feePaid poolLiquidity) :
    |(p.liquidity : ℚ) * (if p.Covers reached then feeGain feePaid poolLiquidity else 0 : ℤ) / Q64 -
      if p.Covers tick then (feePaid : ℚ) * p.liquidity / poolLiquidity else 0| ≤ 1 := by
  obtain ⟨hgain, hlow, hhigh⟩ := feeGain_bounds hfee hpos
  have hposQ : (0 : ℚ) < poolLiquidity := by exact_mod_cast hpos
  have hnnQ : (0 : ℚ) ≤ p.liquidity := by exact_mod_cast hnn
  have hgainQ : (0 : ℚ) ≤ feeGain feePaid poolLiquidity := by exact_mod_cast hgain
  have hfeeQ : (0 : ℚ) ≤ feePaid := by exact_mod_cast hfee
  -- what is credited, against the share
  have hcredit : (p.liquidity : ℚ) * feeGain feePaid poolLiquidity / Q64 ≤
      feePaid * p.liquidity / poolLiquidity := by
    calc (p.liquidity : ℚ) * feeGain feePaid poolLiquidity / Q64
        = p.liquidity * (feeGain feePaid poolLiquidity / Q64) := by ring
      _ ≤ p.liquidity * (feePaid / poolLiquidity) := mul_le_mul_of_nonneg_left hlow hnnQ
      _ = feePaid * p.liquidity / poolLiquidity := by ring
  have hcreditNonneg : (0 : ℚ) ≤ p.liquidity * feeGain feePaid poolLiquidity / Q64 :=
    div_nonneg (mul_nonneg hnnQ hgainQ) Q64_rat_pos.le
  have hshareNonneg : (0 : ℚ) ≤ feePaid * p.liquidity / poolLiquidity :=
    div_nonneg (mul_nonneg hfeeQ hnnQ) hposQ.le
  rcases h with hsmall | ⟨hsame, hbound⟩
  · -- neither the share nor what is credited passes one unit
    have hshare : (feePaid : ℚ) * p.liquidity / poolLiquidity ≤ 1 := by
      rw [div_le_one hposQ]
      exact_mod_cast hsmall
    split
    · split <;> exact abs_le.mpr ⟨by linarith, by linarith⟩
    · rw [Int.cast_zero, mul_zero, zero_div]
      split <;> exact abs_le.mpr ⟨by linarith, by linarith⟩
  · -- the position is credited just when it has a share
    by_cases hcovers : p.Covers tick
    · -- a unit of liquidity loses less than `1 / Q64`, and there are at most `Q64` of them
      have hlost : (feePaid : ℚ) * p.liquidity / poolLiquidity ≤
          p.liquidity * feeGain feePaid poolLiquidity / Q64 + 1 := by
        have hone : (p.liquidity : ℚ) / Q64 ≤ 1 := by
          rw [div_le_one Q64_rat_pos]
          exact_mod_cast hbound hcovers
        calc (feePaid : ℚ) * p.liquidity / poolLiquidity
            = p.liquidity * (feePaid / poolLiquidity) := by ring
          _ ≤ p.liquidity * ((feeGain feePaid poolLiquidity + 1) / Q64) :=
            mul_le_mul_of_nonneg_left hhigh hnnQ
          _ = p.liquidity * feeGain feePaid poolLiquidity / Q64 + p.liquidity / Q64 := by ring
          _ ≤ p.liquidity * feeGain feePaid poolLiquidity / Q64 + 1 := by linarith
      rw [if_pos hcovers, if_pos (hsame.mp hcovers), abs_le]
      constructor <;> linarith
    · rw [if_neg hcovers, if_neg fun h => hcovers (hsame.mpr h)]
      simp

end Rounding

/-! ## Steps -/

section Steps

variable {s s' : State τ} {poolKey : PoolKey} {pool pool' : PoolState} {p : LpPosition} {isA : Bool}

variable (isA) in
/-- How the growth within the range of a position follows a swap in its pool. -/
theorem SwapMove.insideNow {zeroForOne : Bool} {amountIn : ℤ} {result : SwapResult}
    (hstep : SwapMove s s' poolKey zeroForOne amountIn pool pool' result)
    (hkey : p.poolKey = poolKey) (hticks : p.tickLower < p.tickUpper)
    (hattributes : AttributesTo pool zeroForOne amountIn p) :
    insideNow s'.tickFees pool' p isA = insideNow s.tickFees pool p isA +
      if p.Covers (reachedTick pool zeroForOne amountIn) then
        if isA = zeroForOne then feeGain (swapFee pool amountIn) pool.liquidity else 0
      else 0 := by
  have hreached : pool'.currentTick = reachedTick pool zeroForOne amountIn := by
    rw [hstep.pool_eq, reachedTick, ← hstep.step]
  -- only the growth of the token paid in moves
  have hgrowth : (if isA then pool'.feeGrowthGlobalA else pool'.feeGrowthGlobalB) =
      (if isA then pool.feeGrowthGlobalA else pool.feeGrowthGlobalB) +
        if isA = zeroForOne then feeGain (swapFee pool amountIn) pool.liquidity else 0 := by
    rw [hstep.pool_eq, hstep.feePaid]
    cases isA <;> cases zeroForOne <;> simp
  -- and only the flipped tick is written, when the swap leaves its tick
  have hfees : ∀ bound, readTickFeeOutside s'.tickFees p.poolKey bound isA =
      if reachedTick pool zeroForOne amountIn ≠ pool.currentTick ∧
          bound = flippedTick pool zeroForOne then
        (if isA then pool.feeGrowthGlobalA else pool.feeGrowthGlobalB) -
          readTickFeeOutside s.tickFees p.poolKey bound isA
      else readTickFeeOutside s.tickFees p.poolKey bound isA := fun bound => by
    rw [hstep.tickFees, hreached]
    split
    · rename_i hsame
      rw [if_neg fun h => h.1 hsame]
    · rename_i hmoved
      rw [readTickFeeOutside_crossed, hkey]
      simp only [flippedTick, true_and, ne_eq, hmoved, not_false_iff]
  obtain ⟨hlower, hupper, -⟩ := hattributes
  unfold Amm.insideNow
  rw [hreached, hgrowth, exactGrowthInside_swap hfees hticks hlower hupper]
  rfl

theorem insideNow_congr {fees : TickFees} (h : SameMarket pool pool') :
    Amm.insideNow fees pool' p isA = Amm.insideNow fees pool p isA := by
  unfold Amm.insideNow
  rw [h.currentTick, h.growthA, h.growthB]

theorem sinceAccrual_eq (hpool : s.pools.lookup p.poolKey = some pool) :
    sinceAccrual s p isA = insideNow s.tickFees pool p isA - p.growthLast isA := by
  rw [sinceAccrual, hpool, Option.elim_some]

/-- A write that leaves the market of a pool leaves the markets of all. -/
theorem exists_market (hpools : s'.pools = s.pools.insert poolKey pool')
    (hlookup : s.pools.lookup poolKey = some pool) (hmarket : SameMarket pool pool') {key : PoolKey}
    {old : PoolState} (hold : s.pools.lookup key = some old) :
    ∃ new, s'.pools.lookup key = some new ∧ SameMarket old new := by
  rw [hpools, Store.lookup_insert_ite]
  -- the pool that was written, or another one
  split
  · rename_i hkey
    rw [hkey, hlookup] at hold
    exact ⟨pool', rfl, Option.some.inj hold ▸ hmarket⟩
  · exact ⟨old, hold, sameMarket_refl old⟩

/-- The growth outside the ticks of a pool stays. -/
def SameOutside (fees fees' : TickFees) (poolKey : PoolKey) : Prop :=
  ∀ tick isA, readTickFeeOutside fees' poolKey tick isA = readTickFeeOutside fees poolKey tick isA

theorem sameOutside_of_eq {fees fees' : TickFees} (h : fees' = fees) (poolKey : PoolKey) :
    SameOutside fees fees' poolKey := fun _ _ => by rw [h]

variable (isA) in
/-- The fees of a position whose market stays. -/
theorem exactFees_congr (hpool : s.pools.lookup p.poolKey = some pool)
    (hpool' : s'.pools.lookup p.poolKey = some pool') (hmarket : SameMarket pool pool')
    (hfees : SameOutside s.tickFees s'.tickFees p.poolKey) :
    sinceAccrual s' p isA = sinceAccrual s p isA ∧ exactFees s' p isA = exactFees s p isA := by
  have hsince : sinceAccrual s' p isA = sinceAccrual s p isA := by
    rw [sinceAccrual_eq hpool', sinceAccrual_eq hpool, insideNow_congr hmarket]
    unfold Amm.insideNow exactGrowthInside
    rw [hfees, hfees]
  exact ⟨hsince, by rw [exactFees, exactFees, hsince]⟩

/-- A position that accrues its fees, and is paid `pay` of them, loses less than one unit. -/
theorem accrual_error (p' : LpPosition) (pay : ℤ) (hpool : s.pools.lookup p.poolKey = some pool)
    (hpool' : s'.pools.lookup p.poolKey = some pool') (hmarket : SameMarket pool pool')
    (hfees : s'.tickFees = s.tickFees) (hkey : p'.poolKey = p.poolKey)
    (hlower : p'.tickLower = p.tickLower) (hupper : p'.tickUpper = p.tickUpper)
    (hlast : p'.growthLast isA = insideNow s.tickFees pool p isA)
    (howed : pay + p'.owed isA = p.owed isA +
      unaccrued p.liquidity (p.growthLast isA) (insideNow s.tickFees pool p isA))
    (hnn : 0 ≤ p.liquidity) (hsince : 0 ≤ sinceAccrual s p isA) :
    sinceAccrual s' p' isA = 0 ∧ |(pay : ℚ) + exactFees s' p' isA - exactFees s p isA| ≤ 1 := by
  -- neither the market nor the range moves, so the snapshot is taken of the present growth
  have hinside : insideNow s'.tickFees pool' p' isA = insideNow s.tickFees pool p isA := by
    rw [hfees, insideNow_congr hmarket]
    unfold Amm.insideNow
    rw [hkey, hlower, hupper]
  have hzero : sinceAccrual s' p' isA = 0 := by
    rw [sinceAccrual_eq (hkey ▸ hpool'), hinside, hlast, Int.sub_self]
  refine ⟨hzero, ?_⟩
  rw [sinceAccrual_eq hpool] at hsince
  obtain ⟨hlow, hhigh⟩ := unaccrued_bounds hnn hsince
  have howedQ : (pay : ℚ) + p'.owed isA = p.owed isA +
      unaccrued p.liquidity (p.growthLast isA) (insideNow s.tickFees pool p isA) := by
    exact_mod_cast howed
  rw [exactFees, exactFees, hzero, sinceAccrual_eq hpool, Int.cast_zero, mul_zero, zero_div, add_zero]
  exact abs_le.mpr ⟨by linarith, by linarith⟩

/-- The fees of a position are not negative. -/
def Fair (s : State τ) (p : LpPosition) (isA : Bool) : Prop :=
  0 ≤ p.owed isA ∧ 0 ≤ sinceAccrual s p isA

/-- A call gives a position its share, up to rounding. -/
structure Accounts (s s' : State τ) (id : ℕ) (isA : Bool) (call : Call) (result : Result)
    (p p' : LpPosition) : Prop where
  fair : Fair s' p' isA
  error : |(paid id isA call result : ℚ) + exactFees s' p' isA - exactFees s p isA -
    share s id isA call result| ≤ units s id isA call

variable {id : ℕ} {call : Call} {result : Result}

/-- A call that leaves the position and its market gives it nothing. -/
theorem accounts_kept {p' : LpPosition} (hp : s.positions.lookup id = some p)
    (hp' : s'.positions.lookup id = some p')
    (hkept : s'.positions.lookup id = s.positions.lookup id)
    (hpool : s.pools.lookup p.poolKey = some pool)
    (hmarket : ∃ new, s'.pools.lookup p.poolKey = some new ∧ SameMarket pool new)
    (hfees : SameOutside s.tickFees s'.tickFees p.poolKey) (hfair : Fair s p isA)
    (hpaid : paid id isA call result = 0) (hshare : share s id isA call result = 0)
    (hunits : 0 ≤ units s id isA call) : Accounts s s' id isA call result p p' := by
  rw [hkept, hp] at hp'
  obtain rfl := Option.some.inj hp'
  obtain ⟨new, hnew, hsame⟩ := hmarket
  obtain ⟨hsince, hexact⟩ := exactFees_congr isA hpool hnew hsame hfees
  refine ⟨⟨hfair.1, hsince ▸ hfair.2⟩, ?_⟩
  rw [hpaid, hshare, hexact]
  simpa using hunits

/-- A swap in the pool of a position gives it its share. -/
theorem SwapMove.accounts {caller tokenIn tokenOut : Address} {amountIn minAmountOut : ℤ}
    {swapped : SwapResult} (hsound : Sound s.pools s.positionCount s.positions)
    (hp : s.positions.lookup id = some p) (hkey : p.poolKey = (orderTokens tokenIn tokenOut).1)
    (hstep : SwapMove s s' (orderTokens tokenIn tokenOut).1 (orderTokens tokenIn tokenOut).2 amountIn
      pool pool' swapped)
    (hattributes : AttributesTo pool (orderTokens tokenIn tokenOut).2 amountIn p)
    (hfair : Fair s p isA) :
    Accounts s s' id isA (.swap caller tokenIn tokenOut amountIn minAmountOut) (.swapped swapped) p
      p := by
  have hposition := hsound.position id p hp
  have hpool : s.pools.lookup p.poolKey = some pool := hkey ▸ hstep.lookup
  have hpool' : s'.pools.lookup p.poolKey = some pool' := by
    rw [hstep.pools, hkey]
    exact AList.lookup_insert _
  have hnn := hposition.liquidity_pos.le
  have hliquidity := hstep.liquidity_pos (hsound.pool _ _ hstep.lookup)
  have hfee := swapFee_nonneg pool hstep.amountIn_pos.le
  have hgain := (feeGain_bounds hfee hliquidity).1
  have hinside := hstep.insideNow isA hkey hposition.ticks hattributes
  -- a swap moves the growth, but neither the snapshot nor what is owed
  have hsince : sinceAccrual s' p isA = sinceAccrual s p isA +
      if p.Covers (reachedTick pool (orderTokens tokenIn tokenOut).2 amountIn) then
        if isA = (orderTokens tokenIn tokenOut).2 then
          feeGain (swapFee pool amountIn) pool.liquidity else 0 else 0 := by
    rw [sinceAccrual_eq hpool', sinceAccrual_eq hpool, hinside]
    omega
  refine ⟨⟨hfair.1, ?_⟩, ?_⟩
  · -- the growth does not decrease
    have hold := hfair.2
    rw [hsince]
    split
    · split <;> omega
    · omega
  · have hshare : share s id isA (.swap caller tokenIn tokenOut amountIn minAmountOut)
        (.swapped swapped) = if (p.poolKey = (orderTokens tokenIn tokenOut).1 ∧
          isA = (orderTokens tokenIn tokenOut).2) ∧ p.Covers pool.currentTick then
        (swapFee pool amountIn : ℚ) * p.liquidity / pool.liquidity else 0 := by
      simp only [share, hp, hpool, Option.elim_some, hstep.feePaid]
    have hunits : units s id isA (.swap caller tokenIn tokenOut amountIn minAmountOut) =
        if p.poolKey = (orderTokens tokenIn tokenOut).1 ∧ isA = (orderTokens tokenIn tokenOut).2
        then 1 else 0 := by
      simp only [units, hp, Option.elim_some]
    rw [hshare, hunits, exactFees, exactFees, hsince]
    by_cases hisA : isA = (orderTokens tokenIn tokenOut).2
    · -- the token of the fee
      have herror := share_error hfee hliquidity hnn hattributes.2.2
      simp only [hkey, hisA, true_and, if_true]
      refine le_trans (le_of_eq ?_) herror
      simp only [paid]
      congr 1
      push_cast
      ring
    · -- the other token of the pool neither grows nor is shared
      simp [hisA, paid]

/-- A removal from a position accrues its fees. -/
theorem LiquidityRemoved.accounts {caller : Address} {r minA minB : ℤ} {p' : LpPosition}
    {removed : RemoveLiquidityResult} (hsound : Sound s.pools s.positionCount s.positions)
    (hstep : LiquidityRemoved s s' id pool pool' p r) (hp' : s'.positions.lookup id = some p')
    (hfair : Fair s p isA) :
    Accounts s s' id isA (.removeLiquidity caller id r minA minB) (.removed removed) p p' := by
  have hposition := hsound.position id p hstep.lookup_position
  -- a removal moves the active liquidity of the pool, and not its market
  have hpool' : s'.pools.lookup p.poolKey = some pool' := by
    rw [hstep.pools]
    exact AList.lookup_insert _
  -- a position that is still there was written back
  rw [hstep.positions] at hp'
  rcases eq_or_lookup_of_stored hp' with ⟨-, -, rfl⟩ | ⟨hne, -⟩
  · have howed : (0 : ℤ) + (afterRemoval p (insideNow s.tickFees pool p true)
        (insideNow s.tickFees pool p false) r).owed isA = p.owed isA +
        unaccrued p.liquidity (p.growthLast isA) (insideNow s.tickFees pool p isA) := by
      rw [Int.zero_add]
      cases isA <;> rfl
    obtain ⟨hzero, herror⟩ := accrual_error (afterRemoval p (insideNow s.tickFees pool p true)
      (insideNow s.tickFees pool p false) r) 0 hstep.lookup hpool' hstep.market hstep.tickFees rfl rfl
      rfl (by cases isA <;> rfl) howed hposition.liquidity_pos.le hfair.2
    refine ⟨⟨?_, hzero.ge⟩, ?_⟩
    · -- what is accrued is added to what was owed
      have hnn := unaccrued_nonneg (p.growthLast isA) (insideNow s.tickFees pool p isA)
        hposition.liquidity_pos.le
      have hold := hfair.1
      omega
    · simpa [paid, share, units] using herror
  · exact absurd hposition.id_eq.symm hne

/-- A collection accrues the fees of a position, and pays them. -/
theorem FeesCollected.accounts {caller : Address} {owedA owedB : ℤ} {p' : LpPosition}
    (hsound : Sound s.pools s.positionCount s.positions)
    (hA : owedA = (accrued p (insideNow s.tickFees pool p true)
      (insideNow s.tickFees pool p false)).tokensOwedA)
    (hB : owedB = (accrued p (insideNow s.tickFees pool p true)
      (insideNow s.tickFees pool p false)).tokensOwedB)
    (hstep : FeesCollected s s' id pool p) (hp' : s'.positions.lookup id = some p')
    (hfair : Fair s p isA) :
    Accounts s s' id isA (.collectFees caller id) (.collected owedA owedB) p p' := by
  have hposition := hsound.position id p hstep.lookup_position
  have hpool' : s'.pools.lookup p.poolKey = some pool := by rw [hstep.pools, hstep.lookup]
  have hnn := unaccrued_nonneg (p.growthLast isA) (insideNow s.tickFees pool p isA)
    hposition.liquidity_pos.le
  have hold := hfair.1
  -- the position is written back under its own id
  rw [hstep.positions, Store.lookup_insert_ite, if_pos hposition.id_eq.symm] at hp'
  obtain rfl := Option.some.inj hp'
  have hpay : (if isA then owedA else owedB) = p.owed isA +
      unaccrued p.liquidity (p.growthLast isA) (insideNow s.tickFees pool p isA) := by
    rw [hA, hB]
    cases isA <;> rfl
  -- all that is owed is paid
  have hrest : (afterCollection p (insideNow s.tickFees pool p true)
      (insideNow s.tickFees pool p false)).owed isA = 0 := by
    have howed : (afterCollection p (insideNow s.tickFees pool p true)
        (insideNow s.tickFees pool p false)).owed isA =
        if 0 < p.owed isA + unaccrued p.liquidity (p.growthLast isA)
          (insideNow s.tickFees pool p isA) then 0
        else p.owed isA + unaccrued p.liquidity (p.growthLast isA)
          (insideNow s.tickFees pool p isA) := by
      cases isA <;> rfl
    rw [howed]
    split <;> omega
  obtain ⟨hzero, herror⟩ := accrual_error (afterCollection p (insideNow s.tickFees pool p true)
    (insideNow s.tickFees pool p false)) (if isA then owedA else owedB) hstep.lookup hpool'
    (sameMarket_refl pool) hstep.tickFees rfl rfl rfl (by cases isA <;> rfl)
    (by rw [hrest, Int.add_zero, hpay]) hposition.liquidity_pos.le hfair.2
  refine ⟨⟨hrest.ge, hzero.ge⟩, ?_⟩
  simpa [paid, share, units] using herror

/-- A call gives a position its share, unless it is a swap that attributes its fee wrongly. -/
theorem Step.accounts {p' : LpPosition} (hsound : Sound s.pools s.positionCount s.positions)
    (hstep : Step s s' call result) (hattributes : Attributes s id call)
    (hp : s.positions.lookup id = some p) (hp' : s'.positions.lookup id = some p')
    (hfair : Fair s p isA) : Accounts s s' id isA call result p p' := by
  obtain ⟨pool, hpool⟩ := Option.isSome_iff_exists.mp (hsound.position id p hp).pool
  cases hstep with
  | created _ hstep =>
    refine accounts_kept hp hp' (by rw [hstep.positions]) hpool ⟨pool, ?_, sameMarket_refl pool⟩
      (sameOutside_of_eq hstep.tickFees _) hfair rfl rfl le_rfl
    rw [hstep.pools, Store.lookup_insert_ite, if_neg, hpool]
    intro hkey
    -- a new pool is not that of an old position
    rw [hkey, hstep.fresh] at hpool
    cases hpool
  | added _ _ hstep =>
    refine accounts_kept hp hp' ?_ hpool
      (exists_market hstep.pools hstep.lookup hstep.market hpool)
      (sameOutside_of_eq hstep.tickFees _) hfair rfl rfl le_rfl
    -- a new position has the next id
    have hle := hsound.id_le hp
    rw [hstep.positions, Store.lookup_insert_ite, if_neg (by omega)]
  | @removed caller i r minA minB removed pool₁ pool₁' p₁ hstep =>
    by_cases hid : i = id
    · subst hid
      obtain rfl := Option.some.inj (hstep.lookup_position.symm.trans hp)
      exact hstep.accounts hsound hp' hfair
    · -- a removal from another position
      have hne : id ≠ (afterRemoval p₁ (insideNow s.tickFees pool₁ p₁ true)
          (insideNow s.tickFees pool₁ p₁ false) r).id := fun heq =>
        hid ((hsound.position _ _ hstep.lookup_position).id_eq.symm.trans heq.symm)
      refine accounts_kept hp hp' (by rw [hstep.positions, lookup_stored_of_ne hne]) hpool
        (exists_market hstep.pools hstep.lookup hstep.market hpool)
        (sameOutside_of_eq hstep.tickFees _) hfair rfl rfl ?_
      simp only [units, if_neg hid, le_refl]
  | @collected caller i owedA owedB pool₁ p₁ hA hB hstep =>
    by_cases hid : i = id
    · subst hid
      obtain rfl := Option.some.inj (hstep.lookup_position.symm.trans hp)
      exact hstep.accounts hsound hA hB hp' hfair
    · -- a collection from another position
      have hne : id ≠ p₁.id := fun heq =>
        hid ((hsound.position _ _ hstep.lookup_position).id_eq.symm.trans heq.symm)
      refine accounts_kept hp hp' ?_ hpool ⟨pool, by rw [hstep.pools, hpool], sameMarket_refl pool⟩
        (sameOutside_of_eq hstep.tickFees _) hfair ?_ rfl ?_
      · rw [hstep.positions, Store.lookup_insert_ite, if_neg hne]
      · simp only [paid, if_neg hid]
      · simp only [units, if_neg hid, le_refl]
  | @swapped caller tokenIn tokenOut amountIn minAmountOut swapped pool₁ pool₁' hstep =>
    by_cases hkey : p.poolKey = (orderTokens tokenIn tokenOut).1
    · rw [hstep.positions, hp] at hp'
      obtain rfl := Option.some.inj hp'
      obtain rfl := Option.some.inj (hstep.lookup.symm.trans (hkey ▸ hpool))
      exact hstep.accounts hsound hp hkey (hattributes p hp hkey pool₁ hpool) hfair
    · -- a swap in another pool
      refine accounts_kept hp hp' (by rw [hstep.positions]) hpool ⟨pool, ?_, sameMarket_refl pool⟩
        ?_ hfair rfl ?_ ?_
      · rw [hstep.pools, Store.lookup_insert_ite, if_neg hkey, hpool]
      · intro tick isA
        rw [hstep.tickFees]
        split
        · rfl
        · rw [readTickFeeOutside_crossed, if_neg fun h => hkey h.1]
      · simp [share, hp, hpool, hkey]
      · simp [units, hp, hkey]
  | repriced hstep =>
    exact accounts_kept hp hp' (by rw [hstep.positions]) hpool
      (exists_market hstep.pools hstep.lookup hstep.market hpool)
      (sameOutside_of_eq hstep.tickFees _) hfair rfl rfl le_rfl
  | paused hstep | unpaused hstep =>
    exact accounts_kept hp hp' (by rw [hstep.positions]) hpool
      ⟨pool, by rw [hstep.pools, hpool], sameMarket_refl pool⟩
      (sameOutside_of_eq hstep.tickFees _) hfair rfl rfl le_rfl

theorem units_nonneg (s : State τ) (id : ℕ) (isA : Bool) (call : Call) : 0 ≤ units s id isA call := by
  cases call with
  | removeLiquidity caller i r minA minB =>
    simp only [units]
    split <;> norm_num
  | collectFees caller i =>
    simp only [units]
    split <;> norm_num
  | swap caller tokenIn tokenOut amountIn minAmountOut =>
    simp only [units]
    cases s.positions.lookup id with
    | none => exact le_rfl
    | some p =>
      rw [Option.elim_some]
      split <;> norm_num
  | _ => exact le_rfl

variable (isA) in
/-- A position that does not exist gets nothing. -/
theorem Step.nothing (hstep : Step s s' call result) (hnone : s.positions.lookup id = none) :
    paid id isA call result = 0 ∧ share s id isA call result = 0 := by
  cases hstep with
  | @collected caller i owedA owedB pool p hA hB hstep =>
    have hne : i ≠ id := by
      rintro rfl
      rw [hstep.lookup_position] at hnone
      cases hnone
    exact ⟨if_neg hne, rfl⟩
  | swapped hstep => exact ⟨rfl, by simp only [share, hnone, Option.elim_none]⟩
  | _ => exact ⟨rfl, rfl⟩

/-- The counter of positions never decreases. -/
theorem Step.positionCount_le (hstep : Step s s' call result) :
    s.positionCount ≤ s'.positionCount := by
  cases hstep with
  | added _ _ hstep =>
    rw [hstep.positionCount]
    omega
  | created _ hstep | removed hstep | collected _ _ hstep | swapped hstep | repriced hstep
  | paused hstep | unpaused hstep => exact hstep.positionCount.ge

/-- A new position has no fees. -/
theorem LiquidityAdded.new_fees (hstep : LiquidityAdded s s' pool pool' p) :
    Fair s' p isA ∧ exactFees s' p isA = 0 := by
  have hpool' : s'.pools.lookup p.poolKey = some pool' := by
    rw [hstep.pools]
    exact AList.lookup_insert _
  have howed : p.owed isA = 0 := by
    cases isA
    · exact hstep.owedB
    · exact hstep.owedA
  have hlast : p.growthLast isA = insideNow s.tickFees pool p isA := by
    cases isA
    · exact hstep.insideB
    · exact hstep.insideA
  have hsince : sinceAccrual s' p isA = 0 := by
    rw [sinceAccrual_eq hpool', hlast, hstep.tickFees, insideNow_congr hstep.market, Int.sub_self]
  refine ⟨⟨howed.ge, hsince.ge⟩, ?_⟩
  rw [exactFees, howed, hsince]
  simp

variable (isA) in
/-- A position that is new has a new id, and no fees. -/
theorem Step.new_position {p' : LpPosition} (hsound : Sound s.pools s.positionCount s.positions)
    (hstep : Step s s' call result) (hnone : s.positions.lookup id = none)
    (hp' : s'.positions.lookup id = some p') :
    s.positionCount < id ∧ Fair s' p' isA ∧ exactFees s' p' isA = 0 := by
  cases hstep with
  | added _ _ hstep =>
    rw [hstep.positions] at hp'
    rcases Store.eq_or_lookup_of_insert hp' with ⟨rfl, rfl⟩ | ⟨-, hold⟩
    · exact ⟨Nat.lt_succ_self _, hstep.new_fees⟩
    · rw [hnone] at hold
      cases hold
  | removed hstep =>
    -- a removal and a collection only write a position that exists
    rw [hstep.positions] at hp'
    rcases eq_or_lookup_of_stored hp' with ⟨-, rfl, -⟩ | ⟨-, hold⟩
    · have hid := (hsound.position _ _ hstep.lookup_position).id_eq
      have hlookup := hstep.lookup_position
      rw [← hid] at hlookup
      exact absurd (hnone.symm.trans hlookup) (by simp)
    · rw [hnone] at hold
      cases hold
  | collected _ _ hstep =>
    rw [hstep.positions] at hp'
    rcases Store.eq_or_lookup_of_insert hp' with ⟨rfl, -⟩ | ⟨-, hold⟩
    · have hid := (hsound.position _ _ hstep.lookup_position).id_eq
      have hlookup := hstep.lookup_position
      rw [← hid, hnone] at hlookup
      cases hlookup
    · rw [hnone] at hold
      cases hold
  | created _ hstep | swapped hstep | repriced hstep | paused hstep | unpaused hstep =>
    rw [hstep.positions, hnone] at hp'
    cases hp'

end Steps

/-! ## Runs -/

section Runs

variable (id : ℕ) (isA : Bool) (log : List (Commit (State τ) Call Result))

/-- What a position was paid out of its fees. -/
def totalPaid : ℤ := (log.map fun c => paid id isA c.call c.result).sum

/-- The shares of a position in the fees of all swaps. -/
def totalShare : ℚ := (log.map fun c => share c.before id isA c.call c.result).sum

/-- The number of accruals of a position and of swaps in its pool. -/
def totalUnits : ℚ := (log.map fun c => units c.before id isA c.call).sum

variable {id isA log} {s s' : State τ}

/-- What a position has earned is its shares, up to rounding. -/
structure Attributed (id : ℕ) (isA : Bool) (s : State τ)
    (log : List (Commit (State τ) Call Result)) : Prop where
  /-- A position that is not created yet got nothing. -/
  fresh : s.positionCount < id → totalPaid id isA log = 0 ∧ totalShare id isA log = 0
  total_nonneg : 0 ≤ totalUnits id isA log
  position : ∀ p, s.positions.lookup id = some p → Fair s p isA ∧
    |(totalPaid id isA log : ℚ) + exactFees s p isA - totalShare id isA log| ≤ totalUnits id isA log

/-- A call whose fee is attributed as it should keeps the accounts. -/
theorem Attributed.step {time : ℕ} {call : Call} {result : Result}
    (hsound : Sound s.pools s.positionCount s.positions) (h : Attributed id isA s log)
    (hstep : Step s s' call result) (hattributes : Attributes s id call) :
    Attributed id isA s' (log ++ [⟨time, call, result, s, s'⟩]) := by
  have hpaid : totalPaid id isA (log ++ [⟨time, call, result, s, s'⟩]) =
      totalPaid id isA log + paid id isA call result := by simp [totalPaid]
  have hshare : totalShare id isA (log ++ [⟨time, call, result, s, s'⟩]) =
      totalShare id isA log + share s id isA call result := by simp [totalShare]
  have hunits : totalUnits id isA (log ++ [⟨time, call, result, s, s'⟩]) =
      totalUnits id isA log + units s id isA call := by simp [totalUnits]
  have hnn := units_nonneg s id isA call
  -- the fees of the log, the bound, and the account of the position
  refine ⟨fun hlt => ?_, ?_, fun p' hp' => ?_⟩
  · have hlt' := lt_of_le_of_lt hstep.positionCount_le hlt
    obtain ⟨hpaid₀, hshare₀⟩ := h.fresh hlt'
    obtain ⟨hpaid₁, hshare₁⟩ := hstep.nothing isA (hsound.fresh id hlt')
    rw [hpaid, hshare, hpaid₀, hshare₀, hpaid₁, hshare₁]
    exact ⟨rfl, add_zero 0⟩
  · rw [hunits]
    exact add_nonneg h.total_nonneg hnn
  · rw [hpaid, hshare, hunits]
    cases hp : s.positions.lookup id with
    | none =>
      -- the position is new, so nothing of the log concerns it
      obtain ⟨hlt, hfair, hexact⟩ := hstep.new_position isA hsound hp hp'
      obtain ⟨hpaid₀, hshare₀⟩ := h.fresh hlt
      obtain ⟨hpaid₁, hshare₁⟩ := hstep.nothing isA hp
      refine ⟨hfair, ?_⟩
      rw [hpaid₀, hshare₀, hpaid₁, hshare₁, hexact]
      simpa using add_nonneg h.total_nonneg hnn
    | some p =>
      obtain ⟨hfair, herror⟩ := h.position p hp
      obtain ⟨hfair', herror'⟩ := hstep.accounts hsound hattributes hp hp' hfair
      refine ⟨hfair', ?_⟩
      push_cast
      -- the error of the log and the error of the call add up
      calc |(totalPaid id isA log : ℚ) + paid id isA call result + exactFees s' p' isA -
            (totalShare id isA log + share s id isA call result)|
          = |((totalPaid id isA log : ℚ) + exactFees s p isA - totalShare id isA log) +
              ((paid id isA call result : ℚ) + exactFees s' p' isA - exactFees s p isA -
                share s id isA call result)| := by
            congr 1
            ring
        _ ≤ |(totalPaid id isA log : ℚ) + exactFees s p isA - totalShare id isA log| +
              |(paid id isA call result : ℚ) + exactFees s' p' isA - exactFees s p isA -
                share s id isA call result| := abs_add_le _ _
        _ ≤ totalUnits id isA log + units s id isA call := add_le_add herror herror'

variable [TokenClient τ Address Address] {now : ℕ} {admin contractAddress : Address}
  {cbConfig : CircuitBreakerConfig} {tokens : τ} {w₀ w : World (State τ)}

/-- After every run from `init` in which every swap in the pool of a position attributes its fee
as it should, what the position was paid, is owed and would accrue now is the sum of its shares, up
to one unit for each accrual and each swap. -/
theorem fees_attributed
    (hinit : init now admin cbConfig (.empty contractAddress tokens) = .ok w₀.store)
    (hrun : (contract τ).Run w₀ w log) (hattributes : ∀ c ∈ log, Attributes c.before id c.call)
    {p : LpPosition} (hp : w.store.positions.lookup id = some p) :
    |((totalPaid id isA log + p.owed isA + pending w.store p isA : ℤ) : ℚ) - totalShare id isA log| ≤
      totalUnits id isA log + 1 := by
  have hsound := (sound_of_run hinit hrun).1
  -- by induction on the run, with the soundness of the positions
  have haccounts : Attributed id isA w.store log := by
    refine (hrun.invariant_log (I := fun (_ : ℕ) (s : State τ) log =>
      Sound s.pools s.positionCount s.positions ∧
        ((∀ c ∈ log, Attributes c.before id c.call) → Attributed id isA s log)) ?_
      (fun _ _ _ _ _ h => h) (fun t call result s s' log h hexec => ?_)).2 hattributes
    · rw [(init_eq_ok hinit).2]
      exact ⟨.empty, fun _ => ⟨fun _ => ⟨rfl, rfl⟩, le_rfl, fun p hp => by cases hp⟩⟩
    · have hstep := execute_step hexec
      refine ⟨hstep.sound h.1, fun hall => (h.2 fun c hc => ?_).step h.1 hstep ?_⟩
      · exact hall c (List.mem_append_left _ hc)
      · exact hall ⟨t, call, result, s, s'⟩ (List.mem_append_right _ List.mem_cons_self)
  obtain ⟨hfair, herror⟩ := haccounts.position p hp
  have hposition := hsound.position id p hp
  obtain ⟨pool, hpool⟩ := Option.isSome_iff_exists.mp hposition.pool
  have hsince := hfair.2
  rw [sinceAccrual_eq hpool] at hsince
  -- what the position would accrue now is rounded once more
  obtain ⟨hlow, hhigh⟩ := unaccrued_bounds hposition.liquidity_pos.le hsince
  have hpending : pending w.store p isA = unaccrued p.liquidity (p.growthLast isA)
      (insideNow w.store.tickFees pool p isA) := by rw [pending, hpool, Option.elim_some]
  rw [exactFees, sinceAccrual_eq hpool, abs_le] at herror
  rw [hpending, abs_le]
  push_cast at herror hlow hhigh ⊢
  exact ⟨by linarith [herror.1], by linarith [herror.2]⟩

end Runs

theorem fees_attributed_sample :
    ∃ p, ((contract _).play rangeWorld (rangeCalls 2)).1.store.positions.lookup 1 = some p ∧
      |((totalPaid 1 false ((contract _).play rangeWorld (rangeCalls 2)).2 + p.owed false +
          pending ((contract _).play rangeWorld (rangeCalls 2)).1.store p false : ℤ) : ℚ) -
        totalShare 1 false ((contract _).play rangeWorld (rangeCalls 2)).2| ≤
      totalUnits 1 false ((contract _).play rangeWorld (rangeCalls 2)).2 + 1 := by
  obtain ⟨p, hp⟩ := Option.isSome_iff_exists.mp (show
    (((contract _).play rangeWorld (rangeCalls 2)).1.store.positions.lookup 1).isSome by decide)
  exact ⟨p, hp, fees_attributed
    (show init 0 ⟨5⟩ ⟨1000000000000, 1000, 3600⟩ (.empty ⟨9⟩ rangeWorld.store.tokens) =
      .ok rangeWorld.store from rfl)
    (Contract.run_play _ rangeWorld (rangeCalls 2) (by decide)) (by decide) hp⟩

/-- A swap that starts in the range of the only position, and leaves it, attributes its fee to
nobody: the position gets nothing of 30000 units. -/
theorem last_fee_lost :
    init 0 ⟨5⟩ ⟨1000000000000, 1000, 3600⟩ (.empty ⟨9⟩ rangeWorld.store.tokens) =
        .ok rangeWorld.store ∧
      ∃ w log p, (contract _).Run rangeWorld w log ∧ w.store.positions.lookup 1 = some p ∧
        ¬ |((totalPaid 1 false log + p.owed false + pending w.store p false : ℤ) : ℚ) -
          totalShare 1 false log| ≤ totalUnits 1 false log + 1 := by
  obtain ⟨p, hp⟩ := Option.isSome_iff_exists.mp (show
    (((contract _).play rangeWorld (rangeCalls 1)).1.store.positions.lookup 1).isSome by decide)
  refine ⟨rfl, _, _, p, Contract.run_play _ rangeWorld (rangeCalls 1) (by decide), hp, ?_⟩
  have hnothing : ∀ p ∈ ((contract _).play rangeWorld (rangeCalls 1)).1.store.positions.lookup 1,
      totalPaid 1 false ((contract _).play rangeWorld (rangeCalls 1)).2 + p.owed false +
        pending ((contract _).play rangeWorld (rangeCalls 1)).1.store p false = 0 := by
    decide
  have hshare : totalShare 1 false ((contract _).play rangeWorld (rangeCalls 1)).2 = 30000 := by
    decide +kernel
  have hunits : totalUnits 1 false ((contract _).play rangeWorld (rangeCalls 1)).2 = 1 := by
    decide +kernel
  rw [hnothing p hp, hshare, hunits]
  norm_num

end Stellara.Amm
