import Stellara.Amm.Volatility
import Stellara.Amm.Exits

/-!
# Recomputing the fee of a pool

Only a swap samples a price, and it samples that of a pool with liquidity. Such a price is positive
and not above the table, so the sum of the samples of all periods fits, and the volatility is not
truncated. The prices may lie below the table, or at both of its ends, and then the sum of the
squared distances does not fit: recomputing the fee overflows, and the fee stays as it was. In the
first periods the sample of the first one is read more than once.

## Main definitions

* `Sampled`: what holds of the prices and the samples after every run
* `Recomputed`: the fee is set to the tier plus the premium for the samples of the last periods

## Main results

* `sampled_of_run`: every run
* `updateDynamicFee_eq`: what recomputing the fee does
* `recomputed_iff`: when the fee is set as it should be
-/

namespace Stellara.Amm

open Dispersion

variable {τ : Type} {s s' : State τ} {poolKey : PoolKey} {pool pool' : PoolState}

/-! ## Prices and samples -/

/-- The tiers are valid, and the prices of pools with liquidity and the samples are not above the
table. -/
structure Sampled (s : State τ) : Prop where
  initialized : s.initialized = true
  tier : ∀ poolKey pool, s.pools.lookup poolKey = some pool → isValidFeeTier pool.feeTier = true
  price : ∀ poolKey pool, s.pools.lookup poolKey = some pool → pool.liquidity ≠ 0 →
    pool.sqrtPrice ≤ (tableEntry 32).2
  sample : ∀ key x, s.samples.lookup key = some x → 0 < x ∧ x ≤ (tableEntry 32).2

namespace Sampled

/-- A pool is written with a valid tier, and with a price on the table when it has liquidity. -/
theorem write (h : Sampled s) (hinit : s'.initialized = s.initialized)
    (hpools : s'.pools = s.pools.insert poolKey pool')
    (htier : isValidFeeTier pool'.feeTier = true)
    (hprice : pool'.liquidity ≠ 0 → pool'.sqrtPrice ≤ (tableEntry 32).2)
    (hsample : ∀ key x, s'.samples.lookup key = some x → 0 < x ∧ x ≤ (tableEntry 32).2) :
    Sampled s' where
  initialized := hinit.trans h.initialized
  tier key q hq := by
    rw [hpools] at hq
    rcases Store.eq_or_lookup_of_insert hq with ⟨-, rfl⟩ | ⟨-, hq⟩
    · exact htier
    · exact h.tier key q hq
  price key q hq := by
    rw [hpools] at hq
    rcases Store.eq_or_lookup_of_insert hq with ⟨-, rfl⟩ | ⟨-, hq⟩
    · exact hprice
    · exact h.price key q hq
  sample := hsample

/-- A pool is written back at its price; it has liquidity only if it had some, or the price is on
the table. -/
theorem writeBack (h : Sampled s) (hpool : s.pools.lookup poolKey = some pool)
    (hinit : s'.initialized = s.initialized) (hpools : s'.pools = s.pools.insert poolKey pool')
    (htier : pool'.feeTier = pool.feeTier) (hprice : pool'.sqrtPrice = pool.sqrtPrice)
    (hliquidity : pool'.liquidity ≠ 0 → pool.liquidity ≠ 0 ∨ pool.sqrtPrice ≤ (tableEntry 32).2)
    (hsamples : s'.samples = s.samples) : Sampled s' := by
  refine h.write hinit hpools (by rw [htier, h.tier _ _ hpool]) (fun hne => ?_)
    (by rw [hsamples]; exact h.sample)
  rw [hprice]
  rcases hliquidity hne with hold | hle
  · exact h.price _ _ hpool hold
  · exact hle

theorem createPool (h : Sampled s) {caller tokenA tokenB : Address} {feeTier : ℕ}
    {initSqrtPrice : ℤ} (he : createPool caller tokenA tokenB feeTier initSqrtPrice s = .ok s') :
    Sampled s' := by
  obtain ⟨⟨htier, -⟩, rfl⟩ := createPool_eq_ok he
  exact h.write rfl rfl htier (fun hne => absurd rfl hne) h.sample

theorem updateDynamicFee (h : Sampled s) {now fee : ℕ} {tokenA tokenB : Address}
    (he : updateDynamicFee now tokenA tokenB s = .ok (fee, s')) : Sampled s' := by
  obtain ⟨pool, hpool, rfl⟩ := updateDynamicFee_eq_ok he
  exact h.writeBack hpool rfl rfl rfl rfl .inl rfl

variable [TokenClient τ Address Address]

/-- Liquidity is added at the price of a pool only below the last tick. -/
theorem addLiquidity (h : Sampled s) (hsound : Sound s.pools s.positionCount s.positions) {now : ℕ}
    {caller tokenA tokenB : Address} {tickLower tickUpper : ℤ}
    {amountDesiredA amountDesiredB minA minB : ℤ} {result : AddLiquidityResult}
    (he : addLiquidity now caller tokenA tokenB tickLower tickUpper amountDesiredA amountDesiredB
      minA minB s = .ok (result, s')) : Sampled s' := by
  obtain ⟨pool, pool', liquidity, -, -, -, -, reserveA, reserveB, -, -, ⟨-, -, -, hmax⟩, hpool, -, -, -,
    hactive, -, -, -, rfl⟩ := addLiquidity_eq_ok he
  have hpool' := (addActive_eq_ok hactive).1
  have htier : pool'.feeTier = pool.feeTier := by rw [hpool']
  have hprice : pool'.sqrtPrice = pool.sqrtPrice := by rw [hpool']
  refine h.writeBack hpool rfl rfl htier hprice (fun hne => ?_) rfl
  by_cases hcovers : tickLower ≤ pool.currentTick ∧ pool.currentTick < tickUpper
  · refine .inr (not_lt.mp fun habove => ?_)
    have htick := (hsound.pool _ _ hpool).currentTick
    rw [sqrtPriceToTick_of_gt habove] at htick
    omega
  · -- outside of the range the liquidity of the pool stays
    have hsame : pool'.liquidity = pool.liquidity :=
      (congrArg PoolState.liquidity hpool').trans (if_neg hcovers)
    exact .inl (hsame ▸ hne)

theorem removeLiquidity (h : Sampled s) {caller : Address} {id : ℕ} {r minA minB : ℤ}
    {result : RemoveLiquidityResult}
    (he : removeLiquidity caller id r minA minB s = .ok (result, s')) : Sampled s' := by
  obtain ⟨p, pool, -, -, pool₁, pool₂, -, -, hedgeA, hedgeB, -, -, -, ⟨-, hr, -⟩, hpool, -, -, -, -,
    hpool₁, hpool₂, -, -, rfl⟩ := removeLiquidity_eq_ok he
  obtain rfl := releaseReserve_eq_ok hpool₁
  have hpool' := removeActive_eq_ok hpool₂
  have htier : pool₂.feeTier = pool.feeTier := by rw [hpool']
  have hprice : pool₂.sqrtPrice = pool.sqrtPrice := by rw [hpool']
  refine h.writeBack hpool rfl rfl htier hprice (fun hne => .inl fun hzero => hne ?_) rfl
  -- without liquidity there is nothing to remove
  refine (congrArg PoolState.liquidity hpool').trans ?_
  dsimp only
  rw [hzero]
  split <;> omega

theorem collectFees (h : Sampled s) {caller : Address} {id : ℕ} {owed : ℤ × ℤ}
    (he : collectFees caller id s = .ok (owed, s')) : Sampled s' := by
  obtain ⟨owedA, owedB⟩ := owed
  obtain ⟨-, -, -, -, -, -, -, -, -, -, -, -, rfl⟩ := collectFees_eq_ok he
  exact { h with }

/-- A swap samples the price of a pool with liquidity, and moves it towards a price of the table. -/
theorem swap (h : Sampled s) (hsound : Sound s.pools s.positionCount s.positions) {now : ℕ}
    {caller tokenIn tokenOut : Address} {amountIn minAmountOut : ℤ} {result : SwapResult}
    (he : swap now caller tokenIn tokenOut amountIn minAmountOut s = .ok (result, s')) :
    Sampled s' := by
  obtain ⟨pool, pool', hmove⟩ := swap_move he
  have hpool := hmove.lookup
  have hne := hmove.liquidity_ne
  have hsoundPool := hsound.pool _ _ hpool
  have hprice := h.price _ _ hpool hne
  obtain ⟨⟨-, hhigh⟩, -, -⟩ := hmove.bounds hsoundPool
  have htarget := (onTable_targetPrice pool (orderTokens tokenIn tokenOut).2).2
  obtain ⟨pool₁, pool₁', step, fees', tokens₁, tokens₂, -, ⟨hpool₁, -⟩, -, -, -, -, -, hs'⟩ :=
    swap_eq_ok he
  obtain rfl := Option.some.inj (hpool.symm.trans hpool₁)
  refine h.write (by rw [hs']) hmove.pools ?_ (fun _ => ?_) fun key x hx => ?_
  · have htier : pool'.feeTier = pool.feeTier := by rw [hmove.pool_eq]
    rw [htier, h.tier _ _ hpool]
  · rw [hmove.pool_eq]
    exact hhigh.trans (max_le hprice htarget)
  · rw [hs'] at hx
    rcases Store.eq_or_lookup_of_insert hx with ⟨-, rfl⟩ | ⟨-, hx⟩
    · exact ⟨hsoundPool.price_pos, hprice⟩
    · exact h.sample key x hx

theorem execute (h : Sampled s) (hsound : Sound s.pools s.positionCount s.positions) {now : ℕ}
    {call : Call} {result : Result} (he : execute now s call = .ok (result, s')) : Sampled s' := by
  cases call with
  | createPool caller tokenA tokenB feeTier initSqrtPrice =>
    obtain ⟨t, ht, rfl, rfl⟩ := Except.map_pair_eq_ok.mp he
    exact h.createPool ht
  | addLiquidity caller tokenA tokenB tickLower tickUpper amountDesiredA amountDesiredB minA minB =>
    obtain ⟨⟨added, t⟩, ht, rfl, rfl⟩ := Except.map_pair_eq_ok.mp he
    exact h.addLiquidity hsound ht
  | removeLiquidity caller id r minA minB =>
    obtain ⟨⟨removed, t⟩, ht, rfl, rfl⟩ := Except.map_pair_eq_ok.mp he
    exact h.removeLiquidity ht
  | collectFees caller id =>
    obtain ⟨⟨owed, t⟩, ht, rfl, rfl⟩ := Except.map_pair_eq_ok.mp he
    exact h.collectFees ht
  | swap caller tokenIn tokenOut amountIn minAmountOut =>
    obtain ⟨⟨swapped, t⟩, ht, rfl, rfl⟩ := Except.map_pair_eq_ok.mp he
    exact h.swap hsound ht
  | updateDynamicFee tokenA tokenB =>
    obtain ⟨⟨fee, t⟩, ht, rfl, rfl⟩ := Except.map_pair_eq_ok.mp he
    exact h.updateDynamicFee ht
  | pause admin | unpause admin =>
    obtain ⟨t, ht, rfl, rfl⟩ := Except.map_pair_eq_ok.mp he
    rw [setPauseLevel_eq_ok ht]
    exact { h with }

end Sampled

/-! ## The recomputation -/

/-- The samples that are read are positive, and their sum fits. -/
theorem Sampled.lastSamples (h : Sampled s) (now : ℕ) (poolKey : PoolKey) :
    (∀ x ∈ lastSamples now poolKey s.samples, 0 < x) ∧
      (lastSamples now poolKey s.samples).sum ≤ i128Max := by
  have hbounds : ∀ x ∈ Amm.lastSamples now poolKey s.samples, 0 < x ∧ x ≤ (tableEntry 32).2 := by
    intro x hx
    obtain ⟨period, hperiod⟩ := mem_lastSamples hx
    exact h.sample _ x hperiod
  refine ⟨fun x hx => (hbounds x hx).1, ?_⟩
  have hsum := List.sum_le_card_nsmul _ _ fun x hx => (hbounds x hx).2
  have hlength : (Amm.lastSamples now poolKey s.samples).length ≤ oraclePeriods :=
    length_lastSamples_le
  calc (Amm.lastSamples now poolKey s.samples).sum
      ≤ (Amm.lastSamples now poolKey s.samples).length • (tableEntry 32).2 := hsum
    _ ≤ oraclePeriods • (tableEntry 32).2 := nsmul_le_nsmul_left (by decide) hlength
    _ ≤ i128Max := by decide

/-- The squared distances of the samples that are read from their mean have a sum that fits. -/
def SquaresFit (now : ℕ) (poolKey : PoolKey) (samples : PriceSamples) : Prop :=
  squares (mean (lastSamples now poolKey samples)) (lastSamples now poolKey samples) ≤ i128Max

instance (now : ℕ) (poolKey : PoolKey) (samples : PriceSamples) :
    Decidable (SquaresFit now poolKey samples) :=
  inferInstanceAs (Decidable (_ ≤ _))

/-- The fee of a stored pool becomes its tier plus the premium for the samples that are read, or the
squares overflow. -/
theorem updateDynamicFee_eq (h : Sampled s) {tokenA tokenB : Address}
    (hpool : s.pools.lookup ⟨tokenA, tokenB⟩ = some pool) (now : ℕ) {fee : ℕ}
    (hfee : fee = pool.feeTier + premium (lastSamples now ⟨tokenA, tokenB⟩ s.samples)) :
    updateDynamicFee now tokenA tokenB s =
      if SquaresFit now ⟨tokenA, tokenB⟩ s.samples then
        .ok (fee, publish (writePool s ⟨tokenA, tokenB⟩ { pool with dynamicFeeBps := fee })
          (.feeUpd ⟨tokenA, tokenB⟩ fee))
      else .error .overflow := by
  obtain ⟨hpos, hsum⟩ := h.lastSamples now ⟨tokenA, tokenB⟩
  have htier : ((pool.feeTier + maxFeePremiumBps : ℕ) : ℤ) ≤ IntFormat.u32.hi := by
    have hvalid := h.tier _ _ hpool
    simp only [isValidFeeTier, decide_eq_true_eq] at hvalid
    rcases hvalid with hvalid | hvalid | hvalid <;> rw [hvalid] <;> decide
  have hcompute := computeDynamicFee_eq hpos hsum htier
  have hread : requirePool s ⟨tokenA, tokenB⟩ = .ok pool := orAbort_eq_ok.mpr hpool
  simp only [updateDynamicFee, requireInit, require_pos h.initialized, Except.ok_bind, hread, hfee]
  by_cases hfits : SquaresFit now ⟨tokenA, tokenB⟩ s.samples
  · rw [if_pos hfits, hcompute.trans (if_pos hfits)]
    rfl
  · rw [if_neg hfits, hcompute.trans (if_neg hfits)]
    rfl

/-- The fee of a pool is recomputed and stored as its tier plus the premium for the samples of the
last periods. -/
def Recomputed (now : ℕ) (tokenA tokenB : Address) (s : State τ) (pool : PoolState) : Prop :=
  ∃ fee s', updateDynamicFee now tokenA tokenB s = .ok (fee, s') ∧
    s'.pools.lookup ⟨tokenA, tokenB⟩ = some { pool with dynamicFeeBps := fee } ∧
    fee = pool.feeTier + premium (periodSamples now ⟨tokenA, tokenB⟩ s.samples) ∧
    pool.feeTier ≤ fee ∧ fee ≤ pool.feeTier + maxFeePremiumBps

theorem Sampled.recomputed (h : Sampled s) {tokenA tokenB : Address}
    (hpool : s.pools.lookup ⟨tokenA, tokenB⟩ = some pool) (now : ℕ) :
    Recomputed now tokenA tokenB s pool ↔
      SquaresFit now ⟨tokenA, tokenB⟩ s.samples ∧
        (ReadOnce now ⟨tokenA, tokenB⟩ s.samples ∨
          premium (Amm.lastSamples now ⟨tokenA, tokenB⟩ s.samples) =
            premium (periodSamples now ⟨tokenA, tokenB⟩ s.samples)) := by
  have hupdate := updateDynamicFee_eq h hpool now rfl
  constructor
  · rintro ⟨fee, s', he, -, hfee, -⟩
    rw [hupdate] at he
    split at he
    · rename_i hfits
      obtain ⟨hread, -⟩ := Prod.mk.inj (Except.ok.inj he)
      exact ⟨hfits, .inr (Nat.add_left_cancel (hread.trans hfee))⟩
    · cases he
  · rintro ⟨hfits, hsame⟩
    have hpremium : premium (Amm.lastSamples now ⟨tokenA, tokenB⟩ s.samples) =
        premium (periodSamples now ⟨tokenA, tokenB⟩ s.samples) := by
      rcases hsame with honce | hequal
      · rw [lastSamples_eq honce]
      · exact hequal
    rw [if_pos hfits, hpremium] at hupdate
    exact ⟨_, _, hupdate, AList.lookup_insert _, rfl, Nat.le_add_right _ _,
      Nat.add_le_add_left (premium_le _) _⟩

/-! ## Runs -/

section Runs

variable [TokenClient τ Address Address] {now : ℕ} {admin contractAddress : Address}
  {cbConfig : CircuitBreakerConfig} {tokens : τ} {w₀ w : World (State τ)}
  {log : List (Commit (State τ) Call Result)}

/-- After every run from `init`, prices and samples are on the table or below it. -/
theorem sampled_of_run
    (hinit : init now admin cbConfig (.empty contractAddress tokens) = .ok w₀.store)
    (hrun : (contract τ).Run w₀ w log) : Sampled w.store := by
  have hstart : Sound w₀.store.pools w₀.store.positionCount w₀.store.positions ∧
      Sampled w₀.store := by
    rw [(init_eq_ok hinit).2]
    exact ⟨.empty, ⟨rfl, fun _ _ h => (by cases h), fun _ _ h => (by cases h),
      fun _ _ h => (by cases h)⟩⟩
  have hstep : ∀ t k r (s s' : State τ),
      Sound s.pools s.positionCount s.positions ∧ Sampled s →
      (contract τ).exec t k s = .ok (r, s') →
      Sound s'.pools s'.positionCount s'.positions ∧ Sampled s' :=
    fun t k r s s' hs he => ⟨execute_sound hs.1 he, hs.2.execute hs.1 he⟩
  exact (hrun.invariant hstep hstart).2

/-- In every state that a run from `init` reaches and at every time, the fee of a pool is recomputed
as it should be exactly when the sum of the squared distances fits and the sample of the first
period is read once, or more often without an effect on the premium. -/
theorem recomputed_iff
    (hinit : init now admin cbConfig (.empty contractAddress tokens) = .ok w₀.store)
    (hrun : (contract τ).Run w₀ w log) {tokenA tokenB : Address} {pool : PoolState}
    (hpool : w.store.pools.lookup ⟨tokenA, tokenB⟩ = some pool) (time : ℕ) :
    Recomputed time tokenA tokenB w.store pool ↔
      SquaresFit time ⟨tokenA, tokenB⟩ w.store.samples ∧
        (ReadOnce time ⟨tokenA, tokenB⟩ w.store.samples ∨
          premium (lastSamples time ⟨tokenA, tokenB⟩ w.store.samples) =
            premium (periodSamples time ⟨tokenA, tokenB⟩ w.store.samples)) :=
  (sampled_of_run hinit hrun).recomputed hpool time

end Runs

/-- A pool whose price is far below the table, with two deposits, and two swaps in two periods that
are too small to move the price. -/
def steadyCalls : List (ℕ × Call) :=
  [(360000, .createPool ⟨5⟩ ⟨1⟩ ⟨2⟩ 30 1),
    (360000, .addLiquidity ⟨5⟩ ⟨1⟩ ⟨2⟩ (-8192) (-7680) 1000000000000000000 0 0 0),
    (360000, .addLiquidity ⟨5⟩ ⟨1⟩ ⟨2⟩ (-7680) (-7168) 20000000000000000000 0 0 0),
    (360000, smallSwap), (363600, smallSwap)]

theorem recomputed_iff_steady :
    ∃ pool, ((contract _).play sampleWorld steadyCalls).1.store.pools.lookup ⟨⟨1⟩, ⟨2⟩⟩ = some pool ∧
      (Recomputed 378000 ⟨1⟩ ⟨2⟩ ((contract _).play sampleWorld steadyCalls).1.store pool ↔
        SquaresFit 378000 ⟨⟨1⟩, ⟨2⟩⟩ ((contract _).play sampleWorld steadyCalls).1.store.samples ∧
          (ReadOnce 378000 ⟨⟨1⟩, ⟨2⟩⟩
              ((contract _).play sampleWorld steadyCalls).1.store.samples ∨
            premium (lastSamples 378000 ⟨⟨1⟩, ⟨2⟩⟩
                ((contract _).play sampleWorld steadyCalls).1.store.samples) =
              premium (periodSamples 378000 ⟨⟨1⟩, ⟨2⟩⟩
                ((contract _).play sampleWorld steadyCalls).1.store.samples))) :=
  ⟨_, rfl, recomputed_iff
    (show init 0 ⟨5⟩ ⟨1000000000000, 1000, 3600⟩ (.empty ⟨9⟩ sampleTokens) =
      .ok sampleWorld.store from rfl)
    (Contract.run_play _ sampleWorld steadyCalls (by decide)) rfl 378000⟩

/-- The same, and then a swap that lifts the price to the table, and two more that are too small. -/
def liftedCalls : List (ℕ × Call) :=
  steadyCalls ++ [(367200, .swap ⟨5⟩ ⟨2⟩ ⟨1⟩ 100000000000000000000 0), (370800, smallSwap),
    (374400, smallSwap)]

/-- Three samples below the table and two on it are too far apart. -/
theorem squares_overflow :
    init 0 ⟨5⟩ ⟨1000000000000, 1000, 3600⟩ (.empty ⟨9⟩ sampleTokens) = .ok sampleWorld.store ∧
      ∃ w log, (contract _).Run sampleWorld w log ∧
        ∃ pool, w.store.pools.lookup ⟨⟨1⟩, ⟨2⟩⟩ = some pool ∧
          updateDynamicFee 378000 ⟨1⟩ ⟨2⟩ w.store = .error .overflow ∧
          ¬ Recomputed 378000 ⟨1⟩ ⟨2⟩ w.store pool := by
  have hrun := Contract.run_play (contract _) sampleWorld liftedCalls (by decide)
  have hsampled := sampled_of_run rfl hrun
  have hlarge : ¬ SquaresFit 378000 ⟨⟨1⟩, ⟨2⟩⟩
      ((contract _).play sampleWorld liftedCalls).1.store.samples := by decide
  refine ⟨rfl, _, _, hrun, _, rfl, ?_, fun h => ?_⟩
  · rw [updateDynamicFee_eq hsampled rfl 378000 rfl, if_neg hlarge]
  · exact hlarge ((hsampled.recomputed rfl 378000).mp h).1

end Stellara.Amm
