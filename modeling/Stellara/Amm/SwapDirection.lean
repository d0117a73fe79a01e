import Stellara.Amm.Reachable

/-!
# The direction of swaps

A swap step takes its direction from the target price: it lowers the price towards a lower
target and raises it towards any other. The target is a price of the table, so a sale of token a
in a pool whose price is below the table raises the price. A pool is created there when its first
price is; above the table there is never any liquidity.

## Main definitions

* `Directed`: the direction law of a swap
* `Aligned`: a swap whose target is on its side of the price, or that leaves the price

## Main results

* `directed_iff`: the step of a sound pool
* `swap_directed_iff`: the swaps of every run
* `sale_raises_price`: a sale of token a that raises the price
-/

namespace Stellara.Amm

/-- The law of a swap of `amountIn` units at a price and a target: the price moves in the direction
of the sale, up to the target, and the amounts are in bounds. -/
structure Directed (zeroForOne : Bool) (price target amountIn : ℤ) (result : SwapResult) : Prop where
  sell : zeroForOne = true → result.newSqrtPrice ≤ price
  buy : zeroForOne = false → price ≤ result.newSqrtPrice
  between : min price target ≤ result.newSqrtPrice ∧ result.newSqrtPrice ≤ max price target
  amountIn : 0 ≤ result.amountIn ∧ result.amountIn ≤ amountIn
  amountOut : 0 ≤ result.amountOut

/-- A sale of token a starts from the least price of the table or above, or is too small to move
the price. -/
def Aligned (pool : PoolState) (zeroForOne : Bool) (amountIn : ℤ) : Prop :=
  zeroForOne = true → (tableEntry 0).2 ≤ pool.sqrtPrice ∨
    Still pool (targetPrice pool zeroForOne) (netInput pool amountIn)

/-! ## Steps -/

section Step

variable {τ : Type} {s s' : State τ} {poolKey : PoolKey} {pool pool' : PoolState}
  {zeroForOne : Bool} {amountIn : ℤ} {result : SwapResult}

namespace SwapMove

/-- A sale of token a below the table raises the price, unless it is too small. -/
theorem raises (h : SwapMove s s' poolKey zeroForOne amountIn pool pool' result)
    (hsound : SoundPool poolKey pool) (hlt : pool.sqrtPrice < (tableEntry 0).2)
    (hstill : ¬ Still pool (targetPrice pool zeroForOne) (netInput pool amountIn)) :
    pool.sqrtPrice < result.newSqrtPrice := by
  have htarget := onTable_targetPrice pool zeroForOne
  have hup : pool.sqrtPrice < targetPrice pool zeroForOne := lt_of_lt_of_le hlt htarget.1
  have hraises := stepUp_raises hup htarget.le_i128Max (h.liquidity_pos hsound)
    hsound.liquidity_le fun hsmall => hstill (.inr ⟨hup, hsmall⟩)
  have hstep := h.step
  rw [stepTo, if_neg (not_lt.mpr hup.le)] at hstep
  rw [← hstep] at hraises
  exact hraises

/-- A sale below the table that is too small leaves the price. -/
theorem stays (h : SwapMove s s' poolKey zeroForOne amountIn pool pool' result)
    (hsound : SoundPool poolKey pool)
    (hstill : Still pool (targetPrice pool zeroForOne) (netInput pool amountIn)) :
    result.newSqrtPrice = pool.sqrtPrice := by
  -- a still pool never lies above its target, so the step taken is the upward one
  have hup : ¬ targetPrice pool zeroForOne < pool.sqrtPrice := by
    rcases hstill with heq | ⟨hlt, -⟩ <;> omega
  obtain ⟨amountIn', heq, -⟩ := stepUp_still hsound.price_pos
    ((not_lt.mp hup).trans (onTable_targetPrice pool zeroForOne).le_i128Max) (h.liquidity_pos hsound)
    (netInput_nonneg pool amountIn) hstill
  have hstep := h.step
  rw [stepTo, if_neg hup, heq] at hstep
  exact (Prod.mk.inj hstep).1

/-- A swap obeys the law exactly when it is aligned, in a pool that is not above the table. -/
theorem directed_iff (h : SwapMove s s' poolKey zeroForOne amountIn pool pool' result)
    (hsound : SoundPool poolKey pool) (htable : pool.sqrtPrice ≤ (tableEntry 32).2) :
    Directed zeroForOne pool.sqrtPrice (targetPrice pool zeroForOne) amountIn result ↔
      Aligned pool zeroForOne amountIn := by
  obtain ⟨hbetween, hin, hout⟩ := h.bounds hsound
  constructor
  · rintro hdirected hsell
    -- an unaligned sale starts below its target and moves up to it: the price rises
    by_contra hneither
    obtain ⟨hbelow, hstill⟩ := not_or.mp hneither
    have hraised := h.raises hsound (not_le.mp hbelow) hstill
    exact absurd (hdirected.sell hsell) (not_le.mpr hraised)
  · intro haligned
    refine ⟨fun hsell => ?_, fun hbuy => ?_, hbetween, hin, hout⟩
    · rcases haligned hsell with hge | hstill
      · have hside := targetPrice_le hsound.currentTick hge
        rw [← hsell] at hside
        exact hbetween.2.trans (max_le le_rfl hside)
      · exact (h.stays hsound hstill).le
    · have hside := le_targetPrice hsound.currentTick htable
      rw [← hbuy] at hside
      exact (le_min le_rfl hside).trans hbetween.1

end SwapMove

end Step

/-! ## Runs -/

/-- Only pools whose price is not above the table have liquidity. -/
def NoneAbove (pools : Store PoolKey PoolState) : Prop :=
  ∀ poolKey pool, pools.lookup poolKey = some pool → pool.liquidity ≠ 0 →
    pool.sqrtPrice ≤ (tableEntry 32).2

theorem NoneAbove.insert {pools : Store PoolKey PoolState} {poolKey : PoolKey} {pool : PoolState}
    (h : NoneAbove pools) (hpool : pool.liquidity ≠ 0 → pool.sqrtPrice ≤ (tableEntry 32).2) :
    NoneAbove (pools.insert poolKey pool) := by
  intro key pool' hlookup
  rcases Store.eq_or_lookup_of_insert hlookup with ⟨-, rfl⟩ | ⟨-, hold⟩
  · exact hpool
  · exact h key pool' hold

section Runs

variable {τ : Type} [TokenClient τ Address Address] {s s' : State τ} {now : ℕ} {call : Call}
  {result : Result}

omit [TokenClient τ Address Address] in
/-- No step provides liquidity above the table. -/
theorem Step.noneAbove (hsound : Sound s.pools s.positionCount s.positions)
    (h : NoneAbove s.pools) (hstep : Step s s' call result) : NoneAbove s'.pools := by
  cases hstep with
  | created _ hstep =>
    rw [hstep.pools, hstep.pool_eq]
    exact h.insert fun hne => absurd rfl hne
  | added _ _ hstep =>
    rw [hstep.pools]
    refine h.insert fun hne => ?_
    rw [hstep.liquidity] at hne
    rw [hstep.market.sqrtPrice]
    split at hne
    · -- the last tick is out of every range
      rename_i hcovers
      by_contra hgt
      have htick := (hsound.pool _ _ hstep.lookup).currentTick
      rw [sqrtPriceToTick_of_gt (not_le.mp hgt)] at htick
      exact absurd (hcovers.2.trans_le hstep.tickUpper) htick.not_lt
    · exact h _ _ hstep.lookup hne
  | removed hstep =>
    rw [hstep.pools]
    refine h.insert fun hne => ?_
    rw [hstep.market.sqrtPrice]
    refine h _ _ hstep.lookup fun hzero => hne ?_
    have hpos := hstep.pos
    rw [hstep.liquidity, hzero]
    split <;> omega
  | swapped hstep =>
    rw [hstep.pools]
    refine h.insert fun _ => ?_
    have hhigh := (hstep.bounds (hsound.pool _ _ hstep.lookup)).1.2
    rw [hstep.pool_eq]
    exact hhigh.trans
      (max_le (h _ _ hstep.lookup hstep.liquidity_ne) (onTable_targetPrice _ _).2)
  | repriced hstep =>
    rw [hstep.pools]
    refine h.insert fun hne => ?_
    rw [hstep.liquidity] at hne
    rw [hstep.market.sqrtPrice]
    exact h _ _ hstep.lookup hne
  | collected _ _ hstep | paused hstep | unpaused hstep =>
    rw [hstep.pools]
    exact h

variable {admin contractAddress : Address} {cbConfig : CircuitBreakerConfig} {tokens : τ}
  {w₀ w : World (State τ)} {log : List (Commit (State τ) Call Result)}

/-- In every run from `init` a swap obeys the direction law exactly when it is aligned. -/
theorem swap_directed_iff
    (hinit : init now admin cbConfig (.empty contractAddress tokens) = .ok w₀.store)
    (hrun : (contract τ).Run w₀ w log) {c : Commit (State τ) Call Result} (hc : c ∈ log)
    {caller tokenIn tokenOut : Address} {amountIn minAmountOut : ℤ} {r : SwapResult}
    (hcall : c.call = .swap caller tokenIn tokenOut amountIn minAmountOut)
    (hresult : c.result = .swapped r) :
    ∃ pool, c.before.pools.lookup (orderTokens tokenIn tokenOut).1 = some pool ∧
      (Directed (orderTokens tokenIn tokenOut).2 pool.sqrtPrice
          (targetPrice pool (orderTokens tokenIn tokenOut).2) amountIn r ↔
        Aligned pool (orderTokens tokenIn tokenOut).2 amountIn) := by
  have hstart : Sound w₀.store.pools w₀.store.positionCount w₀.store.positions ∧
      NoneAbove w₀.store.pools := by
    rw [(init_eq_ok hinit).2]
    exact ⟨.empty, fun _ _ h => by cases h⟩
  obtain ⟨hsound, habove⟩ := (hrun.invariant_of_mem
    (I := fun s => Sound s.pools s.positionCount s.positions ∧ NoneAbove s.pools)
    (fun _ _ _ _ _ hs he => ⟨execute_sound hs.1 he, (execute_step he).noneAbove hs.1 hs.2⟩)
    hstart c hc).1
  have hexec := hrun.exec_of_mem c hc
  rw [hcall, hresult] at hexec
  obtain ⟨t, ht, hr⟩ := Except.map_eq_ok.mp hexec
  obtain ⟨hr, -⟩ := Prod.mk.inj hr
  obtain rfl := Result.swapped.inj hr
  obtain ⟨pool, pool', hmove⟩ := swap_move ht
  exact ⟨pool, hmove.lookup, hmove.directed_iff (hsound.pool _ _ hmove.lookup)
    (habove _ _ hmove.lookup hmove.liquidity_ne)⟩

end Runs

/-- The contract right after `init`, with an account that owns three tokens. -/
def belowWorld : World (State (Balances Address Address)) :=
  ⟨0, { State.empty ⟨9⟩ (((Balances.zero.mint ⟨1⟩ ⟨5⟩ 1000000000000).mint ⟨2⟩ ⟨5⟩
      1000000000000).mint ⟨3⟩ ⟨5⟩ 1000000000000) with
    acl := adminAcl ⟨5⟩ .empty
    initialized := true
    breaker := CircuitBreaker.init 0 ⟨1000000000000, 1000, 3600⟩ .empty }⟩

/-- A pool whose first price is below the table, another one, a position in each, and a sale of
token a of the first. -/
def belowCalls : List (ℕ × Call) :=
  [(1, .createPool ⟨5⟩ ⟨1⟩ ⟨2⟩ 30 12247000000000000000), (1, .createPool ⟨5⟩ ⟨2⟩ ⟨3⟩ 30 Q64),
    (2, .addLiquidity ⟨5⟩ ⟨1⟩ ⟨2⟩ (-8192) 8192 1000000000 1000000000 0 0),
    (2, .addLiquidity ⟨5⟩ ⟨2⟩ ⟨3⟩ (-512) 512 1000000000 1000000000 0 0),
    (3, .swap ⟨5⟩ ⟨1⟩ ⟨2⟩ 1000000 0)]

/-- The commits of `belowCalls`. -/
def belowLog : List (Commit (State (Balances Address Address)) Call Result) :=
  ((contract _).play belowWorld belowCalls).2

/-- The commit of the sale. -/
def belowSwap : Commit (State (Balances Address Address)) Call Result :=
  belowLog.get ⟨4, by decide⟩

theorem swap_directed_iff_sample :
    ∃ pool, belowSwap.before.pools.lookup ⟨⟨1⟩, ⟨2⟩⟩ = some pool ∧
      (Directed true pool.sqrtPrice (targetPrice pool true) 1000000
          ⟨21560, 48911, 3000, 12247334978884438016, -8192⟩ ↔ Aligned pool true 1000000) :=
  swap_directed_iff
    (show init 0 ⟨5⟩ ⟨1000000000000, 1000, 3600⟩ (.empty ⟨9⟩ belowWorld.store.tokens) =
      .ok belowWorld.store from rfl)
    (Contract.run_play _ belowWorld belowCalls (by decide)) (List.get_mem belowLog _)
    (show belowSwap.call = .swap ⟨5⟩ ⟨1⟩ ⟨2⟩ 1000000 0 from rfl) (by decide)

/-- A sale of token a in a pool whose price is below the table raises the price. -/
theorem sale_raises_price :
    init 0 ⟨5⟩ ⟨1000000000000, 1000, 3600⟩ (.empty ⟨9⟩ belowWorld.store.tokens) =
        .ok belowWorld.store ∧
      (∃ w, (contract _).Run belowWorld w belowLog) ∧ belowSwap ∈ belowLog ∧
      belowSwap.call = .swap ⟨5⟩ ⟨1⟩ ⟨2⟩ 1000000 0 ∧
      (belowSwap.before.pools.lookup ⟨⟨1⟩, ⟨2⟩⟩).map (·.sqrtPrice) = some 12247000000000000000 ∧
      belowSwap.result = .swapped ⟨21560, 48911, 3000, 12247334978884438016, -8192⟩ :=
  ⟨rfl, ⟨_, Contract.run_play _ belowWorld belowCalls (by decide)⟩, List.get_mem belowLog _, rfl,
    by decide, by decide⟩

end Stellara.Amm
