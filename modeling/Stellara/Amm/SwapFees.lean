import Stellara.Amm.Exits

/-!
# The fee of a swap and the tokens that pay for it

A swap splits its input into a fee and a net input, moves the price with the net input, credits the
fee to the fee growth of the pool, and then transfers the net input only. So nobody pays the fee
that is credited, and the books balance exactly when it rounds to zero.

## Main definitions

* `taken`: the tokens that a swap takes from the caller
* `growthGained`: what a swap adds to the fee growth of its pool
* `FeeConserved`: the caller pays the net input and the fee, and no more is credited than was paid

## Main results

* `taken_eq`: a swap takes the net input
* `fee_conserved_iff`: the swaps of every run
-/

namespace Stellara.Amm

variable {τ : Type}

/-- The tokens that a swap takes from the caller: what it has less of the token it sells, and what
it was paid out of the same token. -/
def taken [TokenClient τ Address Address] (s s' : State τ) (caller tokenIn tokenOut : Address)
    (result : SwapResult) : ℤ :=
  TokenClient.balance s.tokens tokenIn caller - TokenClient.balance s'.tokens tokenIn caller +
    if tokenIn = tokenOut then result.amountOut else 0

/-- What the fee growth of a pool gained, per unit of liquidity. -/
def growthGained (pool pool' : PoolState) : ℤ :=
  pool'.feeGrowthGlobalA - pool.feeGrowthGlobalA +
    (pool'.feeGrowthGlobalB - pool.feeGrowthGlobalB)

/-- A swap of `amountIn` units takes what moved the price and the fee, at most what was asked for,
and credits no more than what it took for the fee. -/
structure FeeConserved [TokenClient τ Address Address] (s s' : State τ)
    (caller tokenIn tokenOut : Address) (amountIn : ℤ) (result : SwapResult) : Prop where
  paid : taken s s' caller tokenIn tokenOut result = result.amountIn + result.feePaid
  bounded : taken s s' caller tokenIn tokenOut result ≤ amountIn
  credited : ∀ pool pool', s.pools.lookup (orderTokens tokenIn tokenOut).1 = some pool →
    s'.pools.lookup (orderTokens tokenIn tokenOut).1 = some pool' →
    growthGained pool pool' * pool.liquidity / Q64 ≤
      taken s s' caller tokenIn tokenOut result - result.amountIn

section Swap

variable [TokenClient τ Address Address] {s s' : State τ} {caller tokenIn tokenOut : Address}
  {amountIn minAmountOut : ℤ} {result : SwapResult} {now : ℕ}

/-- A swap takes the net input, and no fee. -/
theorem taken_eq [StandardToken τ Address Address]
    (h : swap now caller tokenIn tokenOut amountIn minAmountOut s = .ok (result, s')) :
    taken s s' caller tokenIn tokenOut result = result.amountIn := by
  obtain ⟨pool, pool', step, fees', tokens₁, tokens₂, ⟨hcaller, -⟩, -, -, -, -,
    ⟨htransfer₁, htransfer₂⟩, rfl, rfl⟩ := swap_eq_ok h
  rw [tokenTransfer_eq_ok] at htransfer₁ htransfer₂
  have hsold := StandardToken.transfer_src htransfer₁ hcaller
  have hpaid := StandardToken.transfer_balance htransfer₂ tokenIn caller
  rw [if_pos rfl, if_neg hcaller] at hpaid
  change TokenClient.balance s.tokens tokenIn caller - TokenClient.balance tokens₂ tokenIn caller +
    (if tokenIn = tokenOut then step.amountOut else 0) = step.amountIn
  split at hpaid <;> rename_i htoken
  · rw [if_pos htoken]
    omega
  · rw [if_neg htoken]
    omega

omit [TokenClient τ Address Address] in
/-- The fee of a swap rounds to zero exactly below one basis unit of the rate. -/
theorem swapFee_eq_zero_iff (pool : PoolState) (h : 0 ≤ amountIn) :
    swapFee pool amountIn = 0 ↔ amountIn * pool.dynamicFeeBps < 10000 := by
  have hnn : 0 ≤ amountIn * pool.dynamicFeeBps := Int.mul_nonneg h (Int.natCast_nonneg _)
  rw [swapFee, Int.tdiv_eq_ediv_of_nonneg hnn]
  omega

omit [TokenClient τ Address Address] in
/-- A swap credits the fee that it names. -/
theorem SwapMove.growthGained_eq {poolKey : PoolKey} {zeroForOne : Bool} {pool pool' : PoolState}
    (h : SwapMove s s' poolKey zeroForOne amountIn pool pool' result) :
    growthGained pool pool' = feeGain result.feePaid pool.liquidity := by
  rw [growthGained, h.pool_eq]
  cases zeroForOne with
  | true => simp
  | false => simp

/-- A swap conserves its fee exactly when the fee rounds to zero. -/
theorem SwapMove.feeConserved_iff {pool pool' : PoolState}
    (h : SwapMove s s' (orderTokens tokenIn tokenOut).1 (orderTokens tokenIn tokenOut).2 amountIn pool
      pool' result)
    (hsound : SoundPool (orderTokens tokenIn tokenOut).1 pool)
    (htaken : taken s s' caller tokenIn tokenOut result = result.amountIn) :
    FeeConserved s s' caller tokenIn tokenOut amountIn result ↔
      amountIn * pool.dynamicFeeBps < 10000 := by
  rw [← swapFee_eq_zero_iff pool h.amountIn_pos.le, ← h.feePaid]
  constructor
  · intro hconserved
    have hpaid := hconserved.paid
    omega
  · intro hzero
    refine ⟨by omega, htaken.trans_le (h.bounds hsound).2.1.2, ?_⟩
    intro before after hbefore hafter
    -- the two states are those of the move
    obtain rfl := Option.some.inj (h.lookup.symm.trans hbefore)
    rw [h.pools, AList.lookup_insert] at hafter
    obtain rfl := Option.some.inj hafter
    have hgain : growthGained pool pool' = 0 := by
      rw [h.growthGained_eq, hzero, feeGain, Int.zero_mul, Int.zero_tdiv]
    rw [hgain, htaken, Int.zero_mul, Int.zero_ediv, sub_self]

end Swap

/-! ## Runs -/

section Runs

variable [TokenClient τ Address Address] [StandardToken τ Address Address] {now : ℕ}
  {admin contractAddress : Address} {cbConfig : CircuitBreakerConfig} {tokens : τ}
  {w₀ w : World (State τ)} {log : List (Commit (State τ) Call Result)}

/-- In every run from `init` a swap conserves its fee exactly when the fee rounds to zero. -/
theorem fee_conserved_iff
    (hinit : init now admin cbConfig (.empty contractAddress tokens) = .ok w₀.store)
    (hrun : (contract τ).Run w₀ w log) {c : Commit (State τ) Call Result} (hc : c ∈ log)
    {caller tokenIn tokenOut : Address} {amountIn minAmountOut : ℤ} {r : SwapResult}
    (hcall : c.call = .swap caller tokenIn tokenOut amountIn minAmountOut)
    (hresult : c.result = .swapped r) :
    ∃ pool, c.before.pools.lookup (orderTokens tokenIn tokenOut).1 = some pool ∧
      (FeeConserved c.before c.after caller tokenIn tokenOut amountIn r ↔
        amountIn * pool.dynamicFeeBps < 10000) := by
  obtain ⟨hsound, -⟩ := (sound_of_run hinit hrun).2 c hc
  have hexec := hrun.exec_of_mem c hc
  rw [hcall, hresult] at hexec
  obtain ⟨⟨swapped, s'⟩, ht, hr, rfl⟩ := Except.map_pair_eq_ok.mp hexec
  obtain rfl := Result.swapped.inj hr
  obtain ⟨pool, pool', hmove⟩ := swap_move ht
  exact ⟨pool, hmove.lookup, hmove.feeConserved_iff (hsound.pool _ _ hmove.lookup) (taken_eq ht)⟩

end Runs

/-- The commits of a deposit and a swap of one unit. -/
def smallLog : List (Commit (State (Balances Address Address)) Call Result) :=
  ((contract _).play sampleWorld fundedCalls).2

/-- The commit of a swap of one unit, whose fee rounds to zero. -/
def smallCommit : Commit (State (Balances Address Address)) Call Result :=
  smallLog.get ⟨2, by decide⟩

theorem fee_conserved_iff_small :
    ∃ pool, smallCommit.before.pools.lookup (orderTokens ⟨2⟩ ⟨1⟩).1 = some pool ∧
      (FeeConserved smallCommit.before smallCommit.after ⟨5⟩ ⟨2⟩ ⟨1⟩ 1 ⟨1, 0, 0, Q64, 0⟩ ↔
        (1 : ℤ) * pool.dynamicFeeBps < 10000) :=
  fee_conserved_iff
    (show init 0 ⟨5⟩ ⟨1000000000000, 1000, 3600⟩ (.empty ⟨9⟩ sampleTokens) =
      .ok sampleWorld.store from rfl)
    (Contract.run_play _ sampleWorld fundedCalls (by decide)) (List.get_mem smallLog _)
    (show smallCommit.call = .swap ⟨5⟩ ⟨2⟩ ⟨1⟩ 1 0 from rfl) (by decide)

/-- The commits of a deposit and a swap to the next tick. -/
def feeLog : List (Commit (State (Balances Address Address)) Call Result) :=
  ((contract _).play sampleWorld unfundedCalls).2

/-- The commit of a swap to the next tick, with a fee. -/
def feeCommit : Commit (State (Balances Address Address)) Call Result :=
  feeLog.get ⟨2, by decide⟩

/-- The fee of a swap is credited to the pool, and not taken from the caller. -/
theorem swap_fee_not_taken :
    init 0 ⟨5⟩ ⟨1000000000000, 1000, 3600⟩ (.empty ⟨9⟩ sampleTokens) = .ok sampleWorld.store ∧
      (∃ w, (contract _).Run sampleWorld w feeLog) ∧ feeCommit ∈ feeLog ∧
      feeCommit.call = .swap ⟨5⟩ ⟨1⟩ ⟨2⟩ 2000000000000000 0 ∧
      ∃ r, feeCommit.result = .swapped r ∧ r.feePaid = 6000000000000 ∧
        ¬ FeeConserved feeCommit.before feeCommit.after ⟨5⟩ ⟨1⟩ ⟨2⟩ 2000000000000000 r := by
  refine ⟨rfl, ⟨_, Contract.run_play _ sampleWorld unfundedCalls (by decide)⟩,
    List.get_mem feeLog _, rfl, _, rfl, by decide, fun h => ?_⟩
  exact absurd h.paid (by decide)

end Stellara.Amm
