import Stellara.Amm.ActiveLiquidity

/-!
# The pools of a pair

A pool is stored under its two tokens in the order of the call that creates it, and liquidity
is added under the order of the call that adds it. A swap looks for the pool under the smaller
token first. So two pools of a pair can exist, and a pool that is stored the other way round is
never swapped in.

## Main definitions

* `OnePoolPerPair`: at most one pool of every two tokens
* `HoldsLiquidity`, `ReachedBySwap`: pools that hold liquidity, and pools that swaps find
* `Canonical`: the calls that keep to the order of swaps

## Main results

* `reachedBySwap_iff`: swaps find a pool in both directions or in none
* `Step.paired_iff`: what a step preserves
* `pool_pairs_iff`: every run
-/

namespace Stellara.Amm

/-! ## Pairs -/

variable {τ : Type}

/-- Of every two distinct tokens at most one pool exists. -/
def OnePoolPerPair (s : State τ) : Prop :=
  ∀ tokenA tokenB, tokenA ≠ tokenB → (s.pools.lookup ⟨tokenA, tokenB⟩).isSome →
    s.pools.lookup ⟨tokenB, tokenA⟩ = none

/-- The pool counts liquidity, or a position provides liquidity to it. -/
def HoldsLiquidity (s : State τ) (poolKey : PoolKey) : Prop :=
  (∃ pool, s.pools.lookup poolKey = some pool ∧ pool.liquidity ≠ 0) ∨
    ∃ id p, s.positions.lookup id = some p ∧ p.poolKey = poolKey ∧ p.liquidity ≠ 0

/-- A swap of either token of the pool for the other is made in the pool. -/
def ReachedBySwap (poolKey : PoolKey) : Prop :=
  (orderTokens poolKey.tokenA poolKey.tokenB).1 = poolKey ∧
    (orderTokens poolKey.tokenB poolKey.tokenA).1 = poolKey

/-- One pool per pair, and every pool that holds liquidity is reached by swaps. -/
def Paired (s : State τ) : Prop :=
  OnePoolPerPair s ∧ ∀ poolKey, HoldsLiquidity s poolKey → ReachedBySwap poolKey

/-- The call does not create a second pool of a pair, and adds no liquidity to a pool that is
stored under the greater token first. -/
def Canonical (s : State τ) : Call → Prop
  | .createPool _ tokenA tokenB _ _ =>
    tokenA ≠ tokenB → s.pools.lookup ⟨tokenB, tokenA⟩ = none
  | .addLiquidity _ tokenA tokenB _ _ _ _ _ _ => ¬ tokenB < tokenA
  | _ => True

/-- The key that a swap derives has no greater token first. -/
theorem not_lt_orderTokens (tokenIn tokenOut : Address) :
    ¬ (orderTokens tokenIn tokenOut).1.tokenB < (orderTokens tokenIn tokenOut).1.tokenA := by
  unfold orderTokens
  split
  · exact Address.lt_asymm ‹_›
  · assumption

/-- Swaps find a pool in both directions unless it is stored under its greater token first. -/
theorem reachedBySwap_iff (poolKey : PoolKey) :
    ReachedBySwap poolKey ↔ ¬ poolKey.tokenB < poolKey.tokenA := by
  obtain ⟨⟨a⟩, ⟨b⟩⟩ := poolKey
  constructor
  · -- a key that swaps derive has no greater token first
    rintro ⟨hkey, -⟩
    rw [← hkey]
    exact not_lt_orderTokens _ _
  · intro hle
    unfold ReachedBySwap
    simp only at hle ⊢
    rw [Address.lt_iff] at hle
    constructor
    · rcases Nat.lt_or_ge a b with hlt | hge
      · rw [orderTokens, if_pos (by exact hlt)]
      · -- the two tokens are the same
        obtain rfl : a = b := Nat.le_antisymm (not_lt.mp hle) hge
        rw [orderTokens, if_neg (by exact hle)]
    · rw [orderTokens, if_neg (by exact hle)]

/-! ## Steps -/

section Steps

variable {s s' : State τ} {call : Call} {result : Result} {poolKey : PoolKey}

/-- Only `createPool` creates a pool, and none is removed. -/
theorem Step.isSome_pool_iff (hstep : Step s s' call result) :
    (s'.pools.lookup poolKey).isSome ↔
      (∃ caller feeTier initSqrtPrice,
        call = .createPool caller poolKey.tokenA poolKey.tokenB feeTier initSqrtPrice) ∨
      (s.pools.lookup poolKey).isSome := by
  cases hstep with
  | created _ hstep =>
    rw [hstep.pools, Store.isSome_insert]
    -- the created pool is that of the call
    refine or_congr_left ⟨?_, ?_⟩
    · rintro rfl
      exact ⟨_, _, _, rfl⟩
    · rintro ⟨_, _, _, hcall⟩
      simp only [Call.createPool.injEq] at hcall
      obtain ⟨-, rfl, rfl, -, -⟩ := hcall
      rfl
  | added _ _ hstep | removed hstep | swapped hstep | repriced hstep =>
    simp [hstep.pools, Store.isSome_insert_of_lookup hstep.lookup]
  | collected _ _ hstep | paused hstep | unpaused hstep => simp [hstep.pools]

/-- A pool that is provided with liquidity by a position holds it. -/
theorem Sound.holdsLiquidity (hsound : Sound s.pools s.positionCount s.positions) {id : ℕ}
    {p : LpPosition} (hp : s.positions.lookup id = some p) : HoldsLiquidity s p.poolKey :=
  .inr ⟨id, p, hp, rfl, (hsound.position id p hp).liquidity_pos.ne'⟩

/-- A step that writes one pool, which held liquidity if it counts some now, and no new position
gives no pool liquidity. -/
theorem HoldsLiquidity.of_write {written : PoolKey} {pool' : PoolState}
    (hpools : s'.pools = s.pools.insert written pool')
    (hwritten : pool'.liquidity ≠ 0 → HoldsLiquidity s written)
    (hpositions : ∀ id p, s'.positions.lookup id = some p → HoldsLiquidity s p.poolKey)
    (h : HoldsLiquidity s' poolKey) : HoldsLiquidity s poolKey := by
  -- either the pool counts liquidity, or a position provides it
  rcases h with ⟨pool, hpool, hne⟩ | ⟨id, p, hp, rfl, -⟩
  · rw [hpools] at hpool
    rcases Store.eq_or_lookup_of_insert hpool with ⟨rfl, rfl⟩ | ⟨-, hold⟩
    · exact hwritten hne
    · exact .inl ⟨pool, hold, hne⟩
  · exact hpositions id p hp

/-- A pool gets liquidity by `addLiquidity` under its own key only. -/
theorem Step.holdsLiquidity (hsound : Sound s.pools s.positionCount s.positions)
    (hstep : Step s s' call result) (h : HoldsLiquidity s' poolKey) :
    HoldsLiquidity s poolKey ∨
      ∃ caller tickLower tickUpper amountDesiredA amountDesiredB minA minB,
        call = .addLiquidity caller poolKey.tokenA poolKey.tokenB tickLower tickUpper
          amountDesiredA amountDesiredB minA minB := by
  -- most steps leave the positions, and each stored one has liquidity
  have hkept : s'.positions = s.positions →
      ∀ id p, s'.positions.lookup id = some p → HoldsLiquidity s p.poolKey := by
    intro hpositions id p hp
    rw [hpositions] at hp
    exact hsound.holdsLiquidity hp
  cases hstep with
  | created _ hstep =>
    refine .inl (h.of_write hstep.pools (fun hne => ?_) (hkept hstep.positions))
    -- a new pool counts no liquidity
    rw [hstep.pool_eq] at hne
    exact absurd rfl hne
  | @added caller tokenA tokenB tickLower tickUpper amountDesiredA amountDesiredB minA minB _ _ _ p
      hkey _ hstep =>
    by_cases hwritten : poolKey = p.poolKey
    · rw [hwritten, hkey]
      exact .inr ⟨caller, tickLower, tickUpper, amountDesiredA, amountDesiredB, minA, minB, rfl⟩
    · left
      rcases h with ⟨pool, hpool, hne⟩ | ⟨id, q, hq, rfl, hne⟩
      · rw [hstep.pools, Store.lookup_insert_ite, if_neg hwritten] at hpool
        exact .inl ⟨pool, hpool, hne⟩
      · rw [hstep.positions] at hq
        rcases Store.eq_or_lookup_of_insert hq with ⟨-, rfl⟩ | ⟨-, hold⟩
        · exact absurd rfl hwritten
        · exact hsound.holdsLiquidity hold
  | removed hstep =>
    have hp := hsound.holdsLiquidity hstep.lookup_position
    refine .inl (h.of_write hstep.pools (fun _ => hp) fun id q hq => ?_)
    rw [hstep.positions] at hq
    rcases eq_or_lookup_of_stored hq with ⟨-, -, rfl⟩ | ⟨-, hold⟩
    · exact hp
    · exact hsound.holdsLiquidity hold
  | collected _ _ hstep =>
    have hp := hsound.holdsLiquidity hstep.lookup_position
    left
    rcases h with ⟨pool, hpool, hne⟩ | ⟨id, q, hq, rfl, -⟩
    · rw [hstep.pools] at hpool
      exact .inl ⟨pool, hpool, hne⟩
    · rw [hstep.positions] at hq
      rcases Store.eq_or_lookup_of_insert hq with ⟨-, rfl⟩ | ⟨-, hold⟩
      · exact hp
      · exact hsound.holdsLiquidity hold
  | swapped hstep =>
    refine .inl (h.of_write hstep.pools (fun _ => ?_) (hkept hstep.positions))
    -- a swap is made in a pool that counts liquidity already
    exact .inl ⟨_, hstep.lookup, hstep.liquidity_ne⟩
  | repriced hstep =>
    refine .inl (h.of_write hstep.pools (fun hne => ?_) (hkept hstep.positions))
    exact .inl ⟨_, hstep.lookup, by rw [← hstep.liquidity]; exact hne⟩
  | paused hstep | unpaused hstep =>
    unfold HoldsLiquidity at h
    rw [hstep.pools, hstep.positions] at h
    exact .inl h

/-- A step keeps one pool per pair, and swaps in every pool that holds liquidity, exactly when
its call keeps to the order of swaps. -/
theorem Step.paired_iff (hsound : Sound s.pools s.positionCount s.positions) (h : Paired s)
    (hstep : Step s s' call result) : Paired s' ↔ Canonical s call := by
  constructor
  · rintro ⟨hone, hreached⟩
    cases hstep with
    | @created caller tokenA tokenB _ _ _ _ hstep =>
      intro hne
      -- the created pool exists now, so the other one of the pair does not
      have hnone := hone tokenA tokenB hne (by
        rw [hstep.pools, Store.isSome_insert]
        exact .inl rfl)
      rw [hstep.pools, Store.lookup_insert_ite] at hnone
      split at hnone
      · cases hnone
      · exact hnone
    | @added _ tokenA tokenB _ _ _ _ _ _ _ _ _ p hkey _ hstep =>
      -- the pool of the new position holds liquidity now
      refine (reachedBySwap_iff ⟨tokenA, tokenB⟩).mp (hreached _ (.inr ?_))
      refine ⟨s.positionCount + 1, p, ?_, hkey, hstep.liquidity_pos.ne'⟩
      rw [hstep.positions]
      exact AList.lookup_insert _
    | _ => trivial
  · intro hcanonical
    refine ⟨fun tokenA tokenB hne hsome => ?_, fun poolKey hholds => ?_⟩
    · -- of the two pools of a pair, none is created while the other exists
      by_contra hother
      have hsome' : (s'.pools.lookup ⟨tokenB, tokenA⟩).isSome := Option.isSome_iff_ne_none.mpr hother
      rcases hstep.isSome_pool_iff.mp hsome with ⟨_, _, _, rfl⟩ | hold
      · have hnone := hcanonical hne
        rcases hstep.isSome_pool_iff.mp hsome' with ⟨_, _, _, hcall⟩ | hold'
        · simp only [Call.createPool.injEq] at hcall
          exact hne hcall.2.1
        · rw [hnone] at hold'
          cases hold'
      · rcases hstep.isSome_pool_iff.mp hsome' with ⟨_, _, _, rfl⟩ | hold'
        · have hnone := hcanonical hne.symm
          rw [hnone] at hold
          cases hold
        · rw [h.1 tokenA tokenB hne hold] at hold'
          cases hold'
    · -- a pool that gets its first liquidity gets it by the call
      rcases hstep.holdsLiquidity hsound hholds with hheld | ⟨_, _, _, _, _, _, _, rfl⟩
      · exact h.2 poolKey hheld
      · exact (reachedBySwap_iff poolKey).mpr hcanonical

end Steps

/-! ## Runs -/

/-- In every run from `init` there is one pool per pair in every state, and swaps reach every pool
that holds liquidity, exactly when every committed call keeps to the order of swaps. -/
theorem pool_pairs_iff {τ : Type} [TokenClient τ Address Address] {now : ℕ}
    {admin contractAddress : Address} {cbConfig : CircuitBreakerConfig} {tokens : τ}
    {w₀ w : World (State τ)} {log : List (Commit (State τ) Call Result)}
    (hinit : init now admin cbConfig (.empty contractAddress tokens) = .ok w₀.store)
    (hrun : (contract τ).Run w₀ w log) :
    (Paired w.store ∧ ∀ c ∈ log, Paired c.before ∧ Paired c.after) ↔
      ∀ c ∈ log, Canonical c.before c.call := by
  refine hrun.invariant_iff (S := fun s => Sound s.pools s.positionCount s.positions)
    (G := fun c => Canonical c.before c.call) (fun _ _ _ _ _ hs he => execute_sound hs he)
    (fun c hsound hpaired he => (execute_step he).paired_iff hsound hpaired) ?_ ?_
  · rw [(init_eq_ok hinit).2]
    exact .empty
  · rw [(init_eq_ok hinit).2]
    refine ⟨fun _ _ _ _ => rfl, ?_⟩
    rintro poolKey (⟨_, hpool, -⟩ | ⟨_, _, hp, -⟩)
    · cases hpool
    · cases hp

theorem pool_pairs_iff_sample :
    (Paired ((contract _).play rangeWorld (rangeCalls 2)).1.store ∧
        ∀ c ∈ ((contract _).play rangeWorld (rangeCalls 2)).2, Paired c.before ∧ Paired c.after) ↔
      ∀ c ∈ ((contract _).play rangeWorld (rangeCalls 2)).2, Canonical c.before c.call :=
  pool_pairs_iff
    (show init 0 ⟨5⟩ ⟨1000000000000, 1000, 3600⟩ (.empty ⟨9⟩ rangeWorld.store.tokens) =
      .ok rangeWorld.store from rfl)
    (Contract.run_play _ rangeWorld (rangeCalls 2) (by decide))

/-- The pool of the tokens 1 and 2, the pool of 2 and 1, and a deposit in the second. -/
def reversedCalls : List (ℕ × Call) :=
  [(1, .createPool ⟨5⟩ ⟨1⟩ ⟨2⟩ 30 Q64), (2, .createPool ⟨5⟩ ⟨2⟩ ⟨1⟩ 30 Q64),
    (3, .addLiquidity ⟨5⟩ ⟨2⟩ ⟨1⟩ (-512) 512 1000000000 1000000000 0 0)]

/-- A pair gets a second pool, which holds liquidity that no swap reaches. -/
theorem reversed_pool :
    init 0 ⟨5⟩ ⟨1000000000000, 1000, 3600⟩ (.empty ⟨9⟩ rangeWorld.store.tokens) =
        .ok rangeWorld.store ∧
      ∃ w log, (contract _).Run rangeWorld w log ∧ ¬ OnePoolPerPair w.store ∧
        HoldsLiquidity w.store ⟨⟨2⟩, ⟨1⟩⟩ ∧ ¬ ReachedBySwap ⟨⟨2⟩, ⟨1⟩⟩ := by
  refine ⟨rfl, _, _, Contract.run_play _ rangeWorld reversedCalls (by decide), fun hone => ?_,
    .inl ?_, fun hreached => ?_⟩
  · exact absurd (hone ⟨1⟩ ⟨2⟩ (by decide) (by decide)) (by decide)
  · obtain ⟨pool, hpool⟩ := Option.isSome_iff_exists.mp (show
      (((contract _).play rangeWorld reversedCalls).1.store.pools.lookup ⟨⟨2⟩, ⟨1⟩⟩).isSome by decide)
    have hne : ∀ pool ∈ ((contract _).play rangeWorld reversedCalls).1.store.pools.lookup ⟨⟨2⟩, ⟨1⟩⟩,
        pool.liquidity ≠ 0 := by decide
    exact ⟨pool, hpool, hne pool hpool⟩
  · exact absurd hreached.1 (by decide)

end Stellara.Amm
