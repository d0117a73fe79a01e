import Stellara.Amm.Steps

/-!
# Reachable states of the market maker

The tick of a pool is that of its price, its two counters of liquidity agree, and positions have
liquidity in a range of ticks of an existing pool.

## Main definitions

* `Sound`: what holds of the pools and the positions after every run

## Main results

* `execute_sound`: what a call preserves
* `sound_of_run`: every run
-/

namespace Stellara.Amm

/-- What holds of every pool. -/
structure SoundPool (poolKey : PoolKey) (pool : PoolState) : Prop where
  tokenA : pool.tokenA = poolKey.tokenA
  tokenB : pool.tokenB = poolKey.tokenB
  price_pos : 0 < pool.sqrtPrice
  currentTick : pool.currentTick = sqrtPriceToTick pool.sqrtPrice
  liquidity_nonneg : 0 ≤ pool.liquidity
  liquidity_le : pool.liquidity ≤ i128Max
  active : pool.activeLiquidity = pool.liquidity

/-- What holds of every position. -/
structure SoundPosition (pools : Store PoolKey PoolState) (id : ℕ) (p : LpPosition) : Prop where
  id_eq : p.id = id
  liquidity_pos : 0 < p.liquidity
  liquidity_le : p.liquidity ≤ i128Max
  tickLower : minTick ≤ p.tickLower
  ticks : p.tickLower < p.tickUpper
  tickUpper : p.tickUpper ≤ maxTick
  pool : (pools.lookup p.poolKey).isSome

/-- What holds of the pools and the positions after every run. -/
structure Sound (pools : Store PoolKey PoolState) (positionCount : ℕ)
    (positions : Store ℕ LpPosition) : Prop where
  pool : ∀ poolKey pool, pools.lookup poolKey = some pool → SoundPool poolKey pool
  position : ∀ id p, positions.lookup id = some p → SoundPosition pools id p
  fresh : ∀ id, positionCount < id → positions.lookup id = none

/-! ## Writes -/

section Stored

variable {positions : Store ℕ LpPosition} {p p' q : LpPosition} {id : ℕ}

/-- A position of the updated store is the stored one, or an old one under another id. -/
theorem eq_or_lookup_of_stored (h : (stored positions p).lookup id = some q) :
    (p.liquidity ≠ 0 ∧ id = p.id ∧ q = p) ∨ (id ≠ p.id ∧ positions.lookup id = some q) := by
  unfold stored at h
  split at h
  · rw [Store.lookup_erase_ite] at h
    split at h
    · cases h
    · exact .inr ⟨‹_›, h⟩
  · rcases Store.eq_or_lookup_of_insert h with ⟨hid, hq⟩ | ⟨hne, hold⟩
    · exact .inl ⟨‹_›, hid, hq⟩
    · exact .inr ⟨hne, hold⟩

/-- The other positions stay. -/
theorem lookup_stored_of_ne (h : id ≠ p.id) :
    (stored positions p).lookup id = positions.lookup id := by
  unfold stored
  split
  · rw [Store.lookup_erase_ite, if_neg h]
  · rw [Store.lookup_insert_ite, if_neg h]

/-- A stored position exchanges its contribution to a sum; one without liquidity must contribute
nothing. -/
theorem total_stored {f : LpPosition → ℤ} (hp : positions.lookup p'.id = some p)
    (hzero : p'.liquidity = 0 → f p' = 0) :
    f p + (stored positions p').total (fun _ => f) = f p' + positions.total (fun _ => f) := by
  unfold stored
  split
  · rename_i hl
    rw [Store.total_erase (f := fun _ => f) hp, hzero hl, zero_add]
  · exact Store.total_insert_old (f := fun _ => f) hp

/-- A position that is written back with another liquidity changes the liquidity at the ticks of
its range. -/
theorem rangeLiquidity_stored (p' : LpPosition) (hp : positions.lookup p'.id = some p)
    (hkey : p'.poolKey = p.poolKey) (hlower : p'.tickLower = p.tickLower)
    (hupper : p'.tickUpper = p.tickUpper) (poolKey : PoolKey) (tick : ℤ) :
    rangeLiquidity (stored positions p') poolKey tick = rangeLiquidity positions poolKey tick -
      if InRange poolKey tick p then p.liquidity - p'.liquidity else 0 := by
  have hsum := total_stored (f := fun q => if InRange poolKey tick q then q.liquidity else 0) hp
    fun hzero => by rw [hzero, ite_self]
  -- the range and the pool stay, so the position counts at the same ticks
  have hiff : InRange poolKey tick p' ↔ InRange poolKey tick p := by
    unfold InRange
    rw [hkey, hlower, hupper]
  simp only [hiff] at hsum
  unfold rangeLiquidity
  split at hsum
  · rename_i hin
    rw [if_pos hin]
    omega
  · rename_i hout
    rw [if_neg hout]
    omega

end Stored

namespace Sound

variable {pools : Store PoolKey PoolState} {positionCount id : ℕ} {positions : Store ℕ LpPosition}
  {poolKey : PoolKey} {pool : PoolState} {p : LpPosition}

theorem empty : Sound ∅ 0 ∅ where
  pool _ _ h := by cases h
  position _ _ h := by cases h
  fresh _ _ := rfl

/-- A sound pool is written. -/
theorem insertPool (h : Sound pools positionCount positions) (hpool : SoundPool poolKey pool) :
    Sound (pools.insert poolKey pool) positionCount positions where
  pool key pool' hlookup := by
    rcases Store.eq_or_lookup_of_insert hlookup with ⟨rfl, rfl⟩ | ⟨-, hold⟩
    · exact hpool
    · exact h.pool key pool' hold
  position id p hp := by
    refine { h.position id p hp with pool := ?_ }
    rw [Store.lookup_insert_ite]
    split
    · rfl
    · exact (h.position id p hp).pool
  fresh := h.fresh

/-- A position is created. -/
theorem mint (h : Sound pools positionCount positions)
    (hp : SoundPosition pools (positionCount + 1) p) :
    Sound pools (positionCount + 1) (AList.insert (positionCount + 1) p positions) where
  pool := h.pool
  position id q hq := by
    rcases Store.eq_or_lookup_of_insert hq with ⟨rfl, rfl⟩ | ⟨-, hold⟩
    · exact hp
    · exact h.position id q hold
  fresh id hlt := by
    rw [Store.lookup_insert_ite, if_neg (by omega)]
    exact h.fresh id (by omega)

/-- The key of a position is not above the counter. -/
theorem id_le (h : Sound pools positionCount positions) (hp : positions.lookup id = some p) :
    id ≤ positionCount := by
  by_contra hlt
  rw [h.fresh id (by omega)] at hp
  cases hp

/-- A position is written back with other fees and less liquidity. -/
theorem store (h : Sound pools positionCount positions) (hp : positions.lookup id = some p)
    (p' : LpPosition) (hid : p'.id = p.id) (hkey : p'.poolKey = p.poolKey)
    (hlower : p'.tickLower = p.tickLower) (hupper : p'.tickUpper = p.tickUpper) (hnn : 0 ≤ p'.liquidity)
    (hle : p'.liquidity ≤ p.liquidity) : Sound pools positionCount (stored positions p') := by
  have hsound := h.position id p hp
  refine ⟨h.pool, fun id' q hq => ?_, fun id' hlt => ?_⟩
  · rcases eq_or_lookup_of_stored hq with ⟨hne, rfl, rfl⟩ | ⟨-, hold⟩
    · have hpos := hsound.liquidity_pos
      exact
        { id_eq := rfl
          liquidity_pos := lt_of_le_of_ne hnn (Ne.symm hne)
          liquidity_le := hle.trans hsound.liquidity_le
          tickLower := hlower ▸ hsound.tickLower
          ticks := by rw [hlower, hupper]; exact hsound.ticks
          tickUpper := hupper ▸ hsound.tickUpper
          pool := hkey ▸ hsound.pool }
    · exact h.position id' q hold
  · have hne : id' ≠ p'.id := by
      have := h.id_le hp
      rw [hid, hsound.id_eq]
      omega
    rw [lookup_stored_of_ne hne]
    exact h.fresh id' hlt

end Sound

/-! ## Steps -/

section Pools

variable {poolKey : PoolKey} {pool pool' : PoolState}

theorem soundPool_newPool (tokenA tokenB : Address) (feeTier : ℕ) {initSqrtPrice : ℤ}
    (h : 0 < initSqrtPrice) :
    SoundPool ⟨tokenA, tokenB⟩ (newPool tokenA tokenB feeTier initSqrtPrice) where
  tokenA := rfl
  tokenB := rfl
  price_pos := h
  currentTick := rfl
  liquidity_nonneg := le_rfl
  liquidity_le := IntFormat.i128.hi_nonneg
  active := rfl

/-- A write that leaves the price of a sound pool, and counts its liquidity twice. -/
theorem SoundPool.update (h : SoundPool poolKey pool) (hmarket : SameMarket pool pool')
    (hnn : 0 ≤ pool'.liquidity) (hle : pool'.liquidity ≤ i128Max)
    (hactive : pool'.activeLiquidity = pool'.liquidity) : SoundPool poolKey pool' where
  tokenA := hmarket.tokenA.trans h.tokenA
  tokenB := hmarket.tokenB.trans h.tokenB
  price_pos := hmarket.sqrtPrice ▸ h.price_pos
  -- the tick is that of the price, and neither of them is written
  currentTick := by rw [hmarket.currentTick, hmarket.sqrtPrice, h.currentTick]
  liquidity_nonneg := hnn
  liquidity_le := hle
  active := hactive

end Pools

/-- A swap step from a positive price to the price of a tick ends between the two. -/
theorem stepTo_between {current target liquidity after : ℤ} (hcurrent : 0 < current)
    (htarget : OnTable target) (hpos : 0 < liquidity) (hafter : 0 ≤ after) :
    (min current target ≤ (stepTo current target liquidity after).1 ∧
      (stepTo current target liquidity after).1 ≤ max current target) ∧
      (0 ≤ (stepTo current target liquidity after).2.1 ∧
        (stepTo current target liquidity after).2.1 ≤ after) ∧
      0 ≤ (stepTo current target liquidity after).2.2 := by
  unfold stepTo
  split
  · rename_i hlt
    obtain ⟨⟨hlow, hhigh⟩, hin, hout⟩ := stepDown_between htarget.pos hlt hpos.le hafter
    exact ⟨⟨by omega, by omega⟩, hin, hout⟩
  · rename_i hge
    have htable := htarget.le_i128Max
    obtain ⟨⟨hlow, hhigh⟩, hin, hout⟩ := stepUp_between hcurrent (not_lt.mp hge) (by omega) hpos
      hafter
    exact ⟨⟨by omega, by omega⟩, hin, hout⟩

section Steps

variable {τ : Type} {s s' : State τ} {poolKey : PoolKey} {pool pool' : PoolState}

theorem LiquidityAdded.soundPool {p : LpPosition} (h : LiquidityAdded s s' pool pool' p)
    (hsound : SoundPool p.poolKey pool) : SoundPool p.poolKey pool' := by
  have hnn := hsound.liquidity_nonneg
  have hpos := h.liquidity_pos
  have hactive := hsound.active
  -- both counters gain the same, and neither is negative before
  refine hsound.update h.market ?_ (h.pool_le hsound.liquidity_le) ?_
  · rw [h.liquidity]
    split <;> omega
  · rw [h.liquidity, h.active]
    split <;> omega

theorem LiquidityRemoved.soundPool {id : ℕ} {p : LpPosition} {r : ℤ}
    (h : LiquidityRemoved s s' id pool pool' p r) (hsound : SoundPool p.poolKey pool) :
    SoundPool p.poolKey pool' := by
  have hnn := hsound.liquidity_nonneg
  have hle := hsound.liquidity_le
  have hpos := h.pos
  have hactive := hsound.active
  -- both counters lose the same, and are clamped alike
  refine hsound.update h.market ?_ ?_ ?_
  · rw [h.liquidity]
    split <;> omega
  · rw [h.liquidity]
    split <;> omega
  · rw [h.liquidity, h.active]
    split <;> omega

namespace SwapMove

variable {zeroForOne : Bool} {amountIn : ℤ} {result : SwapResult}

theorem liquidity_pos (h : SwapMove s s' poolKey zeroForOne amountIn pool pool' result)
    (hsound : SoundPool poolKey pool) : 0 < pool.liquidity := by
  have hnn := hsound.liquidity_nonneg
  have hne := h.liquidity_ne
  omega

/-- The price stays between the old one and the target, and the amounts are in bounds. -/
theorem bounds (h : SwapMove s s' poolKey zeroForOne amountIn pool pool' result)
    (hsound : SoundPool poolKey pool) :
    (min pool.sqrtPrice (targetPrice pool zeroForOne) ≤ result.newSqrtPrice ∧
      result.newSqrtPrice ≤ max pool.sqrtPrice (targetPrice pool zeroForOne)) ∧
      (0 ≤ result.amountIn ∧ result.amountIn ≤ amountIn) ∧ 0 ≤ result.amountOut := by
  obtain ⟨hbetween, ⟨hin, hle⟩, hout⟩ := stepTo_between hsound.price_pos
    (onTable_targetPrice pool zeroForOne) (h.liquidity_pos hsound) (netInput_nonneg pool amountIn)
  rw [← h.step] at hbetween hin hle hout
  exact ⟨hbetween, ⟨hin, hle.trans (netInput_le pool h.amountIn_pos.le)⟩, hout⟩

theorem soundPool (h : SwapMove s s' poolKey zeroForOne amountIn pool pool' result)
    (hsound : SoundPool poolKey pool) : SoundPool poolKey pool' := by
  -- the new price is between two positive prices
  have hlow := (h.bounds hsound).1.1
  have hprice := hsound.price_pos
  have htarget := (onTable_targetPrice pool zeroForOne).pos
  rw [h.pool_eq]
  exact { hsound with price_pos := by show 0 < result.newSqrtPrice; omega, currentTick := rfl }

end SwapMove

theorem FeesCollected.sound {id : ℕ} {p : LpPosition} (h : FeesCollected s s' id pool p)
    (hsound : Sound s.pools s.positionCount s.positions) :
    Sound s'.pools s'.positionCount s'.positions := by
  have hpos := (hsound.position _ _ h.lookup_position).liquidity_pos
  have hstored := hsound.store h.lookup_position (afterCollection p
    (insideNow s.tickFees pool p true) (insideNow s.tickFees pool p false)) rfl rfl rfl rfl hpos.le
    le_rfl
  -- a position with liquidity is written back, not deleted
  have hkept : (afterCollection p (insideNow s.tickFees pool p true)
    (insideNow s.tickFees pool p false)).liquidity ≠ 0 := hpos.ne'
  rw [stored, if_neg hkept] at hstored
  rw [h.pools, h.positionCount, h.positions]
  exact hstored

/-- Every step leaves sound pools and positions. -/
theorem Step.sound {call : Call} {result : Result}
    (h : Sound s.pools s.positionCount s.positions) (hstep : Step s s' call result) :
    Sound s'.pools s'.positionCount s'.positions := by
  cases hstep with
  | created _ hstep =>
    rw [hstep.pools, hstep.positionCount, hstep.positions, hstep.pool_eq]
    exact h.insertPool (soundPool_newPool _ _ _ hstep.price_pos)
  | added _ _ hstep =>
    rw [hstep.pools, hstep.positionCount, hstep.positions]
    refine Sound.mint (h.insertPool (hstep.soundPool (h.pool _ _ hstep.lookup)))
      { id_eq := hstep.id_eq
        liquidity_pos := hstep.liquidity_pos
        liquidity_le := hstep.liquidity_le
        tickLower := hstep.tickLower
        ticks := hstep.ticks
        tickUpper := hstep.tickUpper
        pool := ?_ }
    exact Option.isSome_iff_exists.mpr ⟨_, AList.lookup_insert _⟩
  | removed hstep =>
    have hpos := hstep.pos
    have hle := hstep.le
    rw [hstep.pools, hstep.positionCount, hstep.positions]
    -- the liquidity that is left is between zero and what there was
    exact (h.insertPool (hstep.soundPool (h.pool _ _ hstep.lookup))).store hstep.lookup_position _
      rfl rfl rfl rfl (Int.sub_nonneg_of_le hle) (Int.sub_le_self _ hpos.le)
  | collected _ _ hstep =>
    exact hstep.sound h
  | swapped hstep =>
    rw [hstep.pools, hstep.positionCount, hstep.positions]
    exact h.insertPool (hstep.soundPool (h.pool _ _ hstep.lookup))
  | repriced hstep =>
    have hsound := h.pool _ _ hstep.lookup
    rw [hstep.pools, hstep.positionCount, hstep.positions]
    refine h.insertPool (hsound.update hstep.market ?_ ?_ ?_)
    · rw [hstep.liquidity]
      exact hsound.liquidity_nonneg
    · rw [hstep.liquidity]
      exact hsound.liquidity_le
    · rw [hstep.active, hstep.liquidity]
      exact hsound.active
  | paused hstep | unpaused hstep =>
    rw [hstep.pools, hstep.positionCount, hstep.positions]
    exact h

end Steps

/-! ## Runs -/

section Runs

variable {τ : Type} [TokenClient τ Address Address] {s s' : State τ} {now : ℕ} {call : Call}
  {result : Result}

/-- Every call leaves sound pools and positions. -/
theorem execute_sound (h : Sound s.pools s.positionCount s.positions)
    (hexec : execute now s call = .ok (result, s')) :
    Sound s'.pools s'.positionCount s'.positions :=
  (execute_step hexec).sound h

omit [TokenClient τ Address Address] in
/-- What `init` leaves. -/
theorem init_eq_ok {admin : Address} {cbConfig : CircuitBreakerConfig}
    (h : init now admin cbConfig s = .ok s') :
    s.initialized = false ∧ s' = { s with
      acl := adminAcl admin s.acl
      initialized := true
      poolCount := 0
      breaker := CircuitBreaker.init now cbConfig s.breaker } := by
  simp only [init, Except.bind_eq_ok, require_eq_ok, exists_const] at h
  exact ⟨h.1, (Except.ok.inj h.2).symm⟩

/-- After every run from `init` the pools and the positions are sound. -/
theorem sound_of_run {admin contractAddress : Address} {cbConfig : CircuitBreakerConfig} {tokens : τ}
    {w₀ w : World (State τ)} {log : List (Commit (State τ) Call Result)}
    (hinit : init now admin cbConfig (.empty contractAddress tokens) = .ok w₀.store)
    (hrun : (contract τ).Run w₀ w log) :
    Sound w.store.pools w.store.positionCount w.store.positions ∧
      ∀ c ∈ log, Sound c.before.pools c.before.positionCount c.before.positions ∧
        Sound c.after.pools c.after.positionCount c.after.positions := by
  -- `init` leaves no pools and no positions
  have hstart : Sound w₀.store.pools w₀.store.positionCount w₀.store.positions := by
    rw [(init_eq_ok hinit).2]
    exact .empty
  exact ⟨hrun.invariant (I := fun s => Sound s.pools s.positionCount s.positions)
      (fun _ _ _ _ _ hs he => execute_sound hs he) hstart,
    hrun.invariant_of_mem (I := fun s => Sound s.pools s.positionCount s.positions)
      (fun _ _ _ _ _ hs he => execute_sound hs he) hstart⟩

end Runs

end Stellara.Amm
