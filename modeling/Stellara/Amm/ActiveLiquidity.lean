import Stellara.Amm.Reachable

/-!
# The active liquidity of a pool

A pool counts the liquidity of the positions whose range holds its tick. Deposits and removals
keep the counter, but a swap leaves it as it is when the tick leaves a range or enters one. So the
counter is right throughout a run exactly when what every swap crosses cancels.

## Main definitions

* `Matched`: the counter of every pool is the liquidity of its positions in range
* `crossedLiquidity`: the net liquidity of the bounds between two ticks
* `CrossesEvenly`: a swap that crosses no net liquidity

## Main results

* `rangeLiquidity_eq_add_crossed`: what crossing the bounds adds
* `Step.matched`: what a step preserves
* `active_liquidity_iff`: every run
* `swap_leaves_range`: a swap out of the range of the only position
-/

namespace Stellara.Amm

/-- The counter of every pool is the liquidity of its positions at its tick. -/
def Matched {τ : Type} (s : State τ) : Prop :=
  ∀ poolKey pool, s.pools.lookup poolKey = some pool →
    pool.liquidity = rangeLiquidity s.positions poolKey pool.currentTick

/-- The net liquidity of the bounds of positions above the tick `a`, up to the tick `b`. -/
def crossedLiquidity (positions : Store ℕ LpPosition) (poolKey : PoolKey) (a b : ℤ) : ℤ :=
  positions.total fun _ p =>
    if p.poolKey = poolKey then
      (if a < p.tickLower ∧ p.tickLower ≤ b then p.liquidity else 0) -
        (if a < p.tickUpper ∧ p.tickUpper ≤ b then p.liquidity else 0)
    else 0

/-- The tick that one step of a swap reaches. -/
def reachedTick (pool : PoolState) (zeroForOne : Bool) (amountIn : ℤ) : ℤ :=
  sqrtPriceToTick (stepTo pool.sqrtPrice (targetPrice pool zeroForOne) pool.liquidity
    (netInput pool amountIn)).1

/-- The bounds that a swap crosses have no net liquidity. -/
def CrossesEvenly {τ : Type} (s : State τ) : Call → Prop
  | .swap _ tokenIn tokenOut amountIn _ =>
    ∀ pool ∈ s.pools.lookup (orderTokens tokenIn tokenOut).1,
      crossedLiquidity s.positions (orderTokens tokenIn tokenOut).1
        (min pool.currentTick (reachedTick pool (orderTokens tokenIn tokenOut).2 amountIn))
        (max pool.currentTick (reachedTick pool (orderTokens tokenIn tokenOut).2 amountIn)) = 0
  | _ => True

instance {τ : Type} (s : State τ) : (call : Call) → Decidable (CrossesEvenly s call)
  | .swap _ _ _ _ _ => inferInstanceAs (Decidable (∀ pool ∈ _, _))
  | .createPool _ _ _ _ _ | .addLiquidity _ _ _ _ _ _ _ _ _ | .removeLiquidity _ _ _ _ _
  | .collectFees _ _ | .updateDynamicFee _ _ | .pause _ | .unpause _ => isTrue trivial

/-- The counters of a pool do not fall below zero in a deposit or a removal. -/
def Unclamped {τ : Type} (s : State τ) : Call → Prop
  | .addLiquidity _ tokenA tokenB _ _ _ _ _ _ =>
    ∀ pool, s.pools.lookup ⟨tokenA, tokenB⟩ = some pool → 0 ≤ pool.activeLiquidity
  | .removeLiquidity _ id r _ _ =>
    ∀ p pool, s.positions.lookup id = some p → s.pools.lookup p.poolKey = some pool →
      p.Covers pool.currentTick → r ≤ pool.liquidity ∧ r ≤ pool.activeLiquidity
  | _ => True

/-! ## The liquidity at a tick -/

section Range

variable {pools : Store PoolKey PoolState} {positions : Store ℕ LpPosition} {positionCount : ℕ}
  {poolKey : PoolKey} {p : LpPosition}

/-- On the way up, the bounds that are crossed add their net liquidity. -/
theorem rangeLiquidity_eq_add_crossed (h : Sound pools positionCount positions) {a b : ℤ}
    (hle : a ≤ b) :
    rangeLiquidity positions poolKey b =
      rangeLiquidity positions poolKey a + crossedLiquidity positions poolKey a b := by
  rw [rangeLiquidity, rangeLiquidity, crossedLiquidity, ← Store.total_add]
  refine Store.total_congr fun id p hp => ?_
  have hticks := (h.position id p hp).ticks
  simp only [InRange]
  by_cases hkey : p.poolKey = poolKey
  · simp only [hkey, true_and, if_true]
    -- each bound is below both ticks, between them, or above both
    split <;> split <;> split <;> split <;> omega
  · simp [hkey]

/-- The ticks between which nothing is crossed have the same liquidity, and only they. -/
theorem rangeLiquidity_eq_iff (h : Sound pools positionCount positions) (a b : ℤ) :
    rangeLiquidity positions poolKey b = rangeLiquidity positions poolKey a ↔
      crossedLiquidity positions poolKey (min a b) (max a b) = 0 := by
  rcases le_total a b with hle | hle
  · rw [min_eq_left hle, max_eq_right hle, rangeLiquidity_eq_add_crossed h hle]
    omega
  · rw [min_eq_right hle, max_eq_left hle, rangeLiquidity_eq_add_crossed h hle]
    omega

/-- A position of another pool does not count. -/
theorem not_inRange (h : p.poolKey ≠ poolKey) (tick : ℤ) : ¬ InRange poolKey tick p :=
  fun hin => h hin.1

/-- The liquidity of a position in range is a part of the count. -/
theorem le_rangeLiquidity (h : Sound pools positionCount positions) {id : ℕ} {tick : ℤ}
    (hp : positions.lookup id = some p) (hin : InRange poolKey tick p) :
    p.liquidity ≤ rangeLiquidity positions poolKey tick := by
  have hle := Store.le_total (f := fun _ q => if InRange poolKey tick q then q.liquidity else 0)
    (fun id' q hq => by
      split
      · exact (h.position id' q hq).liquidity_pos.le
      · exact le_rfl) hp
  rw [if_pos hin] at hle
  exact hle

end Range

/-! ## Steps -/

section Steps

variable {τ : Type} {s s' : State τ} {call : Call} {result : Result}

/-- Only the pool that is written has to be matched again. -/
theorem Matched.write {poolKey : PoolKey} {pool : PoolState}
    (h : Matched s) (hpools : s'.pools = s.pools.insert poolKey pool)
    (hpool : pool.liquidity = rangeLiquidity s'.positions poolKey pool.currentTick)
    (hother : ∀ key tick, key ≠ poolKey →
      rangeLiquidity s'.positions key tick = rangeLiquidity s.positions key tick) : Matched s' := by
  intro key pool' hlookup
  rw [hpools] at hlookup
  rcases Store.eq_or_lookup_of_insert hlookup with ⟨rfl, rfl⟩ | ⟨hne, hold⟩
  · exact hpool
  · rw [hother key _ hne]
    exact h key pool' hold

theorem PoolCreated.matched {poolKey : PoolKey} {pool : PoolState}
    (hsound : Sound s.pools s.positionCount s.positions) (h : Matched s)
    (hstep : PoolCreated s s' poolKey pool) : Matched s' := by
  refine h.write hstep.pools ?_ fun key tick _ => by rw [hstep.positions]
  rw [hstep.positions, hstep.pool_eq, rangeLiquidity, Store.total_congr (g := fun _ _ => 0)]
  · simp [Store.total, newPool]
  · intro id p hp
    -- no position is in a pool that does not exist
    refine if_neg (not_inRange (fun hkey => ?_) _)
    have hsome := (hsound.position id p hp).pool
    rw [hkey, hstep.fresh] at hsome
    cases hsome

theorem LiquidityAdded.matched {pool pool' : PoolState} {p : LpPosition}
    (hsound : Sound s.pools s.positionCount s.positions) (h : Matched s)
    (hstep : LiquidityAdded s s' pool pool' p) : Matched s' := by
  have hnew : s.positions.lookup (s.positionCount + 1) = none := hsound.fresh _ (by omega)
  have hcount : ∀ key tick, rangeLiquidity s'.positions key tick =
      (if InRange key tick p then p.liquidity else 0) + rangeLiquidity s.positions key tick :=
    fun key tick => by rw [hstep.positions, rangeLiquidity_insert_new hnew]
  refine h.write hstep.pools ?_ fun key tick hne => ?_
  · have hold := h _ _ hstep.lookup
    rw [hstep.liquidity, hstep.market.currentTick, hcount, hold]
    -- the pool and the sum gain the liquidity of the position, or neither does
    by_cases hcovers : p.Covers pool.currentTick
    · rw [if_pos hcovers, if_pos ⟨rfl, hcovers⟩, add_comm]
    · rw [if_neg hcovers, if_neg fun hin => hcovers hin.2, zero_add]
  · rw [hcount, if_neg (not_inRange (Ne.symm hne) tick), zero_add]

theorem LiquidityRemoved.unclamped {id : ℕ} {pool pool' : PoolState} {p : LpPosition} {r : ℤ}
    (hsound : Sound s.pools s.positionCount s.positions) (h : Matched s)
    (hstep : LiquidityRemoved s s' id pool pool' p r) (hcovers : p.Covers pool.currentTick) :
    r ≤ pool.liquidity := by
  have hle := le_rangeLiquidity hsound hstep.lookup_position
    (show InRange p.poolKey pool.currentTick p from ⟨rfl, hcovers⟩)
  rw [h _ _ hstep.lookup]
  exact hstep.le.trans hle

theorem LiquidityRemoved.matched {id : ℕ} {pool pool' : PoolState} {p : LpPosition} {r : ℤ}
    (hsound : Sound s.pools s.positionCount s.positions) (h : Matched s)
    (hstep : LiquidityRemoved s s' id pool pool' p r) : Matched s' := by
  have hid := (hsound.position _ _ hstep.lookup_position).id_eq
  have hp := hstep.lookup_position
  rw [← hid] at hp
  have hcount : ∀ key tick, rangeLiquidity s'.positions key tick =
      rangeLiquidity s.positions key tick - if InRange key tick p then r else 0 := fun key tick => by
    rw [hstep.positions, rangeLiquidity_stored (afterRemoval p _ _ r) hp rfl rfl rfl]
    congr 2
    exact Int.sub_sub_self _ _
  refine h.write hstep.pools ?_ fun key tick hne => ?_
  · have hold := h _ _ hstep.lookup
    rw [hstep.liquidity, hstep.market.currentTick, hcount]
    by_cases hcovers : p.Covers pool.currentTick
    · have hle := hstep.unclamped hsound h hcovers
      rw [if_pos hcovers, if_pos ⟨rfl, hcovers⟩, ← hold]
      omega
    · rw [if_neg hcovers, if_neg fun hin => hcovers hin.2, ← hold, Int.sub_zero]
  · rw [hcount, if_neg (not_inRange (Ne.symm hne) tick), Int.sub_zero]

theorem FeesCollected.matched {id : ℕ} {pool : PoolState} {p : LpPosition}
    (hsound : Sound s.pools s.positionCount s.positions) (h : Matched s)
    (hstep : FeesCollected s s' id pool p) : Matched s' := by
  have hposition := hsound.position _ _ hstep.lookup_position
  have hp := hstep.lookup_position
  rw [← hposition.id_eq] at hp
  intro key pool' hlookup
  rw [hstep.pools] at hlookup
  rw [h key pool' hlookup, hstep.positions]
  have hcount : rangeLiquidity _ key _ = _ := rangeLiquidity_stored (afterCollection p
    (insideNow s.tickFees pool p true) (insideNow s.tickFees pool p false)) hp rfl rfl rfl key
    pool'.currentTick
  -- the position is written back with the liquidity it had
  have hkept : (afterCollection p (insideNow s.tickFees pool p true)
    (insideNow s.tickFees pool p false)).liquidity ≠ 0 := hposition.liquidity_pos.ne'
  rw [stored, if_neg hkept] at hcount
  refine Eq.trans ?_ hcount.symm
  show _ = _ - ite _ (p.liquidity - p.liquidity) 0
  rw [Int.sub_self, ite_self, Int.sub_zero]

/-- A swap keeps the counter right exactly when what it crosses cancels. -/
theorem SwapMove.matched_iff {poolKey : PoolKey} {zeroForOne : Bool} {amountIn : ℤ}
    {pool pool' : PoolState} {swapped : SwapResult}
    (hsound : Sound s.pools s.positionCount s.positions) (h : Matched s)
    (hstep : SwapMove s s' poolKey zeroForOne amountIn pool pool' swapped) :
    Matched s' ↔ crossedLiquidity s.positions poolKey
      (min pool.currentTick (reachedTick pool zeroForOne amountIn))
      (max pool.currentTick (reachedTick pool zeroForOne amountIn)) = 0 := by
  have hreached : pool'.currentTick = reachedTick pool zeroForOne amountIn := by
    rw [hstep.pool_eq, reachedTick, ← hstep.step]
  -- the swap moves the tick, but not the counter
  have hsame : pool'.liquidity = pool.liquidity := by rw [hstep.pool_eq]
  have hold := h _ _ hstep.lookup
  rw [← rangeLiquidity_eq_iff hsound, ← hreached]
  constructor
  · intro h'
    have hnew := h' poolKey pool' (by rw [hstep.pools]; exact AList.lookup_insert _)
    rw [← hold, ← hsame, hnew, hstep.positions]
  · intro heq
    refine h.write hstep.pools ?_ fun key tick _ => by rw [hstep.positions]
    rw [hsame, hold, hstep.positions, heq]

/-- A step keeps the counters right, a swap only when what it crosses cancels. -/
theorem Step.matched_iff (hsound : Sound s.pools s.positionCount s.positions) (h : Matched s)
    (hstep : Step s s' call result) : Matched s' ↔ CrossesEvenly s call := by
  cases hstep with
  | created _ hstep | added _ _ hstep | removed hstep | collected _ _ hstep =>
    exact ⟨fun _ => trivial, fun _ => hstep.matched hsound h⟩
  | swapped hstep =>
    rw [hstep.matched_iff hsound h]
    constructor
    · intro heven pool hlookup
      obtain rfl := Option.some.inj (hstep.lookup.symm.trans hlookup)
      exact heven
    · exact fun heven => heven _ hstep.lookup
  | repriced hstep =>
    refine ⟨fun _ => trivial, fun _ => ?_⟩
    refine h.write hstep.pools ?_ fun key tick _ => by rw [hstep.positions]
    rw [hstep.liquidity, hstep.market.currentTick, hstep.positions]
    exact h _ _ hstep.lookup
  | paused hstep | unpaused hstep =>
    refine ⟨fun _ => trivial, fun _ poolKey pool hlookup => ?_⟩
    rw [hstep.pools] at hlookup
    rw [hstep.positions]
    exact h poolKey pool hlookup

/-- While the counters are right, no clamp takes effect. -/
theorem Step.unclamped (hsound : Sound s.pools s.positionCount s.positions) (h : Matched s)
    (hstep : Step s s' call result) : Unclamped s call := by
  cases hstep with
  | added hkey _ hstep =>
    intro pool hlookup
    have hpool := hsound.pool _ _ hlookup
    rw [hpool.active]
    exact hpool.liquidity_nonneg
  | removed hstep =>
    intro p pool hp hlookup hcovers
    obtain rfl := Option.some.inj (hstep.lookup_position.symm.trans hp)
    obtain rfl := Option.some.inj (hstep.lookup.symm.trans hlookup)
    -- what a position in range provides is a part of both counters
    have hle := hstep.unclamped hsound h hcovers
    rw [(hsound.pool _ _ hlookup).active]
    exact ⟨hle, hle⟩
  | _ => trivial

end Steps

/-! ## Runs -/

/-- In every run from `init` the counters are right in every state, and no clamp takes effect,
exactly when what every swap crosses cancels. -/
theorem active_liquidity_iff {τ : Type} [TokenClient τ Address Address] {now : ℕ}
    {admin contractAddress : Address} {cbConfig : CircuitBreakerConfig} {tokens : τ}
    {w₀ w : World (State τ)} {log : List (Commit (State τ) Call Result)}
    (hinit : init now admin cbConfig (.empty contractAddress tokens) = .ok w₀.store)
    (hrun : (contract τ).Run w₀ w log) :
    (Matched w.store ∧
        ∀ c ∈ log, (Matched c.before ∧ Matched c.after) ∧ Unclamped c.before c.call) ↔
      ∀ c ∈ log, CrossesEvenly c.before c.call := by
  have hmatched := hrun.invariant_iff (S := fun s => Sound s.pools s.positionCount s.positions)
    (I := Matched) (G := fun c => CrossesEvenly c.before c.call)
    (fun _ _ _ _ _ hs he => execute_sound hs he)
    (fun c hs hmatched he => (execute_step he).matched_iff hs hmatched)
    (by rw [(init_eq_ok hinit).2]; exact .empty)
    (by rw [(init_eq_ok hinit).2]; exact fun _ _ h => by cases h)
  rw [← hmatched]
  -- while the counters are right, the clamps take no effect
  have hsound := (sound_of_run hinit hrun).2
  refine and_congr_right fun _ => ⟨fun h c hc => (h c hc).1, fun h c hc => ⟨h c hc, ?_⟩⟩
  exact (execute_step (hrun.exec_of_mem c hc)).unclamped (hsound c hc).1 (h c hc).1

/-- The contract right after `init`, with an account that owns two tokens. -/
def rangeWorld : World (State (Balances Address Address)) :=
  ⟨0, { State.empty ⟨9⟩ ((Balances.zero.mint ⟨1⟩ ⟨5⟩ 1000000000000).mint ⟨2⟩ ⟨5⟩ 1000000000000) with
    acl := adminAcl ⟨5⟩ .empty
    initialized := true
    breaker := CircuitBreaker.init 0 ⟨1000000000000, 1000, 3600⟩ .empty }⟩

/-- A position from the tick -512 to `tickUpper`, and a swap from the tick 0 to the tick 1. -/
def rangeCalls (tickUpper : ℤ) : List (ℕ × Call) :=
  [(1, .createPool ⟨5⟩ ⟨1⟩ ⟨2⟩ 30 Q64),
    (2, .addLiquidity ⟨5⟩ ⟨1⟩ ⟨2⟩ (-512) tickUpper 1000000000 1000000000 0 0),
    (3, .swap ⟨5⟩ ⟨2⟩ ⟨1⟩ 10000000 0)]

theorem active_liquidity_iff_sample :
    (Matched ((contract _).play rangeWorld (rangeCalls 2)).1.store ∧
        ∀ c ∈ ((contract _).play rangeWorld (rangeCalls 2)).2,
          (Matched c.before ∧ Matched c.after) ∧ Unclamped c.before c.call) ↔
      ∀ c ∈ ((contract _).play rangeWorld (rangeCalls 2)).2, CrossesEvenly c.before c.call :=
  active_liquidity_iff
    (show init 0 ⟨5⟩ ⟨1000000000000, 1000, 3600⟩ (.empty ⟨9⟩ rangeWorld.store.tokens) =
      .ok rangeWorld.store from rfl)
    (Contract.run_play _ rangeWorld (rangeCalls 2) (by decide))

/-- A swap that leaves the range of the only position keeps its liquidity in the counter. -/
theorem swap_leaves_range :
    init 0 ⟨5⟩ ⟨1000000000000, 1000, 3600⟩ (.empty ⟨9⟩ rangeWorld.store.tokens) =
        .ok rangeWorld.store ∧
      ∃ w log, (contract _).Run rangeWorld w log ∧ ¬ Matched w.store := by
  refine ⟨rfl, _, _, Contract.run_play _ rangeWorld (rangeCalls 1) (by decide), fun h => ?_⟩
  obtain ⟨pool, hpool⟩ := Option.isSome_iff_exists.mp (show
    (((contract _).play rangeWorld (rangeCalls 1)).1.store.pools.lookup ⟨⟨1⟩, ⟨2⟩⟩).isSome by decide)
  have hne : ∀ pool ∈
      ((contract _).play rangeWorld (rangeCalls 1)).1.store.pools.lookup ⟨⟨1⟩, ⟨2⟩⟩,
      pool.liquidity ≠ rangeLiquidity ((contract _).play rangeWorld (rangeCalls 1)).1.store.positions
        ⟨⟨1⟩, ⟨2⟩⟩ pool.currentTick := by
    decide
  exact hne pool hpool (h _ pool hpool)

end Stellara.Amm
