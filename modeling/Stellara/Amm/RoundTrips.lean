import Stellara.Amm.Hedge

/-!
# Adding liquidity and removing it again

A position that is removed right after it was created stands for the amounts of the deposit, as the
price is still the same. But the removal of a whole position also takes the whole reserve of the
pool, with what this and all earlier deposits credited to it. So there is a profit unless the pool
has no reserve, and the deposit credits none.

## Main definitions

* `depositAmounts`: the amounts of a deposit
* `Unhedged`: a deposit that credits no reserve, into a pool that has none

## Main results

* `computeHedgeReserve_eq_zero_iff`: when a deposit credits no reserve
* `round_trip_iff`: every run
-/

namespace Stellara.Amm

/-- The amounts of a deposit: what the liquidity that the desired amounts provide stands for. -/
def depositAmounts (tickLower tickUpper amountDesiredA amountDesiredB sqrtPrice : ℤ) :
    Outcome AmmError (ℤ × ℤ) := do
  let sqrtLower ← tickToSqrtPrice tickLower
  let sqrtUpper ← tickToSqrtPrice tickUpper
  let liquidity ← liquidityFromAmounts amountDesiredA amountDesiredB sqrtLower sqrtUpper sqrtPrice
  amountsForLiquidity liquidity sqrtLower sqrtUpper sqrtPrice

/-- The pool has no reserve, and the deposit credits none: the estimated impermanent loss is below
the threshold, or both amounts are so small that the credited part of them rounds to zero. -/
def Unhedged (pool : PoolState) (tickLower tickUpper amountDesiredA amountDesiredB : ℤ) : Prop :=
  (∀ isA, pool.hedgeReserve isA = 0) ∧
    (|ilBpsAt tickLower tickUpper pool.sqrtPrice| < hedgeThresholdBps ∨
      ∀ amountA amountB, depositAmounts tickLower tickUpper amountDesiredA amountDesiredB
        pool.sqrtPrice = .ok (amountA, amountB) → amountA < 20 ∧ amountB < 20)

/-- A twentieth of an amount rounds to zero below twenty units. -/
theorem hedgePart_eq_zero_iff {amount : ℤ} (hnn : 0 ≤ amount) :
    (amount * hedgeRatioBps).tdiv 10000 = 0 ↔ amount < 20 := by
  rw [hedgeRatioBps, Int.tdiv_eq_ediv_of_nonneg (by omega)]
  omega

/-- A deposit credits no reserve exactly below the threshold, or for small amounts. -/
theorem computeHedgeReserve_eq_zero_iff {ilBps amountA amountB reserveA reserveB : ℤ}
    (hA : 0 ≤ amountA) (hB : 0 ≤ amountB)
    (h : computeHedgeReserve ilBps amountA amountB = .ok (reserveA, reserveB)) :
    reserveA = 0 ∧ reserveB = 0 ↔ |ilBps| < hedgeThresholdBps ∨ amountA < 20 ∧ amountB < 20 := by
  unfold computeHedgeReserve at h
  split at h
  · rename_i hbelow
    obtain ⟨rfl, rfl⟩ := Prod.mk.inj (Except.ok.inj h)
    exact iff_of_true ⟨rfl, rfl⟩ (.inl hbelow)
  · rename_i habove
    simp only [Except.bind_eq_ok, IntFormat.checked_eq_ok] at h
    obtain ⟨productA, ⟨-, rfl⟩, productB, ⟨-, rfl⟩, h⟩ := h
    obtain ⟨rfl, rfl⟩ := Prod.mk.inj (Except.ok.inj h)
    rw [hedgePart_eq_zero_iff hA, hedgePart_eq_zero_iff hB, or_iff_right habove]

/-- The amounts of a deposit in a range of the table. -/
theorem depositAmounts_eq_ok {tickLower tickUpper amountDesiredA amountDesiredB sqrtPrice : ℤ}
    {liquidity actualA actualB : ℤ} (hmin : minTick ≤ tickLower) (hticks : tickLower < tickUpper)
    (hmax : tickUpper ≤ maxTick)
    (hliquidity : liquidityFromAmounts amountDesiredA amountDesiredB (sqrtPriceAt tickLower)
      (sqrtPriceAt tickUpper) sqrtPrice = .ok liquidity)
    (hamounts : amountsForLiquidity liquidity (sqrtPriceAt tickLower) (sqrtPriceAt tickUpper)
      sqrtPrice = .ok (actualA, actualB)) :
    depositAmounts tickLower tickUpper amountDesiredA amountDesiredB sqrtPrice =
      .ok (actualA, actualB) := by
  have hlower : tickToSqrtPrice tickLower = .ok (sqrtPriceAt tickLower) :=
    tickToSqrtPrice_eq_ok.mpr ⟨⟨hmin, hticks.le.trans hmax⟩, rfl⟩
  have hupper : tickToSqrtPrice tickUpper = .ok (sqrtPriceAt tickUpper) :=
    tickToSqrtPrice_eq_ok.mpr ⟨⟨hmin.trans hticks.le, hmax⟩, rfl⟩
  simp only [depositAmounts, hlower, hupper, Except.ok_bind, hliquidity, hamounts]

section RoundTrip

variable {τ : Type} [TokenClient τ Address Address] {s s₁ s₂ : State τ} {now : ℕ}
  {caller tokenA tokenB : Address} {tickLower tickUpper amountDesiredA amountDesiredB : ℤ}
  {minA minB minA' minB' : ℤ} {added : AddLiquidityResult} {removed : RemoveLiquidityResult}

/-- A deposit creates a position that stands for its amounts, and credits the reserve of its pool.
-/
theorem addLiquidity_position
    (h : addLiquidity now caller tokenA tokenB tickLower tickUpper amountDesiredA amountDesiredB
      minA minB s = .ok (added, s₁)) :
    ∃ pool reserveA reserveB p, s.pools.lookup ⟨tokenA, tokenB⟩ = some pool ∧
      depositAmounts tickLower tickUpper amountDesiredA amountDesiredB pool.sqrtPrice =
        .ok (added.amountA, added.amountB) ∧
      (0 ≤ added.amountA ∧ 0 ≤ added.amountB) ∧
      computeHedgeReserve (ilBpsAt tickLower tickUpper pool.sqrtPrice) added.amountA added.amountB =
        .ok (reserveA, reserveB) ∧
      (s₁.positions.lookup added.positionId = some p ∧ p.owner = caller ∧
        p.liquidity = added.liquidity) ∧
      ∀ isA, principal s₁ p p.liquidity isA = (if isA then added.amountA else added.amountB) ∧
        reserveOf s₁ p.poolKey isA = pool.hedgeReserve isA + if isA then reserveA else reserveB := by
  obtain ⟨pool, pool', liquidity, actualA, actualB, insideA, insideB, reserveA, reserveB, tokens₁,
    tokens₂, ⟨-, hticks, hmin, hmax⟩, hpool, ⟨hliquidity, hne⟩, hamounts, -, hactive,
    -, hreserve, rfl, hs₁⟩ := addLiquidity_eq_ok h
  have hl := sqrtPriceAt_pos hmin
  have hu := sqrtPriceAt_pos (hmin.trans hticks.le)
  obtain ⟨⟨hpos, -⟩, hsat⟩ := liquidityFromAmounts_unsaturated hl hu hliquidity hne hamounts
  have hdeposit := depositAmounts_eq_ok hmin hticks hmax hliquidity hamounts
  obtain ⟨-, rfl, rfl⟩ := amountsForLiquidity_eq_ok hamounts
  have hmarket := addActive_market hactive
  rw [hmarket.sqrtPrice] at hreserve
  have hpools : s₁.pools = s.pools.insert ⟨tokenA, tokenB⟩ { pool' with
      ilReserveA := pool'.ilReserveA + reserveA, ilReserveB := pool'.ilReserveB + reserveB } := by
    rw [hs₁]
  refine ⟨pool, reserveA, reserveB, newPosition now (s.positionCount + 1) caller ⟨tokenA, tokenB⟩
    tickLower tickUpper liquidity insideA insideB, hpool, hdeposit,
    ⟨amountA_nonneg hsat hl hu hpos.le, amountB_nonneg hpos.le⟩, hreserve, ⟨?_, rfl, rfl⟩, ?_⟩
  · rw [hs₁]
    exact AList.lookup_insert _
  · intro isA
    constructor
    · rw [principal, hpools]
      change ((AList.insert ⟨tokenA, tokenB⟩ _ s.pools).lookup ⟨tokenA, tokenB⟩).elim 0 _ = _
      rw [AList.lookup_insert, Option.elim_some, ← hmarket.sqrtPrice]
      rfl
    · rw [reserveOf_insert hpools]
      change (if (⟨tokenA, tokenB⟩ : PoolKey) = ⟨tokenA, tokenB⟩ then _ else _) = _
      rw [if_pos rfl, (addActive_eq_ok hactive).1]
      cases isA <;> rfl

/-- What a deposit and the removal of its whole position pay and return. -/
theorem removed_after_added (hsound : Sound s.pools s.positionCount s.positions)
    (hnn : ReserveNonneg s)
    (hadd : addLiquidity now caller tokenA tokenB tickLower tickUpper amountDesiredA amountDesiredB
      minA minB s = .ok (added, s₁))
    (hremove : removeLiquidity caller added.positionId added.liquidity minA' minB' s₁ =
      .ok (removed, s₂)) :
    ∃ pool reserveA reserveB, s.pools.lookup ⟨tokenA, tokenB⟩ = some pool ∧
      depositAmounts tickLower tickUpper amountDesiredA amountDesiredB pool.sqrtPrice =
        .ok (added.amountA, added.amountB) ∧
      (0 ≤ added.amountA ∧ 0 ≤ added.amountB) ∧
      computeHedgeReserve (ilBpsAt tickLower tickUpper pool.sqrtPrice) added.amountA added.amountB =
        .ok (reserveA, reserveB) ∧
      removed.amountA = added.amountA + (pool.hedgeReserve true + reserveA) ∧
      removed.amountB = added.amountB + (pool.hedgeReserve false + reserveB) := by
  obtain ⟨pool, reserveA, reserveB, p, hpool, hdeposit, hamounts, hreserve,
    ⟨hlookup, howner, hliquidity⟩, hposition⟩ := addLiquidity_position hadd
  have hexec : execute now s (.addLiquidity caller tokenA tokenB tickLower tickUpper amountDesiredA
      amountDesiredB minA minB) = .ok (.added added, s₁) := Except.map_eq_ok.mpr ⟨_, hadd, rfl⟩
  have hnn₁ := (addLiquidity_hedgeStep hadd).reserveNonneg hnn
  have hwhole : RemovesWhole added.positionId s₁ s₂ removed := by
    refine ⟨p, minA', minB', hlookup, ?_⟩
    rw [howner, hliquidity]
    exact hremove
  -- the removal pays for the position, and takes the whole reserve
  have hspec := (hwhole.removed (execute_sound hsound hexec) hnn₁ hlookup).amount
  refine ⟨pool, reserveA, reserveB, hpool, hdeposit, hamounts, hreserve, ?_, ?_⟩
  · have hA := hspec true
    rw [(hposition true).1, (hposition true).2] at hA
    exact hA
  · have hB := hspec false
    rw [(hposition false).1, (hposition false).2] at hB
    exact hB

/-- After every run from `init`, who adds liquidity and removes it again gets no more than the
deposit exactly when neither the pool has a reserve nor the deposit credits any. -/
theorem round_trip_iff {time : ℕ} {admin contractAddress : Address} {cbConfig : CircuitBreakerConfig}
    {tokens : τ} {w₀ w : World (State τ)} {log : List (Commit (State τ) Call Result)}
    (hinit : init time admin cbConfig (.empty contractAddress tokens) = .ok w₀.store)
    (hrun : (contract τ).Run w₀ w log)
    (hadd : addLiquidity now caller tokenA tokenB tickLower tickUpper amountDesiredA amountDesiredB
      minA minB w.store = .ok (added, s₁))
    (hremove : removeLiquidity caller added.positionId added.liquidity minA' minB' s₁ =
      .ok (removed, s₂)) :
    ∃ pool, w.store.pools.lookup ⟨tokenA, tokenB⟩ = some pool ∧
      (removed.amountA ≤ added.amountA ∧ removed.amountB ≤ added.amountB ↔
        Unhedged pool tickLower tickUpper amountDesiredA amountDesiredB) := by
  have haccounted := accounted_of_run hinit hrun
  obtain ⟨pool, reserveA, reserveB, hpool, hdeposit, ⟨hA, hB⟩, hreserve, hremovedA, hremovedB⟩ :=
    removed_after_added haccounted.sound haccounted.nonneg hadd hremove
  have hcredit := computeHedgeReserve_nonneg hA hB hreserve
  have hnone := computeHedgeReserve_eq_zero_iff hA hB hreserve
  have hold : ∀ isA, 0 ≤ pool.hedgeReserve isA := by
    intro isA
    rw [← reserveOf_eq hpool]
    exact haccounted.nonneg _ isA
  have holdA := hold true
  have holdB := hold false
  refine ⟨pool, hpool, ?_⟩
  have hsmall : (∀ amountA amountB, depositAmounts tickLower tickUpper amountDesiredA amountDesiredB
      pool.sqrtPrice = .ok (amountA, amountB) → amountA < 20 ∧ amountB < 20) ↔
      added.amountA < 20 ∧ added.amountB < 20 := by
    rw [hdeposit]
    constructor
    · intro h
      exact h _ _ rfl
    · intro h amountA amountB heq
      obtain ⟨rfl, rfl⟩ := Prod.mk.inj (Except.ok.inj heq)
      exact h
  rw [Unhedged, Bool.forall_bool, hsmall, ← hnone, hremovedA, hremovedB]
  omega

end RoundTrip

/-- A deposit far from the price. -/
def farDeposit : List (ℕ × Call) :=
  [(1, .createPool ⟨5⟩ ⟨1⟩ ⟨2⟩ 30 Q64), (2, .addLiquidity ⟨5⟩ ⟨1⟩ ⟨2⟩ 7000 8000 1000000 0 0 0)]

/-- The world after it. -/
def farWorld : World (State (Balances Address Address)) := ((contract _).play hedgeWorld farDeposit).1

/-- Then another account makes the same deposit. -/
def farAdded : World (State (Balances Address Address)) :=
  ((contract _).play farWorld [(3, .addLiquidity ⟨6⟩ ⟨1⟩ ⟨2⟩ 7000 8000 1000000 0 0 0)]).1

/-- And removes it again. -/
def farRemoved : World (State (Balances Address Address)) :=
  ((contract _).play farAdded [(3, .removeLiquidity ⟨6⟩ 2 29097184 0 0)]).1

/-- The removal pays one unit less than the deposit, and the reserve of both deposits. -/
theorem round_trip_pays_more :
    init 0 ⟨5⟩ ⟨1000000000000, 1000, 3600⟩ (.empty ⟨9⟩ hedgeWorld.store.tokens) =
        .ok hedgeWorld.store ∧
      (∃ log, (contract _).Run hedgeWorld farWorld log) ∧
      ∃ added removed, addLiquidity 3 ⟨6⟩ ⟨1⟩ ⟨2⟩ 7000 8000 1000000 0 0 0 farWorld.store =
          .ok (added, farAdded.store) ∧
        removeLiquidity ⟨6⟩ added.positionId added.liquidity 0 0 farAdded.store =
          .ok (removed, farRemoved.store) ∧
        added.amountA = 999999 ∧ removed.amountA = 1099997 :=
  ⟨rfl, ⟨_, Contract.run_play _ hedgeWorld farDeposit (by decide)⟩, _, _, rfl, rfl, rfl, rfl⟩

theorem round_trip_iff_far :
    ∃ pool, farWorld.store.pools.lookup ⟨⟨1⟩, ⟨2⟩⟩ = some pool ∧
      ((1099997 : ℤ) ≤ 999999 ∧ (0 : ℤ) ≤ 0 ↔ Unhedged pool 7000 8000 1000000 0) :=
  round_trip_iff
    (show init 0 ⟨5⟩ ⟨1000000000000, 1000, 3600⟩ (.empty ⟨9⟩ hedgeWorld.store.tokens) =
      .ok hedgeWorld.store from rfl)
    (Contract.run_play _ hedgeWorld farDeposit (by decide))
    (show addLiquidity 3 ⟨6⟩ ⟨1⟩ ⟨2⟩ 7000 8000 1000000 0 0 0 farWorld.store =
      .ok (⟨2, 999999, 0, 29097184⟩, farAdded.store) from rfl)
    (show removeLiquidity ⟨6⟩ 2 29097184 0 0 farAdded.store =
      .ok (⟨1099997, 0, 99998, 0⟩, farRemoved.store) from rfl)

end Stellara.Amm
