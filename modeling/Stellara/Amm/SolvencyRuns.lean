import Stellara.Amm.Reachable
import Stellara.Amm.Solvency

/-!
# Runs of the market maker

In a run whose calls are all funded nothing is ever credited to a pool or a position, and the
contract owns at least what the liquidity of its positions stands for. So it is solvent, and the
owners of the positions can withdraw everything in any order.

## Main definitions

* `Calm`: what every funded run preserves

## Main results

* `Calm.liabilities_eq`: only the amounts of the positions are owed
* `Calm.removeLiquidity_ok`, `Calm.collectFees_ok`: no withdrawal fails
* `Calm.execute`: what a funded call preserves
* `Calm.canExit`: all owners can withdraw
-/

namespace Stellara.Amm

/-- Nothing was credited to a pool or a position, and what the positions stand for is owned. -/
structure Calm (s : State (Balances Address Address)) : Prop where
  initialized : s.initialized = true
  books : Books s.contractAddress s.tickFees s.pools s.positionCount s.positions
  owned : ∀ token,
    holdings (spot s.pools) s.positions token ≤ s.tokens.balance token s.contractAddress

/-! ## Without credits -/

section Clean

variable {c : Address} {fees : TickFees} {pools : Store PoolKey PoolState} {positionCount id : ℕ}
  {positions : Store ℕ LpPosition} {poolKey : PoolKey} {pool : PoolState} {p : LpPosition}
  {prices : PoolKey → Option ℤ}

/-- No fees grew inside any range. -/
theorem Books.feeGrowthInside_eq (h : Books c fees pools positionCount positions)
    (hA : pool.feeGrowthGlobalA = 0) (hB : pool.feeGrowthGlobalB = 0) (tickLower tickUpper : ℤ) :
    feeGrowthInside fees poolKey pool tickLower tickUpper = .ok (0, 0) := by
  simp [feeGrowthInside, growthInside, h.outside, hA, hB]

/-- A clean position accrues nothing. -/
theorem CleanPosition.accrue_eq (h : CleanPosition c prices id p) :
    accruePositionFees p 0 0 = .ok p := by
  have hA := h.growthA
  have hB := h.growthB
  cases p
  dsimp only at hA hB
  subst hA hB
  simp [accruePositionFees, accrueToken]

/-- There is nothing to release. -/
theorem CleanPool.release_eq (h : CleanPool poolKey pool) (liquidity total : ℤ) :
    computeHedgeRelease pool liquidity total = .ok (0, 0) ∧
      releaseReserve pool 0 0 = .ok pool := by
  have hA := h.reserveA
  have hB := h.reserveB
  constructor
  · simp [computeHedgeRelease, hA, hB]
  · cases pool
    dsimp only at hA hB
    subst hA hB
    simp [releaseReserve]

/-- Adding liquidity leaves a clean pool at its price. -/
theorem CleanPool.addActive (h : CleanPool poolKey pool) {pool' : PoolState}
    {tickLower tickUpper liquidity : ℤ}
    (hadd : addActive pool tickLower tickUpper liquidity = .ok pool') :
    CleanPool poolKey pool' ∧ pool'.sqrtPrice = pool.sqrtPrice ∧ pool'.liquidity =
      if tickLower ≤ pool.currentTick ∧ pool.currentTick < tickUpper then
        pool.liquidity + liquidity else pool.liquidity := by
  have hle := h.liquidity_le
  have hactive := h.active
  obtain ⟨rfl, hmem⟩ := addActive_eq_ok hadd
  refine ⟨{ h with liquidity_le := ?_, active := ?_ }, rfl, rfl⟩
  · show ite _ _ _ ≤ i128Max
    split
    · exact (hmem ‹_›).1.2
    · exact hle
  · show 0 ≤ ite _ _ _ ∧ ite _ _ _ ≤ i128Max
    have hnn : 0 ≤ i128Max := IntFormat.i128.hi_nonneg
    split
    · exact ⟨le_max_right _ _, max_le (hmem ‹_›).2.2 hnn⟩
    · exact ⟨le_max_right _ _, max_le hactive.2 hnn⟩

theorem amountA_zero (lower upper price : ℤ) : amountA 0 lower upper price = 0 := by
  simp [amountA]

theorem amountB_zero (lower upper price : ℤ) : amountB 0 lower upper price = 0 := by
  simp [amountB]

/-- A position without liquidity stands for nothing. -/
theorem heldAt_zero (h : p.liquidity = 0) (token : Address) (price : ℤ) :
    heldAt token p price = 0 := by
  simp [heldAt, LpPosition.amountA, LpPosition.amountB, h, amountA_zero, amountB_zero]

theorem heldAt_withLiquidity (p : LpPosition) (liquidity : ℤ) (token : Address) (price : ℤ) :
    heldAt token (p.withLiquidity liquidity) price =
      (if p.poolKey.tokenA = token then (p.withLiquidity liquidity).amountA price else 0) +
        (if p.poolKey.tokenB = token then (p.withLiquidity liquidity).amountB price else 0) := rfl

/-- Two parts of a liquidity stand for at most what the whole stands for. -/
theorem CleanPosition.heldAt_add_le (h : CleanPosition c prices id p) {price r : ℤ}
    (hread : prices p.poolKey = some price) (hr : 0 ≤ r) (hle : r ≤ p.liquidity)
    (token : Address) :
    heldAt token (p.withLiquidity r) price +
      heldAt token (p.withLiquidity (p.liquidity - r)) price ≤ heldAt token p price := by
  have hA := amountA_add_le (h.unsaturated hread) h.sqrtLower_pos h.sqrtUpper_pos hr hle
  have hB : amountB r p.sqrtLower p.sqrtUpper price +
    amountB (p.liquidity - r) p.sqrtLower p.sqrtUpper price ≤
      amountB p.liquidity p.sqrtLower p.sqrtUpper price := amountB_add_le hr hle
  have hA' : (p.withLiquidity r).amountA price +
      (p.withLiquidity (p.liquidity - r)).amountA price ≤ p.amountA price := hA
  have hB' : (p.withLiquidity r).amountB price +
      (p.withLiquidity (p.liquidity - r)).amountB price ≤ p.amountB price := hB
  -- each token is held once, or twice when both are the same
  rw [heldAt_withLiquidity, heldAt_withLiquidity, heldAt]
  split <;> split <;> omega

end Clean

/-! ## Transfers -/

section Payments

variable {τ : Type} [TokenClient τ Address Address] [StandardToken τ Address Address] {b b' : τ}
  {token c a : Address} {amount : ℤ}

/-- The contract can pay an amount exactly when it owns it; there is nothing to own when the amount
is not positive. -/
theorem transferPositive_isOk_iff :
    (∃ b', transferPositive b token c a amount = .ok b') ↔
      max amount 0 ≤ TokenClient.balance b token c := by
  unfold transferPositive
  split
  · rename_i hpos
    have hsome := StandardToken.transfer_isSome b token c a amount
    rw [Option.isSome_iff_exists] at hsome
    simp only [tokenTransfer_eq_ok]
    rw [hsome, max_eq_left hpos.le]
    exact and_iff_right hpos.le
  · rename_i hpos
    rw [max_eq_right (not_lt.mp hpos)]
    exact iff_of_true ⟨b, rfl⟩ (StandardToken.balance_nonneg b token c)

/-- The contract loses what it pays somebody else. -/
theorem transferPositive_paid (h : transferPositive b token c a amount = .ok b') (hne : a ≠ c)
    (t : Address) : TokenClient.balance b' t c =
      TokenClient.balance b t c - if t = token then max amount 0 else 0 := by
  unfold transferPositive at h
  split at h
  · rename_i hpos
    rw [tokenTransfer_eq_ok] at h
    rw [StandardToken.transfer_balance h, if_pos rfl, if_neg hne.symm, max_eq_left hpos.le]
    split <;> omega
  · rename_i hpos
    obtain rfl := Except.ok.inj h
    rw [max_eq_right (not_lt.mp hpos)]
    split <;> omega

end Payments

section Transfers

variable {b b' : Balances Address Address} {token c a : Address} {amount : ℤ}

/-- The contract can pay an amount that it owns. -/
theorem transferPositive_out (hnn : 0 ≤ amount) (hle : amount ≤ b.balance token c) (hne : a ≠ c) :
    ∃ b', transferPositive b token c a amount = .ok b' ∧
      ∀ t, b'.balance t c = b.balance t c - if t = token then amount else 0 := by
  obtain ⟨b', hb'⟩ := transferPositive_isOk_iff (b := b) (a := a) |>.mpr
    ((max_eq_left hnn).trans_le hle)
  refine ⟨b', hb', fun t => ?_⟩
  have hpaid := transferPositive_paid hb' hne t
  rw [max_eq_left hnn] at hpaid
  exact hpaid

/-- The contract gains what somebody else pays. -/
theorem transferPositive_in (hnn : 0 ≤ amount)
    (h : transferPositive b token a c amount = .ok b') (hne : a ≠ c) (t : Address) :
    b'.balance t c = b.balance t c + if t = token then amount else 0 := by
  unfold transferPositive at h
  split at h
  · rw [tokenTransfer_eq_ok] at h
    rw [Balances.transfer_balance h, if_pos rfl, if_neg hne.symm]
    split <;> omega
  · obtain rfl := Except.ok.inj h
    split <;> omega

/-- What the contract owns after it was paid one token and paid out another. -/
theorem balance_swap {b₁ : Balances Address Address} {tokenIn tokenOut : Address}
    {amountIn amountOut : ℤ}
    (hin : tokenTransfer b tokenIn a c amountIn = (.ok b₁ : Outcome AmmError _))
    (hout : tokenTransfer b₁ tokenOut c a amountOut = (.ok b' : Outcome AmmError _)) (hne : a ≠ c)
    (t : Address) :
    b'.balance t c = b.balance t c + (if t = tokenIn then amountIn else 0) -
      if t = tokenOut then amountOut else 0 := by
  rw [tokenTransfer_eq_ok] at hin hout
  rw [Balances.transfer_balance hout, Balances.transfer_balance hin]
  -- the two tokens may be the same, so both changes are kept apart
  simp only [if_pos, if_neg hne.symm]
  split <;> split <;> omega

end Transfers

/-! ## Withdrawals -/

namespace Calm

variable {s s' : State (Balances Address Address)} {id : ℕ} {p : LpPosition} {pool : PoolState}

/-- A clean position claims the amounts of its liquidity. -/
theorem claim_eq (h : Calm s) (hp : s.positions.lookup id = some p) (token : Address) :
    claim s token p = held (spot s.pools) token p := by
  obtain ⟨pool, hpool⟩ := h.books.exists_pool hp
  have hclean := h.books.pool _ _ hpool
  have hposition := h.books.position _ _ hp
  rw [CleanPosition.held_eq (spot_of_lookup hpool)]
  simp [claim, hpool, heldAt, claimA, claimB, unaccrued, exactGrowthInside, h.books.outside,
    hclean.tokenA, hclean.tokenB, hclean.growthA, hclean.growthB, hposition.growthA,
    hposition.growthB, hposition.owedA, hposition.owedB]

/-- Only the amounts of the positions are owed. -/
theorem liabilities_eq (h : Calm s) (token : Address) :
    liabilities s token = holdings (spot s.pools) s.positions token := by
  have hreserve : s.pools.total (fun _ pool => reserve token pool) = 0 := by
    rw [Store.total_congr (g := fun _ _ => 0) fun poolKey pool hpool => by
      simp [reserve, (h.books.pool _ _ hpool).reserveA, (h.books.pool _ _ hpool).reserveB]]
    simp [Store.total]
  rw [liabilities, hreserve, add_zero]
  exact Store.total_congr fun id p hp => h.claim_eq hp token

theorem solvent (h : Calm s) : Solvent s := fun token => by
  rw [h.liabilities_eq]
  exact h.owned token

theorem requireInit_ok (h : Calm s) : requireInit s = .ok ⟨⟩ := by
  rw [requireInit, require, if_pos h.initialized]

theorem requireAuth_ok (h : Calm s) (hp : s.positions.lookup id = some p) :
    (requireAuth s.contractAddress p.owner : Outcome AmmError Unit) = .ok ⟨⟩ := by
  rw [requireAuth, require, if_pos (h.books.position _ _ hp).owner]

theorem requirePosition_ok (hp : s.positions.lookup id = some p) :
    requirePosition s id = .ok p := by
  rw [requirePosition, hp, orAbort]

theorem requirePool_ok {poolKey : PoolKey} (hpool : s.pools.lookup poolKey = some pool) :
    requirePool s poolKey = .ok pool := by
  rw [requirePool, hpool, orAbort]

/-- The owner of a position can collect its fees; there are none. -/
theorem collectFees_ok (h : Calm s) (hp : s.positions.lookup id = some p) :
    collectFees p.owner id s =
      .ok ((0, 0), publish (writePosition s p) (.feeCol id p.owner 0 0)) := by
  obtain ⟨pool, hpool⟩ := h.books.exists_pool hp
  have hclean := h.books.pool _ _ hpool
  have hposition := h.books.position _ _ hp
  have hA := hposition.owedA
  have hB := hposition.owedB
  -- writing zeros over zeros leaves the position as it is
  have heta : { p with tokensOwedA := 0, tokensOwedB := 0 } = p := by
    cases p
    dsimp only at hA hB
    subst hA hB
    rfl
  simp [collectFees, h.requireAuth_ok hp, h.requireInit_ok, requirePosition_ok hp,
    requirePool_ok hpool, require, hA, hB, heta, transferPositive,
    h.books.feeGrowthInside_eq hclean.growthA hclean.growthB, hposition.accrue_eq]

/-- The liquidity of a pool goes down with that of a position in range. -/
theorem removeActive_ok (h : Calm s) (hp : s.positions.lookup id = some p)
    (hpool : s.pools.lookup p.poolKey = some pool) {r : ℤ} (hr : 0 < r) (hle : r ≤ p.liquidity) :
    ∃ pool', removeActive pool p.tickLower p.tickUpper r = .ok pool' ∧
      CleanPool p.poolKey pool' ∧ pool'.sqrtPrice = pool.sqrtPrice ∧
      pool'.liquidity = rangeLiquidity (stored s.positions (p.withLiquidity (p.liquidity - r)))
        p.poolKey pool.currentTick := by
  have hclean := h.books.pool _ _ hpool
  have hposition := h.books.position _ _ hp
  have hstored : s.positions.lookup (p.withLiquidity (p.liquidity - r)).id =
      some p := by
    show s.positions.lookup p.id = some p
    rw [hposition.id_eq, hp]
  have hsum := rangeLiquidity_stored (p.withLiquidity (p.liquidity - r)) hstored rfl rfl rfl p.poolKey
    pool.currentTick
  rw [← h.books.liquidity _ _ hpool, LpPosition.withLiquidity_liquidity] at hsum
  unfold removeActive
  by_cases hin : p.tickLower ≤ pool.currentTick ∧ pool.currentTick < p.tickUpper
  · -- the position counts in the pool, so its liquidity and that of the pool fall together
    have hrange : InRange p.poolKey pool.currentTick p := ⟨rfl, hin⟩
    rw [if_pos hrange] at hsum
    have hwhole := h.books.liquidity_le hp hpool hrange
    have hpoolLe := hclean.liquidity_le
    have hactive := hclean.active
    have hmax : i128Max = IntFormat.i128.hi := rfl
    have hlo : IntFormat.i128.lo = -i128Max - 1 := rfl
    have hliquidity_le := hposition.liquidity_le
    have hmem : IntFormat.i128.Mem (pool.liquidity - r) := ⟨by omega, by omega⟩
    have hmemActive : IntFormat.i128.Mem (pool.activeLiquidity - r) := ⟨by omega, by omega⟩
    rw [if_pos hin, IntFormat.checked_of_mem hmem, Except.ok_bind,
      IntFormat.checked_of_mem hmemActive, Except.ok_bind]
    refine ⟨_, rfl, { hclean with liquidity_le := ?_, active := ?_ }, rfl, ?_⟩
    · show max (pool.liquidity - r) 0 ≤ i128Max
      omega
    · show 0 ≤ max (pool.activeLiquidity - r) 0 ∧ max (pool.activeLiquidity - r) 0 ≤ i128Max
      omega
    · show max (pool.liquidity - r) 0 = _
      omega
  · -- it does not count, and the pool stays
    have hrange : ¬ InRange p.poolKey pool.currentTick p := fun hrange => hin hrange.2
    rw [if_neg hrange] at hsum
    rw [if_neg hin]
    exact ⟨pool, rfl, hclean, rfl, by omega⟩

/-- The contract owns what a part of a position stands for. -/
theorem heldAt_part_le (h : Calm s) (hp : s.positions.lookup id = some p)
    (hpool : s.pools.lookup p.poolKey = some pool) {r : ℤ} (hr : 0 < r) (hle : r ≤ p.liquidity)
    (token : Address) : heldAt token (p.withLiquidity r) pool.sqrtPrice ≤
      s.tokens.balance token s.contractAddress := by
  have hposition := h.books.position _ _ hp
  have hread := spot_of_lookup hpool
  have hadd := hposition.heldAt_add_le hread hr.le hle token
  -- the rest is another clean position, or nothing
  have hrest : 0 ≤ heldAt token (p.withLiquidity (p.liquidity - r)) pool.sqrtPrice := by
    rcases hle.lt_or_eq with hlt | heq
    · exact (hposition.shrink (show 0 < p.liquidity - r by omega) (by omega)).heldAt_nonneg
        hread token
    · rw [heldAt_zero (by show p.liquidity - r = 0; omega)]
  have hheld := h.books.held_le_holdings hp token
  rw [CleanPosition.held_eq hread] at hheld
  exact le_trans (by omega) (h.owned token)

/-- The amounts of a part of a position are words, and nothing saturates when they are computed. -/
theorem part_amounts (h : Calm s) (hp : s.positions.lookup id = some p)
    (hpool : s.pools.lookup p.poolKey = some pool) {r : ℤ} (hr : 0 < r) (hle : r ≤ p.liquidity) :
    (0 ≤ (p.withLiquidity r).amountA pool.sqrtPrice ∧
        (p.withLiquidity r).amountA pool.sqrtPrice ≤ i128Max) ∧
      (0 ≤ (p.withLiquidity r).amountB pool.sqrtPrice ∧
        (p.withLiquidity r).amountB pool.sqrtPrice ≤ i128Max) ∧
      amountsForLiquidity r (sqrtPriceAt p.tickLower) (sqrtPriceAt p.tickUpper) pool.sqrtPrice =
        .ok ((p.withLiquidity r).amountA pool.sqrtPrice,
          (p.withLiquidity r).amountB pool.sqrtPrice) := by
  have hread := spot_of_lookup hpool
  have hpart := (h.books.position _ _ hp).shrink hr hle
  have hsat := hpart.unsaturated hread
  exact ⟨⟨hpart.amountA_nonneg hread,
      amountA_le hsat hpart.sqrtLower_pos hpart.sqrtUpper_pos hr.le⟩,
    ⟨hpart.amountB_nonneg pool.sqrtPrice, amountB_le hsat hr.le⟩,
    amountsForLiquidity_of_unsaturated hsat hr.le⟩

/-- The contract can pay out what a part of a position stands for. -/
theorem payOut_ok (h : Calm s) (hp : s.positions.lookup id = some p)
    (hpool : s.pools.lookup p.poolKey = some pool) {r : ℤ} (hr : 0 < r) (hle : r ≤ p.liquidity) :
    ∃ tokens₁ tokens₂,
      transferPositive s.tokens p.poolKey.tokenA s.contractAddress p.owner
        ((p.withLiquidity r).amountA pool.sqrtPrice) = .ok tokens₁ ∧
      transferPositive tokens₁ p.poolKey.tokenB s.contractAddress p.owner
        ((p.withLiquidity r).amountB pool.sqrtPrice) = .ok tokens₂ ∧
      ∀ token, tokens₂.balance token s.contractAddress =
        s.tokens.balance token s.contractAddress -
          heldAt token (p.withLiquidity r) pool.sqrtPrice := by
  have hne : p.poolKey.tokenA ≠ p.poolKey.tokenB :=
    Address.ne_of_lt (h.books.pool _ _ hpool).ordered
  have howner := (h.books.position _ _ hp).owner
  obtain ⟨⟨hA, -⟩, ⟨hB, -⟩, -⟩ := h.part_amounts hp hpool hr hle
  have hpaidA := h.heldAt_part_le hp hpool hr hle p.poolKey.tokenA
  have hpaidB := h.heldAt_part_le hp hpool hr hle p.poolKey.tokenB
  rw [heldAt_withLiquidity, if_pos rfl, if_neg hne.symm, Int.add_zero] at hpaidA
  rw [heldAt_withLiquidity, if_neg hne, if_pos rfl, Int.zero_add] at hpaidB
  obtain ⟨tokens₁, htransfer₁, hbalance₁⟩ := transferPositive_out hA hpaidA howner
  -- the second transfer is of another token, so the first took nothing from it
  obtain ⟨tokens₂, htransfer₂, hbalance₂⟩ := transferPositive_out (b := tokens₁) hB
    (by rw [hbalance₁, if_neg hne.symm]; omega) howner
  refine ⟨tokens₁, tokens₂, htransfer₁, htransfer₂, fun token => ?_⟩
  rw [hbalance₂, hbalance₁, heldAt_withLiquidity]
  simp only [@eq_comm _ token]
  omega

/-- The owner of a position can remove any part of its liquidity. -/
theorem removeLiquidity_ok (h : Calm s) (hp : s.positions.lookup id = some p)
    (hpool : s.pools.lookup p.poolKey = some pool) {r minA minB : ℤ} (hr : 0 < r)
    (hle : r ≤ p.liquidity)
    (hmin : ¬ ((p.withLiquidity r).amountA pool.sqrtPrice < minA ∨
      (p.withLiquidity r).amountB pool.sqrtPrice < minB)) :
    ∃ result pool' tokens' event, removeLiquidity p.owner id r minA minB s =
        .ok (result, publish (writePool (storePosition { s with tokens := tokens' } p.owner
          (p.withLiquidity (p.liquidity - r))) p.poolKey pool') event) ∧
      CleanPool p.poolKey pool' ∧ pool'.sqrtPrice = pool.sqrtPrice ∧
      pool'.liquidity = rangeLiquidity (stored s.positions (p.withLiquidity (p.liquidity - r)))
        p.poolKey pool.currentTick ∧
      ∀ token, tokens'.balance token s.contractAddress =
        s.tokens.balance token s.contractAddress -
          heldAt token (p.withLiquidity r) pool.sqrtPrice := by
  have hclean := h.books.pool _ _ hpool
  have hposition := h.books.position _ _ hp
  obtain ⟨⟨hA, hA'⟩, ⟨hB, hB'⟩, hamounts⟩ := h.part_amounts hp hpool hr hle
  obtain ⟨pool', hactive, hclean', hprice', hliquidity'⟩ := h.removeActive_ok hp hpool hr hle
  obtain ⟨tokens₁, tokens₂, htransfer₁, htransfer₂, hbalance⟩ := h.payOut_ok hp hpool hr hle
  refine ⟨⟨(p.withLiquidity r).amountA pool.sqrtPrice,
    (p.withLiquidity r).amountB pool.sqrtPrice, 0, 0⟩, pool',
    tokens₂, .liqRm id p.owner ((p.withLiquidity r).amountA pool.sqrtPrice)
    ((p.withLiquidity r).amountB pool.sqrtPrice), ?_, hclean', hprice', hliquidity', hbalance⟩
  -- no check of the call fails
  have hlow : tickToSqrtPrice p.tickLower = .ok (sqrtPriceAt p.tickLower) :=
    tickToSqrtPrice_eq_ok.mpr ⟨⟨hposition.tickLower,
      hposition.ticks.le.trans hposition.tickUpper⟩, rfl⟩
  have hupp : tickToSqrtPrice p.tickUpper = .ok (sqrtPriceAt p.tickUpper) :=
    tickToSqrtPrice_eq_ok.mpr ⟨⟨hposition.tickLower.trans hposition.ticks.le,
      hposition.tickUpper⟩, rfl⟩
  have hguard : ¬ (r ≤ 0 ∨ p.liquidity < r) := by omega
  have hmemA := IntFormat.checked_of_mem (F := IntFormat.i128)
    (e := (Fault.overflow : Fault AmmError)) ⟨IntFormat.i128.lo_nonpos.trans hA, hA'⟩
  have hmemB := IntFormat.checked_of_mem (F := IntFormat.i128)
    (e := (Fault.overflow : Fault AmmError)) ⟨IntFormat.i128.lo_nonpos.trans hB, hB'⟩
  have hrelease := hclean.release_eq r p.liquidity
  simp only [removeLiquidity, h.requireAuth_ok hp, h.requireInit_ok, requirePosition_ok hp,
    requirePool_ok hpool, h.books.feeGrowthInside_eq hclean.growthA hclean.growthB,
    hposition.accrue_eq, hlow, hupp, hamounts, hrelease, hactive, require, if_pos hguard,
    if_pos hmin, if_pos, Except.ok_bind, Int.add_zero, hmemA, hmemB, hclean'.tokenA,
    hclean'.tokenB, htransfer₁, htransfer₂]
  rfl

/-- Without a part of a position, what the positions stand for is less by what the part does. -/
theorem holdings_withdrawn (h : Calm s) (hp : s.positions.lookup id = some p)
    (hpool : s.pools.lookup p.poolKey = some pool) {r : ℤ} (hr : 0 < r) (hle : r ≤ p.liquidity)
    (token : Address) :
    heldAt token (p.withLiquidity r) pool.sqrtPrice +
        holdings (spot s.pools) (stored s.positions (p.withLiquidity (p.liquidity - r))) token ≤
      holdings (spot s.pools) s.positions token := by
  have hposition := h.books.position _ _ hp
  have hread := spot_of_lookup hpool
  have hread' : spot s.pools (p.withLiquidity (p.liquidity - r)).poolKey = some pool.sqrtPrice :=
    hread
  have hstored : s.positions.lookup (p.withLiquidity (p.liquidity - r)).id = some p := by
    show s.positions.lookup p.id = some p
    rw [hposition.id_eq, hp]
  -- the whole leaves the sum and the rest enters it, which is dropped when it is empty
  have hsum : heldAt token p pool.sqrtPrice +
      holdings (spot s.pools) (stored s.positions (p.withLiquidity (p.liquidity - r))) token =
      heldAt token (p.withLiquidity (p.liquidity - r)) pool.sqrtPrice +
        holdings (spot s.pools) s.positions token := by
    rw [← CleanPosition.held_eq hread, ← CleanPosition.held_eq hread']
    exact total_stored (f := held (spot s.pools) token) hstored fun hzero => by
      rw [CleanPosition.held_eq hread', heldAt_zero hzero]
  have hadd := hposition.heldAt_add_le hread hr.le hle token
  omega

/-- The contract pays out a part of a position. -/
theorem withdraw (h : Calm s) (hp : s.positions.lookup id = some p)
    (hpool : s.pools.lookup p.poolKey = some pool) {r : ℤ} (hr : 0 < r) (hle : r ≤ p.liquidity)
    {pool' : PoolState} {tokens' : Balances Address Address} {event : Event}
    (hclean : CleanPool p.poolKey pool') (hprice : pool'.sqrtPrice = pool.sqrtPrice)
    (hliquidity : pool'.liquidity = rangeLiquidity
      (stored s.positions (p.withLiquidity (p.liquidity - r))) p.poolKey pool.currentTick)
    (hbalance : ∀ token, tokens'.balance token s.contractAddress =
      s.tokens.balance token s.contractAddress -
        heldAt token (p.withLiquidity r) pool.sqrtPrice) :
    Calm (publish (writePool (storePosition { s with tokens := tokens' } p.owner
      (p.withLiquidity (p.liquidity - r))) p.poolKey pool') event) := by
  have hposition := h.books.position _ _ hp
  have hread := spot_of_lookup hpool
  have hid : (p.withLiquidity (p.liquidity - r)).id = id := hposition.id_eq
  have hstored : s.positions.lookup (p.withLiquidity (p.liquidity - r)).id = some p := by
    rw [hid, hp]
  have hstore := storePosition_eq { s with tokens := tokens' } p.owner
    (p.withLiquidity (p.liquidity - r))
  rw [hstore]
  refine ⟨h.initialized, h.books.update hpool hclean hprice ?_ ?_ hliquidity ?_, fun token => ?_⟩
  · -- a position that is there is the rest, or an old one
    intro id' q hq
    rcases eq_or_lookup_of_stored hq with ⟨hne, rfl, rfl⟩ | ⟨-, hold⟩
    · have hpos : p.liquidity - r ≠ 0 := hne
      rw [hid]
      exact hposition.shrink (by omega) (by omega)
    · exact h.books.position id' q hold
  · intro id' hlt
    have hne : id' ≠ id := fun heq => by
      rw [heq] at hlt
      rw [h.books.fresh id hlt] at hp
      cases hp
    exact (lookup_stored_of_ne (hid.symm ▸ hne)).trans (h.books.fresh id' hlt)
  · -- the ranges of other pools do not count the position
    intro key tick hne
    have hout : ¬ InRange key tick p := fun hin => hne hin.1.symm
    have hkept := rangeLiquidity_stored (p.withLiquidity (p.liquidity - r)) hstored rfl rfl rfl key
      tick
    rw [if_neg hout, Int.sub_zero] at hkept
    exact hkept
  · show holdings (spot (s.pools.insert p.poolKey pool'))
      (stored s.positions (p.withLiquidity (p.liquidity - r))) token ≤
        tokens'.balance token s.contractAddress
    rw [spot_insert_of_eq hpool hprice, hbalance]
    have hrest := h.holdings_withdrawn hp hpool hr hle token
    have howned := h.owned token
    omega

/-- Removing liquidity leaves the contract calm. -/
theorem removeLiquidity (h : Calm s) {caller : Address} {r minA minB : ℤ}
    {result : RemoveLiquidityResult}
    (hexec : removeLiquidity caller id r minA minB s = .ok (result, s')) : Calm s' := by
  have hcopy := hexec
  simp only [Amm.removeLiquidity, requirePosition, requirePool, Except.bind_eq_ok, require_eq_ok,
    exists_const, orAbort_eq_ok, Prod.exists] at hcopy
  obtain ⟨_, -, _, -, p, hp, rfl, hguard, pool, hpool, insideA, insideB, hinside, q, hq, lower, hlower,
    upper, hupper, a, b, hamounts, hmin, -⟩ := hcopy
  have hclean := h.books.pool _ _ hpool
  have hposition := h.books.position _ _ hp
  -- nothing is accrued, so the amounts are those of the position
  rw [h.books.feeGrowthInside_eq hclean.growthA hclean.growthB] at hinside
  obtain ⟨rfl, rfl⟩ := Prod.mk.inj (Except.ok.inj hinside)
  rw [hposition.accrue_eq] at hq
  obtain rfl := Except.ok.inj hq
  obtain ⟨-, rfl⟩ := tickToSqrtPrice_eq_ok.mp hlower
  obtain ⟨-, rfl⟩ := tickToSqrtPrice_eq_ok.mp hupper
  obtain ⟨-, rfl, rfl⟩ := amountsForLiquidity_eq_ok hamounts
  have hr : 0 < r := by omega
  have hle : r ≤ p.liquidity := by omega
  obtain ⟨result', pool', tokens', event, heq, hclean', hprice', hliquidity', hbalance'⟩ :=
    h.removeLiquidity_ok hp hpool hr hle hmin
  -- the call is the one that was shown to succeed
  rw [heq] at hexec
  obtain ⟨-, rfl⟩ := Prod.mk.inj (Except.ok.inj hexec)
  exact h.withdraw hp hpool hr hle hclean' hprice' hliquidity' hbalance'

/-- Collecting fees leaves the contract calm. -/
theorem collectFees (h : Calm s) {caller : Address} {owed : ℤ × ℤ}
    (hexec : collectFees caller id s = .ok (owed, s')) : Calm s' := by
  have hcopy := hexec
  simp only [Amm.collectFees, requirePosition, Except.bind_eq_ok, require_eq_ok, exists_const,
    orAbort_eq_ok] at hcopy
  obtain ⟨_, -, _, -, p, hp, rfl, -⟩ := hcopy
  rw [h.collectFees_ok hp] at hexec
  obtain ⟨-, rfl⟩ := Prod.mk.inj (Except.ok.inj hexec)
  -- the position is written back as it was
  have hid := (h.books.position _ _ hp).id_eq
  have hsame : s.positions.lookup p.id = some p := by rw [hid, hp]
  refine ⟨h.initialized, ⟨h.books.outside, h.books.pool, ?_, ?_, ?_⟩, fun token => ?_⟩
  · intro key pool hpool
    exact (h.books.liquidity key pool hpool).trans (Store.total_insert_same hsame).symm
  · intro id' q hq
    rcases Store.eq_or_lookup_of_insert hq with ⟨rfl, rfl⟩ | ⟨-, hold⟩
    · exact h.books.position _ _ hsame
    · exact h.books.position id' q hold
  · intro id' hlt
    show (s.positions.insert p.id p).lookup id' = none
    rw [Store.lookup_insert_ite, if_neg, h.books.fresh id' hlt]
    rintro rfl
    rw [h.books.fresh p.id hlt] at hsame
    cases hsame
  · exact (Store.total_insert_same hsame).trans_le (h.owned token)

/-! ### Pools -/

/-- A new pool leaves the contract calm. -/
theorem createPool (h : Calm s) {caller tokenA tokenB : Address} {feeTier : ℕ} {initSqrtPrice : ℤ}
    (hordered : tokenA < tokenB)
    (hexec : createPool caller tokenA tokenB feeTier initSqrtPrice s = .ok s') : Calm s' := by
  obtain ⟨⟨-, -, hnone⟩, rfl⟩ := createPool_eq_ok hexec
  have hclean : CleanPool ⟨tokenA, tokenB⟩ (newPool tokenA tokenB feeTier initSqrtPrice) :=
    { tokenA := rfl
      tokenB := rfl
      ordered := hordered
      currentTick := rfl
      growthA := rfl
      growthB := rfl
      reserveA := rfl
      reserveB := rfl
      liquidity_le := IntFormat.i128.hi_nonneg
      active := ⟨le_rfl, IntFormat.i128.hi_nonneg⟩ }
  obtain ⟨hbooks, hholdings⟩ := h.books.addPool hnone hclean rfl
  exact ⟨h.initialized, hbooks, fun token => (hholdings token).trans_le (h.owned token)⟩

/-- A new fee leaves the contract calm. -/
theorem updateDynamicFee (h : Calm s) {now : ℕ} {tokenA tokenB : Address} {fee : ℕ}
    (hexec : updateDynamicFee now tokenA tokenB s = .ok (fee, s')) : Calm s' := by
  obtain ⟨pool, hpool, rfl⟩ := updateDynamicFee_eq_ok hexec
  have hclean : CleanPool ⟨tokenA, tokenB⟩ { pool with dynamicFeeBps := fee } :=
    { h.books.pool _ _ hpool with }
  have hliquidity := h.books.liquidity _ _ hpool
  have hspot : spot (s.pools.insert ⟨tokenA, tokenB⟩ { pool with dynamicFeeBps := fee }) =
      spot s.pools := spot_insert_of_eq hpool rfl
  refine ⟨h.initialized, h.books.update hpool hclean rfl h.books.position h.books.fresh hliquidity
    fun _ _ _ => rfl, fun token => ?_⟩
  show holdings (spot (s.pools.insert _ _)) s.positions token ≤ _
  rw [hspot]
  exact h.owned token

/-- Pausing leaves the contract calm. -/
theorem setPauseLevel (h : Calm s) {admin : Address} {permission : Symbol} {level : PauseLevel}
    {event : Event} (hexec : setPauseLevel admin permission level event s = .ok s') :
    Calm s' := by
  obtain rfl := setPauseLevel_eq_ok hexec
  exact ⟨h.initialized, h.books, h.owned⟩

/-- A deposit that credits no reserve leaves the contract calm. -/
theorem addLiquidity (h : Calm s) {now : ℕ} {caller tokenA tokenB : Address}
    {tickLower tickUpper amountDesiredA amountDesiredB minA minB : ℤ} {result : AddLiquidityResult}
    (hfunded : Funded s (.addLiquidity caller tokenA tokenB tickLower tickUpper amountDesiredA
      amountDesiredB minA minB))
    (hexec : addLiquidity now caller tokenA tokenB tickLower tickUpper amountDesiredA
      amountDesiredB minA minB s = .ok (result, s')) : Calm s' := by
  obtain ⟨pool, pool', liquidity, actualA, actualB, insideA, insideB, reserveA, reserveB, tokens₁,
    tokens₂, ⟨hcaller, hticks, hmin, hmax⟩, hpool, ⟨hliquidity, hne⟩, hamounts,
    ⟨htransfer₁, htransfer₂⟩, hactive, hinside, hreserve, -, hs'⟩ :=
    addLiquidity_eq_ok hexec
  have hclean := h.books.pool _ _ hpool
  -- the liquidity is what the amounts afford, so its products fit
  obtain ⟨⟨hpos, hle⟩, hsat⟩ := liquidityFromAmounts_unsaturated (sqrtPriceAt_pos hmin)
    (sqrtPriceAt_pos (hmin.trans hticks.le)) hliquidity hne hamounts
  obtain ⟨-, rfl, rfl⟩ := amountsForLiquidity_eq_ok hamounts
  obtain ⟨hclean', hprice, hliquidity'⟩ := hclean.addActive hactive
  -- no fees grew, and the reserve stays empty
  rw [h.books.feeGrowthInside_eq hclean'.growthA hclean'.growthB] at hinside
  obtain ⟨rfl, rfl⟩ := Prod.mk.inj (Except.ok.inj hinside)
  rw [hprice, computeHedgeReserve, if_pos (hfunded pool hpool)] at hreserve
  obtain ⟨rfl, rfl⟩ := Prod.mk.inj (Except.ok.inj hreserve)
  have hread := spot_of_lookup hpool
  have hnew : CleanPosition s.contractAddress (spot s.pools) (s.positionCount + 1)
      (newPosition now (s.positionCount + 1) caller ⟨tokenA, tokenB⟩ tickLower tickUpper liquidity
        0 0) :=
    { id_eq := rfl
      owner := hcaller
      liquidity_pos := hpos
      liquidity_le := hle
      tickLower := hmin
      ticks := hticks
      tickUpper := hmax
      growthA := rfl
      growthB := rfl
      owedA := rfl
      owedB := rfl
      price := ⟨pool.sqrtPrice, hread, hsat⟩ }
  have hstored : CleanPool ⟨tokenA, tokenB⟩ { pool' with
      ilReserveA := pool'.ilReserveA + 0, ilReserveB := pool'.ilReserveB + 0 } :=
    { hclean' with
      reserveA := (Int.add_zero _).trans hclean'.reserveA
      reserveB := (Int.add_zero _).trans hclean'.reserveB }
  rw [hs']
  refine ⟨h.initialized, h.books.mint hpool hstored hprice rfl hnew hliquidity', fun token => ?_⟩
  -- the contract was paid what the new position stands for
  have hA := transferPositive_in (hnew.amountA_nonneg hread) htransfer₁ hcaller token
  have hB := transferPositive_in (hnew.amountB_nonneg pool.sqrtPrice) htransfer₂ hcaller token
  have howned := h.owned token
  have hfresh := h.books.fresh (s.positionCount + 1) (by omega)
  have hspot : spot (s.pools.insert ⟨tokenA, tokenB⟩ { pool' with
      ilReserveA := pool'.ilReserveA + 0, ilReserveB := pool'.ilReserveB + 0 }) =
    spot s.pools := spot_insert_of_eq hpool hprice
  show holdings (spot (s.pools.insert _ _)) (AList.insert (s.positionCount + 1) _ s.positions)
    token ≤ tokens₂.balance token s.contractAddress
  rw [hspot, holdings, Store.total_insert_new hfresh, CleanPosition.held_eq hread, hB, hA, heldAt]
  change ite (tokenA = token) _ _ + ite (tokenB = token) _ _ + holdings _ _ _ ≤ _
  simp only [eq_comm (a := token)]
  omega

/-! ### Swaps -/

/-- A fee that is small against the liquidity is not credited. -/
theorem feeGain_eq_zero {feePaid liquidity : ℤ} (hnn : 0 ≤ feePaid)
    (hlt : feePaid * Q64 < liquidity) : feeGain feePaid liquidity = 0 := by
  have hmul : 0 ≤ feePaid * Q64 := Int.mul_nonneg hnn Q64_pos.le
  rw [feeGain, Int.tdiv_eq_ediv_of_nonneg hmul, Int.ediv_eq_zero_of_lt hmul hlt]

/-- A swap without a credited fee leaves a clean pool, and the ticks without fees. -/
theorem swapPool_clean (h : Calm s) {poolKey : PoolKey} {pool' : PoolState} {step : SwapStep}
    {zeroForOne : Bool} {fees' : TickFees} (hpool : s.pools.lookup poolKey = some pool)
    (hne : pool.liquidity ≠ 0) (hgain : feeGain step.feePaid pool.liquidity = 0)
    (hswap : swapPool pool step zeroForOne = .ok pool')
    (hfees : swapTickFees s.tickFees poolKey pool pool'.currentTick zeroForOne = .ok fees') :
    CleanPool poolKey pool' ∧ pool'.sqrtPrice = step.newSqrtPrice ∧
      pool'.liquidity = pool.liquidity ∧
      ∀ key tick isA, readTickFeeOutside fees' key tick isA = 0 := by
  have hclean := h.books.pool _ _ hpool
  refine ⟨?_, ?_, ?_, fun key tick isA => ?_⟩
  · rw [swapPool_eq_ok hne hswap, hgain, ite_self, Int.add_zero, Int.add_zero]
    exact { hclean with currentTick := rfl }
  · rw [swapPool_eq_ok hne hswap]
  · rw [swapPool_eq_ok hne hswap]
  · -- a flip takes the growth outside from a growth that is zero
    rw [swapTickFees_eq_ok hfees]
    split
    · exact h.books.outside key tick isA
    · rw [readTickFeeOutside_crossed, h.books.outside, hclean.growthA, hclean.growthB, ite_self,
        Int.sub_zero, ite_self]

/-- A pool moves its price, and what the contract owns covers the new amounts. -/
theorem move (h : Calm s) {poolKey : PoolKey} {pool' : PoolState} {fees' : TickFees}
    {tokens' : Balances Address Address} (hpool : s.pools.lookup poolKey = some pool)
    (hclean : CleanPool poolKey pool') (hliquidity : pool'.liquidity = pool.liquidity)
    (hfees : ∀ key tick isA, readTickFeeOutside fees' key tick isA = 0)
    (hapart : ∀ id p, s.positions.lookup id = some p → p.poolKey = poolKey →
      Apart pool.sqrtPrice pool'.sqrtPrice p)
    (hsat : ∀ id p, s.positions.lookup id = some p → p.poolKey = poolKey →
      Unsaturated p.liquidity p.sqrtLower p.sqrtUpper
        (clampPrice p.sqrtLower p.sqrtUpper pool'.sqrtPrice))
    (howned : ∀ token, holdings (spot (s.pools.insert poolKey pool')) s.positions token ≤
      tokens'.balance token s.contractAddress) (samples : PriceSamples) (events : List Event) :
    Calm { s with
      samples := samples
      tickFees := fees'
      tokens := tokens'
      pools := s.pools.insert poolKey pool'
      events := events } :=
  ⟨h.initialized, h.books.move hpool hclean hliquidity hfees hapart hsat, howned⟩

/-- A swap that leaves the price takes tokens in and pays none out. -/
theorem swap_still (h : Calm s) {poolKey : PoolKey} {pool' : PoolState} {fees' : TickFees}
    {tokens' : Balances Address Address} {tokenIn tokenOut : Address} {amountIn : ℤ}
    (hpool : s.pools.lookup poolKey = some pool) (hclean : CleanPool poolKey pool')
    (hliquidity : pool'.liquidity = pool.liquidity)
    (hprice : pool'.sqrtPrice = pool.sqrtPrice)
    (hfees : ∀ key tick isA, readTickFeeOutside fees' key tick isA = 0) (hin : 0 ≤ amountIn)
    (hbalance : ∀ t, tokens'.balance t s.contractAddress = s.tokens.balance t s.contractAddress +
      (if t = tokenIn then amountIn else 0) - if t = tokenOut then 0 else 0)
    (samples : PriceSamples) (events : List Event) :
    Calm { s with
      samples := samples
      tickFees := fees'
      tokens := tokens'
      pools := s.pools.insert poolKey pool'
      events := events } := by
  refine h.move hpool hclean hliquidity hfees ?_ ?_ ?_ samples events
  · intro id p _ _
    rw [hprice]
    exact ⟨Iff.rfl, Iff.rfl⟩
  · rintro id p hp rfl
    rw [hprice]
    exact (h.books.position id p hp).unsaturated (spot_of_lookup hpool)
  · -- only the balance of the token paid in moves, and it rises
    intro token
    have howned := h.owned token
    rw [spot_insert_of_eq hpool hprice, hbalance]
    split <;> omega

/-- No bound of a position is crossed on the way to a target that crosses none. -/
theorem apart_reached {poolKey : PoolKey} {target after reached : ℤ}
    (hafford : Affordable s poolKey pool target after)
    (htick : pool.currentTick = sqrtPriceToTick pool.sqrtPrice)
    (hbetween : min pool.sqrtPrice target ≤ reached ∧ reached ≤ max pool.sqrtPrice target)
    (hp : s.positions.lookup id = some p) (hkey : p.poolKey = poolKey) :
    Apart pool.sqrtPrice reached p := by
  -- the new tick is between the old one and that of the target
  have hlow := sqrtPriceToTick_mono hbetween.1
  have hhigh := sqrtPriceToTick_mono hbetween.2
  have hends := hafford.apart id p hp hkey
  rw [htick] at hends
  rcases le_total pool.sqrtPrice target with hle | hle
  · rw [min_eq_left hle] at hlow
    rw [max_eq_right hle] at hhigh
    exact ⟨⟨fun hl => by omega, fun hl => by omega⟩, ⟨fun hu => by omega, fun hu => by omega⟩⟩
  · rw [min_eq_right hle] at hlow
    rw [max_eq_left hle] at hhigh
    exact ⟨⟨fun hl => by omega, fun hl => by omega⟩, ⟨fun hu => by omega, fun hu => by omega⟩⟩

/-- Nothing saturates on the way to a target at which nothing saturates. -/
theorem unsaturated_reached (h : Calm s) {poolKey : PoolKey} {target after reached : ℤ}
    (hafford : Affordable s poolKey pool target after)
    (hpool : s.pools.lookup poolKey = some pool)
    (hbetween : min pool.sqrtPrice target ≤ reached ∧ reached ≤ max pool.sqrtPrice target)
    (hp : s.positions.lookup id = some p) (hkey : p.poolKey = poolKey) :
    Unsaturated p.liquidity p.sqrtLower p.sqrtUpper
      (clampPrice p.sqrtLower p.sqrtUpper reached) := by
  subst hkey
  have hposition := h.books.position id p hp
  -- the reached price is between two prices at which nothing saturates
  refine (hposition.unsaturated (spot_of_lookup hpool)).between
    (hafford.unsaturated id p hp rfl) hposition.liquidity_pos.le hposition.sqrtUpper_pos ?_ ?_
  · unfold clampPrice
    omega
  · unfold clampPrice
    omega

/-- The contract can afford a swap whose step is covered by what it takes in, up to rounding. -/
theorem swap_covered (h : Calm s) {poolKey : PoolKey} {pool' : PoolState} {fees' : TickFees}
    {tokens' : Balances Address Address} {target after gainA gainB : ℤ}
    (hpool : s.pools.lookup poolKey = some pool) (hclean : CleanPool poolKey pool')
    (hliquidity : pool'.liquidity = pool.liquidity)
    (hfees : ∀ key tick isA, readTickFeeOutside fees' key tick isA = 0)
    (hafford : Affordable s poolKey pool target after) (hcurrent : OnTable pool.sqrtPrice)
    (htarget : OnTable target)
    (hbetween : min pool.sqrtPrice target ≤ pool'.sqrtPrice ∧
      pool'.sqrtPrice ≤ max pool.sqrtPrice target)
    (hgainA : pool.liquidity * (pool.sqrtPrice - pool'.sqrtPrice) * Q64 ≤
      (gainA + 3) * (pool.sqrtPrice * pool'.sqrtPrice))
    (hgainB : pool.liquidity * (pool'.sqrtPrice - pool.sqrtPrice) ≤ (gainB + 1) * Q64)
    (hbalance : ∀ t, tokens'.balance t s.contractAddress = s.tokens.balance t s.contractAddress +
      (if t = poolKey.tokenA then gainA else 0) + if t = poolKey.tokenB then gainB else 0)
    (samples : PriceSamples) (events : List Event) :
    Calm { s with
      samples := samples
      tickFees := fees'
      tokens := tokens'
      pools := s.pools.insert poolKey pool'
      events := events } := by
  have htick := (h.books.pool _ _ hpool).currentTick
  have hreached : OnTable pool'.sqrtPrice := by
    unfold OnTable at *
    omega
  have hapart : ∀ id p, s.positions.lookup id = some p → p.poolKey = poolKey →
      Apart pool.sqrtPrice pool'.sqrtPrice p := fun _ _ hp hkey =>
    apart_reached hafford htick hbetween hp hkey
  have hsat : ∀ id p, s.positions.lookup id = some p → p.poolKey = poolKey →
      Unsaturated p.liquidity p.sqrtLower p.sqrtUpper
        (clampPrice p.sqrtLower p.sqrtUpper pool'.sqrtPrice) := fun _ _ hp hkey =>
    h.unsaturated_reached hafford hpool hbetween hp hkey
  refine h.move hpool hclean hliquidity hfees hapart hsat (fun token => ?_) samples events
  -- the positions in range gain what the swap pays, up to rounding
  have hA := h.books.total_amountA_le hpool hcurrent hreached hapart hsat hgainA
  have hB := h.books.total_amountB_le hpool hcurrent hreached hapart hgainB
  have hcount : 0 ≤ rangeCount s.positions poolKey pool.currentTick :=
    Store.total_nonneg fun id p _ => by split <;> decide
  have hne := Address.ne_of_lt hclean.ordered
  have hsurplus := hafford.surplus token
  have howned := h.owned token
  rw [h.liabilities_eq] at hsurplus
  rw [Books.holdings_move hpool, hbalance]
  -- the surplus covers what rounding loses for the tokens of the pool; others stay
  by_cases htokenA : token = poolKey.tokenA
  · have htokenB : token ≠ poolKey.tokenB := htokenA ▸ hne
    rw [if_pos htokenA.symm, if_neg htokenB.symm, if_pos htokenA, if_neg htokenB]
    have := hsurplus (.inl htokenA)
    omega
  · rw [if_neg (Ne.symm htokenA), if_neg htokenA]
    by_cases htokenB : token = poolKey.tokenB
    · rw [if_pos htokenB.symm, if_pos htokenB]
      have := hsurplus (.inr htokenB)
      omega
    · rw [if_neg (Ne.symm htokenB), if_neg htokenB]
      omega

/-- A funded swap leaves the contract calm. -/
theorem swap (h : Calm s) {now : ℕ} {caller tokenIn tokenOut : Address} {amountIn minAmountOut : ℤ}
    {result : SwapResult} (hfunded : Funded s (.swap caller tokenIn tokenOut amountIn minAmountOut))
    (hexec : swap now caller tokenIn tokenOut amountIn minAmountOut s = .ok (result, s')) :
    Calm s' := by
  obtain ⟨pool, pool', step, fees', tokens₁, tokens₂, ⟨hcaller, hpos⟩, ⟨hpool, hne⟩, hstep, hswap,
    hfees, ⟨hin, hout⟩, -, rfl⟩ := swap_eq_ok hexec
  obtain ⟨hcurrent, hsmall, hkind⟩ := hfunded pool hpool
  have hclean := h.books.pool _ _ hpool
  obtain ⟨hfee, hstepTo⟩ := computeSwapStep_eq_ok hstep
  change step.feePaid = swapFee pool amountIn at hfee
  rw [hfee] at hstepTo
  change _ = stepTo _ (targetPrice pool _) _ (netInput pool amountIn) at hstepTo
  -- the fee is too small to be credited, so the growth stays zero
  have hfee_nonneg : 0 ≤ swapFee pool amountIn :=
    Int.tdiv_nonneg (Int.mul_nonneg hpos.le (Int.natCast_nonneg _)) (by decide)
  have hliq_pos : 0 < pool.liquidity :=
    lt_of_le_of_lt (Int.mul_nonneg hfee_nonneg Q64_pos.le) hsmall
  have hgain : feeGain step.feePaid pool.liquidity = 0 := by
    rw [hfee]
    exact feeGain_eq_zero hfee_nonneg hsmall
  obtain ⟨hclean', hprice, hliquidity, houtside⟩ := h.swapPool_clean hpool hne hgain hswap hfees
  have hbalance := balance_swap hin hout hcaller
  have hafter := netInput_nonneg pool amountIn
  generalize hz : (orderTokens tokenIn tokenOut).2 = zeroForOne at *
  generalize netInput pool amountIn = after at *
  have htarget := onTable_targetPrice pool zeroForOne
  have hside := targetPrice_side hclean.currentTick hcurrent zeroForOne
  generalize targetPrice pool zeroForOne = target at *
  rcases hkind with hstill | hafford
  · -- the step stays at the price
    have hup : ¬ target < pool.sqrtPrice := by
      rcases hstill with heq | ⟨hlt, -⟩ <;> omega
    obtain ⟨amountIn', heq, hnn⟩ :=
      stepUp_still hcurrent.pos hcurrent.le_i128Max hliq_pos hafter hstill
    rw [stepTo, if_neg hup, heq] at hstepTo
    obtain ⟨hreached, hamounts⟩ := Prod.mk.inj hstepTo
    obtain ⟨hamountIn, hamountOut⟩ := Prod.mk.inj hamounts
    rw [hamountOut] at hbalance
    exact h.swap_still hpool hclean' hliquidity (hprice.trans hreached) houtside
      (hamountIn ▸ hnn) hbalance _ _
  · -- what the step takes in covers it
    have hbetween := (stepTo_between hcurrent.pos htarget hliq_pos hafter).1
    obtain ⟨hsell, hbuy⟩ := stepTo_covers hcurrent htarget hliq_pos hafter hafford.product
      hafford.down hstepTo.symm
    rw [← hstepTo, ← hprice] at hbetween
    rw [← hprice] at hsell hbuy
    have htokens := orderTokens_tokens tokenIn tokenOut
    rw [hz] at htokens
    cases zeroForOne with
    | true =>
      -- token a comes in, and token b goes out
      obtain ⟨hgainA, hgainB⟩ := hsell hside
      refine h.swap_covered hpool hclean' hliquidity houtside hafford hcurrent htarget hbetween
        hgainA hgainB (fun t => ?_) _ _
      rw [if_pos rfl] at htokens
      rw [hbalance, htokens]
      split <;> split <;> omega
    | false =>
      -- token b comes in, and token a goes out
      obtain ⟨hgainA, hgainB⟩ := hbuy hside
      refine h.swap_covered hpool hclean' hliquidity houtside hafford hcurrent htarget hbetween
        hgainA hgainB (fun t => ?_) _ _
      rw [if_neg Bool.false_ne_true] at htokens
      rw [hbalance, htokens]
      split <;> split <;> omega

end Calm

end Stellara.Amm
