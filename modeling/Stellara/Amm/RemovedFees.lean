import Stellara.Amm.Exits
import Stellara.Amm.FeeAttribution

/-!
# The fees of removed liquidity

A removal accrues the fees of the position, pays for the liquidity and a part of the reserve, and
writes the position back with what it is owed. A position that is left without liquidity is deleted
instead, and what it is owed with it. So the fees are lost when the whole liquidity is removed from
a position that has earned any. They cannot be collected either when the contract does not own them
after the removal: a swap credits its fee, and nobody transfers it.

## Main definitions

* `earned`: the fees of a position, recorded or not yet accrued
* `feesPaid`, `collectable`: what a removal pays beside the liquidity and the reserve, and what
  `collectFees` pays the owner
* `FeesKept`: the fees that were earned are paid or can be collected
* `Unearned`: a position that has earned no unit of fees
* `FeesBacked`: the contract owns what the removal and the collection of the fees take
* `FullyAccrued`, `CanPay`: a position with nothing to accrue, and what it is owed can be paid

## Main results

* `Step.owedNonneg`: a position is never owed less than nothing
* `payments_isOk_iff`: when the contract can pay two amounts
* `FullyAccrued.collectable_of_canPay`: what can be collected for a position with nothing to accrue
* `removeLiquidity_collectable`: what can be collected after a removal
* `fees_kept_iff`: the removals of every run
-/

namespace Stellara.Amm

variable {τ : Type}

/-! ## Fees of a position -/

/-- The fees of a position up to now: what it is owed, and what it would accrue. -/
def earned (s : State τ) (p : LpPosition) (isA : Bool) : ℤ := p.owed isA + pending s p isA

/-- The amount of a token that `r` units of the liquidity of a position stand for. -/
def principal (s : State τ) (p : LpPosition) (r : ℤ) (isA : Bool) : ℤ :=
  (s.pools.lookup p.poolKey).elim 0 fun pool =>
    if isA then amountA r p.sqrtLower p.sqrtUpper pool.sqrtPrice
    else amountB r p.sqrtLower p.sqrtUpper pool.sqrtPrice

/-- What a removal of `r` units of a position releases of the reserve of its pool. -/
def released (s : State τ) (p : LpPosition) (r : ℤ) (isA : Bool) : ℤ :=
  (s.pools.lookup p.poolKey).elim 0 fun pool =>
    ((if isA then pool.ilReserveA else pool.ilReserveB) * r).tdiv (max p.liquidity 1)

/-- What a removal pays beside the liquidity and the reserve that it releases. -/
def feesPaid (s : State τ) (p : LpPosition) (r : ℤ) (result : RemoveLiquidityResult) (isA : Bool) : ℤ :=
  (if isA then result.amountA - result.hedgeA else result.amountB - result.hedgeB) -
    principal s p r isA

/-- A position is owed nothing, and what has grown in its range since its last accrual is less than
one unit. -/
def Unearned (s : State τ) (p : LpPosition) : Prop :=
  ∀ isA, p.owed isA = 0 ∧ p.liquidity * sinceAccrual s p isA < Q64

/-- What the removal of `r` units of a position and the collection of its fees pay of a token of its
pool. -/
def due (s : State τ) (p : LpPosition) (r : ℤ) (isA : Bool) : ℤ :=
  max (principal s p r isA + released s p r isA) 0 + earned s p isA

section Collection

variable [TokenClient τ Address Address]

/-- What `collectFees` pays `owner` for a position; nothing when it fails. -/
def collectable (s : State τ) (owner : Address) (id : ℕ) (isA : Bool) : ℤ :=
  match collectFees owner id s with
  | .ok ((owedA, owedB), _) => if isA then owedA else owedB
  | .error _ => 0

/-- The fees that a position has earned up to a removal are paid to its owner, or can be collected by
it. -/
def FeesKept (s s' : State τ) (id : ℕ) (p : LpPosition) (r : ℤ) (result : RemoveLiquidityResult) :
    Prop :=
  ∀ isA, feesPaid s p r result isA + collectable s' p.owner id isA = earned s p isA

/-- The contract owns what the removal and the collection of the fees pay. -/
def FeesBacked (s : State τ) (p : LpPosition) (r : ℤ) : Prop :=
  ∀ pool, s.pools.lookup p.poolKey = some pool → ∀ token,
    (if token = pool.tokenA then due s p r true else 0) +
      (if token = pool.tokenB then due s p r false else 0) ≤
        TokenClient.balance s.tokens token s.contractAddress

end Collection

/-- No position is owed less than nothing. -/
def OwedNonneg (positions : Store ℕ LpPosition) : Prop :=
  ∀ id p, positions.lookup id = some p → ∀ isA, 0 ≤ p.owed isA

/-! ## Steps -/

section Steps

variable {s s' : State τ} {id : ℕ} {pool pool' : PoolState} {p q : LpPosition} {r : ℤ}
  {positions : Store ℕ LpPosition}

theorem OwedNonneg.insert (h : OwedNonneg positions) (hp : ∀ isA, 0 ≤ p.owed isA) (id : ℕ) :
    OwedNonneg (positions.insert id p) := by
  intro id' q hq
  rcases Store.eq_or_lookup_of_insert hq with ⟨-, rfl⟩ | ⟨-, hold⟩
  · exact hp
  · exact h id' q hold

theorem accrued_owed (p : LpPosition) (insideA insideB : ℤ) (isA : Bool) :
    (accrued p insideA insideB).owed isA =
      p.owed isA + unaccrued p.liquidity (p.growthLast isA) (if isA then insideA else insideB) := by
  cases isA <;> rfl

theorem afterCollection_owed (p : LpPosition) (insideA insideB : ℤ) (isA : Bool) :
    (afterCollection p insideA insideB).owed isA =
      if 0 < (accrued p insideA insideB).owed isA then 0 else (accrued p insideA insideB).owed isA := by
  cases isA <;> rfl

/-- No step leaves a position that is owed less than nothing. -/
theorem Step.owedNonneg {call : Call} {result : Result}
    (hsound : Sound s.pools s.positionCount s.positions) (h : OwedNonneg s.positions)
    (hstep : Step s s' call result) : OwedNonneg s'.positions := by
  -- accruing adds to what is owed
  have haccrued : ∀ id p insideA insideB isA, s.positions.lookup id = some p →
      0 ≤ (accrued p insideA insideB).owed isA := by
    intro id p insideA insideB isA hp
    rw [accrued_owed]
    have hpos := (hsound.position id p hp).liquidity_pos
    exact Int.add_nonneg (h id p hp isA) (unaccrued_nonneg _ _ hpos.le)
  cases hstep with
  | added _ _ hstep =>
    rw [hstep.positions]
    refine h.insert (fun isA => ?_) _
    cases isA
    · exact hstep.owedB.ge
    · exact hstep.owedA.ge
  | @removed caller i r minA minB removed pool pool' p hstep =>
    rw [hstep.positions]
    intro id' q hq isA
    rcases eq_or_lookup_of_stored hq with ⟨-, -, rfl⟩ | ⟨-, hold⟩
    · have hnn := haccrued _ p (insideNow s.tickFees pool p true) (insideNow s.tickFees pool p false)
        isA hstep.lookup_position
      cases isA <;> exact hnn
    · exact h id' q hold isA
  | @collected caller i owedA owedB pool p _ _ hstep =>
    rw [hstep.positions]
    refine h.insert (fun isA => ?_) _
    have hnn := haccrued _ p (insideNow s.tickFees pool p true) (insideNow s.tickFees pool p false)
      isA hstep.lookup_position
    -- what is paid is no longer owed
    rw [afterCollection_owed]
    split
    · exact le_rfl
    · exact hnn
  | created _ hstep | swapped hstep | repriced hstep | paused hstep | unpaused hstep =>
    rw [hstep.positions]
    exact h

/-- Growth that is worth less than one unit is not accrued. -/
theorem unaccrued_eq_zero_iff {liquidity growthLast growthNow : ℤ} (hpos : 0 < liquidity) :
    unaccrued liquidity growthLast growthNow = 0 ↔ liquidity * (growthNow - growthLast) < Q64 := by
  unfold unaccrued
  split
  · rename_i hgrown
    have hprod : 0 < liquidity * (growthNow - growthLast) := Int.mul_pos hpos hgrown
    rw [Int.tdiv_eq_ediv_of_nonneg hprod.le]
    constructor
    · intro hzero
      have hlt := Int.lt_ediv_add_one_mul_self (liquidity * (growthNow - growthLast)) Q64_pos
      rwa [hzero, zero_add, one_mul] at hlt
    · exact Int.ediv_eq_zero_of_lt hprod.le
  · rename_i hnone
    have hprod : liquidity * (growthNow - growthLast) ≤ 0 :=
      Int.mul_nonpos_of_nonneg_of_nonpos hpos.le (by omega)
    have hQ := Q64_pos
    exact iff_of_true rfl (by omega)

theorem pending_eq (hpool : s.pools.lookup p.poolKey = some pool) (isA : Bool) :
    pending s p isA =
      unaccrued p.liquidity (p.growthLast isA) (insideNow s.tickFees pool p isA) := by
  rw [pending, hpool, Option.elim_some]

/-- A position has earned nothing exactly when it is owed nothing and what has grown is worth less
than one unit. -/
theorem earned_eq_zero_iff (hpos : 0 < p.liquidity) (howed : ∀ isA, 0 ≤ p.owed isA)
    (hpool : s.pools.lookup p.poolKey = some pool) :
    (∀ isA, earned s p isA = 0) ↔ Unearned s p := by
  apply forall_congr'
  intro isA
  have hnn := unaccrued_nonneg (p.growthLast isA) (insideNow s.tickFees pool p isA) hpos.le
  have hiff : unaccrued p.liquidity (p.growthLast isA) (insideNow s.tickFees pool p isA) = 0 ↔
      p.liquidity * (insideNow s.tickFees pool p isA - p.growthLast isA) < Q64 :=
    unaccrued_eq_zero_iff hpos
  have howed' := howed isA
  rw [earned, pending_eq hpool, sinceAccrual_eq hpool, ← hiff]
  omega

theorem principal_eq {amtA amtB : ℤ} (hpool : s.pools.lookup p.poolKey = some pool)
    (h : amountsForLiquidity r (sqrtPriceAt p.tickLower) (sqrtPriceAt p.tickUpper) pool.sqrtPrice =
      .ok (amtA, amtB)) (isA : Bool) : principal s p r isA = if isA then amtA else amtB := by
  obtain ⟨-, rfl, rfl⟩ := amountsForLiquidity_eq_ok h
  rw [principal, hpool, Option.elim_some]
  rfl

theorem computeHedgeRelease_eq {liquidity hedgeA hedgeB : ℤ} (hpos : 0 < liquidity)
    (h : computeHedgeRelease pool r liquidity = .ok (hedgeA, hedgeB)) (isA : Bool) :
    (if isA then hedgeA else hedgeB) =
      ((if isA then pool.ilReserveA else pool.ilReserveB) * r).tdiv (max liquidity 1) := by
  rw [computeHedgeRelease, if_neg hpos.ne'] at h
  simp only [Except.bind_eq_ok, IntFormat.checked_eq_ok] at h
  obtain ⟨productA, ⟨-, rfl⟩, productB, ⟨-, rfl⟩, h⟩ := h
  obtain ⟨rfl, rfl⟩ := Prod.mk.inj (Except.ok.inj h)
  cases isA <;> rfl

theorem released_eq {hedgeA hedgeB : ℤ} (hpool : s.pools.lookup p.poolKey = some pool)
    (hpos : 0 < p.liquidity) (h : computeHedgeRelease pool r p.liquidity = .ok (hedgeA, hedgeB))
    (isA : Bool) : released s p r isA = if isA then hedgeA else hedgeB := by
  rw [released, hpool, Option.elim_some, computeHedgeRelease_eq hpos h]

theorem earned_nonneg (hpos : 0 < p.liquidity) (howed : ∀ isA, 0 ≤ p.owed isA)
    (hpool : s.pools.lookup p.poolKey = some pool) (isA : Bool) : 0 ≤ earned s p isA := by
  rw [earned, pending_eq hpool]
  exact Int.add_nonneg (howed isA) (unaccrued_nonneg _ _ hpos.le)

/-- After a removal a position is owed what it has earned. -/
theorem afterRemoval_owed {insideA insideB : ℤ} (hpool : s.pools.lookup p.poolKey = some pool)
    (hinside : feeGrowthInside s.tickFees p.poolKey pool p.tickLower p.tickUpper =
      .ok (insideA, insideB)) (r : ℤ) (isA : Bool) :
    (afterRemoval p insideA insideB r).owed isA = earned s p isA := by
  obtain ⟨rfl, rfl⟩ := feeGrowthInside_eq_ok hinside
  rw [earned, pending_eq hpool]
  cases isA <;> rfl

/-- What is due is what the removal pays, and what was earned. -/
theorem due_eq {amtA amtB hedgeA hedgeB : ℤ} (hpool : s.pools.lookup p.poolKey = some pool)
    (hpos : 0 < p.liquidity)
    (hamounts : amountsForLiquidity r (sqrtPriceAt p.tickLower) (sqrtPriceAt p.tickUpper)
      pool.sqrtPrice = .ok (amtA, amtB))
    (hrelease : computeHedgeRelease pool r p.liquidity = .ok (hedgeA, hedgeB)) (isA : Bool) :
    due s p r isA = max (if isA then amtA + hedgeA else amtB + hedgeB) 0 + earned s p isA := by
  rw [due, principal_eq hpool hamounts, released_eq hpool hpos hrelease]
  cases isA <;> rfl

theorem feesBacked_iff [TokenClient τ Address Address]
    (hpool : s.pools.lookup p.poolKey = some pool) : FeesBacked s p r ↔ ∀ token,
      (if token = pool.tokenA then due s p r true else 0) +
        (if token = pool.tokenB then due s p r false else 0) ≤
          TokenClient.balance s.tokens token s.contractAddress := by
  simp [FeesBacked, hpool]

/-- The stored position, unless it is deleted. -/
theorem lookup_stored_self (positions : Store ℕ LpPosition) (p : LpPosition) :
    (stored positions p).lookup p.id = if p.liquidity = 0 then none else some p := by
  unfold stored
  split
  · exact AList.lookup_erase _ _
  · exact AList.lookup_insert _

namespace LiquidityRemoved

/-- A removal writes the position back, or deletes it when no liquidity is left. -/
theorem lookup_self (h : LiquidityRemoved s s' id pool pool' p r)
    (hsound : Sound s.pools s.positionCount s.positions) :
    s'.positions.lookup id = if p.liquidity - r = 0 then none else
      some (afterRemoval p (insideNow s.tickFees pool p true) (insideNow s.tickFees pool p false)
        r) := by
  rw [h.positions, ← (hsound.position id p h.lookup_position).id_eq]
  exact lookup_stored_self s.positions
    (afterRemoval p (insideNow s.tickFees pool p true) (insideNow s.tickFees pool p false) r)

end LiquidityRemoved

/-- Nothing accrues up to a growth that was accrued already. -/
theorem accruePositionFees_self (p : LpPosition) :
    accruePositionFees p p.feeGrowthInsideALast p.feeGrowthInsideBLast = .ok p := by
  simp [accruePositionFees, accrueToken]

/-- The growth inside a range depends on the market of the pool only. -/
theorem feeGrowthInside_congr (h : SameMarket pool pool') (fees : TickFees) (poolKey : PoolKey)
    (tickLower tickUpper : ℤ) : feeGrowthInside fees poolKey pool' tickLower tickUpper =
      feeGrowthInside fees poolKey pool tickLower tickUpper := by
  unfold feeGrowthInside
  rw [h.currentTick, h.growthA, h.growthB]

end Steps

/-! ## Payments -/

section Payments

variable [TokenClient τ Address Address] {b b₁ b₂ : τ} {c a tokenA tokenB : Address}
  {amountA amountB : ℤ}

/-- The payment of two amounts, one after the other. -/
def Pays (b b₂ : τ) (c a tokenA tokenB : Address) (amountA amountB : ℤ) : Prop :=
  ∃ b₁, transferPositive b tokenA c a amountA = .ok b₁ ∧
    transferPositive b₁ tokenB c a amountB = .ok b₂

variable [StandardToken τ Address Address]

/-- What is left after two payments to somebody else. -/
theorem Pays.balance (h : Pays b b₂ c a tokenA tokenB amountA amountB) (hne : a ≠ c) (t : Address) :
    TokenClient.balance b₂ t c = TokenClient.balance b t c -
      (if t = tokenA then max amountA 0 else 0) - if t = tokenB then max amountB 0 else 0 := by
  obtain ⟨b₁, h₁, h₂⟩ := h
  rw [transferPositive_paid h₂ hne, transferPositive_paid h₁ hne]

/-- The contract can pay two amounts exactly when it owns their sum, token by token. -/
theorem payments_isOk_iff (hne : a ≠ c) : (∃ b₂, Pays b b₂ c a tokenA tokenB amountA amountB) ↔
    ∀ t, (if t = tokenA then max amountA 0 else 0) + (if t = tokenB then max amountB 0 else 0) ≤
      TokenClient.balance b t c := by
  constructor
  · rintro ⟨b₂, hpays⟩ t
    have hleft := hpays.balance hne t
    have hnn := StandardToken.balance_nonneg b₂ t c
    omega
  · intro howned
    have hA := howned tokenA
    rw [if_pos rfl] at hA
    have hB₀ : 0 ≤ (if tokenA = tokenB then max amountB 0 else 0) := by
      split
      · exact le_max_right _ _
      · exact le_rfl
    -- what the first payment leaves of the second token is enough, also when both tokens are the same
    obtain ⟨b₁, h₁⟩ := transferPositive_isOk_iff (b := b) (a := a) |>.mpr
      (show max amountA 0 ≤ TokenClient.balance b tokenA c by omega)
    have hB := howned tokenB
    have hleft := transferPositive_paid h₁ hne tokenB
    rw [if_pos rfl] at hB
    obtain ⟨b₂, h₂⟩ := transferPositive_isOk_iff (b := b₁) (a := a) |>.mpr
      (show max amountB 0 ≤ TokenClient.balance b₁ tokenB c by omega)
    exact ⟨b₂, b₁, h₁, h₂⟩

end Payments

/-! ## Collections -/

section Collections

variable [TokenClient τ Address Address] {s s' : State τ} {caller : Address} {id : ℕ}
  {r minA minB : ℤ} {p : LpPosition} {pool : PoolState}

/-- Nothing can be collected for a position that is not stored. -/
theorem collectable_of_none (h : s.positions.lookup id = none) (isA : Bool) :
    collectable s caller id isA = 0 := by
  unfold collectable
  split
  · rename_i hcollect
    obtain ⟨p, -, -, -, -, -, hp, -⟩ := collectFees_eq_ok hcollect
    rw [h] at hp
    cases hp
  · rfl

/-- The position of the caller has accrued everything that has grown in its range, in an initialised
contract. -/
structure FullyAccrued (s : State τ) (caller : Address) (id : ℕ) (p : LpPosition) (pool : PoolState) :
    Prop where
  caller_ne : caller ≠ s.contractAddress
  initialized : s.initialized = true
  lookup_position : s.positions.lookup id = some p
  owner : p.owner = caller
  lookup : s.pools.lookup p.poolKey = some pool
  inside : feeGrowthInside s.tickFees p.poolKey pool p.tickLower p.tickUpper =
    .ok (p.feeGrowthInsideALast, p.feeGrowthInsideBLast)

/-- The contract can pay to the caller what the position is owed. -/
def CanPay (s : State τ) (caller : Address) (p : LpPosition) (pool : PoolState) : Prop :=
  ∃ tokens, Pays s.tokens tokens s.contractAddress caller pool.tokenA pool.tokenB p.tokensOwedA
    p.tokensOwedB

namespace FullyAccrued

/-- The fees are collected when they can be paid. -/
theorem collectFees (h : FullyAccrued s caller id p pool) (hpays : CanPay s caller p pool) :
    ∃ s', Amm.collectFees caller id s = .ok ((p.tokensOwedA, p.tokensOwedB), s') := by
  obtain ⟨tokens₂, tokens₁, htransfer₁, htransfer₂⟩ := hpays
  simp [Amm.collectFees, requireAuth, requireInit, requirePosition, requirePool, require, orAbort,
    h.caller_ne, h.initialized, h.lookup_position, h.owner, h.lookup, h.inside,
    accruePositionFees_self, htransfer₁, htransfer₂]

/-- A collection pays what the position is owed. -/
theorem canPay {owedA owedB : ℤ} (h : FullyAccrued s caller id p pool)
    (hcollect : Amm.collectFees caller id s = .ok ((owedA, owedB), s')) : CanPay s caller p pool := by
  obtain ⟨q, pool₁, insideA, insideB, tokens₁, tokens₂, hq, -, hpool₁, hinside₁, ⟨rfl, rfl⟩,
    ⟨htransfer₁, htransfer₂⟩, -⟩ := collectFees_eq_ok hcollect
  obtain rfl := Option.some.inj (h.lookup_position.symm.trans hq)
  obtain rfl := Option.some.inj (h.lookup.symm.trans hpool₁)
  obtain ⟨rfl, rfl⟩ := Prod.mk.inj (Except.ok.inj (h.inside.symm.trans hinside₁))
  have hself := accruePositionFees_eq_ok (accruePositionFees_self p)
  rw [← hself] at htransfer₁ htransfer₂
  exact ⟨tokens₂, tokens₁, htransfer₁, htransfer₂⟩

/-- What the position is owed can be collected when it can be paid. -/
theorem collectable_of_canPay (h : FullyAccrued s caller id p pool) (hpays : CanPay s caller p pool)
    (isA : Bool) : collectable s caller id isA = p.owed isA := by
  obtain ⟨s', hcollect⟩ := h.collectFees hpays
  rw [collectable, hcollect]
  rfl

/-- Nothing can be collected when it cannot. -/
theorem collectable_of_not_canPay (h : FullyAccrued s caller id p pool)
    (hnot : ¬ CanPay s caller p pool) (isA : Bool) : collectable s caller id isA = 0 := by
  unfold collectable
  split
  · rename_i hcollect
    exact absurd (h.canPay hcollect) hnot
  · rfl

end FullyAccrued

/-- Only an initialised contract removes liquidity, and not its own. -/
theorem removeLiquidity_guards {result : RemoveLiquidityResult}
    (h : removeLiquidity caller id r minA minB s = .ok (result, s')) :
    caller ≠ s.contractAddress ∧ s.initialized = true := by
  unfold removeLiquidity at h
  simp only [Except.bind_eq_ok, requireAuth, requireInit, require_eq_ok, exists_const] at h
  exact ⟨h.1, h.2.1⟩

end Collections

/-! ## Runs -/

section Runs

variable [TokenClient τ Address Address] {s s' : State τ} {caller : Address} {id : ℕ}
  {r minA minB : ℤ} {result : RemoveLiquidityResult} {p : LpPosition}

/-- A removal pays for the liquidity and the reserve, and no fees. -/
theorem removeLiquidity_feesPaid (h : removeLiquidity caller id r minA minB s = .ok (result, s')) :
    ∃ pool pool' p, p.owner = caller ∧ LiquidityRemoved s s' id pool pool' p r ∧
      ∀ isA, feesPaid s p r result isA = 0 := by
  obtain ⟨pool, pool', p, hremoved⟩ := removeLiquidity_removed h
  obtain ⟨p₁, pool₁, -, -, -, -, amtA, amtB, hedgeA, hedgeB, -, -, hp, ⟨howner, -⟩, hpool, -,
    hamounts, -, -, -, -, -, rfl, -⟩ := removeLiquidity_eq_ok h
  obtain rfl := Option.some.inj (hp.symm.trans hremoved.lookup_position)
  refine ⟨pool, pool', p₁, howner, hremoved, fun isA => ?_⟩
  rw [feesPaid, principal_eq hpool hamounts]
  cases isA
  · simp
  · simp

/-- A removal that leaves liquidity in the position leaves nothing to accrue, and the position is owed
what it has earned. -/
theorem removeLiquidity_accrued {pool : PoolState}
    (h : removeLiquidity caller id r minA minB s = .ok (result, s'))
    (hsound : Sound s.pools s.positionCount s.positions) (hp : s.positions.lookup id = some p)
    (hpool : s.pools.lookup p.poolKey = some pool) (hlt : r < p.liquidity) :
    ∃ q pool', FullyAccrued s' caller id q pool' ∧ SameMarket pool pool' ∧
      ∀ isA, q.owed isA = earned s p isA := by
  obtain ⟨hcaller, hinit⟩ := removeLiquidity_guards h
  obtain ⟨p₁, pool₀, insideA, insideB, pool₁, pool₂, amtA, amtB, hedgeA, hedgeB, tokens₁, tokens₂,
    hp₁, ⟨howner, -⟩, hpool₀, hinside, -, -, -, hpool₁, hpool₂, -, -, rfl⟩ := removeLiquidity_eq_ok h
  obtain rfl := Option.some.inj (hp.symm.trans hp₁)
  obtain rfl := Option.some.inj (hpool.symm.trans hpool₀)
  have hmarket := removal_market hpool₁ hpool₂
  -- the position is stored with the rest of its liquidity, not deleted
  have hrest : (afterRemoval p insideA insideB r).liquidity ≠ 0 := by
    show p.liquidity - r ≠ 0
    omega
  have hlookup := lookup_stored_self s.positions (afterRemoval p insideA insideB r)
  rw [if_neg hrest, show (afterRemoval p insideA insideB r).id = id from
    (hsound.position id p hp).id_eq] at hlookup
  refine ⟨afterRemoval p insideA insideB r, pool₂, ?_, hmarket, afterRemoval_owed hpool hinside r⟩
  exact {
    caller_ne := hcaller
    initialized := hinit
    lookup_position := hlookup
    owner := howner
    lookup := AList.lookup_insert _
    inside := (feeGrowthInside_congr hmarket _ _ _ _).trans hinside }

/-- A removal pays two amounts, which are due together with the fees. -/
theorem removeLiquidity_pays {pool : PoolState}
    (h : removeLiquidity caller id r minA minB s = .ok (result, s')) (hpos : 0 < p.liquidity)
    (hp : s.positions.lookup id = some p) (hpool : s.pools.lookup p.poolKey = some pool) :
    s'.contractAddress = s.contractAddress ∧ ∃ paid : Bool → ℤ,
      Pays s.tokens s'.tokens s.contractAddress caller pool.tokenA pool.tokenB (paid true)
        (paid false) ∧ ∀ isA, due s p r isA = max (paid isA) 0 + earned s p isA := by
  obtain ⟨p₁, pool₀, insideA, insideB, pool₁, pool₂, amtA, amtB, hedgeA, hedgeB, tokens₁, tokens₂,
    hp₁, -, hpool₀, -, hamounts, -, hrelease, hpool₁, hpool₂, ⟨hpaid₁, hpaid₂⟩, -, rfl⟩ :=
    removeLiquidity_eq_ok h
  obtain rfl := Option.some.inj (hp.symm.trans hp₁)
  obtain rfl := Option.some.inj (hpool.symm.trans hpool₀)
  have hmarket := removal_market hpool₁ hpool₂
  rw [hmarket.tokenA] at hpaid₁
  rw [hmarket.tokenB] at hpaid₂
  exact ⟨rfl, fun isA => if isA then amtA + hedgeA else amtB + hedgeB, ⟨tokens₁, hpaid₁, hpaid₂⟩,
    due_eq hpool hpos hamounts hrelease⟩

variable [StandardToken τ Address Address]

/-- After a removal that leaves liquidity in the position, its fees can be collected when the contract
owned what both take, and nothing can be collected otherwise. -/
theorem removeLiquidity_collectable
    (h : removeLiquidity caller id r minA minB s = .ok (result, s'))
    (hsound : Sound s.pools s.positionCount s.positions) (howed : OwedNonneg s.positions)
    (hp : s.positions.lookup id = some p) (hlt : r < p.liquidity) :
    (FeesBacked s p r → ∀ isA, collectable s' caller id isA = earned s p isA) ∧
      (¬ FeesBacked s p r → ∀ isA, collectable s' caller id isA = 0) := by
  have hpos := (hsound.position id p hp).liquidity_pos
  obtain ⟨pool, pool₁, p₁, hremoved⟩ := removeLiquidity_removed h
  obtain rfl := Option.some.inj (hp.symm.trans hremoved.lookup_position)
  have hpool := hremoved.lookup
  have hnn := earned_nonneg hpos (howed id p hp) hpool
  obtain ⟨hcontract, paid, hpays, hdue⟩ := removeLiquidity_pays h hpos hp hpool
  obtain ⟨q, pool', haccrued, hmarket, hrecorded⟩ := removeLiquidity_accrued h hsound hp hpool hlt
  have hcaller : caller ≠ s.contractAddress := hcontract ▸ haccrued.caller_ne
  -- the collection is paid from what the removal leaves
  have hbacked : CanPay s' caller q pool' ↔ FeesBacked s p r := by
    unfold CanPay
    rw [hcontract, payments_isOk_iff hcaller, feesBacked_iff hpool]
    apply forall_congr'
    intro token
    have hA : q.tokensOwedA = earned s p true := hrecorded true
    have hB : q.tokensOwedB = earned s p false := hrecorded false
    rw [hpays.balance hcaller, hmarket.tokenA, hmarket.tokenB, hA, hB, hdue, hdue,
      max_eq_left (hnn true), max_eq_left (hnn false)]
    split <;> split <;> omega
  constructor
  · intro h isA
    rw [haccrued.collectable_of_canPay (hbacked.mpr h), hrecorded]
  · intro h isA
    exact haccrued.collectable_of_not_canPay (fun hpays => h (hbacked.mp hpays)) isA

/-- A removal keeps the fees exactly when there are none, or it leaves liquidity in the position and
the contract owns what is paid. -/
theorem removeLiquidity_feesKept_iff
    (h : removeLiquidity caller id r minA minB s = .ok (result, s'))
    (hsound : Sound s.pools s.positionCount s.positions) (howed : OwedNonneg s.positions) :
    ∃ p, s.positions.lookup id = some p ∧ p.owner = caller ∧
      (FeesKept s s' id p r result ↔ Unearned s p ∨ (r < p.liquidity ∧ FeesBacked s p r)) := by
  obtain ⟨pool, pool', p, rfl, hremoved, hpaid⟩ := removeLiquidity_feesPaid h
  have hp := hremoved.lookup_position
  refine ⟨p, hp, rfl, ?_⟩
  rw [← earned_eq_zero_iff (hsound.position id p hp).liquidity_pos (howed id p hp) hremoved.lookup]
  -- no fees are paid, so they are kept when they can be collected
  have hkept : FeesKept s s' id p r result ↔
      ∀ isA, collectable s' p.owner id isA = earned s p isA := by
    unfold FeesKept
    simp only [hpaid, zero_add]
  rw [hkept]
  rcases hremoved.le.lt_or_eq with hlt | heq
  · obtain ⟨hall, hnone⟩ := removeLiquidity_collectable h hsound howed hp hlt
    by_cases hbacked : FeesBacked s p r
    · exact iff_of_true (hall hbacked) (.inr ⟨hlt, hbacked⟩)
    · simp only [hnone hbacked, hbacked, and_false, or_false, eq_comm]
  · -- the whole liquidity is removed, and the position is deleted with what it is owed
    have hdeleted := hremoved.lookup_self hsound
    rw [if_pos (by omega)] at hdeleted
    simp only [collectable_of_none hdeleted, heq, lt_irrefl, false_and, or_false, eq_comm]

variable {now : ℕ} {admin contractAddress : Address} {cbConfig : CircuitBreakerConfig} {tokens : τ}
  {w₀ w : World (State τ)} {log : List (Commit (State τ) Call Result)}

/-- In every run from `init` a removal keeps the fees of its position exactly when the position has
earned none, or liquidity is left in it and the contract owns what the removal and the collection of
the fees pay. -/
theorem fees_kept_iff
    (hinit : init now admin cbConfig (.empty contractAddress tokens) = .ok w₀.store)
    (hrun : (contract τ).Run w₀ w log) {c : Commit (State τ) Call Result} (hc : c ∈ log)
    (hcall : c.call = .removeLiquidity caller id r minA minB)
    (hresult : c.result = .removed result) :
    ∃ p, c.before.positions.lookup id = some p ∧ p.owner = caller ∧
      (FeesKept c.before c.after id p r result ↔
        Unearned c.before p ∨ (r < p.liquidity ∧ FeesBacked c.before p r)) := by
  have hstart : Sound w₀.store.pools w₀.store.positionCount w₀.store.positions ∧
      OwedNonneg w₀.store.positions := by
    rw [(init_eq_ok hinit).2]
    exact ⟨.empty, fun _ _ h => by cases h⟩
  obtain ⟨hsound, howed⟩ := (hrun.invariant_of_mem
    (I := fun s => Sound s.pools s.positionCount s.positions ∧ OwedNonneg s.positions)
    (fun _ _ _ _ _ hs he => ⟨execute_sound hs.1 he, (execute_step he).owedNonneg hs.1 hs.2⟩)
    hstart c hc).1
  have hexec := hrun.exec_of_mem c hc
  rw [hcall, hresult] at hexec
  obtain ⟨⟨removed, t⟩, ht, hr, rfl⟩ := Except.map_pair_eq_ok.mp hexec
  obtain rfl := Result.removed.inj hr
  exact removeLiquidity_feesKept_iff ht hsound howed

end Runs

/-- Two deposits, a swap, and the removal of the whole first position. -/
def wholeCalls : List (ℕ × Call) :=
  [(1, .createPool ⟨5⟩ ⟨1⟩ ⟨2⟩ 30 Q64), (2, sampleDeposit), (2, sampleDeposit),
    (3, .swap ⟨5⟩ ⟨1⟩ ⟨2⟩ 2000000000000000 0),
    (4, .removeLiquidity ⟨5⟩ 1 39566586295837937808 0 0)]

/-- The commits of `wholeCalls`. -/
def wholeLog : List (Commit (State (Balances Address Address)) Call Result) :=
  ((contract _).play sampleWorld wholeCalls).2

/-- The commit of the removal. -/
def wholeRemoval : Commit (State (Balances Address Address)) Call Result :=
  wholeLog.get ⟨4, by decide⟩

/-- What the removal returned. -/
def wholeResult : RemoveLiquidityResult := ⟨1001953221416846611, 998046874999999999, 0, 0⟩

theorem fees_kept_iff_whole :
    ∃ p, wholeRemoval.before.positions.lookup 1 = some p ∧ p.owner = ⟨5⟩ ∧
      (FeesKept wholeRemoval.before wholeRemoval.after 1 p 39566586295837937808 wholeResult ↔
        Unearned wholeRemoval.before p ∨
          (39566586295837937808 < p.liquidity ∧
            FeesBacked wholeRemoval.before p 39566586295837937808)) :=
  fees_kept_iff
    (show init 0 ⟨5⟩ ⟨1000000000000, 1000, 3600⟩ (.empty ⟨9⟩ sampleTokens) =
      .ok sampleWorld.store from rfl)
    (Contract.run_play _ sampleWorld wholeCalls (by decide)) (List.get_mem wholeLog _)
    (show wholeRemoval.call = .removeLiquidity ⟨5⟩ 1 39566586295837937808 0 0 from rfl) (by decide)

/-- A position that has earned 2999999999998 units of token a is deleted with them. -/
theorem removed_fees_lost :
    init 0 ⟨5⟩ ⟨1000000000000, 1000, 3600⟩ (.empty ⟨9⟩ sampleTokens) = .ok sampleWorld.store ∧
      (∃ w, (contract _).Run sampleWorld w wholeLog) ∧ wholeRemoval ∈ wholeLog ∧
      wholeRemoval.call = .removeLiquidity ⟨5⟩ 1 39566586295837937808 0 0 ∧
      wholeRemoval.result = .removed wholeResult ∧
      ∃ p, wholeRemoval.before.positions.lookup 1 = some p ∧
        earned wholeRemoval.before p true = 2999999999998 ∧
        ¬ FeesKept wholeRemoval.before wholeRemoval.after 1 p 39566586295837937808 wholeResult := by
  refine ⟨rfl, ⟨_, Contract.run_play _ sampleWorld wholeCalls (by decide)⟩,
    List.get_mem wholeLog _, rfl, by decide, _, rfl, by decide, fun h => ?_⟩
  exact absurd (h true) (by decide)

/-- A deposit, a swap whose fee nobody transfers, and the removal of all but 1000 units of the
position. -/
def partCalls : List (ℕ × Call) :=
  [(1, .createPool ⟨5⟩ ⟨1⟩ ⟨2⟩ 30 Q64), (2, sampleDeposit),
    (3, .swap ⟨5⟩ ⟨1⟩ ⟨2⟩ 2000000000000000 0),
    (4, .removeLiquidity ⟨5⟩ 1 39566586295837936808 0 0)]

-- the position is owed its fees, and the contract does not own them
example : (((contract _).play sampleWorld partCalls).1.store.positions.lookup 1).map
      (fun p => (p.tokensOwedA, p.liquidity)) = some (5999999999999, 1000) ∧
    collectable ((contract _).play sampleWorld partCalls).1.store ⟨5⟩ 1 true = 0 := by
  decide

end Stellara.Amm
