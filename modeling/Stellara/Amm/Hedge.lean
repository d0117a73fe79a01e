import Stellara.Amm.RemovedFees

/-!
# The reserve against impermanent loss

A deposit whose estimated impermanent loss reaches the threshold credits a part of its amounts to
the reserve of its pool. A removal releases the share of the whole reserve that the removed
liquidity is of the position, not of the reserve that was credited for the position. So positions
are paid out of each other's credits, and whoever removes first is paid most.

## Main definitions

* `reserveOf`: the reserve of a pool in a token
* `HedgeStep`: what a call does to the reserves
* `creditOf`, `hedgePaid`: what was credited for a position, and what it was paid of the reserve
* `HedgeFair`: no position was paid more than was credited for it
* `Covered`: a removal that releases no more than what is left of the credit of its position

## Main results

* `execute_hedgeStep`: every call is a step of the reserves
* `removed_twice`: two positions that are removed one after the other
* `hedge_fair_iff`: every run
-/

namespace Stellara.Amm

variable {τ : Type}

/-! ## Reserves -/

namespace PoolState

/-- The reserve of a pool in a token. -/
def hedgeReserve (pool : PoolState) (isA : Bool) : ℤ := if isA then pool.ilReserveA else pool.ilReserveB

end PoolState

namespace RemoveLiquidityResult

/-- What a removal was paid of the reserve. -/
def hedge (result : RemoveLiquidityResult) (isA : Bool) : ℤ := if isA then result.hedgeA else result.hedgeB

/-- What a removal was paid. -/
def amount (result : RemoveLiquidityResult) (isA : Bool) : ℤ :=
  if isA then result.amountA else result.amountB

end RemoveLiquidityResult

/-- The reserve of the pool of a key; there is none without a pool. -/
def reserveOf (s : State τ) (poolKey : PoolKey) (isA : Bool) : ℤ :=
  (s.pools.lookup poolKey).elim 0 fun pool => pool.hedgeReserve isA

/-- No reserve is negative. -/
def ReserveNonneg (s : State τ) : Prop := ∀ poolKey isA, 0 ≤ reserveOf s poolKey isA

/-- What a call credits to the reserve for the position `id`. -/
def creditTo (id : ℕ) (isA : Bool) (s s' : State τ) : Call → Result → ℤ
  | .addLiquidity _ tokenA tokenB _ _ _ _ _ _, .added result =>
    if result.positionId = id then reserveOf s' ⟨tokenA, tokenB⟩ isA - reserveOf s ⟨tokenA, tokenB⟩ isA
    else 0
  | _, _ => 0

/-- What a call pays the position `id` of the reserve. -/
def paidTo (id : ℕ) (isA : Bool) : Call → Result → ℤ
  | .removeLiquidity _ i _ _ _, .removed result => if i = id then result.hedge isA else 0
  | _, _ => 0

/-- What a call does to the reserves of the pools. -/
inductive HedgeStep (s s' : State τ) : Call → Result → Prop
  | credited {caller tokenA tokenB : Address} {tickLower tickUpper : ℤ}
      {amountDesiredA amountDesiredB minA minB : ℤ} {result : AddLiquidityResult}
      (hid : result.positionId = s.positionCount + 1)
      (hcount : s'.positionCount = s.positionCount + 1)
      (hreserve : ∀ key isA, reserveOf s key isA ≤ reserveOf s' key isA) :
      HedgeStep s s' (.addLiquidity caller tokenA tokenB tickLower tickUpper amountDesiredA
        amountDesiredB minA minB) (.added result)
  | released {caller : Address} {id : ℕ} {r minA minB : ℤ} {result : RemoveLiquidityResult}
      {p : LpPosition} (hlookup : s.positions.lookup id = some p)
      (hcount : s'.positionCount = s.positionCount)
      (hhedge : ∀ isA, result.hedge isA = reserveOf s p.poolKey isA * r / p.liquidity)
      (hnonneg : ∀ isA, 0 ≤ result.hedge isA)
      (hreserve : ∀ key isA, reserveOf s' key isA =
        reserveOf s key isA - if key = p.poolKey then result.hedge isA else 0)
      (hrest : ∀ key isA, 0 ≤ reserveOf s' key isA) :
      HedgeStep s s' (.removeLiquidity caller id r minA minB) (.removed result)
  | kept {call : Call} {result : Result} (hcount : s'.positionCount = s.positionCount)
      (hother : ∀ caller id r minA minB, call ≠ .removeLiquidity caller id r minA minB)
      (hnone : ∀ id isA, creditTo id isA s s' call result = 0 ∧ paidTo id isA call result = 0)
      (hreserve : ∀ key isA, reserveOf s' key isA = reserveOf s key isA) :
      HedgeStep s s' call result

/-! ## Calls -/

section Calls

variable {s s' : State τ} {poolKey : PoolKey} {pool pool' : PoolState}

theorem reserveOf_eq (h : s.pools.lookup poolKey = some pool) (isA : Bool) :
    reserveOf s poolKey isA = pool.hedgeReserve isA := by
  rw [reserveOf, h, Option.elim_some]

/-- A write changes the reserve of its pool only. -/
theorem reserveOf_insert (h : s'.pools = s.pools.insert poolKey pool') (key : PoolKey) (isA : Bool) :
    reserveOf s' key isA = if key = poolKey then pool'.hedgeReserve isA else reserveOf s key isA := by
  rw [reserveOf, h, Store.lookup_insert_ite]
  split
  · rfl
  · rfl

/-- A write that leaves the reserve of its pool leaves all reserves. -/
theorem reserveOf_congr {isA : Bool} (h : s'.pools = s.pools.insert poolKey pool')
    (hsame : pool'.hedgeReserve isA = reserveOf s poolKey isA) (key : PoolKey) :
    reserveOf s' key isA = reserveOf s key isA := by
  rw [reserveOf_insert h]
  split
  · rename_i hkey
    rw [hkey, hsame]
  · rfl

/-- The credit of a deposit is not negative. -/
theorem computeHedgeReserve_nonneg {ilBps amountA amountB reserveA reserveB : ℤ}
    (hA : 0 ≤ amountA) (hB : 0 ≤ amountB)
    (h : computeHedgeReserve ilBps amountA amountB = .ok (reserveA, reserveB)) :
    0 ≤ reserveA ∧ 0 ≤ reserveB := by
  unfold computeHedgeReserve at h
  split at h
  · obtain ⟨rfl, rfl⟩ := Prod.mk.inj (Except.ok.inj h)
    exact ⟨le_rfl, le_rfl⟩
  · simp only [Except.bind_eq_ok, IntFormat.checked_eq_ok] at h
    obtain ⟨productA, ⟨-, rfl⟩, productB, ⟨-, rfl⟩, h⟩ := h
    obtain ⟨rfl, rfl⟩ := Prod.mk.inj (Except.ok.inj h)
    have hratio : 0 ≤ hedgeRatioBps := by decide
    exact ⟨Int.tdiv_nonneg (Int.mul_nonneg hA hratio) (by decide),
      Int.tdiv_nonneg (Int.mul_nonneg hB hratio) (by decide)⟩

/-- What a removal releases is the share of the reserve that it removes of the position. -/
theorem computeHedgeRelease_eq_ok {r liquidity hedgeA hedgeB : ℤ} (hpos : 0 < liquidity)
    (hr : 0 ≤ r) (hnn : ∀ isA, 0 ≤ pool.hedgeReserve isA)
    (h : computeHedgeRelease pool r liquidity = .ok (hedgeA, hedgeB)) (isA : Bool) :
    (if isA then hedgeA else hedgeB) = pool.hedgeReserve isA * r / liquidity := by
  rw [computeHedgeRelease_eq hpos h, max_eq_left (show 1 ≤ liquidity by omega)]
  exact Int.tdiv_eq_ediv_of_nonneg (Int.mul_nonneg (hnn isA) hr)

/-- A share of a reserve is a part of it. -/
theorem share_bounds {reserve r liquidity : ℤ} (hpos : 0 < liquidity) (hr : 0 ≤ r)
    (hle : r ≤ liquidity) (hnn : 0 ≤ reserve) :
    0 ≤ reserve * r / liquidity ∧ reserve * r / liquidity ≤ reserve :=
  ⟨Int.ediv_nonneg (Int.mul_nonneg hnn hr) hpos.le,
    Int.ediv_le_of_le_mul hpos (Int.mul_le_mul_of_nonneg_left hle hnn)⟩

variable [TokenClient τ Address Address]

/-- A deposit credits the reserve of its pool. -/
theorem addLiquidity_hedgeStep {now : ℕ} {caller tokenA tokenB : Address} {tickLower tickUpper : ℤ}
    {amountDesiredA amountDesiredB minA minB : ℤ} {result : AddLiquidityResult}
    (h : addLiquidity now caller tokenA tokenB tickLower tickUpper amountDesiredA amountDesiredB
      minA minB s = .ok (result, s')) :
    HedgeStep s s' (.addLiquidity caller tokenA tokenB tickLower tickUpper amountDesiredA
      amountDesiredB minA minB) (.added result) := by
  obtain ⟨pool, pool', liquidity, actualA, actualB, insideA, insideB, reserveA, reserveB, tokens₁,
    tokens₂, ⟨-, hticks, hmin, hmax⟩, hpool, ⟨hliquidity, hne⟩, hamounts, -, hactive,
    -, hreserve, rfl, hs'⟩ := addLiquidity_eq_ok h
  have hl := sqrtPriceAt_pos hmin
  have hu := sqrtPriceAt_pos (hmin.trans hticks.le)
  -- the amounts of the deposit are not negative, so neither is the credit
  obtain ⟨⟨hpos, -⟩, hsat⟩ := liquidityFromAmounts_unsaturated hl hu hliquidity hne hamounts
  obtain ⟨-, rfl, rfl⟩ := amountsForLiquidity_eq_ok hamounts
  obtain ⟨hA, hB⟩ := computeHedgeReserve_nonneg (amountA_nonneg hsat hl hu hpos.le)
    (amountB_nonneg hpos.le) hreserve
  have hpools : s'.pools = s.pools.insert ⟨tokenA, tokenB⟩ { pool' with
      ilReserveA := pool'.ilReserveA + reserveA, ilReserveB := pool'.ilReserveB + reserveB } := by
    rw [hs']
  refine .credited rfl (by rw [hs']) fun key isA => ?_
  rw [reserveOf_insert hpools]
  split
  · rename_i hkey
    rw [hkey, reserveOf_eq hpool, (addActive_eq_ok hactive).1]
    cases isA
    · exact Int.le_add_of_nonneg_right hB
    · exact Int.le_add_of_nonneg_right hA
  · exact le_rfl

/-- A removal releases a share of the reserve of its pool. -/
theorem removeLiquidity_hedgeStep {caller : Address} {id : ℕ} {r minA minB : ℤ}
    {result : RemoveLiquidityResult} (hsound : Sound s.pools s.positionCount s.positions)
    (hnn : ReserveNonneg s) (h : removeLiquidity caller id r minA minB s = .ok (result, s')) :
    HedgeStep s s' (.removeLiquidity caller id r minA minB) (.removed result) := by
  obtain ⟨p, pool, insideA, insideB, pool₁, pool₂, amtA, amtB, hedgeA, hedgeB, tokens₁, tokens₂,
    hp, ⟨-, hr, hle⟩, hpool, -, -, -, hrelease, hpool₁, hpool₂, -, rfl, hs'⟩ :=
    removeLiquidity_eq_ok h
  have hpos := (hsound.position id p hp).liquidity_pos
  have hnnPool : ∀ isA, 0 ≤ pool.hedgeReserve isA := by
    intro isA
    rw [← reserveOf_eq hpool]
    exact hnn p.poolKey isA
  have hhedge : ∀ isA, (if isA then hedgeA else hedgeB) =
      reserveOf s p.poolKey isA * r / p.liquidity := by
    intro isA
    rw [reserveOf_eq hpool]
    exact computeHedgeRelease_eq_ok hpos hr.le hnnPool hrelease isA
  have hbounds : ∀ isA, 0 ≤ (if isA then hedgeA else hedgeB) ∧
      (if isA then hedgeA else hedgeB) ≤ reserveOf s p.poolKey isA := by
    intro isA
    rw [hhedge]
    exact share_bounds hpos hr.le hle (hnn p.poolKey isA)
  -- what is left is not clamped
  have hleft : ∀ isA, pool₂.hedgeReserve isA =
      reserveOf s p.poolKey isA - if isA then hedgeA else hedgeB := by
    intro isA
    have hpart := (hbounds isA).2
    rw [reserveOf_eq hpool] at hpart ⊢
    rw [removeActive_eq_ok hpool₂, releaseReserve_eq_ok hpool₁]
    cases isA
    · exact max_eq_left (Int.sub_nonneg_of_le hpart)
    · exact max_eq_left (Int.sub_nonneg_of_le hpart)
  have hpools : s'.pools = s.pools.insert p.poolKey pool₂ := by rw [hs']
  have hreserve : ∀ key isA, reserveOf s' key isA =
      reserveOf s key isA - if key = p.poolKey then (if isA then hedgeA else hedgeB) else 0 := by
    intro key isA
    rw [reserveOf_insert hpools]
    split
    · rename_i hkey
      rw [hkey, hleft]
    · omega
  refine .released hp (by rw [hs']) hhedge (fun isA => (hbounds isA).1) hreserve ?_
  intro key isA
  rw [hreserve]
  split
  · rename_i hkey
    have hpart := (hbounds isA).2
    rw [hkey]
    omega
  · have hold := hnn key isA
    omega

/-- Every call is a step of the reserves. -/
theorem execute_hedgeStep {now : ℕ} {call : Call} {result : Result}
    (hsound : Sound s.pools s.positionCount s.positions) (hnn : ReserveNonneg s)
    (h : execute now s call = .ok (result, s')) : HedgeStep s s' call result := by
  cases call with
  | createPool caller tokenA tokenB feeTier initSqrtPrice =>
    obtain ⟨t, ht, rfl, rfl⟩ := Except.map_pair_eq_ok.mp h
    obtain ⟨⟨-, -, hfresh⟩, rfl⟩ := createPool_eq_ok ht
    refine .kept rfl (by simp) (fun _ _ => ⟨rfl, rfl⟩) fun key isA => reserveOf_congr rfl ?_ key
    -- a new pool has no reserve, as no pool had
    rw [reserveOf, hfresh, Option.elim_none]
    cases isA <;> rfl
  | addLiquidity caller tokenA tokenB tickLower tickUpper amountDesiredA amountDesiredB minA minB =>
    obtain ⟨⟨added, t⟩, ht, rfl, rfl⟩ := Except.map_pair_eq_ok.mp h
    exact addLiquidity_hedgeStep ht
  | removeLiquidity caller id r minA minB =>
    obtain ⟨⟨removed, t⟩, ht, rfl, rfl⟩ := Except.map_pair_eq_ok.mp h
    exact removeLiquidity_hedgeStep hsound hnn ht
  | collectFees caller id =>
    obtain ⟨⟨⟨owedA, owedB⟩, t⟩, ht, rfl, rfl⟩ := Except.map_pair_eq_ok.mp h
    obtain ⟨-, -, -, -, -, -, -, -, -, -, -, -, rfl⟩ := collectFees_eq_ok ht
    exact .kept rfl (by simp) (fun _ _ => ⟨rfl, rfl⟩) fun _ _ => rfl
  | swap caller tokenIn tokenOut amountIn minAmountOut =>
    obtain ⟨⟨swapped, t⟩, ht, rfl, rfl⟩ := Except.map_pair_eq_ok.mp h
    obtain ⟨pool, pool', hmove⟩ := swap_move ht
    refine .kept hmove.positionCount (by simp) (fun _ _ => ⟨rfl, rfl⟩) fun key isA =>
      reserveOf_congr hmove.pools ?_ key
    rw [reserveOf_eq hmove.lookup, hmove.pool_eq]
    rfl
  | updateDynamicFee tokenA tokenB =>
    obtain ⟨⟨fee, t⟩, ht, rfl, rfl⟩ := Except.map_pair_eq_ok.mp h
    obtain ⟨pool, hpool, rfl⟩ := updateDynamicFee_eq_ok ht
    refine .kept rfl (by simp) (fun _ _ => ⟨rfl, rfl⟩) fun key isA => reserveOf_congr rfl ?_ key
    rw [reserveOf_eq hpool]
    rfl
  | pause admin | unpause admin =>
    obtain ⟨t, ht, rfl, rfl⟩ := Except.map_pair_eq_ok.mp h
    rw [setPauseLevel_eq_ok ht]
    exact .kept rfl (by simp) (fun _ _ => ⟨rfl, rfl⟩) fun _ _ => rfl

end Calls

/-- A step leaves no reserve negative. -/
theorem HedgeStep.reserveNonneg {s s' : State τ} {call : Call} {result : Result}
    (h : HedgeStep s s' call result) (hnn : ReserveNonneg s) : ReserveNonneg s' := by
  intro key isA
  cases h with
  | credited hid hcount hreserve => exact (hnn key isA).trans (hreserve key isA)
  | released hlookup hcount hhedge hnonneg hreserve hrest => exact hrest key isA
  | kept hcount hother hnone hreserve =>
    rw [hreserve]
    exact hnn key isA

/-! ## Credits and payments -/

section Fairness

variable (id : ℕ) (isA : Bool) (log : List (Commit (State τ) Call Result))

/-- What was credited to the reserve for a position. -/
def creditOf : ℤ := (log.map fun c => creditTo id isA c.before c.after c.call c.result).sum

/-- What a position was paid of the reserve. -/
def hedgePaid : ℤ := (log.map fun c => paidTo id isA c.call c.result).sum

/-- No position was paid more of the reserve than was credited for it. -/
def HedgeFair : Prop := ∀ id isA, hedgePaid id isA log ≤ creditOf id isA log

/-- A removal takes, of the reserve of its pool, a share that is less than one unit above what is
left of the credit of its own position. -/
def Covered (c : Commit (State τ) Call Result) : Prop :=
  ∀ caller id r minA minB, c.call = .removeLiquidity caller id r minA minB →
    ∀ p, c.before.positions.lookup id = some p → ∀ isA,
      reserveOf c.before p.poolKey isA * r <
        (creditOf id isA log - hedgePaid id isA log + 1) * p.liquidity

/-- What is known of the credits and payments after every run. -/
structure Accounted (s : State τ) : Prop where
  sound : Sound s.pools s.positionCount s.positions
  nonneg : ReserveNonneg s
  /-- A position that is not created yet has no credit and was paid nothing. -/
  fresh : ∀ id isA, s.positionCount < id → creditOf id isA log = 0 ∧ hedgePaid id isA log = 0

variable {log} {s s' : State τ}

theorem creditOf_append (c : Commit (State τ) Call Result) :
    creditOf id isA (log ++ [c]) =
      creditOf id isA log + creditTo id isA c.before c.after c.call c.result := by
  simp [creditOf]

theorem hedgePaid_append (c : Commit (State τ) Call Result) :
    hedgePaid id isA (log ++ [c]) = hedgePaid id isA log + paidTo id isA c.call c.result := by
  simp [hedgePaid]

variable {id isA} {call : Call} {result : Result} {time : ℕ}

/-- A step keeps the accounts when it leaves no reserve negative, and no payment or credit of a
position that is not created. -/
theorem Accounted.append (h : Accounted log s)
    (hsound : Sound s'.pools s'.positionCount s'.positions) (hnn : ReserveNonneg s')
    (hcount : s.positionCount ≤ s'.positionCount)
    (hnone : ∀ id isA, s'.positionCount < id →
      creditTo id isA s s' call result = 0 ∧ paidTo id isA call result = 0) :
    Accounted (log ++ [⟨time, call, result, s, s'⟩]) s' where
  sound := hsound
  nonneg := hnn
  fresh id isA hlt := by
    obtain ⟨hcredit, hpaid⟩ := h.fresh id isA (hcount.trans_lt hlt)
    obtain ⟨hcredit', hpaid'⟩ := hnone id isA hlt
    rw [creditOf_append, hedgePaid_append, hcredit, hpaid, hcredit', hpaid']
    exact ⟨rfl, rfl⟩

/-- One more call keeps the payments fair when it pays no more than it credits and what is left. -/
theorem hedgeFair_append (c : Commit (State τ) Call Result) : HedgeFair (log ++ [c]) ↔
    ∀ id isA, hedgePaid id isA log + paidTo id isA c.call c.result ≤
      creditOf id isA log + creditTo id isA c.before c.after c.call c.result := by
  simp only [HedgeFair, hedgePaid_append, creditOf_append]

/-- A deposit keeps the payments fair, as its position is new. -/
theorem hedgeFair_credited {caller tokenA tokenB : Address} {tickLower tickUpper : ℤ}
    {amountDesiredA amountDesiredB minA minB : ℤ} {added : AddLiquidityResult} (h : Accounted log s)
    (hid : added.positionId = s.positionCount + 1)
    (hreserve : ∀ key isA, reserveOf s key isA ≤ reserveOf s' key isA) :
    HedgeFair (log ++ [⟨time, .addLiquidity caller tokenA tokenB tickLower tickUpper amountDesiredA
      amountDesiredB minA minB, .added added, s, s'⟩]) ↔ HedgeFair log := by
  rw [hedgeFair_append]
  apply forall_congr'
  intro id
  apply forall_congr'
  intro isA
  have hmore := hreserve ⟨tokenA, tokenB⟩ isA
  change hedgePaid id isA log + 0 ≤ creditOf id isA log + (if added.positionId = id then
    reserveOf s' ⟨tokenA, tokenB⟩ isA - reserveOf s ⟨tokenA, tokenB⟩ isA else 0) ↔ _
  split
  · -- the position has neither credit nor payments before
    obtain ⟨hnone, hunpaid⟩ := h.fresh id isA (by omega)
    omega
  · omega

/-- A removal keeps the payments fair exactly when it is covered. -/
theorem hedgeFair_released {caller : Address} {i : ℕ} {r minA minB : ℤ}
    {removed : RemoveLiquidityResult} {p : LpPosition} (hlookup : s.positions.lookup i = some p)
    (hpos : 0 < p.liquidity)
    (hhedge : ∀ isA, removed.hedge isA = reserveOf s p.poolKey isA * r / p.liquidity)
    (hnonneg : ∀ isA, 0 ≤ removed.hedge isA) :
    HedgeFair (log ++ [⟨time, .removeLiquidity caller i r minA minB, .removed removed, s, s'⟩]) ↔
      HedgeFair log ∧
        Covered log ⟨time, .removeLiquidity caller i r minA minB, .removed removed, s, s'⟩ := by
  -- the share is at most the rest of the credit, without the division
  have hcover : ∀ isA, removed.hedge isA ≤ creditOf i isA log - hedgePaid i isA log ↔
      reserveOf s p.poolKey isA * r <
        (creditOf i isA log - hedgePaid i isA log + 1) * p.liquidity := by
    intro isA
    rw [hhedge, ← Int.lt_add_one_iff, Int.ediv_lt_iff_lt_mul hpos]
  rw [hedgeFair_append]
  change (∀ id isA, hedgePaid id isA log + (if i = id then removed.hedge isA else 0) ≤
    creditOf id isA log + 0) ↔ _
  constructor
  · intro hfair
    constructor
    · intro id isA
      have hall := hfair id isA
      have hmore := hnonneg isA
      split at hall <;> omega
    · rintro caller' id r' minA' minB' ⟨⟩ p' hp' isA
      obtain rfl := Option.some.inj (hlookup.symm.trans hp')
      have hall := hfair i isA
      rw [if_pos rfl] at hall
      exact (hcover isA).mp (by omega)
  · rintro ⟨hfair, hcovered⟩ id isA
    have hold := hfair id isA
    split
    · rename_i hi
      subst hi
      have hle := (hcover isA).mpr (hcovered caller i r minA minB rfl p hlookup isA)
      omega
    · omega

/-- A step keeps the accounts, and keeps the payments fair exactly when it is covered. -/
theorem HedgeStep.fair_iff (h : Accounted log s)
    (hsound : Sound s'.pools s'.positionCount s'.positions) (hstep : HedgeStep s s' call result) :
    Accounted (log ++ [⟨time, call, result, s, s'⟩]) s' ∧
      (HedgeFair (log ++ [⟨time, call, result, s, s'⟩]) ↔
        HedgeFair log ∧ Covered log ⟨time, call, result, s, s'⟩) := by
  have hnn := hstep.reserveNonneg h.nonneg
  cases hstep with
  | credited hid hcount hreserve =>
    refine ⟨h.append hsound hnn (by omega) ?_, ?_⟩
    · intro id isA hlt
      exact ⟨if_neg (by omega), rfl⟩
    · rw [hedgeFair_credited h hid hreserve]
      exact (and_iff_left fun _ _ _ _ _ hcall => by cases hcall).symm
  | released hlookup hcount hhedge hnonneg hreserve hrest =>
    refine ⟨h.append hsound hnn (by omega) ?_, ?_⟩
    · intro id isA hlt
      have hle := h.sound.id_le hlookup
      exact ⟨rfl, if_neg (by omega)⟩
    · exact hedgeFair_released hlookup (h.sound.position _ _ hlookup).liquidity_pos hhedge hnonneg
  | kept hcount hother hnone hreserve =>
    refine ⟨h.append hsound hnn hcount.ge fun id isA _ => hnone id isA, ?_⟩
    have hsame : HedgeFair (log ++ [⟨time, call, result, s, s'⟩]) ↔ HedgeFair log := by
      rw [hedgeFair_append]
      simp only [hnone, add_zero, HedgeFair]
    rw [hsame]
    exact (and_iff_left fun _ _ _ _ _ hcall => absurd hcall (hother _ _ _ _ _)).symm

end Fairness

/-! ## Whole positions -/

/-- The owner of a position removes all of its liquidity. -/
def RemovesWhole [TokenClient τ Address Address] (id : ℕ) (s s' : State τ)
    (result : RemoveLiquidityResult) : Prop :=
  ∃ p minA minB, s.positions.lookup id = some p ∧
    removeLiquidity p.owner id p.liquidity minA minB s = .ok (result, s')

section Whole

variable [TokenClient τ Address Address] {s s₁ s₂ s₁₂ s₂₁ s' : State τ} {id id₁ id₂ : ℕ}
  {p p₁ p₂ : LpPosition} {result a₁ a₂ b₁ b₂ : RemoveLiquidityResult}

omit [TokenClient τ Address Address] in
/-- A removal that pays no fees pays for the liquidity and the reserve. -/
theorem amount_eq {r : ℤ} {isA : Bool} (h : feesPaid s p r result isA = 0) :
    result.amount isA = principal s p r isA + result.hedge isA := by
  unfold feesPaid at h
  unfold RemoveLiquidityResult.amount RemoveLiquidityResult.hedge
  cases isA
  · simp only [Bool.false_eq_true, if_false] at h ⊢
    omega
  · simp only [if_true] at h ⊢
    omega

/-- What is left by a removal of a whole position. -/
structure WholeRemoved (s s' : State τ) (id : ℕ) (p : LpPosition) (result : RemoveLiquidityResult) :
    Prop where
  /-- The owner gets what the liquidity stands for, and the whole reserve. -/
  amount : ∀ isA, result.amount isA = principal s p p.liquidity isA + reserveOf s p.poolKey isA
  reserve : ∀ isA, reserveOf s' p.poolKey isA = 0
  nonneg : ReserveNonneg s'
  sound : Sound s'.pools s'.positionCount s'.positions
  others : ∀ id', id' ≠ id → s'.positions.lookup id' = s.positions.lookup id'
  worth : ∀ q r isA, q.poolKey = p.poolKey → principal s' q r isA = principal s q r isA

theorem RemovesWhole.removed (hsound : Sound s.pools s.positionCount s.positions)
    (hnn : ReserveNonneg s) (hp : s.positions.lookup id = some p) (h : RemovesWhole id s s' result) :
    WholeRemoved s s' id p result := by
  obtain ⟨q, minA, minB, hq, hexec⟩ := h
  obtain rfl := Option.some.inj (hp.symm.trans hq)
  have hpos := (hsound.position id p hp).liquidity_pos
  obtain ⟨pool, pool', q, -, hremoved, hpaid⟩ := removeLiquidity_feesPaid hexec
  obtain rfl := Option.some.inj (hp.symm.trans hremoved.lookup_position)
  cases removeLiquidity_hedgeStep hsound hnn hexec with
  | released hlookup hcount hhedge hnonneg hreserve hrest =>
    obtain rfl := Option.some.inj (hp.symm.trans hlookup)
    -- the share of the whole liquidity is the whole reserve
    have hall : ∀ isA, result.hedge isA = reserveOf s p.poolKey isA := by
      intro isA
      rw [hhedge, Int.mul_ediv_cancel _ hpos.ne']
    refine
      { amount := fun isA => by rw [amount_eq (hpaid isA), hall]
        reserve := fun isA => by rw [hreserve, if_pos rfl, hall, sub_self]
        nonneg := hrest
        sound := ?_
        others := fun id' hne => ?_
        worth := fun q r isA hkey => ?_ }
    · have hrun : execute 0 s (.removeLiquidity p.owner id p.liquidity minA minB) =
          .ok (.removed result, s') := Except.map_eq_ok.mpr ⟨_, hexec, rfl⟩
      exact execute_sound hsound hrun
    · rw [hremoved.positions]
      apply lookup_stored_of_ne
      show id' ≠ p.id
      rwa [(hsound.position id p hp).id_eq]
    · have hpool' : s'.pools.lookup p.poolKey = some pool' := by
        rw [hremoved.pools]
        exact AList.lookup_insert _
      rw [principal, principal, hkey, hpool', hremoved.lookup, Option.elim_some, Option.elim_some,
        hremoved.market.sqrtPrice]
  | kept hcount hother => exact absurd rfl (hother _ _ _ _ _)

/-- Two whole positions of one pool are paid the same in either order exactly when the pool has no
reserve: whoever removes first gets all of it. -/
theorem removed_twice (hsound : Sound s.pools s.positionCount s.positions) (hnn : ReserveNonneg s)
    (hne : id₁ ≠ id₂) (hp₁ : s.positions.lookup id₁ = some p₁)
    (hp₂ : s.positions.lookup id₂ = some p₂) (hkey : p₁.poolKey = p₂.poolKey)
    (ha₁ : RemovesWhole id₁ s s₁ a₁) (ha₂ : RemovesWhole id₂ s₁ s₁₂ a₂)
    (hb₂ : RemovesWhole id₂ s s₂ b₂) (hb₁ : RemovesWhole id₁ s₂ s₂₁ b₁) :
    (∀ isA, a₁.amount isA = b₁.amount isA ∧ a₂.amount isA = b₂.amount isA) ↔
      ∀ isA, reserveOf s p₁.poolKey isA = 0 := by
  have hfirst₁ := ha₁.removed hsound hnn hp₁
  have hfirst₂ := hb₂.removed hsound hnn hp₂
  have hsecond₂ := ha₂.removed hfirst₁.sound hfirst₁.nonneg ((hfirst₁.others _ hne.symm).trans hp₂)
  have hsecond₁ := hb₁.removed hfirst₂.sound hfirst₂.nonneg ((hfirst₂.others _ hne).trans hp₁)
  apply forall_congr'
  intro isA
  -- the second removal finds the reserve empty
  rw [hfirst₁.amount, hfirst₂.amount, hsecond₁.amount, hsecond₂.amount, hkey, hfirst₂.reserve,
    ← hkey, hfirst₁.reserve, hfirst₁.worth p₂ _ _ hkey.symm, hfirst₂.worth p₁ _ _ hkey]
  omega

end Whole

/-! ## Runs -/

section Runs

variable [TokenClient τ Address Address] {now : ℕ} {admin contractAddress : Address}
  {cbConfig : CircuitBreakerConfig} {tokens : τ} {w₀ w : World (State τ)}
  {log : List (Commit (State τ) Call Result)}

omit [TokenClient τ Address Address] in
/-- Nothing is accounted for after `init`. -/
theorem accounted_init {s : State τ}
    (h : init now admin cbConfig (.empty contractAddress tokens) = .ok s) : Accounted [] s := by
  obtain ⟨-, rfl⟩ := init_eq_ok h
  exact ⟨.empty, fun _ _ => le_rfl, fun _ _ _ => ⟨rfl, rfl⟩⟩

/-- The accounts of every run. -/
theorem accounted_of_run
    (hinit : init now admin cbConfig (.empty contractAddress tokens) = .ok w₀.store)
    (hrun : (contract τ).Run w₀ w log) : Accounted log w.store := by
  refine hrun.invariant_log (I := fun _ s log => Accounted log s) (accounted_init hinit)
    (fun _ _ _ _ _ h => h) ?_
  intro t call result s s' log h hexec
  exact ((execute_hedgeStep h.sound h.nonneg hexec).fair_iff h (execute_sound h.sound hexec)).1

/-- In every run from `init` no position is paid more of the reserve than was credited for it,
exactly when every removal is covered by what is left of the credit of its own position. Two whole
positions of one pool are paid the same in either order exactly when the pool has no reserve then.
-/
theorem hedge_fair_iff
    (hinit : init now admin cbConfig (.empty contractAddress tokens) = .ok w₀.store)
    (hrun : (contract τ).Run w₀ w log) :
    (HedgeFair log ↔ ∀ past c, past ++ [c] <+: log → Covered past c) ∧
      ∀ id₁ id₂ p₁ p₂ s₁ s₁₂ s₂ s₂₁ a₁ a₂ b₁ b₂, id₁ ≠ id₂ →
        w.store.positions.lookup id₁ = some p₁ → w.store.positions.lookup id₂ = some p₂ →
        p₁.poolKey = p₂.poolKey →
        RemovesWhole id₁ w.store s₁ a₁ → RemovesWhole id₂ s₁ s₁₂ a₂ →
        RemovesWhole id₂ w.store s₂ b₂ → RemovesWhole id₁ s₂ s₂₁ b₁ →
        ((∀ isA, a₁.amount isA = b₁.amount isA ∧ a₂.amount isA = b₂.amount isA) ↔
          ∀ isA, reserveOf w.store p₁.poolKey isA = 0) := by
  constructor
  · refine hrun.prefix_iff (S := fun s log => Accounted log s) (I := fun _ log => HedgeFair log)
      ⟨accounted_init hinit, fun _ _ => le_rfl⟩ ?_
    intro c log h hexec
    exact (execute_hedgeStep h.sound h.nonneg hexec).fair_iff h (execute_sound h.sound hexec)
  · intro id₁ id₂ p₁ p₂ s₁ s₁₂ s₂ s₂₁ a₁ a₂ b₁ b₂ hne hp₁ hp₂ hkey ha₁ ha₂ hb₂ hb₁
    have haccounted := accounted_of_run hinit hrun
    exact removed_twice haccounted.sound haccounted.nonneg hne hp₁ hp₂ hkey ha₁ ha₂ hb₂ hb₁

end Runs

/-- The contract right after `init`, with two accounts that own token a. -/
def hedgeWorld : World (State (Balances Address Address)) :=
  ⟨0, { State.empty ⟨9⟩ ((Balances.zero.mint ⟨1⟩ ⟨5⟩ 1000000).mint ⟨1⟩ ⟨6⟩ 1000000) with
    acl := adminAcl ⟨5⟩ .empty
    initialized := true
    breaker := CircuitBreaker.init 0 ⟨1000000000000, 1000, 3600⟩ .empty }⟩

/-- Two equal deposits far from the price. -/
def hedgeDeposits : List (ℕ × Call) :=
  [(1, .createPool ⟨5⟩ ⟨1⟩ ⟨2⟩ 30 Q64), (2, .addLiquidity ⟨5⟩ ⟨1⟩ ⟨2⟩ 7000 8000 1000000 0 0 0),
    (2, .addLiquidity ⟨6⟩ ⟨1⟩ ⟨2⟩ 7000 8000 1000000 0 0 0)]

/-- The same, and the first position is removed. -/
def hedgeCalls : List (ℕ × Call) :=
  hedgeDeposits ++ [(3, .removeLiquidity ⟨5⟩ 1 29097184 0 0)]

/-- The commits of `hedgeCalls`. -/
def hedgeLog : List (Commit (State (Balances Address Address)) Call Result) :=
  ((contract _).play hedgeWorld hedgeCalls).2

theorem hedge_fair_iff_sample :
    (HedgeFair hedgeLog ↔ ∀ past c, past ++ [c] <+: hedgeLog → Covered past c) ∧
      ∀ id₁ id₂ p₁ p₂ s₁ s₁₂ s₂ s₂₁ a₁ a₂ b₁ b₂, id₁ ≠ id₂ →
        ((contract _).play hedgeWorld hedgeCalls).1.store.positions.lookup id₁ = some p₁ →
        ((contract _).play hedgeWorld hedgeCalls).1.store.positions.lookup id₂ = some p₂ →
        p₁.poolKey = p₂.poolKey →
        RemovesWhole id₁ ((contract _).play hedgeWorld hedgeCalls).1.store s₁ a₁ →
        RemovesWhole id₂ s₁ s₁₂ a₂ →
        RemovesWhole id₂ ((contract _).play hedgeWorld hedgeCalls).1.store s₂ b₂ →
        RemovesWhole id₁ s₂ s₂₁ b₁ →
        ((∀ isA, a₁.amount isA = b₁.amount isA ∧ a₂.amount isA = b₂.amount isA) ↔
          ∀ isA, reserveOf ((contract _).play hedgeWorld hedgeCalls).1.store p₁.poolKey isA = 0) :=
  hedge_fair_iff
    (show init 0 ⟨5⟩ ⟨1000000000000, 1000, 3600⟩ (.empty ⟨9⟩ hedgeWorld.store.tokens) =
      .ok hedgeWorld.store from rfl)
    (Contract.run_play _ hedgeWorld hedgeCalls (by decide))

/-- The position that is removed first is paid 99998 units of the reserve, of which 49999 were
credited for it. -/
theorem first_takes_reserve :
    init 0 ⟨5⟩ ⟨1000000000000, 1000, 3600⟩ (.empty ⟨9⟩ hedgeWorld.store.tokens) =
        .ok hedgeWorld.store ∧
      (∃ w, (contract _).Run hedgeWorld w hedgeLog) ∧ hedgePaid 1 true hedgeLog = 99998 ∧
      creditOf 1 true hedgeLog = 49999 ∧ ¬ HedgeFair hedgeLog := by
  refine ⟨rfl, ⟨_, Contract.run_play _ hedgeWorld hedgeCalls (by decide)⟩, by decide, by decide, ?_⟩
  intro h
  exact absurd (h 1 true) (by decide)

end Stellara.Amm
