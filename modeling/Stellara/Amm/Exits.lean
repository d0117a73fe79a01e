import Stellara.Amm.SolvencyRuns

/-!
# Solvency after every run, and withdrawals

In a run whose calls are all funded the contract stays solvent, and the owners of the positions
can collect their fees and remove their liquidity in any order without a failing transfer. A swap
credits its fee to the positions although only the rest of the input is transferred, which is
enough to break both.

## Main results

* `Calm.execute`: what a funded call preserves
* `Calm.canExit`: all owners can withdraw
* `solvent_of_funded`: funded runs
* `swap_fee_unfunded`: a swap whose fee nobody pays
-/

namespace Stellara.Amm

namespace Calm

variable {s s' : State (Balances Address Address)} {now : ℕ} {call : Call} {result : Result}

/-- Every funded call leaves the contract calm. -/
theorem execute (h : Calm s) (hordered : Ordered call) (hfunded : Funded s call)
    (hexec : execute now s call = .ok (result, s')) : Calm s' := by
  cases call with
  | createPool caller tokenA tokenB feeTier initSqrtPrice =>
    obtain ⟨t, ht, -, rfl⟩ := Except.map_pair_eq_ok.mp hexec
    exact h.createPool hordered ht
  | addLiquidity caller tokenA tokenB tickLower tickUpper amountDesiredA amountDesiredB minA minB =>
    obtain ⟨⟨added, t⟩, ht, -, rfl⟩ := Except.map_pair_eq_ok.mp hexec
    exact h.addLiquidity hfunded ht
  | removeLiquidity caller id r minA minB =>
    obtain ⟨⟨removed, t⟩, ht, -, rfl⟩ := Except.map_pair_eq_ok.mp hexec
    exact h.removeLiquidity ht
  | collectFees caller id =>
    obtain ⟨⟨owed, t⟩, ht, -, rfl⟩ := Except.map_pair_eq_ok.mp hexec
    exact h.collectFees ht
  | swap caller tokenIn tokenOut amountIn minAmountOut =>
    obtain ⟨⟨swapped, t⟩, ht, -, rfl⟩ := Except.map_pair_eq_ok.mp hexec
    exact h.swap hfunded ht
  | updateDynamicFee tokenA tokenB =>
    obtain ⟨⟨fee, t⟩, ht, -, rfl⟩ := Except.map_pair_eq_ok.mp hexec
    exact h.updateDynamicFee ht
  | pause admin =>
    obtain ⟨t, ht, -, rfl⟩ := Except.map_pair_eq_ok.mp hexec
    exact h.setPauseLevel ht
  | unpause admin =>
    obtain ⟨t, ht, -, rfl⟩ := Except.map_pair_eq_ok.mp hexec
    exact h.setPauseLevel ht

/-! ## Withdrawals -/

/-- The calls by which the owner of a position leaves. -/
def exitOf (p : LpPosition) (id : ℕ) : List Call :=
  [.collectFees p.owner id, .removeLiquidity p.owner id p.liquidity 0 0]

theorem exitCalls_cons {id : ℕ} {ids : List ℕ} {p : LpPosition}
    (hp : s.positions.lookup id = some p) :
    exitCalls s (id :: ids) = exitOf p id ++ exitCalls s ids := by
  simp only [exitCalls, List.flatMap_cons, hp, Option.elim_some]
  rfl

/-- The calls of an exit depend on the positions that leave only. -/
theorem exitCalls_congr {ids : List ℕ}
    (h : ∀ id ∈ ids, s'.positions.lookup id = s.positions.lookup id) :
    exitCalls s' ids = exitCalls s ids := by
  refine List.flatMap_congr fun id hid => ?_
  rw [h id hid]

/-- The owner of a position leaves; the other positions stay. -/
theorem exit (h : Calm s) (now : ℕ) {id : ℕ} {p : LpPosition} (hp : s.positions.lookup id = some p) :
    ∃ s₁ s₂ owed removed,
      Amm.execute now s (.collectFees p.owner id) = .ok (owed, s₁) ∧
      Amm.execute now s₁ (.removeLiquidity p.owner id p.liquidity 0 0) = .ok (removed, s₂) ∧
      Calm s₂ ∧ ∀ id' ≠ id, s₂.positions.lookup id' = s.positions.lookup id' := by
  have hid := (h.books.position _ _ hp).id_eq
  have hcollect := h.collectFees_ok hp
  have h₁ := h.collectFees hcollect
  -- the position is still there
  obtain ⟨s₁, hs₁⟩ : ∃ s₁, s₁ = publish (writePosition s p) (.feeCol id p.owner 0 0) := ⟨_, rfl⟩
  rw [← hs₁] at hcollect h₁
  have hlookup : ∀ id', s₁.positions.lookup id' = if id' = id then some p
      else s.positions.lookup id' := fun id' => by
    rw [hs₁, ← hid]
    exact Store.lookup_insert_ite _ _ _ _
  have hp₁ : s₁.positions.lookup id = some p := by rw [hlookup, if_pos rfl]
  obtain ⟨pool, hpool⟩ := h₁.books.exists_pool hp₁
  have hposition := h₁.books.position _ _ hp₁
  have hread := spot_of_lookup hpool
  have hpos := hposition.liquidity_pos
  have hwhole := hposition.shrink hpos le_rfl
  -- both minima are zero, so the withdrawal never misses them
  have hmin : ¬ ((p.withLiquidity p.liquidity).amountA pool.sqrtPrice < 0 ∨
      (p.withLiquidity p.liquidity).amountB pool.sqrtPrice < 0) := not_or.mpr
    ⟨not_lt.mpr (hwhole.amountA_nonneg hread), not_lt.mpr (hwhole.amountB_nonneg pool.sqrtPrice)⟩
  obtain ⟨removed, pool', tokens', event, hremove, -⟩ :=
    h₁.removeLiquidity_ok hp₁ hpool hpos le_rfl hmin
  have h₂ := h₁.removeLiquidity hremove
  refine ⟨s₁, _, .collected 0 0, .removed removed, ?_, ?_, h₂, fun id' hne => ?_⟩
  · exact Except.map_eq_ok.mpr ⟨_, hcollect, rfl⟩
  · exact Except.map_eq_ok.mpr ⟨_, hremove, rfl⟩
  · have hstore := storePosition_eq { s₁ with tokens := tokens' } p.owner
      (p.withLiquidity (p.liquidity - p.liquidity))
    rw [hstore]
    show (stored s₁.positions _).lookup id' = _
    have hne' : id' ≠ (p.withLiquidity (p.liquidity - p.liquidity)).id := hid.symm ▸ hne
    rw [lookup_stored_of_ne hne', hlookup, if_neg hne]

/-- All owners of positions can leave, in any order. -/
theorem canExit (h : Calm s) : CanExit s := by
  intro now ids
  induction ids generalizing s with
  | nil =>
    intro _ _
    rfl
  | cons id ids ih =>
    intro hnodup hsome
    obtain ⟨hnot, hnodup⟩ := List.nodup_cons.mp hnodup
    obtain ⟨p, hp⟩ := Option.isSome_iff_exists.mp (hsome id List.mem_cons_self)
    obtain ⟨s₁, s₂, owed, removed, hcollect, hremove, h₂, hother⟩ := h.exit now hp
    -- the owner who left touches no other position, so the rest leave as before
    have hsame : ∀ id' ∈ ids, s₂.positions.lookup id' = s.positions.lookup id' :=
      fun id' hid' => hother id' fun heq => hnot (heq ▸ hid')
    have hrest := ih h₂ hnodup fun id' hid' => by
      rw [hsame id' hid']
      exact hsome id' (List.mem_cons_of_mem id hid')
    rw [exitCalls_congr hsame] at hrest
    rw [exitCalls_cons hp, exitOf, List.cons_append, List.cons_append, List.nil_append,
      List.map_cons, List.map_cons, Contract.play_cons_ok (w := ⟨now, s⟩) hcollect,
      Contract.play_cons_ok (w := ⟨now, s₁⟩) hremove, List.map_cons, List.map_cons, hrest]

end Calm

/-! ## Runs -/

section Runs

variable {now : ℕ} {admin contractAddress : Address} {cbConfig : CircuitBreakerConfig}
  {tokens : Balances Address Address} {w₀ w : World (State (Balances Address Address))}
  {log : List (Commit (State (Balances Address Address)) Call Result)}

/-- The contract is calm after `init`. -/
theorem calm_init {s : State (Balances Address Address)}
    (h : init now admin cbConfig (.empty contractAddress tokens) = .ok s) : Calm s := by
  obtain ⟨-, rfl⟩ := init_eq_ok h
  exact
    { initialized := rfl
      books :=
        { outside := fun _ _ _ => rfl
          pool := fun _ _ h => by cases h
          liquidity := fun _ _ h => by cases h
          position := fun _ _ h => by cases h
          fresh := fun _ _ => rfl }
      owned := fun token => tokens.nonneg token contractAddress }

/-- After every run from `init` of funded calls, with the tokens of the pools in order, the
contract is solvent and all owners of positions can leave. -/
theorem solvent_of_funded
    (hinit : init now admin cbConfig (.empty contractAddress tokens) = .ok w₀.store)
    (hrun : (contract _).Run w₀ w log) (hordered : ∀ c ∈ log, Ordered c.call)
    (hfunded : ∀ c ∈ log, Funded c.before c.call) : Solvent w.store ∧ CanExit w.store := by
  have hcalm : Calm w.store :=
    hrun.invariant_of_forall (G := fun c => Ordered c.call ∧ Funded c.before c.call)
      (fun _ hc hs he => hs.execute hc.1 hc.2 he) (calm_init hinit)
      fun c hc => ⟨hordered c hc, hfunded c hc⟩
  exact ⟨hcalm.solvent, hcalm.canExit⟩

end Runs

/-- An account that owns both tokens of a pool. -/
def sampleTokens : Balances Address Address :=
  (Balances.zero.mint ⟨1⟩ ⟨5⟩ 1000000000000000000000).mint ⟨2⟩ ⟨5⟩ 1000000000000000000000

/-- The contract right after `init`, at time 0. -/
def sampleWorld : World (State (Balances Address Address)) :=
  ⟨0, { State.empty ⟨9⟩ sampleTokens with
    acl := adminAcl ⟨5⟩ .empty
    initialized := true
    breaker := CircuitBreaker.init 0 ⟨1000000000000, 1000, 3600⟩ .empty }⟩

/-- The deposit into a new pool. -/
def sampleDeposit : Call :=
  .addLiquidity ⟨5⟩ ⟨1⟩ ⟨2⟩ (-512) 512 1000000000000000000 1000000000000000000 0 0

/-- A swap of one unit, which is too small to move the price. -/
def smallSwap : Call := .swap ⟨5⟩ ⟨2⟩ ⟨1⟩ 1 0

/-- A deposit, and a swap that leaves the price. -/
def fundedCalls : List (ℕ × Call) :=
  [(1, .createPool ⟨5⟩ ⟨1⟩ ⟨2⟩ 30 Q64), (2, sampleDeposit), (3, smallSwap)]

/-- A contract that owns some of both tokens before anybody deposits. -/
def surplusWorld : World (State (Balances Address Address)) :=
  ⟨0, { sampleWorld.store with tokens := (sampleTokens.mint ⟨1⟩ ⟨9⟩ 1000).mint ⟨2⟩ ⟨9⟩ 1000 }⟩

/-- A swap that moves the price. -/
def movingSwap : Call := .swap ⟨5⟩ ⟨2⟩ ⟨1⟩ 999 0

/-- A deposit, a swap that leaves the price, and one that moves it and that the contract affords. -/
def surplusCalls : List (ℕ × Call) := fundedCalls ++ [(4, movingSwap)]

/-- The contract affords the swap that moves the price. -/
theorem movingSwap_funded : ∀ c ∈ ((contract _).play surplusWorld surplusCalls).2,
    c.call = movingSwap → Funded c.before movingSwap := by
  have hmeet : ∀ c ∈ ((contract _).play surplusWorld surplusCalls).2, c.call = movingSwap →
      ∀ pool ∈ c.before.pools.lookup ⟨⟨1⟩, ⟨2⟩⟩,
        (OnTable pool.sqrtPrice ∧ swapFee pool 999 * Q64 < pool.liquidity) ∧
        pool.sqrtPrice < targetPrice pool false ∧
        pool.liquidity * |targetPrice pool false - pool.sqrtPrice| ≤ i128Max ∧
        (∀ token ∈ [(⟨1⟩ : Address), ⟨2⟩],
          liabilities c.before token +
              3 * (rangeCount c.before.positions ⟨⟨1⟩, ⟨2⟩⟩ pool.currentTick + 1) ≤
            c.before.tokens.balance token c.before.contractAddress) ∧
        ∀ e ∈ c.before.positions.entries,
          ((e.2.tickLower ≤ pool.currentTick ↔
              e.2.tickLower ≤ sqrtPriceToTick (targetPrice pool false)) ∧
            (e.2.tickUpper ≤ pool.currentTick ↔
              e.2.tickUpper ≤ sqrtPriceToTick (targetPrice pool false))) ∧
          Unsaturated e.2.liquidity e.2.sqrtLower e.2.sqrtUpper
            (clampPrice e.2.sqrtLower e.2.sqrtUpper (targetPrice pool false)) := by
    decide
  intro c hc heq pool hpool
  obtain ⟨⟨htable, hfee⟩, hup, hproduct, hsurplus, hpositions⟩ := hmeet c hc heq pool hpool
  refine ⟨htable, hfee, .inr ?_⟩
  exact
    { apart := fun id p hp _ => (hpositions _ (AList.mem_lookup_iff.mp hp)).1
      unsaturated := fun id p hp _ => (hpositions _ (AList.mem_lookup_iff.mp hp)).2
      product := hproduct
      down := fun hdown => absurd hdown hup.not_gt
      surplus := by
        rintro token (rfl | rfl)
        · exact hsurplus _ (by decide)
        · exact hsurplus _ (by decide) }

theorem solvent_of_funded_sample :
    (∃ pool, ((contract _).play surplusWorld surplusCalls).1.store.pools.lookup ⟨⟨1⟩, ⟨2⟩⟩ =
        some pool ∧ Q64 < pool.sqrtPrice) ∧
      Solvent ((contract _).play surplusWorld surplusCalls).1.store ∧
      CanExit ((contract _).play surplusWorld surplusCalls).1.store := by
  -- what the deposit and the first swap meet
  have hmeet : ∀ c ∈ ((contract _).play surplusWorld surplusCalls).2,
      (c.call = sampleDeposit → ∀ pool ∈ c.before.pools.lookup ⟨⟨1⟩, ⟨2⟩⟩,
        |ilBpsAt (-512) 512 pool.sqrtPrice| < hedgeThresholdBps) ∧
      (c.call = smallSwap → ∀ pool ∈ c.before.pools.lookup ⟨⟨1⟩, ⟨2⟩⟩,
        OnTable pool.sqrtPrice ∧ swapFee pool 1 * Q64 < pool.liquidity ∧
          pool.sqrtPrice < sqrtPriceAt (targetTick pool.currentTick false) ∧
          max (1 - swapFee pool 1) 0 * Q64 < pool.liquidity ∧
          max (1 - swapFee pool 1) 0 < (IntFormat.i128.saturate (pool.liquidity *
            (sqrtPriceAt (targetTick pool.currentTick false) - pool.sqrtPrice))).tdiv Q64) := by
    decide
  have hcalls : ∀ c ∈ ((contract _).play surplusWorld surplusCalls).2,
      c.call = .createPool ⟨5⟩ ⟨1⟩ ⟨2⟩ 30 Q64 ∨ c.call = sampleDeposit ∨ c.call = smallSwap ∨
        c.call = movingSwap := fun c hc => by
    have hmem := Contract.call_mem_of_mem_play _ hc
    simpa only [surplusCalls, fundedCalls, List.map_append, List.map_cons, List.map_nil,
      List.cons_append, List.nil_append, List.mem_cons, List.not_mem_nil, or_false] using hmem
  refine ⟨⟨_, rfl, by decide⟩, solvent_of_funded
    (show init 0 ⟨5⟩ ⟨1000000000000, 1000, 3600⟩ (.empty ⟨9⟩ surplusWorld.store.tokens) =
      .ok surplusWorld.store from rfl)
    (Contract.run_play _ surplusWorld surplusCalls (by decide)) (fun c hc => ?_) fun c hc => ?_⟩
  · rcases hcalls c hc with heq | heq | heq | heq <;> rw [heq]
    · show (⟨1⟩ : Address) < ⟨2⟩
      decide
    · trivial
    · trivial
    · trivial
  · obtain ⟨hdeposit, hswap⟩ := hmeet c hc
    rcases hcalls c hc with heq | heq | heq | heq <;> rw [heq]
    · trivial
    · exact fun pool hpool => hdeposit heq pool hpool
    · intro pool hpool
      obtain ⟨htable, hfee, hlt, hsmall, hpartial⟩ := hswap heq pool hpool
      exact ⟨htable, hfee, .inl (.inr ⟨hlt, hsmall, hpartial⟩)⟩
    · exact movingSwap_funded c hc heq

/-- A swap of the whole step to the next tick. -/
def unfundedCalls : List (ℕ × Call) :=
  [(1, .createPool ⟨5⟩ ⟨1⟩ ⟨2⟩ 30 Q64), (2, sampleDeposit),
    (3, .swap ⟨5⟩ ⟨1⟩ ⟨2⟩ 2000000000000000 0)]

/-- The fee of a swap is credited to the position, but only the rest of the input is transferred:
the contract owes more than it owns, and the owner of the position cannot leave. -/
theorem swap_fee_unfunded :
    init 0 ⟨5⟩ ⟨1000000000000, 1000, 3600⟩ (.empty ⟨9⟩ sampleTokens) = .ok sampleWorld.store ∧
      ∃ (w : World (State (Balances Address Address))) (log : _),
        (contract _).Run sampleWorld w log ∧ (∀ c ∈ log, Ordered c.call) ∧
          ¬ Solvent w.store ∧ ¬ CanExit w.store := by
  refine ⟨rfl, _, _, Contract.run_play _ sampleWorld unfundedCalls (by decide), fun c hc => ?_,
    fun h => ?_, fun h => ?_⟩
  · have hmem := Contract.call_mem_of_mem_play _ hc
    simp only [unfundedCalls, List.map_cons, List.map_nil, List.mem_cons, List.not_mem_nil,
      or_false] at hmem
    rcases hmem with heq | heq | heq <;> rw [heq]
    · show (⟨1⟩ : Address) < ⟨2⟩
      decide
    · trivial
    · trivial
  · exact absurd (h ⟨1⟩) (by decide)
  · exact absurd (h 4 [1] (by decide) (by decide)) (by decide)

end Stellara.Amm
