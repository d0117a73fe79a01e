import Stellara.Mining.Emissions

/-!
# The allocation of a pair

A pair is created with the total of the rewards that are allocated to it, which is stored and never
read: claims and locks pay what is pending as long as the contract owns reward tokens. After a claim
the debt of the stake is its share, so the allocation is kept exactly when the debts of the pair fit
in it with every claim.

## Main definitions

* `Allocates`: the creation of a pair with its allocation
* `Affordable`: a claim leaves debts that fit in the allocation

## Main results

* `paid_le_iff`: a call keeps the allocation exactly when it is affordable
* `allocation_iff`: a run keeps the allocation exactly when all of its claims are affordable
* `overspent_allocation`: 40 tokens are paid on a pair with an allocation of 30
-/

namespace Stellara.Mining

variable {τ : Type} {s s' : State τ} {ledger : Ledger} {user : Address} {pairId : ℕ}
  {totalAllocated : ℤ}

/-- The creation of a pair with its allocation. -/
def Allocates (action : LedgerAction Call) (pairId : ℕ) (totalAllocated : ℤ) : Prop :=
  ∃ admin pairSymbol emissionsPerBlock,
    action = .call (.createPair admin pairId pairSymbol emissionsPerBlock totalAllocated)

/-- When a user claims or locks rewards of the pair, the debts of the other stakes on it and the
share of the user fit in the allocation. -/
def Affordable (pairId : ℕ) (totalAllocated : ℤ)
    (c : Commit (State τ) (LedgerAction Call) (Option (Option ℤ))) : Prop :=
  ∀ user call stake pair, c.call = .call call → claimer? call = some (user, pairId) →
    c.before.stakes.lookup (user, pairId) = some stake → c.before.pairs.lookup pairId = some pair →
    pairTotal pairId LPStake.rewardDebt c.before - stake.rewardDebt +
      userRewardShare stake pair c.time (c.before.totalLpStaked.getD 0) ≤ totalAllocated

/-- A claim makes the debt of a stake its share. -/
theorem Rewarded.paid_eq {block : ℕ} (h : Rewarded block user pairId s s') (ha : Accounted block s) :
    ∃ stake pair, s.stakes.lookup (user, pairId) = some stake ∧ s.pairs.lookup pairId = some pair ∧
      rewardsPaid pairId s' = pairTotal pairId LPStake.rewardDebt s - stake.rewardDebt +
        userRewardShare stake pair block (s.totalLpStaked.getD 0) := by
  obtain ⟨stake, pair, reward, hstake, hpair, hpos, hreward, -, hpaid⟩ := h.stake
  refine ⟨stake, pair, hstake, hpair, ?_⟩
  unfold pendingOf at hreward
  split at hreward
  · omega
  · rw [hpaid, if_pos rfl, ha.paid]
    omega

variable [TokenClient τ Address Address] {clock : ℕ → ℕ}

/-- Only claims and locks pay rewards. -/
theorem paid_of_execute {call : Call} {r : Option ℤ} (ha : Accounted ledger.sequence s)
    (he : execute ledger s call = .ok (r, s')) (hother : ∀ user, claimer? call ≠ some (user, pairId)) :
    rewardsPaid pairId s' = rewardsPaid pairId s := by
  rcases execute_effect ha he with ⟨called, e, -, hcreated⟩ |
    ⟨-, ⟨-, user, called, hm⟩ | ⟨user, called, hclaimer, hm⟩ | ⟨-, hm⟩⟩
  · exact hcreated.paid pairId
  · exact hm.paid pairId
  · obtain ⟨_, _, _, -, -, -, -, -, hpaid⟩ := hm.stake
    have hne : called ≠ pairId := by
      rintro rfl
      exact hother user hclaimer
    rw [hpaid, if_neg hne, add_zero]
  · rw [rewardsPaid, rewardsPaid, hm.events]

/-- A call that pays rewards of the pair is a claim. -/
theorem rewarded_of_execute {call : Call} {r : Option ℤ} (ha : Accounted ledger.sequence s)
    (he : execute ledger s call = .ok (r, s')) (hcall : claimer? call = some (user, pairId)) :
    Rewarded ledger.sequence user pairId s s' := by
  rcases execute_effect ha he with ⟨called, e, hcreates, -⟩ |
    ⟨-, ⟨hnone, -⟩ | ⟨user', called, hclaimer, hm⟩ | ⟨hnone, -⟩⟩
  · obtain ⟨_, _, _, hcreates⟩ := hcreates
    cases hcreates
    cases hcall
  · rw [hcall] at hnone
    cases hnone
  · obtain ⟨rfl, rfl⟩ := Prod.mk.inj (Option.some.inj (hcall.symm.trans hclaimer))
    exact hm
  · rw [hcall] at hnone
    cases hnone

variable {c : Commit (State τ) (LedgerAction Call) (Option (Option ℤ))}

/-- An action keeps the allocation exactly when it is affordable. -/
theorem paid_le_iff (ha : Accounted c.time c.before) (hle : rewardsPaid pairId c.before ≤ totalAllocated)
    (he : (withTransfers (contract τ clock)).exec c.time c.call c.before = .ok (c.result, c.after)) :
    rewardsPaid pairId c.after ≤ totalAllocated ↔ Affordable pairId totalAllocated c := by
  obtain ⟨block, action, r, s, s'⟩ := c
  rcases exec_withTransfers_eq_ok he with ⟨call, result, rfl, hexec⟩ |
    ⟨token, src, dst, amount, tokens', rfl, -, -, hs'⟩
  · have hcall : execute ⟨block, clock block⟩ s call = .ok (result, s') := hexec
    by_cases hclaimer : ∃ user, claimer? call = some (user, pairId)
    · -- a claim on the pair pays what `Affordable` adds up
      obtain ⟨user, hclaimer⟩ := hclaimer
      obtain ⟨stake, pair, hstake, hpair, hpaid⟩ :=
        (rewarded_of_execute (by exact ha) hcall hclaimer).paid_eq ha
      constructor
      · rintro hkept user' _ stake' pair' ⟨⟩ hclaimer' hstake' hpair'
        obtain ⟨rfl, -⟩ := Prod.mk.inj (Option.some.inj (hclaimer.symm.trans hclaimer'))
        obtain rfl := Option.some.inj (hstake.symm.trans hstake')
        obtain rfl := Option.some.inj (hpair.symm.trans hpair')
        exact hpaid.symm.trans_le hkept
      · intro hfits
        exact hpaid.trans_le (hfits user call stake pair rfl hclaimer hstake hpair)
    · -- any other call pays nothing on the pair
      rw [not_exists] at hclaimer
      have hpaid : rewardsPaid pairId s' = rewardsPaid pairId s :=
        paid_of_execute (by exact ha) hcall hclaimer
      refine iff_of_true (hpaid.trans_le hle) ?_
      rintro user _ stake pair ⟨⟩ hcl
      exact absurd hcl (hclaimer user)
  · have hs' : s' = { s with tokens := tokens' } := hs'
    subst hs'
    refine iff_of_true hle ?_
    rintro user call stake pair ⟨⟩

/-! ## Runs -/

variable {w : World (State τ)} {log : List (Commit (State τ) (LedgerAction Call) (Option (Option ℤ)))}
  {sequence₀ : ℕ} {contractAddress : Address} {tokens : τ}

omit [TokenClient τ Address Address] in
theorem allocated_pos {admin : Address} {pairSymbol : Symbol} {emissionsPerBlock : ℤ}
    (h : createPair ledger admin pairId pairSymbol emissionsPerBlock totalAllocated s = .ok s') :
    0 < totalAllocated := by
  simp only [createPair, Except.bind_eq_ok, require_eq_ok, exists_const] at h
  obtain ⟨_, -, _, -, -, hpos, -⟩ := h
  omega

theorem allocated_pos_of_mem
    (hrun : (withTransfers (contract τ clock)).Run ⟨sequence₀, .empty contractAddress tokens⟩ w log)
    (hc : c ∈ log) (hallocates : Allocates c.call pairId totalAllocated) : 0 < totalAllocated := by
  obtain ⟨admin, pairSymbol, emissionsPerBlock, hcall⟩ := hallocates
  have he := hrun.exec_of_mem c hc
  rw [hcall] at he
  simp only [withTransfers, contract, execute, Except.bind_eq_ok] at he
  obtain ⟨_, ⟨_, hcreate, -⟩, -⟩ := he
  exact allocated_pos hcreate

/-- In every run the rewards that are paid on a pair stay within the allocation that it was created
with exactly when the claims and the locks on the pair are affordable. All of them are transferred. -/
theorem allocation_iff
    (hrun : (withTransfers (contract τ clock)).Run ⟨sequence₀, .empty contractAddress tokens⟩ w log)
    (hc : c ∈ log) (hallocates : Allocates c.call pairId totalAllocated) :
    ((rewardsPaid pairId w.store ≤ totalAllocated ∧
        ∀ d ∈ log, rewardsPaid pairId d.after ≤ totalAllocated) ↔
      ∀ d ∈ log, Affordable pairId totalAllocated d) ∧ ∀ d ∈ log, PaysOut pairId d := by
  have hpos := allocated_pos_of_mem hrun hc hallocates
  refine ⟨?_, fun d hd => paysOut_of_run hrun d hd pairId⟩
  refine hrun.after_iff (S := Accounted) (I := fun _ s => rewardsPaid pairId s ≤ totalAllocated)
    ⟨accounted_empty, ?_⟩ (fun t t' s hle => ⟨fun ha => ha.mono hle, id⟩)
    (fun d ha he => (ha.action he).1) fun d ha hle he => paid_le_iff ha hle he
  exact hpos.le

/-- The pair of an allocation of 30 tokens, on which a user claims after four blocks. -/
def overspendingActions : List (ℕ × LedgerAction Call) :=
  [(1, .call (.init ⟨5⟩ ⟨10⟩ ⟨11⟩ ⟨12⟩)), (1, .call (.createPair ⟨5⟩ 1 "USDC_XLM" 10 30)),
    (1, .call (.provideLiquidity ⟨1⟩ 1 50)), (5, .call (.claimRewards ⟨1⟩ 1))]

theorem allocation_iff_sample :
    ((rewardsPaid 1 ((withTransfers (contract (Balances Address Address) (1000 + ·))).play
          ⟨0, .empty ⟨9⟩ sampleTokens⟩ overspendingActions).1.store ≤ 30 ∧
        ∀ d ∈ ((withTransfers (contract (Balances Address Address) (1000 + ·))).play
          ⟨0, .empty ⟨9⟩ sampleTokens⟩ overspendingActions).2, rewardsPaid 1 d.after ≤ 30) ↔
      ∀ d ∈ ((withTransfers (contract (Balances Address Address) (1000 + ·))).play
        ⟨0, .empty ⟨9⟩ sampleTokens⟩ overspendingActions).2, Affordable 1 30 d) ∧
      ∀ d ∈ ((withTransfers (contract (Balances Address Address) (1000 + ·))).play
        ⟨0, .empty ⟨9⟩ sampleTokens⟩ overspendingActions).2, PaysOut 1 d := by
  obtain ⟨c, hc⟩ : ∃ c, ((withTransfers (contract (Balances Address Address) (1000 + ·))).play
      ⟨0, .empty ⟨9⟩ sampleTokens⟩ overspendingActions).2[1]? = some c := ⟨_, rfl⟩
  have hallocates : Allocates c.call 1 30 := by
    obtain rfl := Option.some.inj hc
    exact ⟨⟨5⟩, "USDC_XLM", 10, rfl⟩
  exact allocation_iff (Contract.run_play _ _ overspendingActions (by decide))
    (List.mem_of_getElem? hc) hallocates

/-- The claim pays 40 tokens. -/
theorem overspent_allocation :
    ∃ w log, (withTransfers (contract (Balances Address Address) (1000 + ·))).Run
        ⟨0, .empty ⟨9⟩ sampleTokens⟩ w log ∧
      (∃ c ∈ log, Allocates c.call 1 30) ∧ rewardsPaid 1 w.store = 40 := by
  obtain ⟨c, hc⟩ : ∃ c, ((withTransfers (contract (Balances Address Address) (1000 + ·))).play
      ⟨0, .empty ⟨9⟩ sampleTokens⟩ overspendingActions).2[1]? = some c := ⟨_, rfl⟩
  have hallocates : Allocates c.call 1 30 := by
    obtain rfl := Option.some.inj hc
    exact ⟨⟨5⟩, "USDC_XLM", 10, rfl⟩
  exact ⟨_, _, Contract.run_play _ _ overspendingActions (by decide),
    ⟨c, List.mem_of_getElem? hc, hallocates⟩, rfl⟩

end Stellara.Mining
