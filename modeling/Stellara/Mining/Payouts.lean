import Stellara.Mining.Principal

/-!
# What withdrawals and locks pay

A withdrawal updates its pair before it computes the pending reward, so it pays nothing, whatever is
quoted. A lock credits half of the pending reward as governance power and then claims the whole
reward, so the user gets one and a half times what was pending.

## Main definitions

* `lockedOf`: the governance power that a user was credited

## Main results

* `withdrawal_pays_iff`: a withdrawal pays the quote exactly when nothing is pending
* `lock_conserves_iff`: credit and payment of a lock are the pending reward exactly when it is one
  unit
-/

namespace Stellara.Mining

variable {τ : Type} {s s' : State τ} {ledger : Ledger} {user : Address} {pairId lockupDays : ℕ}
  {lpAmount : ℤ}

/-- The governance power of a user. -/
def lockedOf (user : Address) (s : State τ) : ℤ := (s.locked.lookup user).getD 0

variable [TokenClient τ Address Address]

theorem Accounted.paid_eq_quote_iff (ha : Accounted ledger.sequence s)
    (he : withdrawLiquidity ledger user pairId lpAmount s = .ok s') :
    ∃ stake pair quote, s.stakes.lookup (user, pairId) = some stake ∧
      s.pairs.lookup pairId = some pair ∧ getPendingRewards ledger user pairId s = .ok quote ∧
      (rewardsPaid pairId s' - rewardsPaid pairId s = quote ↔
        userRewardShare stake pair ledger.sequence (s.totalLpStaked.getD 0) = stake.rewardDebt) := by
  obtain ⟨hinit, hpos, stake, pair, hstake, hle, hpair, -⟩ := withdrawLiquidity_eq_ok he
  have hquote : getPendingRewards ledger user pairId s = .ok _ :=
    (getPendingRewards_eq_ok ha.sound).mpr ⟨hinit, stake, pair, hstake, hpair, rfl⟩
  refine ⟨stake, pair, _, hstake, hpair, hquote, ?_⟩
  -- nothing is paid, so that the quote would have to be zero
  rw [(restaked_of_withdraw ha he).paid, pendingOf, if_neg (by omega)]
  omega

/-- What a lock credits and what it pays. -/
theorem lock_eq_ok (ha : Accounted ledger.sequence s)
    (he : lockRewardsForGovernance ledger user pairId lockupDays s = .ok s') :
    ∃ stake pair reward, s.stakes.lookup (user, pairId) = some stake ∧
      s.pairs.lookup pairId = some pair ∧ getPendingRewards ledger user pairId s = .ok reward ∧
      0 < reward ∧
      reward = userRewardShare stake pair ledger.sequence (s.totalLpStaked.getD 0) - stake.rewardDebt ∧
      rewardsPaid pairId s' - rewardsPaid pairId s = reward ∧
      lockedOf user s' - lockedOf user s = reward.tdiv 2 := by
  obtain ⟨-, stake, pair, reward, hstake, hpair, hpos, hreward, -, hpaid⟩ := rewarded_of_lock ha he
  simp only [lockRewardsForGovernance, requireInitialized, Except.bind_eq_ok, require_eq_ok,
    exists_const] at he
  obtain ⟨hinit, -, pending, hpending, hpositive, ⟨paid, s₁⟩, hclaim, he⟩ := he
  have hquote : getPendingRewards ledger user pairId s = .ok reward :=
    (getPendingRewards_eq_ok ha.sound).mpr ⟨hinit, stake, pair, hstake, hpair, hreward⟩
  -- the reward that is credited is the one that is claimed
  obtain rfl : pending = reward := by
    simp only [getPendingRewards, requireInitialized, require_pos hinit, Except.ok_bind,
      hpending, Except.ok.injEq] at hquote
    exact hquote
  refine ⟨stake, pair, pending, hstake, hpair, hquote, hpos, ?_, ?_, ?_⟩
  · unfold pendingOf at hreward
    split at hreward
    · omega
    · exact hreward
  · rw [hpaid, if_pos rfl]
    omega
  · -- the claim does not touch the credit
    obtain rfl := Except.ok.inj he
    obtain ⟨-, _, _, _, -, -, -, rfl⟩ := claimRewardsInternal_of_pos hpositive hclaim
    simp only [lockedOf, AList.lookup_insert, Option.getD_some]
    omega

/-! ## Runs -/

variable {clock : ℕ → ℕ} {w : World (State τ)}
  {log : List (Commit (State τ) (LedgerAction Call) (Option (Option ℤ)))}
  {sequence₀ : ℕ} {contractAddress : Address} {tokens : τ}

/-- In every reachable state, a withdrawal pays the reward that is quoted before it exactly when the
share of the stake since the last update is what the stake was paid already: otherwise the quote is
not zero, and nothing is paid. What it transfers are the LP tokens. -/
theorem withdrawal_pays_iff
    (hrun : (withTransfers (contract τ clock)).Run ⟨sequence₀, .empty contractAddress tokens⟩ w log)
    (hle : w.now ≤ ledger.sequence)
    (he : withdrawLiquidity ledger user pairId lpAmount w.store = .ok s') :
    ∃ stake pair quote, w.store.stakes.lookup (user, pairId) = some stake ∧
      w.store.pairs.lookup pairId = some pair ∧
      getPendingRewards ledger user pairId w.store = .ok quote ∧
      (rewardsPaid pairId s' - rewardsPaid pairId w.store = quote ↔
        userRewardShare stake pair ledger.sequence (w.store.totalLpStaked.getD 0) =
          stake.rewardDebt) ∧
      ∃ lpToken, w.store.lpToken = some lpToken ∧ TokenClient.transfer w.store.tokens lpToken
        w.store.contractAddress user lpAmount = some s'.tokens := by
  have ha := (accounted_of_run hrun).1.mono hle
  obtain ⟨stake, pair, quote, hstake, hpair, hquote, hiff⟩ := ha.paid_eq_quote_iff he
  exact ⟨stake, pair, quote, hstake, hpair, hquote, hiff, (transfers_of_withdraw ha he).tokens⟩

/-- A user stakes 50 LP tokens on a pair that emits 10 tokens a block. -/
def stakingActions : List (ℕ × LedgerAction Call) :=
  [(1, .call (.init ⟨5⟩ ⟨10⟩ ⟨11⟩ ⟨12⟩)), (1, .call (.createPair ⟨5⟩ 1 "USDC_XLM" 10 1000)),
    (1, .call (.provideLiquidity ⟨1⟩ 1 50))]

/-- The ledger after the deposit. -/
def stakedWorld : World (State (Balances Address Address)) :=
  ((withTransfers (contract (Balances Address Address) (1000 + ·))).play
    ⟨0, .empty ⟨9⟩ sampleTokens⟩ stakingActions).1

theorem run_stakedWorld :
    ∃ log, (withTransfers (contract (Balances Address Address) (1000 + ·))).Run
      ⟨0, .empty ⟨9⟩ sampleTokens⟩ stakedWorld log :=
  ⟨_, Contract.run_play _ _ stakingActions (by decide)⟩

theorem withdrawal_pays_iff_sample :
    ∃ s', withdrawLiquidity ⟨5, 1005⟩ ⟨1⟩ 1 50 stakedWorld.store = .ok s' ∧
      ∃ stake pair quote, stakedWorld.store.stakes.lookup (⟨1⟩, 1) = some stake ∧
        stakedWorld.store.pairs.lookup 1 = some pair ∧
        getPendingRewards ⟨5, 1005⟩ ⟨1⟩ 1 stakedWorld.store = .ok quote ∧
        (rewardsPaid 1 s' - rewardsPaid 1 stakedWorld.store = quote ↔
          userRewardShare stake pair 5 (stakedWorld.store.totalLpStaked.getD 0) = stake.rewardDebt) ∧
        ∃ lpToken, stakedWorld.store.lpToken = some lpToken ∧
          TokenClient.transfer stakedWorld.store.tokens lpToken stakedWorld.store.contractAddress ⟨1⟩
            50 = some s'.tokens := by
  obtain ⟨log, hrun⟩ := run_stakedWorld
  obtain ⟨s', he⟩ : ∃ s', withdrawLiquidity ⟨5, 1005⟩ ⟨1⟩ 1 50 stakedWorld.store = .ok s' := ⟨_, rfl⟩
  exact ⟨s', he, withdrawal_pays_iff hrun (by decide) he⟩

/-- After four blocks 40 tokens are quoted, and the withdrawal pays none. -/
theorem unpaid_withdrawal :
    ∃ w log s', (withTransfers (contract (Balances Address Address) (1000 + ·))).Run
        ⟨0, .empty ⟨9⟩ sampleTokens⟩ w log ∧ w.now ≤ 5 ∧
      withdrawLiquidity ⟨5, 1005⟩ ⟨1⟩ 1 50 w.store = .ok s' ∧
      getPendingRewards ⟨5, 1005⟩ ⟨1⟩ 1 w.store = .ok 40 ∧
      rewardsPaid 1 s' - rewardsPaid 1 w.store = 0 := by
  obtain ⟨log, hrun⟩ := run_stakedWorld
  exact ⟨_, log, _, hrun, by decide, rfl, rfl, rfl⟩

/-- In every reachable state, what a lock credits and what it pays are the pending reward together
exactly when the pending reward is one unit. What it pays is transferred to the user. -/
theorem lock_conserves_iff
    (hrun : (withTransfers (contract τ clock)).Run ⟨sequence₀, .empty contractAddress tokens⟩ w log)
    (hle : w.now ≤ ledger.sequence)
    (he : lockRewardsForGovernance ledger user pairId lockupDays w.store = .ok s') :
    ∃ stake pair pending, w.store.stakes.lookup (user, pairId) = some stake ∧
      w.store.pairs.lookup pairId = some pair ∧
      getPendingRewards ledger user pairId w.store = .ok pending ∧
      ((lockedOf user s' - lockedOf user w.store) +
          (rewardsPaid pairId s' - rewardsPaid pairId w.store) = pending ↔
        userRewardShare stake pair ledger.sequence (w.store.totalLpStaked.getD 0) =
          stake.rewardDebt + 1) ∧
      TransfersReward user (rewardsPaid pairId s' - rewardsPaid pairId w.store) w.store s' := by
  obtain ⟨stake, pair, pending, hstake, hpair, hpending, hpos, hreward, hpaid, hlocked⟩ :=
    lock_eq_ok ((accounted_of_run hrun).1.mono hle) he
  have hexec : execute ledger w.store (.lockRewardsForGovernance user pairId lockupDays) =
      .ok (none, s') := by rw [execute, he, Except.ok_bind]
  obtain ⟨reward, htransfer, hrecorded⟩ := transfersReward_of_execute rfl hexec
  refine ⟨stake, pair, pending, hstake, hpair, hpending, ?_,
    by rwa [hrecorded, add_sub_cancel_left]⟩
  -- half of a positive reward is zero only for one unit
  rw [hpaid, hlocked, Int.tdiv_eq_ediv_of_nonneg hpos.le]
  omega

theorem lock_conserves_iff_sample :
    ∃ s', lockRewardsForGovernance ⟨5, 1005⟩ ⟨1⟩ 1 30 stakedWorld.store = .ok s' ∧
      ∃ stake pair pending, stakedWorld.store.stakes.lookup (⟨1⟩, 1) = some stake ∧
        stakedWorld.store.pairs.lookup 1 = some pair ∧
        getPendingRewards ⟨5, 1005⟩ ⟨1⟩ 1 stakedWorld.store = .ok pending ∧
        ((lockedOf ⟨1⟩ s' - lockedOf ⟨1⟩ stakedWorld.store) +
            (rewardsPaid 1 s' - rewardsPaid 1 stakedWorld.store) = pending ↔
          userRewardShare stake pair 5 (stakedWorld.store.totalLpStaked.getD 0) =
            stake.rewardDebt + 1) ∧
        TransfersReward ⟨1⟩ (rewardsPaid 1 s' - rewardsPaid 1 stakedWorld.store) stakedWorld.store
          s' := by
  obtain ⟨log, hrun⟩ := run_stakedWorld
  obtain ⟨s', he⟩ : ∃ s', lockRewardsForGovernance ⟨5, 1005⟩ ⟨1⟩ 1 30 stakedWorld.store = .ok s' :=
    ⟨_, rfl⟩
  exact ⟨s', he, lock_conserves_iff hrun (by decide) he⟩

/-- Of the 40 tokens that are pending, the lock credits 20 and pays 40. -/
theorem doubled_lock :
    ∃ w log s', (withTransfers (contract (Balances Address Address) (1000 + ·))).Run
        ⟨0, .empty ⟨9⟩ sampleTokens⟩ w log ∧ w.now ≤ 5 ∧
      lockRewardsForGovernance ⟨5, 1005⟩ ⟨1⟩ 1 30 w.store = .ok s' ∧
      getPendingRewards ⟨5, 1005⟩ ⟨1⟩ 1 w.store = .ok 40 ∧
      lockedOf ⟨1⟩ s' - lockedOf ⟨1⟩ w.store = 20 ∧ rewardsPaid 1 s' - rewardsPaid 1 w.store = 40 := by
  obtain ⟨log, hrun⟩ := run_stakedWorld
  exact ⟨_, log, _, hrun, by decide, rfl, rfl, rfl, rfl⟩

end Stellara.Mining
