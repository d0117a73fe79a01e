import Stellara.Mining.Emissions

/-!
# The staked tokens are there

The contract keeps the LP tokens of all stakes, as long as rewards are paid in another token and the
contract is not one of its own users. A withdrawal updates its pair first, so it has no reward to
claim, and it does not depend on the rewards that the contract owns.

## Main definitions

* `Proper`: the calls with distinct tokens, and by users other than the contract
* `Transfers`: the tokens that a call moves, and what it adds to the stored total
* `Backed`: the contract owns the staked tokens

## Main results

* `transfers_of_provide`, `transfers_of_withdraw`, `transfers_of_claim`: what the calls move
* `Backed.withdrawLiquidity`: a stake is withdrawn whenever its user wants
* `principal_backed`: the stored total, the balance and the withdrawals after every run
-/

namespace Stellara.Mining

variable {τ : Type} [TokenClient τ Address Address] {ledger : Ledger} {block : ℕ}

/-! ## Transfers -/

/-- The LP token is not the reward token, and the contract is not a user. -/
def Proper (contractAddress : Address) : LedgerAction Call → Prop
  | .call (.init _ lpToken rewardToken _) => lpToken ≠ rewardToken
  | .call (.provideLiquidity user _ _) => user ≠ contractAddress
  | _ => True

instance (contractAddress : Address) : (action : LedgerAction Call) →
    Decidable (Proper contractAddress action)
  | .call (.init _ lpToken rewardToken _) => inferInstanceAs (Decidable (lpToken ≠ rewardToken))
  | .call (.provideLiquidity user _ _) => inferInstanceAs (Decidable (user ≠ contractAddress))
  | .call (.createPair ..) | .call (.withdrawLiquidity ..) | .call (.claimRewards ..)
  | .call (.lockRewardsForGovernance ..) | .transfer .. => instDecidableTrue

/-- The tokens that the contract is about, and whether there are any, stay as they are. -/
structure SameTokens {τ : Type} (s s' : State τ) : Prop where
  contractAddress : s'.contractAddress = s.contractAddress
  initialized : s'.initialized = s.initialized
  lpToken : s'.lpToken = s.lpToken
  rewardToken : s'.rewardToken = s.rewardToken

/-- A call transfers tokens from `src` to `dst`, and adds `change` to the stored total. -/
structure Transfers (token : Option Address) (src dst : Address) (amount change : ℤ)
    (s s' : State τ) : Prop extends SameTokens s s' where
  tokens : ∃ t, token = some t ∧
    TokenClient.transfer s.tokens t src dst amount = some s'.tokens
  total : s'.totalLpStaked.getD 0 = s.totalLpStaked.getD 0 + change

section Specs

variable {s s' : State τ} {user : Address} {called : ℕ} {amount : ℤ}

theorem transfers_of_provide (he : provideLiquidity ledger user called amount s = .ok s') :
    Transfers s.lpToken user s.contractAddress amount amount s s' := by
  simp only [provideLiquidity, requireInitialized, updatePairRewards, Except.bind_eq_ok,
    require_eq_ok, exists_const, orAbort_eq_ok, tokenTransfer_eq_ok] at he
  obtain ⟨-, -, pair, -, -, _, ⟨_, -, h₁⟩, lpToken, htoken, tokens, htransfer, he⟩ := he
  obtain rfl := Except.ok.inj h₁
  obtain rfl := Except.ok.inj he
  exact ⟨⟨rfl, rfl, rfl, rfl⟩, ⟨lpToken, htoken, htransfer⟩, rfl⟩

/-- A withdrawal claims nothing, so it transfers the withdrawn tokens only. -/
theorem transfers_of_withdraw (ha : Accounted block s)
    (he : withdrawLiquidity ledger user called amount s = .ok s') :
    Transfers s.lpToken s.contractAddress user amount (-amount) s s' := by
  simp only [withdrawLiquidity, requireInitialized, updatePairRewards, Except.bind_eq_ok,
    require_eq_ok, exists_const, orAbort_eq_ok, tokenTransfer_eq_ok] at he
  obtain ⟨-, -, stake, -, -, -, -, _, ⟨pair, -, h₁⟩, reward, hreward, ⟨paid, s₂⟩, hclaim, lpToken,
    htoken, tokens, htransfer, he⟩ := he
  obtain rfl := Except.ok.inj h₁
  rw [claimRewardsInternal_of_nonpos (withdraw_reward_nonpos ha hreward)] at hclaim
  obtain ⟨-, rfl⟩ := Prod.mk.inj (Except.ok.inj hclaim)
  obtain rfl := Except.ok.inj he
  exact ⟨⟨rfl, rfl, rfl, rfl⟩, ⟨lpToken, htoken, htransfer⟩, rfl⟩

theorem transfers_of_claim {paid : ℤ} (hpos : 0 < amount)
    (he : claimRewardsInternal ledger user called amount s = .ok (paid, s')) :
    Transfers s.rewardToken s.contractAddress user amount 0 s s' := by
  obtain ⟨-, rewardToken, tokens, stake, htoken, htransfer, -, rfl⟩ :=
    claimRewardsInternal_of_pos hpos he
  exact ⟨⟨rfl, rfl, rfl, rfl⟩, ⟨rewardToken, htoken, htransfer⟩, (add_zero _).symm⟩

end Specs

/-! ## The balance of the contract -/

variable {s s' : State (Balances Address Address)} {contractAddress : Address}

/-- The contract owns the LP tokens that are staked, and pays its rewards in other tokens. -/
structure Backed (contractAddress : Address) (s : State (Balances Address Address)) : Prop where
  address : s.contractAddress = contractAddress
  stored : s.initialized = true ↔ s.lpToken.isSome
  distinct : ∀ lpToken, s.lpToken = some lpToken → s.rewardToken ≠ some lpToken
  balance : ∀ lpToken, s.lpToken = some lpToken →
    s.totalLpStaked.getD 0 ≤ s.tokens.balance lpToken contractAddress

/-- The contract stays backed when its balance changes at least as the stakes do. -/
theorem Backed.transfers {token : Option Address} {src dst : Address} {amount change : ℤ}
    (h : Backed contractAddress s) (ht : Transfers token src dst amount change s s')
    (hkept : ∀ lpToken, s.lpToken = some lpToken → s.tokens.balance lpToken contractAddress + change ≤
      s'.tokens.balance lpToken contractAddress) : Backed contractAddress s' where
  address := ht.contractAddress.trans h.address
  stored := by rw [ht.initialized, ht.lpToken, h.stored]
  distinct := by rw [ht.lpToken, ht.rewardToken]; exact h.distinct
  balance lpToken hlp := by
    rw [ht.lpToken] at hlp
    rw [ht.total]
    exact (add_le_add_left (h.balance lpToken hlp) change).trans (hkept lpToken hlp)

theorem Backed.provide {user : Address} {amount : ℤ} (h : Backed contractAddress s)
    (ht : Transfers s.lpToken user s.contractAddress amount amount s s')
    (hne : user ≠ contractAddress) : Backed contractAddress s' := by
  refine h.transfers ht fun lpToken hlp => ?_
  obtain ⟨token, htoken, htransfer⟩ := ht.tokens
  obtain rfl := Option.some.inj (hlp.symm.trans htoken)
  rw [h.address] at htransfer
  exact (Balances.transfer_dst htransfer hne.symm).ge

theorem Backed.withdraw {user : Address} {amount : ℤ} (h : Backed contractAddress s)
    (ht : Transfers s.lpToken s.contractAddress user amount (-amount) s s') :
    Backed contractAddress s' := by
  refine h.transfers ht fun lpToken hlp => ?_
  obtain ⟨token, htoken, htransfer⟩ := ht.tokens
  obtain rfl := Option.some.inj (hlp.symm.trans htoken)
  exact Balances.sub_le_transfer htransfer lpToken contractAddress

theorem Backed.claim {user : Address} {amount : ℤ} (h : Backed contractAddress s)
    (ht : Transfers s.rewardToken s.contractAddress user amount 0 s s') :
    Backed contractAddress s' := by
  refine h.transfers ht fun lpToken hlp => ?_
  obtain ⟨token, htoken, htransfer⟩ := ht.tokens
  have hne : lpToken ≠ token := by
    rintro rfl
    exact h.distinct lpToken hlp htoken
  rw [Balances.transfer_balance htransfer, if_neg hne, add_zero]

theorem backed_empty {tokens : Balances Address Address} :
    Backed contractAddress (State.empty contractAddress tokens) where
  address := rfl
  stored := by simp [State.empty]
  distinct lpToken h := by simp [State.empty] at h
  balance lpToken h := by simp [State.empty] at h

/-- Every proper call keeps the contract backed. -/
theorem Backed.execute {call : Call} {r : Option ℤ} (h : Backed contractAddress s)
    (ha : Accounted block s) (hproper : Proper contractAddress (.call call))
    (he : execute ledger s call = .ok (r, s')) : Backed contractAddress s' := by
  cases call with
  | init admin lpToken rewardToken governanceToken =>
    simp only [Mining.execute, init, Except.bind_eq_ok, require_eq_ok, exists_const] at he
    obtain ⟨_, ⟨-, h₁⟩, he⟩ := he
    obtain rfl := Except.ok.inj h₁
    obtain ⟨-, rfl⟩ := Prod.mk.inj (Except.ok.inj he)
    refine ⟨h.address, by simp, fun token htoken => ?_, fun token _ => s.tokens.nonneg _ _⟩
    obtain rfl := Option.some.inj htoken
    exact fun heq => hproper (Option.some.inj heq).symm
  | createPair admin pairId pairSymbol emissionsPerBlock totalAllocated =>
    simp only [Mining.execute, createPair, requireInitialized, Except.bind_eq_ok, require_eq_ok,
      orAbort_eq_ok, exists_const] at he
    obtain ⟨_, ⟨-, storedAdmin, -, -, -, -, h₁⟩, he⟩ := he
    obtain rfl := Except.ok.inj h₁
    obtain ⟨-, rfl⟩ := Prod.mk.inj (Except.ok.inj he)
    exact ⟨h.address, h.stored, h.distinct, h.balance⟩
  | provideLiquidity user called lpAmount =>
    simp only [Mining.execute, Except.bind_eq_ok] at he
    obtain ⟨s₁, h₁, he⟩ := he
    obtain ⟨-, rfl⟩ := Prod.mk.inj (Except.ok.inj he)
    exact h.provide (transfers_of_provide h₁) hproper
  | withdrawLiquidity user called lpAmount =>
    simp only [Mining.execute, Except.bind_eq_ok] at he
    obtain ⟨s₁, h₁, he⟩ := he
    obtain ⟨-, rfl⟩ := Prod.mk.inj (Except.ok.inj he)
    exact h.withdraw (transfers_of_withdraw ha h₁)
  | claimRewards user called =>
    simp only [Mining.execute, claimRewards, requireInitialized, Except.bind_eq_ok, require_eq_ok,
      exists_const] at he
    obtain ⟨⟨paid, s₁⟩, ⟨-, reward, -, hpos, hclaim⟩, he⟩ := he
    obtain ⟨-, rfl⟩ := Prod.mk.inj (Except.ok.inj he)
    exact h.claim (transfers_of_claim hpos hclaim)
  | lockRewardsForGovernance user called lockupDays =>
    simp only [Mining.execute, lockRewardsForGovernance, requireInitialized, Except.bind_eq_ok,
      require_eq_ok, exists_const] at he
    obtain ⟨_, ⟨-, -, reward, -, hpos, ⟨paid, s₁⟩, hclaim, h₁⟩, he⟩ := he
    obtain rfl := Except.ok.inj h₁
    obtain ⟨-, rfl⟩ := Prod.mk.inj (Except.ok.inj he)
    have h₁ := Backed.claim (by exact ⟨h.address, h.stored, h.distinct, h.balance⟩)
      (transfers_of_claim hpos hclaim)
    exact ⟨h₁.address, h₁.stored, h₁.distinct, h₁.balance⟩

/-! ## Withdrawals -/

/-- A withdrawal of at most the stake returns, whatever else the contract owns. -/
theorem Backed.withdrawLiquidity {user : Address} {pairId : ℕ} {amount : ℤ} {stake : LPStake}
    (h : Backed contractAddress s) (ha : Accounted block s)
    (hstake : s.stakes.lookup (user, pairId) = some stake) (hpos : 0 < amount)
    (hle : amount ≤ stake.lpBalance) :
    ∃ s', withdrawLiquidity ledger user pairId amount s = .ok s' := by
  obtain ⟨-, htier, hsome⟩ := ha.sound.stake _ _ _ hstake
  obtain ⟨pair, hpair⟩ := Option.isSome_iff_exists.mp hsome
  have htotal : amount ≤ s.totalLpStaked.getD 0 := by
    rw [ha.sound.total]
    exact hle.trans (ha.sound.le_stakedTotal hstake)
  have hinit : s.initialized = true := by
    rw [← ha.sound.stored]
    cases hnone : s.totalLpStaked with
    | none => rw [hnone, Option.getD_none] at htotal; omega
    | some total => rfl
  obtain ⟨lpToken, hlp⟩ := Option.isSome_iff_exists.mp (h.stored.mp hinit)
  -- with the pair updated, the reward is computed and not positive
  obtain ⟨reward, hreward⟩ : ∃ reward, calculatePendingReward ledger user pairId { s with
      pairs := s.pairs.insert pairId { pair with lastUpdateBlock := ledger.sequence } } =
        .ok reward := by
    simp only [calculatePendingReward, hstake, orAbort, Except.ok_bind, AList.lookup_insert]
    split
    · exact ⟨0, rfl⟩
    · rw [htier, getBonusMultiplier, Except.ok_bind]
      exact ⟨_, rfl⟩
  have hnone := withdraw_reward_nonpos ha hreward
  obtain ⟨tokens, htransfer⟩ := Option.isSome_iff_exists.mp (Balances.transfer_isSome.mpr
    ⟨hpos.le, htotal.trans (h.balance lpToken hlp)⟩ :
      (s.tokens.transfer lpToken contractAddress user amount).isSome)
  rw [← h.address] at htransfer
  have hlock : checkLockup ledger stake s = .ok () := by
    rw [checkLockup, htier, if_neg (lt_irrefl 0)]
  simp only [Mining.withdrawLiquidity, requireInitialized, updatePairRewards, Except.bind_eq_ok,
    require_eq_ok, exists_const, orAbort_eq_ok, tokenTransfer_eq_ok]
  exact ⟨_, hinit, hpos, stake, hstake, hle, (), hlock, _, ⟨pair, hpair, rfl⟩, reward, hreward, _,
    claimRewardsInternal_of_nonpos hnone, lpToken, hlp, tokens, htransfer, rfl⟩

/-! ## Runs -/

variable {clock : ℕ → ℕ} {w : World (State (Balances Address Address))}
  {log : List (Commit (State (Balances Address Address)) (LedgerAction Call) (Option (Option ℤ)))}
  {sequence₀ : ℕ} {tokens : Balances Address Address}

theorem Backed.action {action : LedgerAction Call} {r : Option (Option ℤ)}
    (h : Backed contractAddress s) (ha : Accounted block s) (hproper : Proper contractAddress action)
    (he : (withTransfers (contract _ clock)).exec block action s = .ok (r, s')) :
    Backed contractAddress s' := by
  rcases exec_withTransfers_eq_ok he with ⟨call, result, rfl, hexec⟩ |
    ⟨token, src, dst, amount, tokens', rfl, hsrc, htransfer, rfl⟩
  · exact h.execute ha hproper hexec
  · refine ⟨h.address, h.stored, h.distinct, fun lpToken hlp => (h.balance lpToken hlp).trans ?_⟩
    refine Balances.le_transfer_of_ne htransfer ?_ lpToken
    rw [← h.address]
    exact hsrc

theorem backed_of_run
    (hrun : (withTransfers (contract _ clock)).Run ⟨sequence₀, .empty contractAddress tokens⟩ w log)
    (hproper : ∀ c ∈ log, Proper contractAddress c.call) :
    Accounted w.now w.store ∧ Backed contractAddress w.store := by
  refine hrun.invariant_log (I := fun t s log => (∀ c ∈ log, Proper contractAddress c.call) →
    Accounted t s ∧ Backed contractAddress s) (fun _ => ⟨accounted_empty, backed_empty⟩)
    (fun t t' s log hle h hlog => ⟨(h hlog).1.mono hle, (h hlog).2⟩) ?_ hproper
  intro t action r s s' log ih he hlog
  obtain ⟨ha, hb⟩ := ih fun c hc => hlog c (List.mem_append_left _ hc)
  exact ⟨(ha.action he).1, hb.action ha (hlog ⟨t, action, r, s, s'⟩ (by simp)) he⟩

/-- With another reward token, and users other than the contract, the stored total is the sum of
the stakes, the contract owns that many LP tokens, and every stake can be withdrawn. -/
theorem principal_backed
    (hrun : (withTransfers (contract _ clock)).Run ⟨sequence₀, .empty contractAddress tokens⟩ w log)
    (hproper : ∀ c ∈ log, Proper contractAddress c.call) :
    w.store.totalLpStaked.getD 0 = stakedTotal w.store ∧
      (∀ lpToken, w.store.lpToken = some lpToken →
        stakedTotal w.store ≤ w.store.tokens.balance lpToken contractAddress) ∧
      ∀ ledger user pairId amount stake, w.store.stakes.lookup (user, pairId) = some stake →
        0 < amount → amount ≤ stake.lpBalance →
        ∃ s', withdrawLiquidity ledger user pairId amount w.store = .ok s' := by
  obtain ⟨ha, hb⟩ := backed_of_run hrun hproper
  refine ⟨ha.sound.total, fun lpToken hlp => ?_, fun ledger user pairId amount stake hstake hpos hle =>
    hb.withdrawLiquidity ha hstake hpos hle⟩
  rw [← ha.sound.total]
  exact hb.balance lpToken hlp

/-- Two users stake 50 LP tokens each, claim rewards, and can withdraw their stakes. -/
theorem principal_backed_sample :
    ∃ w log, (withTransfers (contract (Balances Address Address) (1000 + ·))).Run
        ⟨0, .empty ⟨9⟩ emissionTokens⟩ w log ∧
      w.store.totalLpStaked.getD 0 = stakedTotal w.store ∧ stakedTotal w.store = 100 ∧
      w.store.lpToken = some ⟨10⟩ ∧ stakedTotal w.store ≤ w.store.tokens.balance ⟨10⟩ ⟨9⟩ ∧
      ∃ s', withdrawLiquidity ⟨5, 1005⟩ ⟨1⟩ 1 50 w.store = .ok s' := by
  have hrun := Contract.run_play (withTransfers (contract (Balances Address Address) (1000 + ·)))
    ⟨0, .empty ⟨9⟩ emissionTokens⟩ emissionActions (by decide)
  have hproper : ∀ action ∈ emissionActions.map Prod.snd, Proper ⟨9⟩ action := by decide
  obtain ⟨htotal, hbalance, hwithdraw⟩ := principal_backed hrun fun c hc =>
    hproper c.call (Contract.call_mem_of_mem_play _ hc)
  exact ⟨_, _, hrun, htotal, rfl, rfl, hbalance ⟨10⟩ rfl,
    hwithdraw ⟨5, 1005⟩ ⟨1⟩ 1 50 ⟨⟨1⟩, 1, 50, 1001, 10, 0⟩ rfl (by decide) (by decide)⟩

end Stellara.Mining
