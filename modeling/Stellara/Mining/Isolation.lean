import Mathlib.Data.Int.Order.Lemmas
import Stellara.Mining.Contract

/-!
# What users take from each other

A pending reward is computed from the last update of the pair, which is shared, and from the stakes
on all pairs together. A deposit or a withdrawal sets the last update of its pair to the current
block without crediting anybody, so it takes from every other user of the pair what has accrued
since. A deposit on another pair dilutes what has accrued.

## Main definitions

* `Sound`: the stored total is the sum of the stakes, and no pair was updated in the future
* `Isolated`: a call does not decrease the pending reward of another user of a common pair
* `Harmless`: the calls with which nothing has accrued that they take away

## Main results

* `Sound.execute`: every call keeps the stored total
* `isolated_iff_harmless`: a call isolates the other users exactly when it is harmless
* `isolated_iff`: the same for every call of a run
-/

namespace Stellara.Mining

variable {τ : Type} {s s' : State τ} {ledger : Ledger} {block : ℕ}

/-! ## Stakes and pairs -/

/-- The sum of the staked LP tokens. -/
def stakedTotal (s : State τ) : ℤ := Store.total (fun _ => LPStake.lpBalance) s.stakes

/-- The stored total is the sum of the stakes; stakes are not negative, have no bonus and belong to
a pair; pairs have emissions and were not updated after `block`. -/
structure Sound (block : ℕ) (s : State τ) : Prop where
  total : s.totalLpStaked.getD 0 = stakedTotal s
  stored : s.totalLpStaked.isSome ↔ s.initialized = true
  stake : ∀ user pairId stake, s.stakes.lookup (user, pairId) = some stake →
    0 ≤ stake.lpBalance ∧ stake.bonusMultiplierTier = 0 ∧ (s.pairs.lookup pairId).isSome
  pair : ∀ pairId pair, s.pairs.lookup pairId = some pair →
    0 < pair.emissionsPerBlock ∧ pair.lastUpdateBlock ≤ block

theorem sound_empty {contractAddress : Address} {tokens : τ} :
    Sound block (State.empty contractAddress tokens) where
  total := rfl
  stored := by simp [State.empty]
  stake user pairId stake h := by simp [State.empty] at h
  pair pairId pair h := by simp [State.empty] at h

theorem Sound.mono {block' : ℕ} (h : Sound block s) (hle : block ≤ block') : Sound block' s :=
  ⟨h.total, h.stored, h.stake, fun pairId pair hp => ⟨(h.pair pairId pair hp).1,
    (h.pair pairId pair hp).2.trans hle⟩⟩

/-- A stake is a part of the sum. -/
theorem Sound.le_stakedTotal (h : Sound block s) {key : Address × ℕ} {stake : LPStake}
    (hstake : s.stakes.lookup key = some stake) : stake.lpBalance ≤ stakedTotal s :=
  Store.le_total (f := fun _ => LPStake.lpBalance) (fun k st hk => (h.stake k.1 k.2 st hk).1)
    hstake

/-- A stored stake exchanges its balance for the one of the stake before it. -/
theorem stakedTotal_insert {key : Address × ℕ} {stake : LPStake}
    (hstakes : s'.stakes = s.stakes.insert key stake) :
    (s.stakes.lookup key).elim 0 LPStake.lpBalance + stakedTotal s' =
      stake.lpBalance + stakedTotal s := by
  rw [stakedTotal, hstakes]
  exact Store.total_insert_elim (f := fun _ => LPStake.lpBalance)

/-- A new balance of a stake keeps the state sound when the total changes with it, and the pair is
updated in the current block. -/
theorem Sound.move (h : Sound block s) {user : Address} {pairId : ℕ} {pair : PairConfig}
    {stake : LPStake} (hpair : s.pairs.lookup pairId = some pair) (hlp : 0 ≤ stake.lpBalance)
    (htier : stake.bonusMultiplierTier = 0)
    (hstakes : s'.stakes = s.stakes.insert (user, pairId) stake)
    (hpairs : s'.pairs = s.pairs.insert pairId { pair with lastUpdateBlock := block })
    (htotal : s'.totalLpStaked = some (s.totalLpStaked.getD 0 + (stake.lpBalance -
      (s.stakes.lookup (user, pairId)).elim 0 LPStake.lpBalance)))
    (hinit : s'.initialized = true) : Sound block s' where
  total := by
    have hsum := stakedTotal_insert hstakes
    rw [htotal, Option.getD_some, h.total]
    omega
  stored := by rw [htotal, hinit]; simp
  stake user' pairId' stake' hlookup := by
    have hkeep : ∀ pairId', (s.pairs.lookup pairId').isSome →
        (s'.pairs.lookup pairId').isSome := fun pairId' hsome => by
      rw [hpairs, Store.isSome_insert]
      exact .inr hsome
    rw [hstakes] at hlookup
    rcases Store.eq_or_lookup_of_insert hlookup with ⟨hkey, rfl⟩ | ⟨-, hold⟩
    · refine ⟨hlp, htier, hkeep _ ?_⟩
      rw [(Prod.mk.inj hkey).2, hpair, Option.isSome_some]
    · obtain ⟨hnonneg, hbonus, hsome⟩ := h.stake _ _ _ hold
      exact ⟨hnonneg, hbonus, hkeep _ hsome⟩
  pair pairId' pair' hlookup := by
    rw [hpairs] at hlookup
    rcases Store.eq_or_lookup_of_insert hlookup with ⟨-, rfl⟩ | ⟨-, hold⟩
    · exact ⟨(h.pair pairId pair hpair).1, le_rfl⟩
    · exact h.pair pairId' pair' hold

/-- A new debt of a stake keeps the state sound. -/
theorem Sound.claim (h : Sound block s) {key : Address × ℕ} {stake : LPStake} {debt : ℤ}
    (hstake : s.stakes.lookup key = some stake)
    (hstakes : s'.stakes = s.stakes.insert key { stake with rewardDebt := debt })
    (hpairs : s'.pairs = s.pairs) (htotal : s'.totalLpStaked = s.totalLpStaked)
    (hinit : s'.initialized = s.initialized) : Sound block s' where
  total := by
    have hsum := stakedTotal_insert hstakes
    rw [hstake, Option.elim_some] at hsum
    rw [htotal, h.total]
    exact (add_left_cancel hsum).symm
  stored := by rw [htotal, hinit]; exact h.stored
  stake user' pairId' stake' hlookup := by
    rw [hpairs]
    rw [hstakes] at hlookup
    rcases Store.eq_or_lookup_of_insert hlookup with ⟨rfl, rfl⟩ | ⟨-, hold⟩
    · have hold := h.stake _ _ _ hstake
      exact hold
    · exact h.stake _ _ _ hold
  pair := hpairs ▸ h.pair

/-! ## Calls -/

variable [TokenClient τ Address Address] {clock : ℕ → ℕ}
  {c : Commit (State τ) Call (Option ℤ)}

/-- The user and the pair of a call, if it is one of a user. -/
def Call.user? : Call → Option (Address × ℕ)
  | .provideLiquidity user pairId _ => some (user, pairId)
  | .withdrawLiquidity user pairId _ => some (user, pairId)
  | .claimRewards user pairId => some (user, pairId)
  | .lockRewardsForGovernance user pairId _ => some (user, pairId)
  | _ => none

/-- A user of the pair `pairId`, who calls the contract for the pair `called`. -/
def Uses (s : State τ) (user : Address) (called pairId : ℕ) : Prop :=
  pairId = called ∨ (s.stakes.lookup (user, pairId)).isSome

/-- A call of a user does not decrease the pending reward of another user of the same pair, as it is
reported in the block of the call. -/
def Isolated (clock : ℕ → ℕ) (c : Commit (State τ) Call (Option ℤ)) : Prop :=
  ∀ user called, c.call.user? = some (user, called) → ∀ other pairId, other ≠ user →
    Uses c.before user called pairId →
    ∀ reward, getPendingRewards ⟨c.time, clock c.time⟩ other pairId c.before = .ok reward →
      ∃ reward', getPendingRewards ⟨c.time, clock c.time⟩ other pairId c.after = .ok reward' ∧
        reward ≤ reward'

/-- The share of a stake on a pair in the emissions since the last update, with `total` in all
stakes, is not decreased by a call for the pair `called` that adds `change` to the total. -/
def ShareKept (s : State τ) (block called pairId : ℕ) (change : ℤ) (stake : LPStake)
    (pair : PairConfig) : Prop :=
  if pairId = called then userRewardShare stake pair block (s.totalLpStaked.getD 0) = 0
  else userRewardShare stake pair block (s.totalLpStaked.getD 0) ≤
    userRewardShare stake pair block (s.totalLpStaked.getD 0 + change)

/-- A deposit or a withdrawal is made when no other stake on its pair has a share since the last
update of the pair, and a deposit keeps the shares of the others on the other pairs of its user. -/
def Harmless (c : Commit (State τ) Call (Option ℤ)) : Prop :=
  match c.call with
  | .provideLiquidity user called lpAmount => ∀ other pairId stake pair, other ≠ user →
    Uses c.before user called pairId → c.before.stakes.lookup (other, pairId) = some stake →
    c.before.pairs.lookup pairId = some pair →
    ShareKept c.before c.time called pairId lpAmount stake pair
  | .withdrawLiquidity user called _ => ∀ other stake pair, other ≠ user →
    c.before.stakes.lookup (other, called) = some stake →
    c.before.pairs.lookup called = some pair →
    userRewardShare stake pair c.time (c.before.totalLpStaked.getD 0) = 0
  | _ => True

/-- What a deposit (of a positive change) and a withdrawal (of a negative one) leave. -/
structure Moved (block : ℕ) (user : Address) (pairId : ℕ) (change : ℤ) (s s' : State τ) :
    Prop where
  initialized : s.initialized = true ∧ s'.initialized = true
  pair : ∃ pair, s.pairs.lookup pairId = some pair ∧
    s'.pairs = s.pairs.insert pairId { pair with lastUpdateBlock := block }
  stake : ∃ stake : LPStake, stake.bonusMultiplierTier = 0 ∧ 0 ≤ stake.lpBalance ∧
    stake.lpBalance = (s.stakes.lookup (user, pairId)).elim 0 LPStake.lpBalance + change ∧
    s'.stakes = s.stakes.insert (user, pairId) stake
  total : s'.totalLpStaked = some (s.totalLpStaked.getD 0 + change)

/-- What a claim leaves. -/
structure Claimed (user : Address) (pairId : ℕ) (s s' : State τ) : Prop where
  initialized : s.initialized = true ∧ s'.initialized = true
  pairs : s'.pairs = s.pairs
  stake : s'.stakes = s.stakes ∨ ∃ stake debt, s.stakes.lookup (user, pairId) = some stake ∧
    s'.stakes = s.stakes.insert (user, pairId) { stake with rewardDebt := debt }
  total : s'.totalLpStaked = s.totalLpStaked

theorem moved_of_provide (h : Sound block s) {user : Address} {pairId : ℕ} {lpAmount : ℤ}
    (he : provideLiquidity ledger user pairId lpAmount s = .ok s') :
    0 < lpAmount ∧ Moved ledger.sequence user pairId lpAmount s s' := by
  obtain ⟨hinit, hpos, pair, hpair, tokens, events, rfl⟩ := provideLiquidity_eq_ok he
  refine ⟨hpos, ⟨hinit, hinit⟩, ⟨pair, hpair, rfl⟩, ⟨_, ?_, ?_, ?_, rfl⟩, rfl⟩ <;>
    cases hlookup : s.stakes.lookup (user, pairId) with
    | none => simp [hpos.le]
    | some stake =>
      obtain ⟨hlp, htier, -⟩ := h.stake _ _ _ hlookup
      simp [htier, add_nonneg hlp hpos.le]

theorem moved_of_withdraw (h : Sound block s) {user : Address} {pairId : ℕ} {lpAmount : ℤ}
    (he : withdrawLiquidity ledger user pairId lpAmount s = .ok s') :
    0 < lpAmount ∧ (s.stakes.lookup (user, pairId)).isSome ∧
      Moved ledger.sequence user pairId (-lpAmount) s s' := by
  obtain ⟨hinit, hpos, stake, pair, hstake, hle, hpair, tokens, events, rfl⟩ :=
    withdrawLiquidity_eq_ok he
  refine ⟨hpos, by rw [hstake, Option.isSome_some], ⟨hinit, hinit⟩, ⟨pair, hpair, rfl⟩,
    ⟨{ stake with lpBalance := stake.lpBalance - lpAmount }, (h.stake _ _ _ hstake).2.1,
      sub_nonneg.mpr hle, ?_, rfl⟩, ?_⟩
  · rw [hstake, Option.elim_some, sub_eq_add_neg]
  · rw [sub_eq_add_neg]

theorem claimed_of_internal {user : Address} {pairId : ℕ} {reward paid : ℤ}
    (hinit : s.initialized = true)
    (he : claimRewardsInternal ledger user pairId reward s = .ok (paid, s')) :
    Claimed user pairId s s' := by
  rcases claimRewardsInternal_eq_ok he with rfl | ⟨stake, hstake, tokens, events, rfl⟩
  · exact ⟨⟨hinit, hinit⟩, rfl, .inl rfl, rfl⟩
  · exact ⟨⟨hinit, hinit⟩, rfl, .inr ⟨stake, _, hstake, rfl⟩, rfl⟩

/-- A call moves the stake of its user, or claims for it, or is one of the administrator. -/
theorem execute_cases (h : Sound c.time c.before)
    (he : (contract τ clock).exec c.time c.call c.before = .ok (c.result, c.after)) :
    (∃ user pairId lpAmount, c.call = .provideLiquidity user pairId lpAmount ∧ 0 < lpAmount ∧
      Moved c.time user pairId lpAmount c.before c.after) ∨
    (∃ user pairId lpAmount, c.call = .withdrawLiquidity user pairId lpAmount ∧ 0 < lpAmount ∧
      (c.before.stakes.lookup (user, pairId)).isSome ∧
      Moved c.time user pairId (-lpAmount) c.before c.after) ∨
    (∃ user pairId, c.call.user? = some (user, pairId) ∧ Claimed user pairId c.before c.after ∧
      Harmless c) ∨
    (c.call.user? = none ∧ Sound c.time c.after ∧ Harmless c) := by
  obtain ⟨time, call, result, s, s'⟩ := c
  have he : execute ⟨time, clock time⟩ s call = .ok (result, s') := he
  have h : Sound time s := h
  cases call with
  | init admin lpToken rewardToken governanceToken =>
    simp only [execute, init, Except.bind_eq_ok, require_eq_ok, exists_const] at he
    obtain ⟨_, ⟨hinit, h₁⟩, he⟩ := he
    obtain rfl := Except.ok.inj h₁
    obtain ⟨-, rfl⟩ := Prod.mk.inj (Except.ok.inj he)
    -- nothing was staked before
    have hnone : s.totalLpStaked = none := by
      rw [← Option.not_isSome_iff_eq_none, h.stored, hinit]
      decide
    have hzero : stakedTotal s = 0 := by rw [← h.total, hnone, Option.getD_none]
    exact .inr (.inr (.inr ⟨rfl, ⟨hzero.symm, by simp, h.stake, h.pair⟩, trivial⟩))
  | createPair admin pairId pairSymbol emissionsPerBlock totalAllocated =>
    simp only [execute, createPair, requireInitialized, Except.bind_eq_ok, require_eq_ok,
      orAbort_eq_ok, exists_const] at he
    obtain ⟨_, ⟨hinit, storedAdmin, -, -, hpos, hfresh, h₁⟩, he⟩ := he
    obtain rfl := Except.ok.inj h₁
    obtain ⟨-, rfl⟩ := Prod.mk.inj (Except.ok.inj he)
    refine .inr (.inr (.inr ⟨rfl, ⟨h.total, h.stored, fun user pairId' stake hstake => ?_,
      fun pairId' pair hpair => ?_⟩, trivial⟩))
    · obtain ⟨hlp, htier, hsome⟩ := h.stake _ _ _ hstake
      exact ⟨hlp, htier, Store.isSome_insert.mpr (.inr hsome)⟩
    · rcases Store.eq_or_lookup_of_insert hpair with ⟨-, rfl⟩ | ⟨-, hold⟩
      · exact ⟨not_le.mp fun hle => hpos (.inl hle), le_rfl⟩
      · exact h.pair _ _ hold
  | provideLiquidity user pairId lpAmount =>
    simp only [execute, Except.bind_eq_ok] at he
    obtain ⟨s₁, h₁, he⟩ := he
    obtain ⟨-, rfl⟩ := Prod.mk.inj (Except.ok.inj he)
    exact .inl ⟨user, pairId, lpAmount, rfl, moved_of_provide h h₁⟩
  | withdrawLiquidity user pairId lpAmount =>
    simp only [execute, Except.bind_eq_ok] at he
    obtain ⟨s₁, h₁, he⟩ := he
    obtain ⟨-, rfl⟩ := Prod.mk.inj (Except.ok.inj he)
    exact .inr (.inl ⟨user, pairId, lpAmount, rfl, moved_of_withdraw h h₁⟩)
  | claimRewards user pairId =>
    simp only [execute, claimRewards, requireInitialized, Except.bind_eq_ok, require_eq_ok,
      exists_const] at he
    obtain ⟨⟨reward, s₁⟩, ⟨hinit, pending, -, -, hclaim⟩, he⟩ := he
    obtain ⟨-, rfl⟩ := Prod.mk.inj (Except.ok.inj he)
    exact .inr (.inr (.inl ⟨user, pairId, rfl, claimed_of_internal hinit hclaim, trivial⟩))
  | lockRewardsForGovernance user pairId lockupDays =>
    simp only [execute, lockRewardsForGovernance, requireInitialized, Except.bind_eq_ok,
      require_eq_ok, exists_const] at he
    obtain ⟨s₁, ⟨hinit, -, pending, -, -, ⟨paid, s₂⟩, hclaim, h₁⟩, he⟩ := he
    obtain rfl := Except.ok.inj h₁
    obtain ⟨-, rfl⟩ := Prod.mk.inj (Except.ok.inj he)
    obtain ⟨⟨-, hinit'⟩, hpairs, hstake, htotal⟩ := claimed_of_internal (by exact hinit) hclaim
    exact .inr (.inr (.inl ⟨user, pairId, rfl, ⟨⟨hinit, hinit'⟩, hpairs, hstake, htotal⟩, trivial⟩))

omit [TokenClient τ Address Address] in
theorem Moved.sound {user : Address} {pairId : ℕ} {change : ℤ} (h : Sound block s)
    (hm : Moved block user pairId change s s') : Sound block s' := by
  obtain ⟨pair, hpair, hpairs⟩ := hm.pair
  obtain ⟨stake, htier, hlp, hbalance, hstakes⟩ := hm.stake
  refine h.move hpair hlp htier hstakes hpairs ?_ hm.initialized.2
  rw [hm.total, hbalance, add_sub_cancel_left]

omit [TokenClient τ Address Address] in
theorem Claimed.sound {user : Address} {pairId : ℕ} (h : Sound block s)
    (hc : Claimed user pairId s s') : Sound block s' := by
  have hinit := hc.initialized.2.trans hc.initialized.1.symm
  rcases hc.stake with hsame | ⟨stake, debt, hstake, hstakes⟩
  · refine ⟨?_, ?_, ?_, hc.pairs ▸ h.pair⟩
    · rw [hc.total, h.total, stakedTotal, stakedTotal, hsame]
    · rw [hc.total, hinit]
      exact h.stored
    · rw [hsame, hc.pairs]
      exact h.stake
  · exact h.claim hstake hstakes hc.pairs hc.total hinit

/-- Every call keeps the stored total, the stakes and the pairs sound. -/
theorem Sound.execute (h : Sound c.time c.before)
    (he : (contract τ clock).exec c.time c.call c.before = .ok (c.result, c.after)) :
    Sound c.time c.after := by
  rcases execute_cases h he with ⟨_, _, _, -, -, hm⟩ | ⟨_, _, _, -, -, -, hm⟩ | ⟨_, _, -, hc, -⟩ |
    ⟨-, hsound, -⟩
  · exact hm.sound h
  · exact hm.sound h
  · exact hc.sound h
  · exact hsound

/-! ## Pending rewards -/

/-- What a stake has pending: nothing without a balance, and otherwise its share less its debt. -/
def pendingOf (stake : LPStake) (pair : PairConfig) (block : ℕ) (total : ℤ) : ℤ :=
  if stake.lpBalance = 0 then 0 else userRewardShare stake pair block total - stake.rewardDebt

omit [TokenClient τ Address Address] in
theorem getPendingRewards_eq_ok (h : Sound block s) {user : Address} {pairId : ℕ} {reward : ℤ} :
    getPendingRewards ledger user pairId s = .ok reward ↔ s.initialized = true ∧
      ∃ stake pair, s.stakes.lookup (user, pairId) = some stake ∧
        s.pairs.lookup pairId = some pair ∧
        reward = pendingOf stake pair ledger.sequence (s.totalLpStaked.getD 0) := by
  simp only [getPendingRewards, requireInitialized, calculatePendingReward, Except.bind_eq_ok,
    require_eq_ok, orAbort_eq_ok, exists_const]
  refine and_congr_right fun hinit => exists_congr fun stake => ?_
  rw [← exists_and_left]
  refine exists_congr fun pair => and_congr_right fun hstake => and_congr_right fun _ => ?_
  obtain ⟨total, htotal⟩ := Option.isSome_iff_exists.mp (h.stored.mpr hinit)
  rw [htotal, Option.getD_some, Option.getD_some, pendingOf]
  obtain ⟨hlp, htier, -⟩ := h.stake _ _ _ hstake
  have hle := h.le_stakedTotal hstake
  rw [← h.total, htotal, Option.getD_some] at hle
  by_cases hzero : stake.lpBalance = 0
  · rw [if_pos (.inr hzero), if_pos hzero, Except.ok.injEq, eq_comm]
  · rw [if_neg (not_or.mpr ⟨by omega, hzero⟩), if_neg hzero, htier, getBonusMultiplier,
      Except.ok_bind, Int.mul_tdiv_cancel _ (by decide), Except.ok.injEq, eq_comm]

section Shares

variable {stake : LPStake} {pair : PairConfig} {total total' : ℤ}

theorem userRewardShare_of_zero (h : stake.lpBalance = 0) :
    userRewardShare stake pair block total = 0 := by
  rw [userRewardShare, h, zero_mul, zero_mul, Int.zero_tdiv]

/-- In the block of the update nothing has accrued. -/
theorem userRewardShare_updated :
    userRewardShare stake { pair with lastUpdateBlock := block } block total = 0 := by
  rw [userRewardShare, sub_self, mul_zero, Int.zero_tdiv]

theorem accrued_nonneg (hlp : 0 ≤ stake.lpBalance) (hemissions : 0 < pair.emissionsPerBlock)
    (hblock : pair.lastUpdateBlock ≤ block) :
    0 ≤ stake.lpBalance * pair.emissionsPerBlock * ((block : ℤ) - pair.lastUpdateBlock) :=
  mul_nonneg (mul_nonneg hlp hemissions.le) (by omega)

/-- A smaller total gives no smaller share. -/
theorem userRewardShare_anti (hlp : 0 ≤ stake.lpBalance) (hemissions : 0 < pair.emissionsPerBlock)
    (hblock : pair.lastUpdateBlock ≤ block) (hpos : 0 < total') (hle : total' ≤ total) :
    userRewardShare stake pair block total ≤ userRewardShare stake pair block total' := by
  have hnonneg := accrued_nonneg hlp hemissions hblock
  rw [userRewardShare, userRewardShare, Int.tdiv_eq_ediv_of_nonneg hnonneg,
    Int.tdiv_eq_ediv_of_nonneg hnonneg, Int.le_ediv_iff_mul_le hpos]
  calc _ ≤ _ * total := Int.mul_le_mul_of_nonneg_left hle
        (Int.ediv_nonneg hnonneg (hpos.le.trans hle))
    _ ≤ _ := Int.ediv_mul_le _ (hpos.trans_le hle).ne'

/-- With the same debt, rewards compare as the shares. -/
theorem pendingOf_le_iff :
    pendingOf stake pair block total ≤ pendingOf stake pair block total' ↔
      userRewardShare stake pair block total ≤ userRewardShare stake pair block total' := by
  unfold pendingOf
  split
  · rename_i hzero
    simp [userRewardShare_of_zero hzero]
  · omega

/-- An update of the pair takes the share away. -/
theorem pendingOf_updated_iff (hlp : 0 ≤ stake.lpBalance) (hemissions : 0 < pair.emissionsPerBlock)
    (hblock : pair.lastUpdateBlock ≤ block) (htotal : 0 ≤ total) :
    pendingOf stake pair block total ≤
        pendingOf stake { pair with lastUpdateBlock := block } block total' ↔
      userRewardShare stake pair block total = 0 := by
  have hnonneg : 0 ≤ userRewardShare stake pair block total :=
    Int.tdiv_nonneg (accrued_nonneg hlp hemissions hblock) htotal
  unfold pendingOf
  split
  · rename_i hzero
    simp [userRewardShare_of_zero hzero]
  · rw [userRewardShare_updated]
    omega

end Shares

omit [TokenClient τ Address Address] in
/-- A call that moves the stake of a user keeps the rewards of the others exactly when it keeps
their shares. -/
theorem Moved.rewards_kept_iff (ledger : Ledger) {user other : Address} {called pairId : ℕ}
    {change : ℤ} {stake : LPStake} {pair : PairConfig} (h : Sound ledger.sequence s)
    (hm : Moved ledger.sequence user called change s s') (hne : other ≠ user)
    (hstake : s.stakes.lookup (other, pairId) = some stake)
    (hpair : s.pairs.lookup pairId = some pair) :
    (∀ reward, getPendingRewards ledger other pairId s = .ok reward →
      ∃ reward', getPendingRewards ledger other pairId s' = .ok reward' ∧ reward ≤ reward') ↔
    ShareKept s ledger.sequence called pairId change stake pair := by
  have h' := hm.sound h
  obtain ⟨pair', hpair', hpairs⟩ := hm.pair
  obtain ⟨stake', -, -, -, hstakes⟩ := hm.stake
  have hkey : (other, pairId) ≠ (user, called) := fun heq => hne (Prod.mk.inj heq).1
  have hafter : s'.stakes.lookup (other, pairId) = some stake := by
    rw [hstakes, Store.lookup_insert_ite, if_neg hkey, hstake]
  have htotal : s'.totalLpStaked.getD 0 = s.totalLpStaked.getD 0 + change := by
    rw [hm.total, Option.getD_some]
  -- both rewards, with the pair as it is after the call
  have hrewards : ∀ pair₁, s'.pairs.lookup pairId = some pair₁ →
      ((∀ reward, getPendingRewards ledger other pairId s = .ok reward →
        ∃ reward', getPendingRewards ledger other pairId s' = .ok reward' ∧ reward ≤ reward') ↔
      pendingOf stake pair ledger.sequence (s.totalLpStaked.getD 0) ≤
        pendingOf stake pair₁ ledger.sequence (s.totalLpStaked.getD 0 + change)) := by
    intro pair₁ hpair₁
    have hbefore : getPendingRewards ledger other pairId s = .ok _ :=
      (getPendingRewards_eq_ok h).mpr ⟨hm.initialized.1, stake, pair, hstake, hpair, rfl⟩
    have hend : getPendingRewards ledger other pairId s' = .ok _ :=
      (getPendingRewards_eq_ok h').mpr ⟨hm.initialized.2, stake, pair₁, hafter, hpair₁, rfl⟩
    rw [hbefore, hend, htotal]
    simp [eq_comm]
  obtain ⟨hlp, -, -⟩ := h.stake _ _ _ hstake
  obtain ⟨hemissions, hblock⟩ := h.pair _ _ hpair
  have hnonneg : 0 ≤ s.totalLpStaked.getD 0 := by
    rw [h.total]
    exact hlp.trans (h.le_stakedTotal hstake)
  unfold ShareKept
  split
  · rename_i hcalled
    subst hcalled
    obtain rfl := Option.some.inj (hpair.symm.trans hpair')
    rw [hrewards _ (by rw [hpairs, AList.lookup_insert]),
      pendingOf_updated_iff hlp hemissions hblock hnonneg]
  · rename_i hcalled
    rw [hrewards pair (by rw [hpairs, Store.lookup_insert_ite, if_neg hcalled, hpair]),
      pendingOf_le_iff]

omit [TokenClient τ Address Address] in
/-- A withdrawal keeps the shares on the other pairs, where the other users have a part of what is
left. -/
theorem Moved.shareKept_of_ne {user other : Address} {called pairId : ℕ} {lpAmount : ℤ}
    {stake : LPStake} {pair : PairConfig} (h : Sound block s)
    (hm : Moved block user called (-lpAmount) s s') (hpos : 0 < lpAmount) (hne : other ≠ user)
    (hstake : s.stakes.lookup (other, pairId) = some stake)
    (hpair : s.pairs.lookup pairId = some pair) (hcalled : pairId ≠ called) :
    ShareKept s block called pairId (-lpAmount) stake pair := by
  obtain ⟨stake', -, -, -, hstakes⟩ := hm.stake
  have hafter : s'.stakes.lookup (other, pairId) = some stake := by
    rw [hstakes, Store.lookup_insert_ite, if_neg fun heq => hne (Prod.mk.inj heq).1, hstake]
  have hle := (hm.sound h).le_stakedTotal hafter
  rw [← (hm.sound h).total, hm.total, Option.getD_some] at hle
  obtain ⟨hlp, -, -⟩ := h.stake _ _ _ hstake
  obtain ⟨hemissions, hblock⟩ := h.pair _ _ hpair
  rw [ShareKept, if_neg hcalled]
  by_cases hzero : stake.lpBalance = 0
  · rw [userRewardShare_of_zero hzero, userRewardShare_of_zero hzero]
  · exact userRewardShare_anti hlp hemissions hblock (by omega) (by omega)

omit [TokenClient τ Address Address] in
/-- A claim leaves the rewards of the others. -/
theorem Claimed.getPendingRewards_eq {user other : Address} {called pairId : ℕ} {reward : ℤ}
    (h : Sound ledger.sequence s) (hc : Claimed user called s s') (hne : other ≠ user)
    (hreward : getPendingRewards ledger other pairId s = .ok reward) :
    getPendingRewards ledger other pairId s' = .ok reward := by
  obtain ⟨-, stake, pair, hstake, hpair, rfl⟩ := (getPendingRewards_eq_ok h).mp hreward
  refine (getPendingRewards_eq_ok (hc.sound h)).mpr ⟨hc.initialized.2, stake, pair, ?_,
    hc.pairs ▸ hpair, by rw [hc.total]⟩
  rcases hc.stake with hsame | ⟨_, _, -, hstakes⟩
  · rw [hsame, hstake]
  · rw [hstakes, Store.lookup_insert_ite, if_neg fun heq => hne (Prod.mk.inj heq).1, hstake]

/-- A call keeps the pending rewards of the other users of common pairs exactly when it is
harmless. -/
theorem isolated_iff_harmless (h : Sound c.time c.before)
    (he : (contract τ clock).exec c.time c.call c.before = .ok (c.result, c.after)) :
    Isolated clock c ↔ Harmless c := by
  -- the rewards that a call which moves a stake is to keep
  have hmoved : ∀ user called change, c.call.user? = some (user, called) →
      Moved c.time user called change c.before c.after →
      (Isolated clock c ↔ ∀ other pairId stake pair, other ≠ user →
        Uses c.before user called pairId → c.before.stakes.lookup (other, pairId) = some stake →
        c.before.pairs.lookup pairId = some pair →
        ShareKept c.before c.time called pairId change stake pair) := by
    intro user called change hcall hm
    constructor
    · intro hiso other pairId stake pair hne huses hstake hpair
      exact (hm.rewards_kept_iff ⟨c.time, clock c.time⟩ h hne hstake hpair).mp
        (hiso user called hcall other pairId hne huses)
    · intro hkept user' called' hcall' other pairId hne huses reward hreward
      obtain ⟨rfl, rfl⟩ := Prod.mk.inj (Option.some.inj (hcall.symm.trans hcall'))
      obtain ⟨-, stake, pair, hstake, hpair, -⟩ := (getPendingRewards_eq_ok h).mp hreward
      exact (hm.rewards_kept_iff ⟨c.time, clock c.time⟩ h hne hstake hpair).mpr
        (hkept other pairId stake pair hne huses hstake hpair) reward hreward
  rcases execute_cases h he with ⟨user, called, lpAmount, hcall, -, hm⟩ |
    ⟨user, called, lpAmount, hcall, hpos, -, hm⟩ | ⟨user, called, hcall, hc, hharmless⟩ |
    ⟨hcall, -, hharmless⟩
  · rw [hmoved user called lpAmount (by rw [hcall]; rfl) hm, Harmless, hcall]
  · rw [hmoved user called (-lpAmount) (by rw [hcall]; rfl) hm, Harmless, hcall]
    constructor
    · intro hkept other stake pair hne hstake hpair
      have hshare := hkept other called stake pair hne (.inl rfl) hstake hpair
      rwa [ShareKept, if_pos rfl] at hshare
    · intro hzero other pairId stake pair hne _ hstake hpair
      by_cases hcalled : pairId = called
      · subst hcalled
        rw [ShareKept, if_pos rfl]
        exact hzero other stake pair hne hstake hpair
      · exact hm.shareKept_of_ne h hpos hne hstake hpair hcalled
  · refine iff_of_true (fun user' called' hcall' other pairId hne _ reward hreward => ?_) hharmless
    obtain ⟨rfl, rfl⟩ := Prod.mk.inj (Option.some.inj (hcall.symm.trans hcall'))
    exact ⟨reward, hc.getPendingRewards_eq h hne hreward, le_rfl⟩
  · refine iff_of_true (fun user' called' hcall' => ?_) hharmless
    rw [hcall] at hcall'
    cases hcall'

/-! ## Runs -/

variable {w : World (State τ)} {log : List (Commit (State τ) Call (Option ℤ))} {sequence₀ : ℕ}
  {contractAddress : Address} {tokens : τ}

theorem sound_of_run
    (hrun : (contract τ clock).Run ⟨sequence₀, .empty contractAddress tokens⟩ w log) :
    Sound w.now w.store ∧ ∀ c ∈ log, Sound c.time c.before :=
  hrun.invariant_and_mem (I := fun t s _ => Sound t s) (P := fun c => Sound c.time c.before)
    sound_empty (fun _ _ _ _ hle h => h.mono hle)
    fun t k r s s' _ h he => ⟨Sound.execute (c := ⟨t, k, r, s, s'⟩) h he, h⟩

/-- In a run no call decreases the pending reward of another user of a common pair exactly when all
of its calls are harmless. -/
theorem isolated_iff
    (hrun : (contract τ clock).Run ⟨sequence₀, .empty contractAddress tokens⟩ w log) :
    (∀ c ∈ log, Isolated clock c) ↔ ∀ c ∈ log, Harmless c :=
  forall₂_congr fun c hc => isolated_iff_harmless ((sound_of_run hrun).2 c hc)
    (hrun.exec_of_mem c hc)

/-- The users 1 and 2 own LP tokens, and the contract 9 owns reward tokens. -/
def sampleTokens : Balances Address Address :=
  ((Balances.zero.mint ⟨10⟩ ⟨1⟩ 100).mint ⟨10⟩ ⟨2⟩ 100).mint ⟨11⟩ ⟨9⟩ 1000

/-- Two users deposit in the block in which the pair is created, and one of them claims later. -/
def harmlessCalls : List (ℕ × Call) :=
  [(1, .init ⟨5⟩ ⟨10⟩ ⟨11⟩ ⟨12⟩), (1, .createPair ⟨5⟩ 1 "USDC_XLM" 10 1000),
    (1, .provideLiquidity ⟨1⟩ 1 50), (1, .provideLiquidity ⟨2⟩ 1 50), (5, .claimRewards ⟨1⟩ 1)]

theorem isolated_iff_sample :
    (∀ c ∈ ((contract (Balances Address Address) (1000 + ·)).play
        ⟨0, .empty ⟨9⟩ sampleTokens⟩ harmlessCalls).2, Isolated (1000 + ·) c) ↔
      ∀ c ∈ ((contract (Balances Address Address) (1000 + ·)).play
        ⟨0, .empty ⟨9⟩ sampleTokens⟩ harmlessCalls).2, Harmless c :=
  isolated_iff (Contract.run_play _ _ harmlessCalls (by decide))

/-- The second user deposits four blocks after the first one. -/
def harmfulCalls : List (ℕ × Call) :=
  [(1, .init ⟨5⟩ ⟨10⟩ ⟨11⟩ ⟨12⟩), (1, .createPair ⟨5⟩ 1 "USDC_XLM" 10 1000),
    (1, .provideLiquidity ⟨1⟩ 1 50), (5, .provideLiquidity ⟨2⟩ 1 50)]

/-- The deposit takes the pending reward of the first user. -/
theorem lost_reward :
    ∃ w log, (contract (Balances Address Address) (1000 + ·)).Run
        ⟨0, .empty ⟨9⟩ sampleTokens⟩ w log ∧
      ∃ c ∈ log, getPendingRewards ⟨5, 1005⟩ ⟨1⟩ 1 c.before = .ok 40 ∧
        getPendingRewards ⟨5, 1005⟩ ⟨1⟩ 1 c.after = .ok 0 ∧ ¬ Isolated (1000 + ·) c := by
  obtain ⟨c, hc⟩ : ∃ c, ((contract (Balances Address Address) (1000 + ·)).play
      ⟨0, .empty ⟨9⟩ sampleTokens⟩ harmfulCalls).2[3]? = some c := ⟨_, rfl⟩
  have hbefore : getPendingRewards ⟨5, 1005⟩ ⟨1⟩ 1 c.before = .ok 40 := by
    obtain rfl := Option.some.inj hc
    rfl
  have hafter : getPendingRewards ⟨5, 1005⟩ ⟨1⟩ 1 c.after = .ok 0 := by
    obtain rfl := Option.some.inj hc
    rfl
  refine ⟨_, _, Contract.run_play _ _ harmfulCalls (by decide), c, List.mem_of_getElem? hc,
    hbefore, hafter, fun h => ?_⟩
  have htime : c.time = 5 := by
    obtain rfl := Option.some.inj hc
    rfl
  have hcall : c.call.user? = some (⟨2⟩, 1) := by
    obtain rfl := Option.some.inj hc
    rfl
  have hiso := h ⟨2⟩ 1 hcall ⟨1⟩ 1 (by decide) (.inl rfl) 40
  rw [htime] at hiso
  obtain ⟨reward, hreward, hle⟩ := hiso hbefore
  rw [hafter] at hreward
  rw [← Except.ok.inj hreward] at hle
  exact absurd hle (by decide)

end Stellara.Mining
