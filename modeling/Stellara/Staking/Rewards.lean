import Stellara.Staking.Contract

/-!
# Rewards that are lost

A claim pays the pending reward, and compounding adds it to the stake. A deposit starts the timers
of the whole stake again, and a withdrawal removes it; neither pays what has accrued since the last
claim, although a withdrawal is documented to return the pending rewards too.

## Main definitions

* `Sound`: the stakes are in a pool, positive, and no timer is in the future
* `rewardsPaid`: the rewards that a user was paid, or that were added to the stake
* `TransfersReward`, `PaysOut`: what is added to them is transferred, or added to the stake
* `Kept`: a call changes neither, the rewards paid and the pending reward together
* `Settles`: the calls with which nothing has accrued that they discard

## Main results

* `Sound.action`: every call keeps the stakes sound
* `paysOut_of_exec`: every call that records a reward pays it
* `kept_iff_settles`: a call keeps the rewards of its user exactly when it settles them
* `staking_rewards_kept_iff`: the same for every call of a run
-/

namespace Stellara.Staking

variable {τ : Type} {s s' : State τ} {now : ℕ} {user : Address} {userStake : UserStake}

/-! ## Stakes -/

/-- The pools and the tokens are set. -/
structure Configured (s : State τ) : Prop where
  admin : s.admin.isSome
  pools : s.poolConfig = some defaultPools
  stakeToken : s.stakeToken.isSome
  rewardToken : s.rewardToken.isSome

theorem Configured.keep (h : Configured s) (tokens : τ) (userStakes : Store Address UserStake)
    (events : List Event) :
    Configured { s with tokens := tokens, userStakes := userStakes, events := events } :=
  ⟨h.admin, h.pools, h.stakeToken, h.rewardToken⟩

/-- A stake of a user in one of the pools, with its timers not after `now`. -/
structure InPool (now : ℕ) (userStake : UserStake) : Prop where
  pos : 0 < userStake.amount
  le_hi : userStake.amount ≤ IntFormat.i128.hi
  pool : userStake.poolId < defaultPools.length
  started : userStake.startTimestamp ≤ now
  claimed : userStake.lastClaimTimestamp ≤ now

/-- The stakes are in the pools, and not of the contract itself. -/
structure Sound (now : ℕ) (s : State τ) : Prop where
  configured : s.poolConfig.isSome → Configured s
  stake : ∀ user userStake, s.userStakes.lookup user = some userStake →
    user ≠ s.contractAddress ∧ Configured s ∧ InPool now userStake

theorem InPool.mono {now' : ℕ} (h : InPool now userStake) (hle : now ≤ now') :
    InPool now' userStake :=
  ⟨h.pos, h.le_hi, h.pool, h.started.trans hle, h.claimed.trans hle⟩

theorem Sound.mono {now' : ℕ} (h : Sound now s) (hle : now ≤ now') : Sound now' s :=
  ⟨h.configured, fun user userStake hlookup =>
    ⟨(h.stake user userStake hlookup).1, (h.stake user userStake hlookup).2.1,
      (h.stake user userStake hlookup).2.2.mono hle⟩⟩

theorem sound_empty {contractAddress : Address} {tokens : τ} :
    Sound now (State.empty contractAddress tokens) where
  configured h := by simp [State.empty] at h
  stake user userStake h := by simp [State.empty] at h

/-- Nothing is staked before the contract is initialized. -/
theorem Sound.lookup_eq_none (h : Sound now s) (hadmin : s.admin = none) (user : Address) :
    s.userStakes.lookup user = none := by
  rw [Option.eq_none_iff_forall_ne_some]
  intro userStake hlookup
  have hsome := (h.stake user userStake hlookup).2.1.admin
  rw [hadmin] at hsome
  cases hsome

theorem Sound.stakeOf_nonneg (h : Sound now s) (user : Address) : 0 ≤ stakeOf s user := by
  unfold stakeOf
  cases hlookup : s.userStakes.lookup user with
  | none => exact le_rfl
  | some userStake => exact (h.stake user userStake hlookup).2.2.pos.le

/-- A stored stake keeps the others. -/
theorem Sound.write (h : Sound now s) (hconfigured : Configured s) (hne : user ≠ s.contractAddress)
    (hstake : InPool now userStake) (tokens : τ) (events : List Event) :
    Sound now { s with
      tokens := tokens
      userStakes := s.userStakes.insert user userStake
      events := events } where
  configured _ := hconfigured.keep ..
  stake user' userStake' hlookup := by
    rcases Store.eq_or_lookup_of_insert hlookup with ⟨rfl, rfl⟩ | ⟨-, hold⟩
    · exact ⟨hne, hconfigured.keep .., hstake⟩
    · obtain ⟨hne', -, hin⟩ := h.stake user' userStake' hold
      exact ⟨hne', hconfigured.keep .., hin⟩

/-- So does a removed stake. -/
theorem Sound.erase (h : Sound now s) (user : Address) (tokens : τ) (events : List Event) :
    Sound now { s with
      tokens := tokens
      userStakes := s.userStakes.erase user
      events := events } where
  configured hsome := (h.configured hsome).keep ..
  stake user' userStake' hlookup := by
    rw [Store.lookup_erase_ite] at hlookup
    split at hlookup
    · cases hlookup
    · obtain ⟨hne', hc, hin⟩ := h.stake user' userStake' hlookup
      exact ⟨hne', hc.keep .., hin⟩

/-! ## Pending rewards -/

theorem tdiv_year_nonneg {x : ℤ} (h : 0 ≤ x) : 0 ≤ x.tdiv (10000 * 31536000) :=
  Int.tdiv_nonneg h (by decide)

/-- Where the pools are set, a stake has a reward unless its computation overflows. -/
theorem calculateRewards_of_inPool (hpools : s.poolConfig = some defaultPools)
    (h : InPool now userStake) :
    (∃ reward, calculateRewards now userStake s = .ok reward ∧ 0 ≤ reward) ∨
      calculateRewards now userStake s = .error .overflow := by
  obtain ⟨pool, hpool⟩ : ∃ pool, defaultPools[userStake.poolId]? = some pool :=
    ⟨_, List.getElem?_eq_getElem h.pool⟩
  have helapsed : IntFormat.checkedSub (ε := Fault ContractError) .overflow now
      userStake.lastClaimTimestamp = .ok (now - userStake.lastClaimTimestamp) := by
    rw [IntFormat.checkedSub, if_pos h.claimed]
  simp only [calculateRewards, hpools, orAbort, Except.ok_bind, hpool, helapsed]
  split
  · exact .inl ⟨0, rfl, le_rfl⟩
  · unfold IntFormat.checked
    split
    · simp only [Except.ok_bind]
      split
      · refine .inl ⟨_, rfl, tdiv_year_nonneg ?_⟩
        exact Int.mul_nonneg (Int.mul_nonneg h.pos.le (Int.natCast_nonneg _)) (Int.natCast_nonneg _)
      · exact .inr rfl
    · exact .inr rfl

/-- A stake that was claimed just now has no reward. -/
theorem calculateRewards_claimed (hpools : s.poolConfig = some defaultPools)
    (h : InPool now userStake) (hclaimed : userStake.lastClaimTimestamp = now) :
    calculateRewards now userStake s = .ok 0 := by
  simp only [calculateRewards, hpools, orAbort, Except.ok_bind,
    List.getElem?_eq_getElem h.pool, IntFormat.checkedSub, hclaimed, le_refl, if_true,
    Nat.sub_self]

/-- The pending reward of a stake is its reward. -/
theorem getPendingRewards_of_lookup (h : Sound now s)
    (hlookup : s.userStakes.lookup user = some userStake) :
    getPendingRewards now user s = calculateRewards now userStake s := by
  obtain ⟨-, hc, hin⟩ := h.stake user userStake hlookup
  rw [getPendingRewards, hlookup]
  rcases calculateRewards_of_inPool hc.pools hin with ⟨reward, hreward, -⟩ | hoverflow
  · simp only [hreward]
  · simp only [hoverflow]

theorem getPendingRewards_of_none (hlookup : s.userStakes.lookup user = none) :
    getPendingRewards now user s = .ok 0 := by rw [getPendingRewards, hlookup]

/-! ## What a call leaves -/

/-- The rewards that an event reports for a user. -/
def rewardPaid (user : Address) : Event → ℤ
  | .claim user' reward _ => if user' = user then reward else 0
  | .compound user' reward _ => if user' = user then reward else 0
  | _ => 0

/-- The rewards that a user was paid, or that were added to the stake. -/
def rewardsPaid (user : Address) (s : State τ) : ℤ := (s.events.map (rewardPaid user)).sum

theorem rewardsPaid_append {event : Event} (hevents : s'.events = s.events ++ [event]) :
    rewardsPaid user s' = rewardsPaid user s + rewardPaid user event := by
  simp [rewardsPaid, hevents]

/-- The user of a call. -/
def user? : LedgerAction Call → Option Address
  | .call (.stake user _ _) => some user
  | .call (.claim user) => some user
  | .call (.unstake user) => some user
  | .call (.compound user) => some user
  | _ => none

variable [TokenClient τ Address Address] {c : Commit (State τ) (LedgerAction Call) (Option (Option ℤ))}

/-- The rewards that a user was paid and the pending reward change by nothing together. -/
def Kept (user : Address) (c : Commit (State τ) (LedgerAction Call) (Option (Option ℤ))) : Prop :=
  ∀ pending, getPendingRewards c.time user c.before = .ok pending →
    ∃ pending', getPendingRewards c.time user c.after = .ok pending' ∧
      rewardsPaid user c.after + pending' = rewardsPaid user c.before + pending

/-- A stake has earned a reward since its last claim. -/
def Accrued (now : ℕ) (userStake : UserStake) (s : State τ) : Prop :=
  ∃ reward, calculateRewards now userStake s = .ok reward ∧ 0 < reward

/-- A deposit or a withdrawal is made when the stake of its user has earned nothing since the last
claim. -/
def Settles (c : Commit (State τ) (LedgerAction Call) (Option (Option ℤ))) : Prop :=
  match c.call with
  | .call (.stake user _ _) | .call (.unstake user) =>
    ∀ userStake, c.before.userStakes.lookup user = some userStake →
      ¬ Accrued c.time userStake c.before
  | _ => True

omit [TokenClient τ Address Address] in
/-- Where the call pays nothing and leaves nothing pending, it keeps the rewards exactly when there
were none. -/
theorem kept_iff_not_accrued (h : Sound c.time c.before)
    (hpaid : rewardsPaid user c.after = rewardsPaid user c.before)
    (hpending : getPendingRewards c.time user c.after = .ok 0) :
    Kept user c ↔ ∀ userStake, c.before.userStakes.lookup user = some userStake →
      ¬ Accrued c.time userStake c.before := by
  have hkept : Kept user c ↔ ∀ pending,
      getPendingRewards c.time user c.before = .ok pending → pending = 0 := by
    refine forall₂_congr fun pending _ => ⟨?_, ?_⟩
    · rintro ⟨pending', hpending', hsum⟩
      rw [hpending] at hpending'
      rw [hpaid, ← Except.ok.inj hpending'] at hsum
      omega
    · rintro rfl
      exact ⟨0, hpending, by rw [hpaid]⟩
  rw [hkept]
  cases hlookup : c.before.userStakes.lookup user with
  | none =>
    rw [getPendingRewards_of_none hlookup]
    exact iff_of_true (fun pending hp => (Except.ok.inj hp).symm) (by simp)
  | some userStake =>
    rw [getPendingRewards_of_lookup h hlookup]
    obtain ⟨-, hc, hin⟩ := h.stake user userStake hlookup
    constructor
    · rintro hzero _ hsome ⟨reward, hreward, hpos⟩
      obtain rfl := Option.some.inj hsome
      exact hpos.ne' (hzero reward hreward)
    · intro hnone pending hpending
      rcases calculateRewards_of_inPool hc.pools hin with ⟨reward, hreward, hnonneg⟩ | hoverflow
      · obtain rfl := Except.ok.inj (hreward.symm.trans hpending)
        by_contra hne
        exact hnone userStake rfl ⟨reward, hreward, by omega⟩
      · rw [hoverflow] at hpending
        cases hpending

omit [TokenClient τ Address Address] in
/-- A call that pays the pending reward and leaves nothing pending keeps the rewards. -/
theorem kept_of_paid {reward : ℤ} (h : Sound c.time c.before)
    (hlookup : c.before.userStakes.lookup user = some userStake)
    (hreward : calculateRewards c.time userStake c.before = .ok reward)
    (hpaid : rewardsPaid user c.after = rewardsPaid user c.before + reward)
    (hpending : getPendingRewards c.time user c.after = .ok 0) : Kept user c := by
  intro pending hbefore
  rw [getPendingRewards_of_lookup h hlookup, hreward] at hbefore
  refine ⟨0, hpending, ?_⟩
  rw [hpaid, ← Except.ok.inj hbefore, add_zero]

omit [TokenClient τ Address Address] in
/-- The pending reward of a user whose stake was claimed just now, or who has none. -/
theorem getPendingRewards_eq_zero (h : Sound now s)
    (hclaimed : ∀ userStake, s.userStakes.lookup user = some userStake →
      userStake.lastClaimTimestamp = now) : getPendingRewards now user s = .ok 0 := by
  cases hlookup : s.userStakes.lookup user with
  | none => exact getPendingRewards_of_none hlookup
  | some userStake =>
    obtain ⟨-, hc, hin⟩ := h.stake user userStake hlookup
    rw [getPendingRewards_of_lookup h hlookup]
    exact calculateRewards_claimed hc.pools hin (hclaimed userStake hlookup)

omit [TokenClient τ Address Address] in
/-- A call that pays the pending reward, and stores the stake as claimed now. -/
theorem kept_of_write {call : Call} {r : Option (Option ℤ)} {userStake' : UserStake} {event : Event}
    {reward : ℤ} (h : Sound now s) (hlookup : s.userStakes.lookup user = some userStake)
    (hreward : calculateRewards now userStake s = .ok reward) {tokens : τ}
    (hs' : s' = { s with
      tokens := tokens
      userStakes := s.userStakes.insert user userStake'
      events := s.events ++ [event] })
    (hin : InPool now userStake') (hclaimed : userStake'.lastClaimTimestamp = now)
    (hevent : rewardPaid user event = reward) :
    Sound now s' ∧ Kept user ⟨now, .call call, r, s, s'⟩ := by
  subst hs'
  obtain ⟨hne, hc, -⟩ := h.stake user userStake hlookup
  have h' := h.write hc hne hin tokens (s.events ++ [event])
  refine ⟨h', kept_of_paid h hlookup hreward ?_ (getPendingRewards_eq_zero h' fun _ hlookup' => ?_)⟩
  · rw [← hevent]
    exact rewardsPaid_append rfl
  · rw [AList.lookup_insert] at hlookup'
    exact (Option.some.inj hlookup') ▸ hclaimed

/-- Every action keeps the stakes sound, and a call keeps the rewards of its user exactly when it
settles them. -/
theorem kept_iff_settles (h : Sound c.time c.before)
    (he : (withTransfers (contract τ)).exec c.time c.call c.before = .ok (c.result, c.after)) :
    Sound c.time c.after ∧ ∀ user, user? c.call = some user → (Kept user c ↔ Settles c) := by
  obtain ⟨now, action, r, s, s'⟩ := c
  have h : Sound now s := h
  rcases exec_withTransfers_eq_ok he with ⟨call, result, rfl, hexec⟩ |
    ⟨token, src, dst, amount, tokens', rfl, -, -, hs'⟩
  · have he : execute now s call = .ok (result, s') := hexec
    have hcall := execute_eq_ok he
    cases call with
    | init admin stakingToken rewardToken =>
      obtain ⟨hadmin, rfl⟩ := init_eq_ok hcall
      refine ⟨⟨fun _ => ⟨rfl, rfl, rfl, rfl⟩, fun user userStake hlookup => ?_⟩, fun user hu => ?_⟩
      · cases (h.lookup_eq_none hadmin user).symm.trans hlookup
      · cases hu
    | stake user amount poolId =>
      obtain ⟨hne, hpos, hmem, pools, token, tokens, hpools, hpool, -, -, rfl⟩ := stake_eq_ok hcall
      have hc := h.configured (by rw [hpools, Option.isSome_some])
      have hold : 0 ≤ stakeOf s user := h.stakeOf_nonneg user
      obtain rfl := Option.some.inj (hc.pools.symm.trans hpools)
      have hin : InPool now ⟨stakeOf s user + amount, poolId, now, now⟩ :=
        ⟨by dsimp only; omega, hmem.2, hpool, le_rfl, le_rfl⟩
      have h' := h.write hc hne hin tokens (s.events ++ [.stake user amount poolId now])
      refine ⟨h', fun user' hu => ?_⟩
      obtain rfl := Option.some.inj hu
      refine kept_iff_not_accrued h ?_ (getPendingRewards_eq_zero h' fun userStake hlookup => ?_)
      · exact (rewardsPaid_append rfl).trans (add_zero _)
      · rw [AList.lookup_insert] at hlookup
        exact (Option.some.inj hlookup) ▸ rfl
    | claim user =>
      obtain ⟨reward, h₁⟩ := hcall
      obtain ⟨-, -, userStake, token, tokens, hlookup, hreward, -, -, hs'⟩ := claim_eq_ok h₁
      have hin := (h.stake user userStake hlookup).2.2
      obtain ⟨h', hkept⟩ := kept_of_write h hlookup hreward hs'
        ⟨hin.pos, hin.le_hi, hin.pool, hin.started, le_rfl⟩ rfl (by rw [rewardPaid, if_pos rfl])
      refine ⟨h', fun user' hu => iff_of_true ?_ trivial⟩
      obtain rfl := Option.some.inj hu
      exact hkept
    | unstake user =>
      obtain ⟨principal, h₁⟩ := hcall
      obtain ⟨-, userStake, pools, pool, token, tokens, -, -, -, -, -, -, -, rfl⟩ :=
        unstake_eq_ok.mp h₁
      have h' := h.erase user tokens (s.events ++ [.unstake user principal now])
      refine ⟨h', fun user' hu => ?_⟩
      obtain rfl := Option.some.inj hu
      refine kept_iff_not_accrued h ?_ (getPendingRewards_of_none ?_)
      · exact (rewardsPaid_append rfl).trans (add_zero _)
      · exact AList.lookup_erase user s.userStakes
    | compound user =>
      obtain ⟨-, userStake, reward, token, hlookup, hreward, hpos, -, -, hmem, hs'⟩ :=
        compound_eq_ok hcall
      have hin := (h.stake user userStake hlookup).2.2
      obtain ⟨h', hkept⟩ := kept_of_write h hlookup hreward hs'
        ⟨add_pos hin.pos hpos, hmem.2, hin.pool, hin.started, le_rfl⟩ rfl
        (by rw [rewardPaid, if_pos rfl])
      refine ⟨h', fun user' hu => iff_of_true ?_ trivial⟩
      obtain rfl := Option.some.inj hu
      exact hkept
  · have hs' : s' = { s with tokens := tokens' } := hs'
    subst hs'
    refine ⟨⟨fun hsome => (h.configured hsome).keep .., fun user userStake hlookup => ?_⟩,
      fun user hu => ?_⟩
    · obtain ⟨hne, hc, hin⟩ := h.stake user userStake hlookup
      exact ⟨hne, hc.keep .., hin⟩
    · cases hu

/-! ## What is paid -/

/-- The amount is transferred, in reward tokens, from the contract to the user. -/
def TransfersReward (user : Address) (amount : ℤ) (s s' : State τ) : Prop :=
  ∃ rewardToken, s.rewardToken = some rewardToken ∧
    TokenClient.transfer s.tokens rewardToken s.contractAddress user amount = some s'.tokens

/-- What a commit adds to the rewards of a user is transferred to the user who claims it, or added
to the stake that is compounded. -/
def PaysOut (user : Address) (c : Commit (State τ) (LedgerAction Call) (Option (Option ℤ))) : Prop :=
  rewardsPaid user c.after = rewardsPaid user c.before ∨
    (c.call = .call (.claim user) ∧
      TransfersReward user (rewardsPaid user c.after - rewardsPaid user c.before) c.before c.after) ∨
    c.call = .call (.compound user) ∧ stakeOf c.after user = stakeOf c.before user +
      (rewardsPaid user c.after - rewardsPaid user c.before)

theorem transfersReward_of_claim {reward : ℤ} (h : claim now user s = .ok (reward, s')) :
    TransfersReward user reward s s' := by
  obtain ⟨-, -, userStake, token, tokens, -, -, htoken, htransfer, rfl⟩ := claim_eq_ok h
  exact ⟨token, htoken, htransfer⟩

theorem paysOut_of_exec
    (he : (withTransfers (contract τ)).exec c.time c.call c.before = .ok (c.result, c.after))
    (user : Address) : PaysOut user c := by
  obtain ⟨now, action, r, s, s'⟩ := c
  rcases exec_withTransfers_eq_ok he with ⟨call, result, rfl, hexec⟩ |
    ⟨token, src, dst, amount, tokens', rfl, -, -, hs'⟩
  · have he : execute now s call = .ok (result, s') := hexec
    have hcall := execute_eq_ok he
    cases call with
    | init admin stakingToken rewardToken =>
      obtain ⟨-, rfl⟩ := init_eq_ok hcall
      exact .inl rfl
    | stake user' amount poolId =>
      obtain ⟨-, -, -, pools, token, tokens, -, -, -, -, rfl⟩ := stake_eq_ok hcall
      exact .inl ((rewardsPaid_append rfl).trans (add_zero _))
    | claim user' =>
      obtain ⟨reward, hclaim⟩ := hcall
      obtain ⟨-, -, userStake, token, tokens, -, -, -, -, hs'⟩ := claim_eq_ok hclaim
      have hevents : s'.events = s.events ++ [.claim user' reward now] := by rw [hs']
      have hpaid : rewardsPaid user s' = rewardsPaid user s + if user' = user then reward else 0 :=
        rewardsPaid_append hevents
      split at hpaid
      · rename_i huser
        subst huser
        refine .inr (.inl ⟨rfl, ?_⟩)
        dsimp only
        rw [hpaid, add_sub_cancel_left]
        exact transfersReward_of_claim hclaim
      · exact .inl (hpaid.trans (add_zero _))
    | unstake user' =>
      obtain ⟨principal, h₁⟩ := hcall
      obtain ⟨-, userStake, pools, pool, token, tokens, -, -, -, -, -, -, -, rfl⟩ :=
        unstake_eq_ok.mp h₁
      exact .inl ((rewardsPaid_append rfl).trans (add_zero _))
    | compound user' =>
      obtain ⟨-, userStake, reward, token, hlookup, -, -, -, -, -, hs'⟩ := compound_eq_ok hcall
      have hevents : s'.events = s.events ++ [.compound user' reward now] := by rw [hs']
      have hpaid : rewardsPaid user s' = rewardsPaid user s + if user' = user then reward else 0 :=
        rewardsPaid_append hevents
      split at hpaid
      · rename_i huser
        subst huser
        -- a compounded reward stays in the contract, as stake
        refine .inr (.inr ⟨rfl, ?_⟩)
        dsimp only
        rw [hpaid, add_sub_cancel_left, stakeOf_of_lookup hlookup, hs', stakeOf,
          AList.lookup_insert, Option.elim_some]
      · exact .inl (hpaid.trans (add_zero _))
  · -- a transfer that is no call of the contract adds no event
    have hs' : s' = { s with tokens := tokens' } := hs'
    subst hs'
    exact .inl rfl

/-! ## Runs -/

variable {w : World (State τ)} {log : List (Commit (State τ) (LedgerAction Call) (Option (Option ℤ)))}
  {now₀ : ℕ} {contractAddress : Address} {tokens : τ}

theorem sound_of_run
    (hrun : (withTransfers (contract τ)).Run ⟨now₀, .empty contractAddress tokens⟩ w log) :
    Sound w.now w.store ∧ ∀ c ∈ log, Sound c.time c.before :=
  hrun.invariant_and_mem (I := fun t s _ => Sound t s) (P := fun c => Sound c.time c.before)
    sound_empty (fun _ _ _ _ hle h => h.mono hle)
    fun t k r s s' _ h he => ⟨(kept_iff_settles (c := ⟨t, k, r, s, s'⟩) h he).1, h⟩

omit [TokenClient τ Address Address] in
/-- A call of nobody settles. -/
theorem settles_of_none (h : user? c.call = none) : Settles c := by
  obtain ⟨time, action, r, s, s'⟩ := c
  cases action with
  | transfer => trivial
  | call call => cases call <;> trivial

/-- In a run no call of a user discards rewards exactly when all deposits and withdrawals are made
with nothing accrued. The rewards that are paid are transferred, or added to the stake. -/
theorem staking_rewards_kept_iff
    (hrun : (withTransfers (contract τ)).Run ⟨now₀, .empty contractAddress tokens⟩ w log) :
    ((∀ c ∈ log, ∀ user, user? c.call = some user → Kept user c) ↔ ∀ c ∈ log, Settles c) ∧
      ∀ c ∈ log, ∀ user, PaysOut user c := by
  refine ⟨forall₂_congr fun c hc => ?_, fun c hc => paysOut_of_exec (hrun.exec_of_mem c hc)⟩
  have hcall := (kept_iff_settles ((sound_of_run hrun).2 c hc) (hrun.exec_of_mem c hc)).2
  cases huser : user? c.call with
  | none => exact iff_of_true (by simp) (settles_of_none huser)
  | some user =>
    constructor
    · intro hkept
      exact (hcall user huser).mp (hkept user rfl)
    · rintro hsettles _ ⟨⟩
      exact (hcall user huser).mpr hsettles

/-- The user 1 owns 2000 staking tokens, and the contract 9 owns 100 reward tokens. -/
def sampleTokens : Balances Address Address :=
  (Balances.zero.mint ⟨10⟩ ⟨1⟩ 2000).mint ⟨11⟩ ⟨9⟩ 100

/-- A user claims after a year, and takes the stake out right then. -/
def settledActions : List (ℕ × LedgerAction Call) :=
  [(0, .call (.init ⟨5⟩ ⟨10⟩ ⟨11⟩)), (0, .call (.stake ⟨1⟩ 1000 0)),
    (31536000, .call (.claim ⟨1⟩)), (31536000, .call (.unstake ⟨1⟩))]

theorem staking_rewards_kept_iff_sample :
    ((∀ c ∈ ((withTransfers (contract (Balances Address Address))).play
        ⟨0, .empty ⟨9⟩ sampleTokens⟩ settledActions).2,
      ∀ user, user? c.call = some user → Kept user c) ↔
    ∀ c ∈ ((withTransfers (contract (Balances Address Address))).play
        ⟨0, .empty ⟨9⟩ sampleTokens⟩ settledActions).2, Settles c) ∧
    ∀ c ∈ ((withTransfers (contract (Balances Address Address))).play
        ⟨0, .empty ⟨9⟩ sampleTokens⟩ settledActions).2, ∀ user, PaysOut user c :=
  staking_rewards_kept_iff (Contract.run_play _ _ settledActions (by decide))

/-- A user takes the stake out after a year. -/
def discardingActions : List (ℕ × LedgerAction Call) :=
  [(0, .call (.init ⟨5⟩ ⟨10⟩ ⟨11⟩)), (0, .call (.stake ⟨1⟩ 1000 0)),
    (31536000, .call (.unstake ⟨1⟩))]

/-- The withdrawal discards the pending reward of 50 tokens. -/
theorem discarded_reward :
    ∃ w log, (withTransfers (contract (Balances Address Address))).Run
        ⟨0, .empty ⟨9⟩ sampleTokens⟩ w log ∧
      ∃ c ∈ log, c.call = .call (.unstake ⟨1⟩) ∧
        getPendingRewards c.time ⟨1⟩ c.before = .ok 50 ∧
        getPendingRewards c.time ⟨1⟩ c.after = .ok 0 ∧
        rewardsPaid ⟨1⟩ c.after = rewardsPaid ⟨1⟩ c.before ∧ ¬ Kept ⟨1⟩ c := by
  obtain ⟨c, hc⟩ : ∃ c, ((withTransfers (contract (Balances Address Address))).play
      ⟨0, .empty ⟨9⟩ sampleTokens⟩ discardingActions).2[2]? = some c := ⟨_, rfl⟩
  have hcall : c.call = .call (.unstake ⟨1⟩) := by
    obtain rfl := Option.some.inj hc
    rfl
  have hbefore : getPendingRewards c.time ⟨1⟩ c.before = .ok 50 := by
    obtain rfl := Option.some.inj hc
    rfl
  have hafter : getPendingRewards c.time ⟨1⟩ c.after = .ok 0 := by
    obtain rfl := Option.some.inj hc
    rfl
  have hpaid : rewardsPaid ⟨1⟩ c.after = rewardsPaid ⟨1⟩ c.before := by
    obtain rfl := Option.some.inj hc
    rfl
  refine ⟨_, _, Contract.run_play _ _ discardingActions (by decide), c, List.mem_of_getElem? hc,
    hcall, hbefore, hafter, hpaid, fun h => ?_⟩
  obtain ⟨pending, hpending, hsum⟩ := h 50 hbefore
  rw [hafter] at hpending
  rw [hpaid, ← Except.ok.inj hpending] at hsum
  omega

end Stellara.Staking
