import Stellara.Lib.FloorSum
import Stellara.Staking.Rewards

/-!
# Claims in parts

A claim pays the reward of the seconds since the last one, rounded down. Users who claim more often
are paid for the same seconds, and lose less than one token a claim to the rounding. So the claims
of a run add up to what one claim at its end would have paid, less at most one token for each
additional claim.

## Main definitions

* `claimYield`: what a claim pays, also when there is nothing to claim
* `claimsOf`: the rewards of the claims of a user in a run
* `rate`: what a stake earns in a second, before it is scaled
* `Parted`: the claims of a user are the floors of the parts of the time since

## Main results

* `parted_of_run`: the claims of every run in which a user only claims
* `split_claims`: the claims of such a run, compared to one claim in a run without
-/

namespace Stellara.Staking

variable {τ : Type} {s s' s₀ : State τ} {now : ℕ} {user : Address} {userStake : UserStake}
  {reward : ℤ}

/-! ## What a claim pays -/

/-- What a stake earns in a second, in basis points of a year. -/
def rate (s : State τ) (userStake : UserStake) : ℤ :=
  userStake.amount * ((s.poolConfig.bind fun pools => pools[userStake.poolId]?).elim 0 fun pool =>
    (pool.apyBps : ℤ))

/-- The basis points of a year. -/
def yearBps : ℤ := 10000 * 31536000

theorem yearBps_pos : 0 < yearBps := by decide

theorem tdiv_yearBps_nonpos {x : ℤ} (h : x ≤ 0) : x.tdiv yearBps ≤ 0 := by
  have hneg : 0 ≤ (-x).tdiv yearBps := Int.tdiv_nonneg (by omega) yearBps_pos.le
  rw [Int.neg_tdiv] at hneg
  omega

theorem calculateRewards_eq (h : calculateRewards now userStake s = .ok reward) :
    userStake.lastClaimTimestamp ≤ now ∧
      reward = (rate s userStake * (now - userStake.lastClaimTimestamp)).tdiv yearBps := by
  simp only [calculateRewards, Except.bind_eq_ok, orAbort_eq_ok, IntFormat.checkedSub_eq_ok] at h
  obtain ⟨pools, hpools, pool, hpool, elapsed, ⟨hle, rfl⟩, h⟩ := h
  have hrate : rate s userStake = userStake.amount * pool.apyBps := by
    rw [rate, hpools, Option.bind_some, hpool, Option.elim_some]
  refine ⟨hle, ?_⟩
  rw [hrate, ← Int.natCast_sub hle]
  split at h
  · rename_i hzero
    rw [hzero, ← Except.ok.inj h]
    simp
  · simp only [Except.bind_eq_ok, IntFormat.checked_eq_ok] at h
    obtain ⟨_, ⟨-, rfl⟩, _, ⟨-, rfl⟩, h⟩ := h
    exact (Except.ok.inj h).symm

theorem calculateRewards_ne_nothing :
    calculateRewards now userStake s ≠ .error (.error .nothingToClaim) := by
  unfold calculateRewards
  refine Except.bind_ne_error (orAbort_ne_error fun _ => by simp) fun pools _ => ?_
  refine Except.bind_ne_error (orAbort_ne_error fun _ => by simp) fun pool _ => ?_
  refine Except.bind_ne_error ?_ fun elapsed _ => ?_
  · unfold IntFormat.checkedSub
    split <;> simp
  split
  · simp
  · refine Except.bind_ne_error (IntFormat.checked_ne_error (by simp)) fun yearly _ => ?_
    exact Except.bind_ne_error (IntFormat.checked_ne_error (by simp)) fun scaled _ => by simp

variable [TokenClient τ Address Address]

/-- What a claim pays. When there is nothing to claim it returns an error, and pays nothing. -/
def claimYield (now : ℕ) (user : Address) (s : State τ) : Returns ℤ :=
  match claim now user s with
  | .ok (reward, _) => .ok reward
  | .error (.error .nothingToClaim) => .ok 0
  | .error fault => .error fault

/-- There is nothing to claim without a stake, or without a reward. -/
theorem claim_nothing (h : claim now user s = .error (.error .nothingToClaim)) :
    s.userStakes.lookup user = none ∨ ∃ userStake reward,
      s.userStakes.lookup user = some userStake ∧ calculateRewards now userStake s = .ok reward ∧
      reward ≤ 0 := by
  simp only [claim, Except.bind_eq_error] at h
  rcases h with h | ⟨_, -, h | ⟨userStake, hstake, h | ⟨reward, hreward, h |
    ⟨_, -, h | ⟨_, -, h | ⟨_, -, h⟩⟩⟩⟩⟩⟩
  · exact absurd h (require_ne_error (by simp))
  · cases hlookup : s.userStakes.lookup user with
    | none => exact .inl rfl
    | some userStake =>
      rw [hlookup] at h
      cases h
  · exact absurd h calculateRewards_ne_nothing
  · obtain ⟨hnot, -⟩ := require_eq_error.mp h
    exact .inr ⟨userStake, reward, orAbort_eq_ok.mp hstake, hreward, not_lt.mp hnot⟩
  -- what follows the check fails otherwise
  · exact absurd h (orAbort_ne_error fun _ => by simp [unwrapNone])
  · exact absurd h (orAbort_ne_error fun _ => by simp)
  · cases h

/-- A claim pays nothing without a stake, and the reward of the stake if it is positive. -/
theorem claimYield_eq {paid : ℤ} (h : claimYield now user s = .ok paid) :
    (s.userStakes.lookup user = none ∧ paid = 0) ∨ ∃ userStake reward,
      s.userStakes.lookup user = some userStake ∧ calculateRewards now userStake s = .ok reward ∧
      paid = max 0 reward := by
  unfold claimYield at h
  split at h
  · rename_i reward s' hclaim
    obtain rfl := Except.ok.inj h
    obtain ⟨-, hpos, userStake, _, _, hstake, hreward, -⟩ := claim_eq_ok hclaim
    exact .inr ⟨userStake, reward, hstake, hreward, (max_eq_right hpos.le).symm⟩
  · rename_i hclaim
    obtain rfl := Except.ok.inj h
    rcases claim_nothing hclaim with hnone | ⟨userStake, reward, hstake, hreward, hle⟩
    · exact .inl ⟨hnone, rfl⟩
    · exact .inr ⟨userStake, reward, hstake, hreward, (max_eq_left hle).symm⟩
  · cases h

theorem claimYield_of_none {paid : ℤ} (hnone : s.userStakes.lookup user = none)
    (h : claimYield now user s = .ok paid) : paid = 0 := by
  rcases claimYield_eq h with ⟨-, hzero⟩ | ⟨userStake, _, hsome, -, -⟩
  · exact hzero
  · rw [hnone] at hsome
    cases hsome

/-! ## Runs of claims -/

variable {log log' : List (Commit (State τ) (LedgerAction Call) (Option (Option ℤ)))}
  {c : Commit (State τ) (LedgerAction Call) (Option (Option ℤ))} {w w' : World (State τ)}
  {claims : List ℤ}

/-- The reward of a claim of the user. -/
def claimed? (user : Address) (c : Commit (State τ) (LedgerAction Call) (Option (Option ℤ))) :
    Option ℤ :=
  if c.call = .call (.claim user) then c.result.join else none

/-- The rewards of the claims of a user in a run, in order. -/
def claimsOf (user : Address) (log : List (Commit (State τ) (LedgerAction Call) (Option (Option ℤ)))) :
    List ℤ := log.filterMap (claimed? user)

omit [TokenClient τ Address Address] in
theorem claimsOf_append :
    claimsOf user (log ++ [c]) = claimsOf user log ++ (claimed? user c).toList := by
  unfold claimsOf
  rw [List.filterMap_append]
  cases h : claimed? user c <;> simp [h]

omit [TokenClient τ Address Address] in
theorem claimsOf_of_quiet (h : ∀ c ∈ log, user? c.call ≠ some user) : claimsOf user log = [] := by
  refine List.filterMap_eq_nil_iff.mpr fun c hc => if_neg fun hcall => h c hc ?_
  rw [hcall]
  rfl

/-- The user had the same stake in `s₀`, and the claims since are the floors of the parts of the
time since. -/
structure Parted (user : Address) (s₀ s : State τ) (claims : List ℤ) : Prop where
  admin : s.admin.isSome
  poolConfig : s.poolConfig = s₀.poolConfig
  absent : s₀.userStakes.lookup user = none → s.userStakes.lookup user = none ∧ claims = []
  stake : ∀ userStake, s₀.userStakes.lookup user = some userStake → ∃ claimedAt : ℕ,
    s.userStakes.lookup user = some { userStake with lastClaimTimestamp := claimedAt } ∧
    (claims ≠ [] → 0 < rate s₀ userStake) ∧
    Floored yearBps (rate s₀ userStake * (claimedAt - userStake.lastClaimTimestamp)) claims.length
      claims.sum

omit [TokenClient τ Address Address] in
theorem parted_start (hadmin : s.admin.isSome) : Parted user s s [] where
  admin := hadmin
  poolConfig := rfl
  absent h := ⟨h, rfl⟩
  stake userStake h := by
    refine ⟨userStake.lastClaimTimestamp, h, fun hne => absurd rfl hne, ?_⟩
    rw [sub_self, mul_zero]
    exact .nil

omit [TokenClient τ Address Address] in
/-- A call that keeps the pools and the stake of the user. -/
theorem Parted.keep (h : Parted user s₀ s claims) (hadmin : s'.admin = s.admin)
    (hpools : s'.poolConfig = s.poolConfig)
    (hstake : s'.userStakes.lookup user = s.userStakes.lookup user) :
    Parted user s₀ s' claims where
  admin := hadmin ▸ h.admin
  poolConfig := hpools.trans h.poolConfig
  absent := hstake ▸ h.absent
  stake := hstake ▸ h.stake

omit [TokenClient τ Address Address] in
/-- The time of the last claim and the rest of the state do not matter for the rate. -/
theorem Parted.rate_eq (h : Parted user s₀ s claims) (claimedAt : ℕ) :
    rate s { userStake with lastClaimTimestamp := claimedAt } = rate s₀ userStake := by
  unfold rate
  rw [h.poolConfig]

/-- A claim pays for the time since the last one, if the rate is positive. -/
theorem Parted.paid (h : Parted user s₀ s claims) {paid : ℤ}
    (hstake : s₀.userStakes.lookup user = some userStake)
    (hpaid : claimYield now user s = .ok paid) :
    (rate s₀ userStake ≤ 0 → claims = [] ∧ paid = 0) ∧
      (0 < rate s₀ userStake →
        Floored yearBps (rate s₀ userStake * (now - userStake.lastClaimTimestamp)) (claims.length + 1)
          (claims.sum + paid)) := by
  obtain ⟨claimedAt, hlookup, hpos, hfloored⟩ := h.stake userStake hstake
  rcases claimYield_eq hpaid with ⟨hnone, -⟩ | ⟨userStake', reward, hsome, hreward, rfl⟩
  · rw [hlookup] at hnone
    cases hnone
  obtain rfl := Option.some.inj (hlookup.symm.trans hsome)
  obtain ⟨hle, heq⟩ := calculateRewards_eq hreward
  rw [h.rate_eq] at heq
  simp only at hle heq
  constructor
  · -- an earlier claim would have paid more than zero
    intro hrate
    refine ⟨by_contra fun hne => absurd (hpos hne) hrate.not_gt, max_eq_left ?_⟩
    rw [heq]
    exact tdiv_yearBps_nonpos (mul_nonpos_of_nonpos_of_nonneg hrate (by omega))
  · intro hrate
    have hpart : 0 ≤ rate s₀ userStake * (now - claimedAt : ℤ) := mul_nonneg hrate.le (by omega)
    rw [Int.tdiv_eq_ediv_of_nonneg hpart] at heq
    have hnonneg : 0 ≤ reward := heq ▸ Int.ediv_nonneg hpart yearBps_pos.le
    have hnext := hfloored.add (rate s₀ userStake * (now - claimedAt : ℤ))
    rw [← heq, ← mul_add, sub_add_sub_cancel'] at hnext
    rwa [max_eq_right hnonneg]

/-- A claim that returns is one more claim. -/
theorem Parted.claim (h : Parted user s₀ s claims) (hclaim : claim now user s = .ok (reward, s')) :
    Parted user s₀ s' (claims ++ [reward]) := by
  have hyield : claimYield now user s = .ok reward := by rw [claimYield, hclaim]
  obtain ⟨-, hpos, userStake, _, _, hlookup, -, -, -, rfl⟩ := claim_eq_ok hclaim
  refine ⟨h.admin, h.poolConfig, fun hnone => ?_, fun userStake₀ hstart => ⟨now, ?_⟩⟩
  · rw [(h.absent hnone).1] at hlookup
    cases hlookup
  · obtain ⟨hnonpos, hfloored⟩ := h.paid hstart hyield
    have hrate : 0 < rate s₀ userStake₀ := by
      by_contra hneg
      exact absurd (hnonpos (not_lt.mp hneg)).2 hpos.ne'
    obtain ⟨claimedAt, hstake, -, -⟩ := h.stake userStake₀ hstart
    obtain rfl := Option.some.inj (hstake.symm.trans hlookup)
    refine ⟨AList.lookup_insert _, fun _ => hrate, ?_⟩
    simpa using hfloored hrate

/-- An action that is not a call of the user keeps the stake of the user. -/
theorem Parted.quiet (h : Parted user s₀ s claims) {action : LedgerAction Call} {r : Option (Option ℤ)}
    (huser : user? action ≠ some user)
    (he : (withTransfers (contract τ)).exec now action s = .ok (r, s')) :
    Parted user s₀ s' claims := by
  rcases exec_withTransfers_eq_ok he with ⟨call, result, rfl, hexec⟩ |
    ⟨token, src, dst, amount, tokens', rfl, -, -, hs'⟩
  · have he : execute now s call = .ok (result, s') := hexec
    have hcall := execute_eq_ok he
    cases call with
    | init admin stakingToken rewardToken =>
      have hnone := (init_eq_ok hcall).1
      have hsome := h.admin
      rw [hnone] at hsome
      cases hsome
    | stake other amount poolId =>
      obtain ⟨-, -, -, pools, token, tokens, -, -, -, -, rfl⟩ := stake_eq_ok hcall
      exact h.keep rfl rfl (AList.lookup_insert_ne fun heq => huser (congrArg some heq.symm))
    | claim other =>
      obtain ⟨reward, hclaim⟩ := hcall
      obtain ⟨-, -, userStake, token, tokens, -, -, -, -, rfl⟩ := claim_eq_ok hclaim
      exact h.keep rfl rfl (AList.lookup_insert_ne fun heq => huser (congrArg some heq.symm))
    | unstake other =>
      obtain ⟨principal, hunstake⟩ := hcall
      obtain ⟨-, userStake, pools, pool, token, tokens, -, -, -, -, -, -, -, rfl⟩ :=
        unstake_eq_ok.mp hunstake
      exact h.keep rfl rfl (AList.lookup_erase_ne fun heq => huser (congrArg some heq.symm))
    | compound other =>
      obtain ⟨-, userStake, reward, token, -, -, -, -, -, -, rfl⟩ := compound_eq_ok hcall
      exact h.keep rfl rfl (AList.lookup_insert_ne fun heq => huser (congrArg some heq.symm))
  · have hs' : s' = { s with tokens := tokens' } := hs'
    subst hs'
    exact h.keep rfl rfl rfl

/-- In every run in which the user only claims, the claims are the floors of the parts of the time.
-/
theorem parted_of_run {now₀ : ℕ} (hadmin : s.admin.isSome)
    (hrun : (withTransfers (contract τ)).Run ⟨now₀, s⟩ w log)
    (honly : ∀ c ∈ log, user? c.call = some user → c.call = .call (.claim user)) :
    Parted user s w.store (claimsOf user log) := by
  refine hrun.invariant_log (I := fun _ s' log =>
    (∀ c ∈ log, user? c.call = some user → c.call = .call (.claim user)) →
      Parted user s s' (claimsOf user log)) (fun _ => parted_start hadmin) (fun _ _ _ _ _ h => h)
    (fun t action r s₁ s₂ log ih he honly => ?_) honly
  have h := ih fun c hc => honly c (List.mem_append_left _ hc)
  rw [claimsOf_append]
  by_cases huser : user? action = some user
  · -- the only call of the user is a claim
    obtain rfl : action = .call (.claim user) := honly ⟨t, action, r, s₁, s₂⟩ (by simp) huser
    simp only [withTransfers, contract, execute, Except.bind_eq_ok] at he
    obtain ⟨_, ⟨⟨reward, s₃⟩, hclaim, hresult⟩, he⟩ := he
    obtain rfl := Except.ok.inj hresult
    obtain ⟨rfl, rfl⟩ := Prod.mk.inj (Except.ok.inj he)
    have hpaid : claimed? user ⟨t, .call (.claim user), some (some reward), s₁, s₃⟩ = some reward :=
      if_pos rfl
    rw [hpaid]
    exact h.claim hclaim
  · have hnone : claimed? user ⟨t, action, r, s₁, s₂⟩ = none :=
      if_neg fun (hcall : action = _) => huser (by rw [hcall]; rfl)
    rw [hnone, Option.toList_none, List.append_nil]
    exact h.quiet huser he

/-- Every claim of a run transfers what it returns. -/
theorem transfersReward_of_claimed {now₀ : ℕ} (hrun : (withTransfers (contract τ)).Run ⟨now₀, s⟩ w log)
    (hc : c ∈ log) (hclaimed : claimed? user c = some reward) :
    TransfersReward user reward c.before c.after := by
  have he := hrun.exec_of_mem c hc
  unfold claimed? at hclaimed
  split at hclaimed
  · rename_i hcall
    rw [hcall] at he
    simp only [withTransfers, contract, execute, Except.bind_eq_ok] at he
    obtain ⟨_, ⟨⟨paid, s₁⟩, hclaim, hresult⟩, he⟩ := he
    obtain rfl := Except.ok.inj hresult
    obtain ⟨hr, hs⟩ := Prod.mk.inj (Except.ok.inj he)
    rw [← hr, Option.join_some] at hclaimed
    obtain rfl : paid = reward := Option.some.inj hclaimed
    exact hs ▸ transfersReward_of_claim hclaim
  · cases hclaimed

/-- From every state of an initialized contract, let a user only claim in one run, and do nothing in
another one. Then the claims of the first run and a claim after it yield in total at most what one
claim after the other run yields, at the same time, and less at most one token for each additional
claim. What a claim yields is transferred to the user. -/
theorem split_claims {now₀ : ℕ} {last once : ℤ} (hadmin : s.admin.isSome)
    (hrun : (withTransfers (contract τ)).Run ⟨now₀, s⟩ w log)
    (honly : ∀ c ∈ log, user? c.call = some user → c.call = .call (.claim user))
    (hlast : claimYield now user w.store = .ok last)
    (hrun' : (withTransfers (contract τ)).Run ⟨now₀, s⟩ w' log')
    (hquiet : ∀ c ∈ log', user? c.call ≠ some user)
    (honce : claimYield now user w'.store = .ok once) :
    ((claimsOf user log).sum + last ≤ once ∧
      once - (claimsOf user log).length ≤ (claimsOf user log).sum + last) ∧
      ∀ c ∈ log, ∀ reward, claimed? user c = some reward →
        TransfersReward user reward c.before c.after := by
  refine ⟨?_, fun c hc reward => transfersReward_of_claimed hrun hc⟩
  have hparted := parted_of_run hadmin hrun honly
  have hwhole := parted_of_run hadmin hrun' fun c hc huser => absurd huser (hquiet c hc)
  rw [claimsOf_of_quiet hquiet] at hwhole
  cases hstake : s.userStakes.lookup user with
  | none =>
    -- without a stake both yield nothing
    obtain ⟨hnone, hclaims⟩ := hparted.absent hstake
    rw [hclaims, claimYield_of_none hnone hlast, claimYield_of_none (hwhole.absent hstake).1 honce]
    simp
  | some userStake =>
    obtain ⟨hnonpos, hfloored⟩ := hparted.paid hstake hlast
    obtain ⟨hnonpos', hfloored'⟩ := hwhole.paid hstake honce
    rcases le_or_gt (rate s userStake) 0 with hrate | hrate
    · -- nor is anything earned at a rate of zero
      rw [(hnonpos hrate).1, (hnonpos hrate).2, (hnonpos' hrate).2]
      simp
    · have hle := (hfloored hrate).le yearBps_pos
      have hlt := (hfloored hrate).lt yearBps_pos (Nat.succ_pos _)
      -- one claim for the whole time is the floor of the whole amount
      have hle' := (hfloored' hrate).le yearBps_pos
      have hlt' := (hfloored' hrate).lt yearBps_pos (Nat.succ_pos _)
      simp only [List.sum_nil, List.length_nil] at hle' hlt'
      push_cast at hlt hlt'
      omega

/-- A stake of 1000 tokens that earns 50 in a year. -/
def stakedState : State (Balances Address Address) :=
  ((withTransfers (contract (Balances Address Address))).play ⟨0, .empty ⟨9⟩ sampleTokens⟩
    (settledActions.take 2)).1.store

/-- A claim after each of three thirds of a year pays 16 tokens, and one after the year pays 50. -/
def thirdActions : List (ℕ × LedgerAction Call) :=
  [(10512000, .call (.claim ⟨1⟩)), (21024000, .call (.claim ⟨1⟩))]

theorem split_claims_sample :
    ((claimsOf ⟨1⟩ ((withTransfers (contract (Balances Address Address))).play
        ⟨0, stakedState⟩ thirdActions).2).sum + 16 ≤ 50 ∧
      50 - (claimsOf ⟨1⟩ ((withTransfers (contract (Balances Address Address))).play
        ⟨0, stakedState⟩ thirdActions).2).length ≤
        (claimsOf ⟨1⟩ ((withTransfers (contract (Balances Address Address))).play
          ⟨0, stakedState⟩ thirdActions).2).sum + 16) ∧
      ∀ c ∈ ((withTransfers (contract (Balances Address Address))).play
          ⟨0, stakedState⟩ thirdActions).2,
        ∀ reward, claimed? ⟨1⟩ c = some reward → TransfersReward ⟨1⟩ reward c.before c.after :=
  split_claims rfl (Contract.run_play _ _ thirdActions (by decide)) (by decide) rfl .start (by simp)
    (rfl : claimYield 31536000 ⟨1⟩ stakedState = .ok 50)

end Stellara.Staking
