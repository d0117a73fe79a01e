import Stellara.Staking.Rewards

/-!
# The stakes are not always there

Rewards are paid, and added to stakes, from the same balance that backs the stakes, whether or not
the balance exceeds them. So a claim in the staking token and a compounded reward can leave less
than the stakes. The penalty of an early withdrawal is computed with a product that overflows for
the largest stakes.

## Main definitions

* `Solvent`: the contract owns the recorded stakes, and everybody can take a stake out
* `Funded`: the balance exceeds the stakes by a reward
* `Covered`: the calls that pay from the excess, and leave stakes with a penalty that can be
  computed

## Main results

* `solvent_iff`: a solvent contract owns the stakes and can compute their penalties
* `solvent_iff_covered`: a call leaves the contract solvent exactly when it is covered
* `staking_solvent_iff`: the same for every call of a run
-/

namespace Stellara.Staking

variable {s s' : State (Balances Address Address)} {now : ℕ} {user : Address}
  {userStake : UserStake} {amount reward : ℤ}

/-! ## Stakes -/

/-- The sum of the recorded stakes. -/
def stakedTotal {τ : Type} (s : State τ) : ℤ :=
  Store.total (fun _ => UserStake.amount) s.userStakes

/-- A stored stake exchanges its amount for that of the stake before it. -/
theorem stakedTotal_write (user : Address) (userStake : UserStake) (tokens : Balances Address Address)
    (events : List Event) :
    stakeOf s user + stakedTotal { s with
      tokens := tokens, userStakes := s.userStakes.insert user userStake, events := events } =
      userStake.amount + stakedTotal s :=
  Store.total_insert_elim (f := fun _ => UserStake.amount)

theorem Sound.le_stakedTotal (h : Sound now s) (hlookup : s.userStakes.lookup user = some userStake) :
    userStake.amount ≤ stakedTotal s :=
  Store.le_total (f := fun _ => UserStake.amount)
    (fun user userStake hstake => (h.stake user userStake hstake).2.2.pos.le) hlookup

/-- The contract owns the recorded stakes, and every withdrawal from `now` on returns. -/
structure Solvent (now : ℕ) (s : State (Balances Address Address)) : Prop where
  balance : ∀ token, s.stakeToken = some token →
    stakedTotal s ≤ s.tokens.balance token s.contractAddress
  unstake : ∀ user userStake time, s.userStakes.lookup user = some userStake → now ≤ time →
    ∃ principal s', unstake time user s = .ok (principal, s')

/-- The balance in staking tokens exceeds the stakes by `reward`. -/
def Funded (reward : ℤ) (s : State (Balances Address Address)) : Prop :=
  ∀ token, s.stakeToken = some token →
    stakedTotal s + reward ≤ s.tokens.balance token s.contractAddress

/-- During the lockup of its pool, the product that gives the penalty of a stake does not overflow.
-/
def PenaltyFits (now : ℕ) (userStake : UserStake) : Prop :=
  ∀ pool, defaultPools[userStake.poolId]? = some pool →
    now - userStake.startTimestamp < pool.lockupSeconds →
    IntFormat.i128.Mem (userStake.amount * 1000)

theorem PenaltyFits.mono {now' : ℕ} (h : PenaltyFits now userStake) (hle : now ≤ now') :
    PenaltyFits now' userStake :=
  fun pool hpool hlt => h pool hpool (by omega)

theorem lockupSeconds_pos : ∀ pool ∈ defaultPools, 0 < pool.lockupSeconds := by decide

/-- A stake of this moment is in its lockup. -/
theorem penaltyFits_now {poolId : ℕ} (hpool : poolId < defaultPools.length) :
    PenaltyFits now ⟨amount, poolId, now, now⟩ ↔ IntFormat.i128.Mem (amount * 1000) := by
  constructor
  · intro h
    refine h _ (List.getElem?_eq_getElem hpool) ?_
    rw [Nat.sub_self]
    exact lockupSeconds_pos _ (List.getElem_mem hpool)
  · intro h pool _ _
    exact h

/-- What is left of a stake is at most the stake. -/
theorem principalToReturn_le {pool : PoolConfig} {elapsed : ℕ} {principal : ℤ} (hpos : 0 < amount)
    (h : principalToReturn pool elapsed amount = .ok principal) :
    0 ≤ principal ∧ principal ≤ amount := by
  unfold principalToReturn at h
  split at h
  · simp only [Except.bind_eq_ok, IntFormat.checked_eq_ok] at h
    obtain ⟨_, ⟨-, rfl⟩, -, rfl⟩ := h
    rw [Int.tdiv_eq_ediv_of_nonneg (by omega)]
    omega
  · obtain rfl := Except.ok.inj h
    exact ⟨hpos.le, le_rfl⟩

/-- A stake that the contract owns can be taken out exactly when its penalty can be computed. -/
theorem unstake_iff (h : Sound now s) (hlookup : s.userStakes.lookup user = some userStake)
    (hbalance : ∀ token, s.stakeToken = some token →
      stakedTotal s ≤ s.tokens.balance token s.contractAddress) :
    (∃ principal s', unstake now user s = .ok (principal, s')) ↔ PenaltyFits now userStake := by
  obtain ⟨hne, hc, hin⟩ := h.stake user userStake hlookup
  obtain ⟨token, htoken⟩ := Option.isSome_iff_exists.mp hc.stakeToken
  obtain ⟨pool, hpool⟩ : ∃ pool, defaultPools[userStake.poolId]? = some pool :=
    ⟨_, List.getElem?_eq_getElem hin.pool⟩
  constructor
  · rintro ⟨principal, s', hunstake⟩ pool' hpool' hlt
    obtain ⟨-, userStake', pools, pool'', _, _, hlookup', hpools, hpool'', -, hprincipal, -⟩ :=
      unstake_eq_ok.mp hunstake
    obtain rfl := Option.some.inj (hlookup.symm.trans hlookup')
    obtain rfl := Option.some.inj (hc.pools.symm.trans hpools)
    obtain rfl := Option.some.inj (hpool'.symm.trans hpool'')
    rw [principalToReturn, if_pos hlt] at hprincipal
    simp only [Except.bind_eq_ok, IntFormat.checked_eq_ok] at hprincipal
    obtain ⟨_, ⟨hmem, -⟩, -⟩ := hprincipal
    exact hmem
  · intro hfits
    obtain ⟨principal, hprincipal⟩ : ∃ principal,
        principalToReturn pool (now - userStake.startTimestamp) userStake.amount =
          .ok principal := by
      unfold principalToReturn
      split
      · have hmem := hfits pool hpool ‹_›
        simp only [Except.bind_eq_ok, IntFormat.checked_eq_ok]
        refine ⟨_, _, ⟨hmem, rfl⟩, ?_, rfl⟩
        have hpos := hin.pos
        have hle := hin.le_hi
        rw [Int.tdiv_eq_ediv_of_nonneg (by omega)]
        constructor <;> simp only [IntFormat.i128] at * <;> omega
      · exact ⟨_, rfl⟩
    have hle := principalToReturn_le hin.pos hprincipal
    obtain ⟨tokens, htransfer⟩ := Option.isSome_iff_exists.mp (Balances.transfer_isSome.mpr
      ⟨hle.1, (hle.2.trans (h.le_stakedTotal hlookup)).trans (hbalance token htoken)⟩ :
        (s.tokens.transfer token s.contractAddress user principal).isSome)
    exact ⟨principal, _, unstake_eq_ok.mpr ⟨hne, userStake, _, pool, token, tokens, hlookup, hc.pools,
      hpool, hin.started, hprincipal, htoken, htransfer, rfl⟩⟩

/-- A solvent contract owns the stakes, and can compute their penalties. -/
theorem solvent_iff (h : Sound now s) : Solvent now s ↔ Funded 0 s ∧
    ∀ user userStake, s.userStakes.lookup user = some userStake → PenaltyFits now userStake := by
  constructor
  · rintro ⟨hbalance, hunstake⟩
    refine ⟨fun token htoken => by rw [add_zero]; exact hbalance token htoken,
      fun user userStake hlookup => ?_⟩
    exact (unstake_iff h hlookup hbalance).mp (hunstake user userStake now hlookup le_rfl)
  · rintro ⟨hfunded, hfits⟩
    have hbalance : ∀ token, s.stakeToken = some token →
        stakedTotal s ≤ s.tokens.balance token s.contractAddress := fun token htoken => by
      have := hfunded token htoken
      rwa [add_zero] at this
    refine ⟨hbalance, fun user userStake time hlookup hle => ?_⟩
    exact (unstake_iff (h.mono hle) hlookup hbalance).mpr ((hfits user userStake hlookup).mono hle)

/-! ## Calls -/

variable {c : Commit (State (Balances Address Address)) (LedgerAction Call) (Option (Option ℤ))}

/-- A deposit leaves a stake with a penalty that can be computed. A claim in the staking token, and
compounding, find the reward in excess of the stakes. -/
def Covered (c : Commit (State (Balances Address Address)) (LedgerAction Call) (Option (Option ℤ))) :
    Prop :=
  match c.call with
  | .call (.stake user amount _) =>
    IntFormat.i128.Mem ((stakeOf c.before user + amount) * 1000)
  | .call (.claim user) => c.before.rewardToken = c.before.stakeToken →
    ∀ userStake reward, c.before.userStakes.lookup user = some userStake →
      calculateRewards c.time userStake c.before = .ok reward → Funded reward c.before
  | .call (.compound user) =>
    ∀ userStake reward, c.before.userStakes.lookup user = some userStake →
      calculateRewards c.time userStake c.before = .ok reward → Funded reward c.before ∧
        PenaltyFits c.time { userStake with amount := userStake.amount + reward }
  | _ => True

/-- The penalties of all stakes can be computed exactly when that of a new one can. -/
theorem penaltyFits_insert_iff
    (hfits : ∀ user userStake, s.userStakes.lookup user = some userStake →
      PenaltyFits now userStake)
    (hstakes : s'.userStakes = s.userStakes.insert user userStake) :
    (∀ user userStake, s'.userStakes.lookup user = some userStake → PenaltyFits now userStake) ↔
      PenaltyFits now userStake := by
  rw [hstakes]
  constructor
  · intro h
    exact h user userStake (AList.lookup_insert _)
  · intro hnew user' userStake' hlookup
    rcases Store.eq_or_lookup_of_insert hlookup with ⟨-, rfl⟩ | ⟨-, hold⟩
    · exact hnew
    · exact hfits user' userStake' hold

/-- A deposit adds to the balance what it adds to the stakes. -/
theorem funded_of_stake {poolId : ℕ} (hfunded : Funded 0 s)
    (he : stake now user amount poolId s = .ok s') : Funded 0 s' := by
  obtain ⟨hne, -, -, pools, token, tokens, -, -, htoken, htransfer, rfl⟩ := stake_eq_ok he
  intro token' htoken'
  obtain rfl := Option.some.inj (htoken.symm.trans htoken')
  have hsum := stakedTotal_write (s := s) user ⟨stakeOf s user + amount, poolId, now, now⟩
    tokens (s.events ++ [.stake user amount poolId now])
  have hbalance : tokens.balance token s.contractAddress =
      s.tokens.balance token s.contractAddress + amount :=
    Balances.transfer_dst htransfer hne.symm
  have := hfunded token htoken
  dsimp only at hsum ⊢
  omega

/-- A claim leaves the balance above the stakes exactly when it is in another token, or found the
reward above them. -/
theorem funded_iff_of_claim (he : claim now user s = .ok (reward, s')) (hfunded : Funded 0 s) :
    Funded 0 s' ↔ (s.rewardToken = s.stakeToken → Funded reward s) := by
  obtain ⟨hne, -, userStake, token, tokens, hlookup, -, htoken, htransfer, rfl⟩ := claim_eq_ok he
  have hsum := stakedTotal_write (s := s) user { userStake with lastClaimTimestamp := now } tokens
    (s.events ++ [.claim user reward now])
  rw [stakeOf_of_lookup hlookup] at hsum
  have htotal := add_left_cancel hsum
  have hbalance : tokens.balance token s.contractAddress =
      s.tokens.balance token s.contractAddress - reward := Balances.transfer_src htransfer hne.symm
  constructor
  · intro h hsame stakingToken hstaking
    have hpaid : s.rewardToken = some stakingToken := hsame.trans hstaking
    obtain rfl := Option.some.inj (htoken.symm.trans hpaid)
    have := h token hstaking
    dsimp only at this
    omega
  · intro h stakingToken hstaking
    have hold := hfunded stakingToken hstaking
    dsimp only
    rw [htotal, add_zero]
    by_cases hsame : stakingToken = token
    · subst hsame
      have := h (htoken.trans hstaking.symm) stakingToken hstaking
      omega
    · have hother := Balances.transfer_balance htransfer stakingToken s.contractAddress
      rw [if_neg hsame] at hother
      omega

/-- Compounding leaves the balance above the stakes exactly when it found the reward above them. -/
theorem funded_iff_of_compound
    (hlookup : s.userStakes.lookup user = some userStake) (events : List Event) :
    Funded 0 { s with
      userStakes := s.userStakes.insert user { userStake with
        amount := userStake.amount + reward
        lastClaimTimestamp := now }
      events := events } ↔ Funded reward s := by
  have hsum := stakedTotal_write (s := s) user { userStake with
    amount := userStake.amount + reward
    lastClaimTimestamp := now } s.tokens events
  rw [stakeOf_of_lookup hlookup] at hsum
  refine forall₂_congr fun token _ => ?_
  dsimp only at hsum ⊢
  omega

/-- A withdrawal takes at most the stake. -/
theorem funded_of_unstake {principal : ℤ} (h : Sound now s) (hfunded : Funded 0 s)
    (he : unstake now user s = .ok (principal, s')) : Funded 0 s' := by
  obtain ⟨-, userStake, pools, pool, token, tokens, hlookup, -, -, -, hprincipal, htoken, htransfer,
    rfl⟩ := unstake_eq_ok.mp he
  have hle := principalToReturn_le (h.stake user userStake hlookup).2.2.pos hprincipal
  intro token' htoken'
  have hsum := Store.total_erase (f := fun _ => UserStake.amount) hlookup
  have hbalance := Balances.sub_le_transfer htransfer token' s.contractAddress
  have := hfunded token' htoken'
  unfold stakedTotal at this ⊢
  dsimp only at hbalance ⊢
  omega

/-- An action leaves a solvent contract solvent exactly when it is covered. -/
theorem solvent_iff_covered (h : Sound c.time c.before) (hs : Solvent c.time c.before)
    (he : (withTransfers (contract _)).exec c.time c.call c.before = .ok (c.result, c.after)) :
    Solvent c.time c.after ↔ Covered c := by
  have h' := (kept_iff_settles h he).1
  obtain ⟨hfunded, hfits⟩ := (solvent_iff h).mp hs
  rw [solvent_iff h']
  clear h' hs
  obtain ⟨now, action, r, s, s'⟩ := c
  have h : Sound now s := h
  have hfunded : Funded 0 s := hfunded
  have hfits : ∀ user userStake, s.userStakes.lookup user = some userStake →
    PenaltyFits now userStake := hfits
  rcases exec_withTransfers_eq_ok he with ⟨call, result, rfl, hexec⟩ |
    ⟨token, src, dst, amount, tokens', rfl, hsrc, htransfer, hs'⟩
  · have he : execute now s call = .ok (result, s') := hexec
    have hcall := execute_eq_ok he
    cases call with
    | init admin stakingToken rewardToken =>
      obtain ⟨hadmin, rfl⟩ := init_eq_ok hcall
      have hnone : stakedTotal s = 0 := by
        refine Store.total_eq_zero fun user userStake hlookup => ?_
        cases (h.lookup_eq_none hadmin user).symm.trans hlookup
      refine iff_of_true ⟨fun token _ => ?_, hfits⟩ trivial
      rw [add_zero]
      exact hnone.trans_le (s.tokens.nonneg _ _)
    | stake user amount poolId =>
      rw [and_iff_right (funded_of_stake hfunded hcall)]
      obtain ⟨-, -, -, pools, token, tokens, hpools, hpool, -, -, rfl⟩ := stake_eq_ok hcall
      obtain rfl := Option.some.inj
        ((h.configured (by rw [hpools, Option.isSome_some])).pools.symm.trans hpools)
      rw [penaltyFits_insert_iff hfits rfl, penaltyFits_now hpool]
      exact Iff.rfl
    | claim user =>
      obtain ⟨reward, h₁⟩ := hcall
      rw [funded_iff_of_claim h₁ hfunded]
      obtain ⟨-, -, userStake, token, tokens, hlookup, hreward, -, -, rfl⟩ := claim_eq_ok h₁
      have hkept : PenaltyFits now { userStake with lastClaimTimestamp := now } :=
        hfits user userStake hlookup
      rw [penaltyFits_insert_iff hfits rfl, and_iff_left hkept]
      refine imp_congr_right fun _ => ⟨fun hf userStake' reward' hlookup' hreward' => ?_, fun hf =>
        hf userStake reward hlookup hreward⟩
      obtain rfl := Option.some.inj (hlookup.symm.trans hlookup')
      obtain rfl := Except.ok.inj (hreward.symm.trans hreward')
      exact hf
    | unstake user =>
      obtain ⟨principal, h₁⟩ := hcall
      refine iff_of_true ⟨funded_of_unstake h hfunded h₁, fun user' userStake' hlookup => ?_⟩ trivial
      obtain ⟨-, _, _, _, _, _, -, -, -, -, -, -, -, rfl⟩ := unstake_eq_ok.mp h₁
      rw [Store.lookup_erase_ite] at hlookup
      split at hlookup
      · cases hlookup
      · exact hfits user' userStake' hlookup
    | compound user =>
      obtain ⟨-, userStake, reward, token, hlookup, hreward, -, -, -, -, rfl⟩ := compound_eq_ok hcall
      rw [funded_iff_of_compound hlookup, penaltyFits_insert_iff hfits rfl]
      constructor
      · rintro hf userStake' reward' hlookup' hreward'
        obtain rfl := Option.some.inj (hlookup.symm.trans hlookup')
        obtain rfl := Except.ok.inj (hreward.symm.trans hreward')
        exact hf
      · intro hf
        exact hf userStake reward hlookup hreward
  · have hs' : s' = { s with tokens := tokens' } := hs'
    subst hs'
    refine iff_of_true ⟨fun token' htoken => (hfunded token' htoken).trans ?_, hfits⟩ trivial
    exact Balances.le_transfer_of_ne htransfer hsrc token'

/-! ## Runs -/

variable {w : World (State (Balances Address Address))}
  {log : List (Commit (State (Balances Address Address)) (LedgerAction Call) (Option (Option ℤ)))}
  {now₀ : ℕ} {contractAddress : Address} {tokens : Balances Address Address}

theorem Solvent.mono {now' : ℕ} (h : Solvent now s) (hle : now ≤ now') : Solvent now' s :=
  ⟨h.balance, fun user userStake time hlookup htime =>
    h.unstake user userStake time hlookup (hle.trans htime)⟩

theorem solvent_empty : Solvent now (State.empty contractAddress tokens) where
  balance token h := by simp [State.empty] at h
  unstake user userStake time h := by simp [State.empty] at h

/-- The contract is solvent throughout a run exactly when all deposits, claims and compounded
rewards of the run are covered. -/
theorem staking_solvent_iff
    (hrun : (withTransfers (contract _)).Run ⟨now₀, .empty contractAddress tokens⟩ w log) :
    (Solvent w.now w.store ∧ ∀ c ∈ log, Solvent c.time c.after) ↔ ∀ c ∈ log, Covered c :=
  hrun.after_iff (S := Sound) (I := Solvent) ⟨sound_empty, solvent_empty⟩
    (fun _ _ _ hle => ⟨fun h => h.mono hle, fun h => h.mono hle⟩)
    (fun _ h he => (kept_iff_settles h he).1) fun _ h hs he => solvent_iff_covered h hs he

/-- The user 1 owns 1000 tokens of the one kind, and somebody else 100. -/
def singleToken : Balances Address Address :=
  (Balances.zero.mint ⟨10⟩ ⟨1⟩ 1000).mint ⟨10⟩ ⟨3⟩ 100

/-- Somebody funds the contract before the user claims. -/
def coveredActions : List (ℕ × LedgerAction Call) :=
  [(0, .call (.init ⟨5⟩ ⟨10⟩ ⟨10⟩)), (0, .call (.stake ⟨1⟩ 1000 0)),
    (1, .transfer ⟨10⟩ ⟨3⟩ ⟨9⟩ 100), (31536000, .call (.claim ⟨1⟩)),
    (31536000, .call (.unstake ⟨1⟩))]

theorem staking_solvent_iff_sample :
    (Solvent ((withTransfers (contract _)).play ⟨0, .empty ⟨9⟩ singleToken⟩ coveredActions).1.now
        ((withTransfers (contract _)).play ⟨0, .empty ⟨9⟩ singleToken⟩ coveredActions).1.store ∧
      ∀ c ∈ ((withTransfers (contract _)).play ⟨0, .empty ⟨9⟩ singleToken⟩ coveredActions).2,
        Solvent c.time c.after) ↔
    ∀ c ∈ ((withTransfers (contract _)).play ⟨0, .empty ⟨9⟩ singleToken⟩ coveredActions).2,
      Covered c :=
  staking_solvent_iff (Contract.run_play _ _ coveredActions (by decide))

/-- The user claims, and nobody has funded the contract. -/
def uncoveredActions : List (ℕ × LedgerAction Call) :=
  [(0, .call (.init ⟨5⟩ ⟨10⟩ ⟨10⟩)), (0, .call (.stake ⟨1⟩ 1000 0)),
    (31536000, .call (.claim ⟨1⟩))]

/-- The claim is paid out of the stake, which then cannot be taken out. -/
theorem unbacked_stake :
    ∃ w log, (withTransfers (contract _)).Run ⟨0, .empty ⟨9⟩ singleToken⟩ w log ∧
      stakedTotal w.store = 1000 ∧ w.store.stakeToken = some ⟨10⟩ ∧
      w.store.tokens.balance ⟨10⟩ w.store.contractAddress = 950 ∧
      (w.store.userStakes.lookup ⟨1⟩).isSome ∧
      unstake w.now ⟨1⟩ w.store = .error (.panic "transfer failed") ∧ ¬ Solvent w.now w.store := by
  refine ⟨_, _, Contract.run_play (withTransfers (contract _)) ⟨0, .empty ⟨9⟩ singleToken⟩
    uncoveredActions (by decide), rfl, rfl, rfl, rfl, rfl, fun h => ?_⟩
  have hle : (1000 : ℤ) ≤ 950 := h.balance ⟨10⟩ rfl
  omega

end Stellara.Staking
