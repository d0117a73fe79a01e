import Mathlib.Tactic.Ring
import Stellara.Mining.Isolation

/-!
# The emissions of a pair

A claim pays the share of a stake in the emissions since the last update of the pair, less what the
stake was paid before, whenever that was. A deposit or a withdrawal moves the last update and keeps
what the stakes were paid. So the rewards that were paid on a pair stay within its emissions since
it was created.

## Main definitions

* `rewardsPaid`: the rewards that were paid on a pair, by the events
* `TransfersReward`, `PaysOut`: what is added to the rewards that were paid is transferred
* `Emitted`: the bound on the debts of the stakes, and on what their shares can add to them

## Main results

* `Emitted.mono`, `Restaked.emitted`, `Rewarded.emitted`: the bounds in a later block, after a
  deposit or a withdrawal, and after a claim
* `rewardsPaid_le`: the rewards paid on a pair are at most its emissions since its creation
-/

namespace Stellara.Mining

variable {τ : Type} {s s' : State τ} {ledger : Ledger} {block created pairId called : ℕ}
  {user : Address} {pair : PairConfig}

/-! ## The stakes on a pair -/

def rewardPaid (pairId : ℕ) : Event → ℤ
  | .rewardsClaimed _ id rewardAmount _ _ => if id = pairId then rewardAmount else 0
  | _ => 0

/-- The rewards that were paid on a pair. -/
def rewardsPaid (pairId : ℕ) (s : State τ) : ℤ := (s.events.map (rewardPaid pairId)).sum

/-- The amount is transferred, in reward tokens, from the contract to the user. -/
def TransfersReward [TokenClient τ Address Address] (user : Address) (amount : ℤ) (s s' : State τ) :
    Prop :=
  ∃ rewardToken, s.rewardToken = some rewardToken ∧
    TokenClient.transfer s.tokens rewardToken s.contractAddress user amount = some s'.tokens

/-- The sum of a quantity over the stakes on a pair. -/
def pairTotal (pairId : ℕ) (f : LPStake → ℤ) (s : State τ) : ℤ :=
  Store.total (fun key stake => if key.2 = pairId then f stake else 0) s.stakes

variable {f g : LPStake → ℤ}

theorem pairTotal_insert {stake : LPStake}
    (hstakes : s'.stakes = s.stakes.insert (user, pairId) stake) :
    (s.stakes.lookup (user, pairId)).elim 0 f + pairTotal pairId f s' =
      f stake + pairTotal pairId f s := by
  have hsum := Store.total_insert_elim (m := s.stakes) (k := (user, pairId)) (v := stake)
    (f := fun key stake => if key.2 = pairId then f stake else 0)
  simp only [if_true] at hsum
  rw [pairTotal, hstakes]
  exact hsum

theorem pairTotal_insert_of_ne {stake : LPStake}
    (hstakes : s'.stakes = s.stakes.insert (user, called) stake) (hne : called ≠ pairId) :
    pairTotal pairId f s' = pairTotal pairId f s := by
  have hsum := Store.total_insert_elim (m := s.stakes) (k := (user, called)) (v := stake)
    (f := fun key stake => if key.2 = pairId then f stake else 0)
  have hzero : (s.stakes.lookup (user, called)).elim 0
      (fun stake => if called = pairId then f stake else 0) = 0 := by
    cases s.stakes.lookup (user, called) <;> simp [hne]
  rw [hzero, if_neg hne, zero_add, zero_add] at hsum
  rw [pairTotal, hstakes, hsum, pairTotal]

/-- Sums compare as the quantities of the stakes do. -/
theorem pairTotal_le_pairTotal (h : ∀ key stake, s.stakes.lookup key = some stake →
    key.2 = pairId → f stake ≤ g stake) : pairTotal pairId f s ≤ pairTotal pairId g s := by
  refine Store.total_le_total fun key stake hstake => ?_
  split
  · exact h key stake hstake ‹_›
  · exact le_rfl

theorem pairTotal_add : pairTotal pairId (fun stake => f stake + g stake) s =
    pairTotal pairId f s + pairTotal pairId g s := by
  rw [pairTotal, pairTotal, pairTotal, ← Store.total_add]
  refine Store.total_congr fun key stake _ => ?_
  split <;> simp

theorem pairTotal_mul_left (a : ℤ) :
    pairTotal pairId (fun stake => a * f stake) s = a * pairTotal pairId f s := by
  rw [pairTotal, pairTotal, ← Store.total_mul_left]
  refine Store.total_congr fun key stake _ => ?_
  split <;> simp

theorem le_pairTotal (h : ∀ key stake, s.stakes.lookup key = some stake → 0 ≤ f stake)
    {stake : LPStake} (hstake : s.stakes.lookup (user, pairId) = some stake) :
    f stake ≤ pairTotal pairId f s := by
  have hle := Store.le_total (f := fun key stake => if key.2 = pairId then f stake else 0)
    (fun key st hk => by split; exacts [h key st hk, le_rfl]) hstake
  rwa [if_pos rfl] at hle

/-- The sum over a pair without stakes. -/
theorem pairTotal_of_unused (h : ∀ user, s.stakes.lookup (user, pairId) = none) :
    pairTotal pairId f s = 0 := by
  refine Store.total_eq_zero fun key stake hstake => ?_
  split
  · rename_i hkey
    have hnone := h key.1
    rw [← hkey, hstake] at hnone
    cases hnone
  · rfl

/-! ## The bounds -/

/-- The emissions of a pair since its last update. -/
def accrued (pair : PairConfig) (block : ℕ) : ℤ :=
  pair.emissionsPerBlock * (block - pair.lastUpdateBlock)

/-- What was paid for a stake, or its share in `accrued`, times what is staked on the pair. -/
def due (staked accrued : ℤ) (stake : LPStake) : ℤ :=
  max (staked * stake.rewardDebt) (stake.lpBalance * accrued)

/-- The emissions since the block `created` cover the debts of the stakes on a pair, and they cover
what the debts become when everybody claims. -/
structure Emitted (created block pairId : ℕ) (pair : PairConfig) (s : State τ) : Prop where
  debts : pairTotal pairId LPStake.rewardDebt s ≤ pair.emissionsPerBlock * (block - created)
  dues : pairTotal pairId (due (pairTotal pairId LPStake.lpBalance s) (accrued pair block)) s ≤
    pairTotal pairId LPStake.lpBalance s * (pair.emissionsPerBlock * (block - created))

/-- The debts of the stakes are what was paid for them. -/
structure Accounted (block : ℕ) (s : State τ) : Prop where
  sound : Sound block s
  debt : ∀ key stake, s.stakes.lookup key = some stake → 0 ≤ stake.rewardDebt
  paid : ∀ pairId, rewardsPaid pairId s = pairTotal pairId LPStake.rewardDebt s

theorem Accounted.lp_nonneg (h : Accounted block s) (key : Address × ℕ) (stake : LPStake)
    (hstake : s.stakes.lookup key = some stake) : 0 ≤ stake.lpBalance :=
  (h.sound.stake key.1 key.2 stake hstake).1

theorem Accounted.pairTotal_lp_nonneg (h : Accounted block s) :
    0 ≤ pairTotal pairId LPStake.lpBalance s := by
  refine Store.total_nonneg fun key stake hstake => ?_
  split
  · exact h.lp_nonneg key stake hstake
  · exact le_rfl

/-- With nothing accrued, what the debts become is what they are. -/
theorem pairTotal_due_zero {staked : ℤ} (hstaked : 0 ≤ staked)
    (hdebt : ∀ key stake, s.stakes.lookup key = some stake → 0 ≤ stake.rewardDebt) :
    pairTotal pairId (due staked 0) s = staked * pairTotal pairId LPStake.rewardDebt s := by
  rw [← pairTotal_mul_left]
  refine Store.total_congr fun key stake hstake => ?_
  rw [due, mul_zero, max_eq_left (mul_nonneg hstaked (hdebt key stake hstake))]

/-- In a new pair nothing is staked. -/
theorem emitted_of_unused (h : ∀ user, s.stakes.lookup (user, pairId) = none) :
    Emitted block block pairId pair s := by
  constructor <;> simp [pairTotal_of_unused h]

/-- In a later block the stakes have a share in more emissions. -/
theorem Emitted.mono {block' : ℕ} (h : Emitted created block pairId pair s)
    (ha : Accounted block s) (hpair : s.pairs.lookup pairId = some pair) (hle : block ≤ block') :
    Emitted created block' pairId pair s := by
  have he : 0 ≤ pair.emissionsPerBlock := (ha.sound.pair _ _ hpair).1.le
  have hgrow : 0 ≤ pair.emissionsPerBlock * ((block' : ℤ) - block) := mul_nonneg he (by omega)
  have hsplit : pair.emissionsPerBlock * ((block' : ℤ) - created) =
      pair.emissionsPerBlock * ((block : ℤ) - created) +
        pair.emissionsPerBlock * ((block' : ℤ) - block) := by ring
  constructor
  · rw [hsplit]
    exact h.debts.trans (le_add_of_nonneg_right hgrow)
  · have hdue : ∀ key stake, s.stakes.lookup key = some stake → key.2 = pairId →
        due (pairTotal pairId LPStake.lpBalance s) (accrued pair block') stake ≤
          due (pairTotal pairId LPStake.lpBalance s) (accrued pair block) stake +
            pair.emissionsPerBlock * ((block' : ℤ) - block) * stake.lpBalance := by
      intro key stake hstake _
      have hmore := mul_nonneg hgrow (ha.lp_nonneg key stake hstake)
      have hshare : stake.lpBalance * accrued pair block' = stake.lpBalance * accrued pair block +
          pair.emissionsPerBlock * ((block' : ℤ) - block) * stake.lpBalance := by
        rw [accrued, accrued]
        ring
      rw [due, due, hshare]
      exact max_le ((le_max_left _ _).trans (le_add_of_nonneg_right hmore))
        (add_le_add_left (le_max_right _ _) _)
    calc _ ≤ _ := pairTotal_le_pairTotal hdue
      _ = _ := by rw [pairTotal_add, pairTotal_mul_left]
      _ ≤ _ := add_le_add_left h.dues _
      _ = _ := by rw [hsplit]; ring

/-- Where the stakes are kept, so are the bounds. -/
theorem Emitted.of_stakes (he : Emitted created block pairId pair s)
    (hstakes : s'.stakes = s.stakes) : Emitted created block pairId pair s' := by
  have htotal (f : LPStake → ℤ) : pairTotal pairId f s' = pairTotal pairId f s := by
    rw [pairTotal, pairTotal, hstakes]
  refine ⟨?_, ?_⟩
  · rw [htotal]
    exact he.debts
  · rw [htotal, htotal]
    exact he.dues

theorem Accounted.of_stakes (ha : Accounted block s) (hsound : Sound block s')
    (hstakes : s'.stakes = s.stakes) (hpaid : ∀ pairId, rewardsPaid pairId s' = rewardsPaid pairId s) :
    Accounted block s' :=
  ⟨hsound, hstakes ▸ ha.debt, fun pairId => by rw [hpaid, ha.paid, pairTotal, pairTotal, hstakes]⟩

theorem Accounted.mono {block' : ℕ} (ha : Accounted block s) (hle : block ≤ block') :
    Accounted block' s := ⟨ha.sound.mono hle, ha.debt, ha.paid⟩

/-! ## What the calls pay -/

/-- A deposit or a withdrawal updates the pair, keeps the debt of the stake and pays nothing. -/
structure Restaked (block : ℕ) (user : Address) (pairId : ℕ) (s s' : State τ) : Prop where
  pair : ∃ pair, s.pairs.lookup pairId = some pair ∧
    s'.pairs = s.pairs.insert pairId { pair with lastUpdateBlock := block }
  stake : ∃ stake : LPStake,
    stake.rewardDebt = (s.stakes.lookup (user, pairId)).elim 0 LPStake.rewardDebt ∧
    s'.stakes = s.stakes.insert (user, pairId) stake
  paid : ∀ pairId, rewardsPaid pairId s' = rewardsPaid pairId s

/-- A claim pays the pending reward, and adds it to the debt of the stake. -/
structure Rewarded (block : ℕ) (user : Address) (called : ℕ) (s s' : State τ) : Prop where
  pairs : s'.pairs = s.pairs
  stake : ∃ stake pair reward, s.stakes.lookup (user, called) = some stake ∧
    s.pairs.lookup called = some pair ∧ 0 < reward ∧
    reward = pendingOf stake pair block (s.totalLpStaked.getD 0) ∧
    s'.stakes = s.stakes.insert (user, called)
      { stake with rewardDebt := stake.rewardDebt + reward } ∧
    ∀ pairId, rewardsPaid pairId s' = rewardsPaid pairId s + if called = pairId then reward else 0

theorem Restaked.debt_nonneg (h : Restaked block user called s s') (ha : Accounted block s) :
    ∀ key stake, s'.stakes.lookup key = some stake → 0 ≤ stake.rewardDebt := by
  obtain ⟨stake, hdebt, hstakes⟩ := h.stake
  intro key stake' hlookup
  rw [hstakes] at hlookup
  rcases Store.eq_or_lookup_of_insert hlookup with ⟨-, rfl⟩ | ⟨-, hold⟩
  · rw [hdebt]
    cases hold : s.stakes.lookup (user, called) with
    | none => exact le_rfl
    | some old => exact ha.debt _ old hold
  · exact ha.debt key stake' hold

theorem Restaked.pairTotal_debt (h : Restaked block user called s s') :
    pairTotal pairId LPStake.rewardDebt s' = pairTotal pairId LPStake.rewardDebt s := by
  obtain ⟨stake, hdebt, hstakes⟩ := h.stake
  by_cases hcalled : called = pairId
  · subst hcalled
    have hsum := pairTotal_insert (f := LPStake.rewardDebt) hstakes
    rw [hdebt] at hsum
    exact add_left_cancel hsum
  · exact pairTotal_insert_of_ne hstakes hcalled

theorem Restaked.accounted (h : Restaked block user called s s') (ha : Accounted block s)
    (hsound : Sound block s') : Accounted block s' :=
  ⟨hsound, h.debt_nonneg ha, fun _ => by rw [h.paid, ha.paid, h.pairTotal_debt]⟩

/-- After a deposit or a withdrawal nothing has accrued on the pair. -/
theorem Restaked.emitted (h : Restaked block user pairId s s') (ha' : Accounted block s')
    (he : Emitted created block pairId pair s) :
    Emitted created block pairId { pair with lastUpdateBlock := block } s' := by
  have hnonneg : 0 ≤ pairTotal pairId LPStake.lpBalance s' := ha'.pairTotal_lp_nonneg
  refine ⟨h.pairTotal_debt.trans_le he.debts, ?_⟩
  have hzero : accrued { pair with lastUpdateBlock := block } block = 0 := by simp [accrued]
  rw [hzero, pairTotal_due_zero hnonneg ha'.debt, h.pairTotal_debt]
  exact mul_le_mul_of_nonneg_left he.debts hnonneg

/-- What happens to the stakes on another pair leaves the bounds. -/
theorem Emitted.of_ne {stake : LPStake} (he : Emitted created block pairId pair s)
    (hstakes : s'.stakes = s.stakes.insert (user, called) stake) (hne : called ≠ pairId) :
    Emitted created block pairId pair s' := by
  have htotal (f : LPStake → ℤ) : pairTotal pairId f s' = pairTotal pairId f s :=
    pairTotal_insert_of_ne hstakes hne
  refine ⟨?_, ?_⟩
  · rw [htotal]
    exact he.debts
  · rw [htotal, htotal]
    exact he.dues

theorem Rewarded.accounted (h : Rewarded block user called s s') (ha : Accounted block s)
    (hsound : Sound block s') : Accounted block s' := by
  obtain ⟨stake, pair, reward, hstake, -, hpos, -, hstakes, hpaid⟩ := h.stake
  refine ⟨hsound, fun key stake' hlookup => ?_, fun pairId => ?_⟩
  · rw [hstakes] at hlookup
    rcases Store.eq_or_lookup_of_insert hlookup with ⟨-, rfl⟩ | ⟨-, hold⟩
    · exact add_nonneg (ha.debt _ _ hstake) hpos.le
    · exact ha.debt key stake' hold
  · rw [hpaid, ha.paid]
    by_cases hcalled : called = pairId
    · subst hcalled
      have hsum := pairTotal_insert (f := LPStake.rewardDebt) hstakes
      rw [hstake, Option.elim_some, add_assoc] at hsum
      rw [if_pos rfl, add_comm]
      exact (add_left_cancel hsum).symm
    · rw [if_neg hcalled, add_zero, pairTotal_insert_of_ne hstakes hcalled]

/-- A debt after a claim is at most the share of the stake. -/
theorem debt_mul_le_share {stake : LPStake} {reward total : ℤ} (hlp : 0 ≤ stake.lpBalance)
    (hemissions : 0 < pair.emissionsPerBlock) (hblock : pair.lastUpdateBlock ≤ block)
    (htotal : stake.lpBalance ≤ total) (hpos : 0 < reward)
    (hreward : reward = pendingOf stake pair block total) :
    0 < stake.lpBalance ∧
      (stake.rewardDebt + reward) * total ≤ stake.lpBalance * accrued pair block := by
  unfold pendingOf at hreward
  split at hreward
  · omega
  · have hnonneg := accrued_nonneg hlp hemissions hblock
    refine ⟨by omega, ?_⟩
    have hdebt : stake.rewardDebt + reward = userRewardShare stake pair block total := by omega
    rw [hdebt, userRewardShare, Int.tdiv_eq_ediv_of_nonneg hnonneg, accrued, ← mul_assoc]
    exact Int.ediv_mul_le _ (by omega)

/-- A claim stays below the share of the stake in the stakes on its own pair. -/
theorem Rewarded.emitted (h : Rewarded block user pairId s s') (ha : Accounted block s)
    (hpair : s.pairs.lookup pairId = some pair) (he : Emitted created block pairId pair s) :
    Emitted created block pairId pair s' := by
  obtain ⟨stake, pair', reward, hstake, hpair', hpos, hreward, hstakes, -⟩ := h.stake
  obtain rfl := Option.some.inj (hpair.symm.trans hpair')
  obtain ⟨hemissions, hblock⟩ := ha.sound.pair _ _ hpair
  have hdebt := ha.debt _ _ hstake
  have hle := ha.sound.le_stakedTotal hstake
  rw [← ha.sound.total] at hle
  obtain ⟨hlp, hshare⟩ := debt_mul_le_share (ha.lp_nonneg _ _ hstake) hemissions hblock hle hpos
    hreward
  -- the stakes on the pair are among all stakes
  have hstaked : pairTotal pairId LPStake.lpBalance s ≤ s.totalLpStaked.getD 0 := by
    rw [ha.sound.total]
    refine Store.total_le_total fun key stake' hstake' => ?_
    split
    · exact le_rfl
    · exact ha.lp_nonneg key stake' hstake'
  have hlp' : pairTotal pairId LPStake.lpBalance s' = pairTotal pairId LPStake.lpBalance s := by
    have hsum := pairTotal_insert (f := LPStake.lpBalance) hstakes
    rw [hstake, Option.elim_some] at hsum
    exact add_left_cancel hsum
  -- the new debt is covered by the share that the stake had already
  have hdue : pairTotal pairId (due (pairTotal pairId LPStake.lpBalance s) (accrued pair block)) s' ≤
      pairTotal pairId (due (pairTotal pairId LPStake.lpBalance s) (accrued pair block)) s := by
    have hsum := pairTotal_insert (f := due (pairTotal pairId LPStake.lpBalance s)
      (accrued pair block)) hstakes
    rw [hstake, Option.elim_some] at hsum
    have hnew : due (pairTotal pairId LPStake.lpBalance s) (accrued pair block)
        { stake with rewardDebt := stake.rewardDebt + reward } ≤
          due (pairTotal pairId LPStake.lpBalance s) (accrued pair block) stake := by
      refine (max_le ?_ le_rfl).trans (le_max_right _ _)
      calc _ ≤ s.totalLpStaked.getD 0 * (stake.rewardDebt + reward) :=
            mul_le_mul_of_nonneg_right hstaked (by omega)
        _ = (stake.rewardDebt + reward) * s.totalLpStaked.getD 0 := mul_comm _ _
        _ ≤ _ := hshare
    omega
  have hdues : pairTotal pairId (due (pairTotal pairId LPStake.lpBalance s') (accrued pair block))
      s' ≤ pairTotal pairId LPStake.lpBalance s' * (pair.emissionsPerBlock * (block - created)) := by
    rw [hlp']
    exact hdue.trans he.dues
  refine ⟨?_, hdues⟩
  have hpositive : 0 < pairTotal pairId LPStake.lpBalance s' := by
    rw [hlp']
    exact hlp.trans_le (le_pairTotal ha.lp_nonneg hstake)
  refine le_of_mul_le_mul_left ?_ hpositive
  rw [← pairTotal_mul_left]
  exact (pairTotal_le_pairTotal fun key stake' _ _ => le_max_left _ _).trans hdues

/-! ## Calls -/

/-- The creation of a pair with its emissions. -/
def Creates (action : LedgerAction Call) (pairId : ℕ) (emissionsPerBlock : ℤ) : Prop :=
  ∃ admin pairSymbol totalAllocated,
    action = .call (.createPair admin pairId pairSymbol emissionsPerBlock totalAllocated)

theorem Creates.unique {action : LedgerAction Call} {e e' : ℤ} (h : Creates action called e)
    (h' : Creates action pairId e') : called = pairId ∧ e = e' := by
  obtain ⟨_, _, _, rfl⟩ := h
  obtain ⟨_, _, _, h'⟩ := h'
  cases h'
  exact ⟨rfl, rfl⟩

/-- What the creation of a pair leaves. -/
structure Created (pairId : ℕ) (emissionsPerBlock : ℤ) (s s' : State τ) : Prop where
  fresh : s.pairs.lookup pairId = none
  pairs : ∃ pair : PairConfig, pair.emissionsPerBlock = emissionsPerBlock ∧
    s'.pairs = s.pairs.insert pairId pair
  stakes : s'.stakes = s.stakes
  paid : ∀ pairId, rewardsPaid pairId s' = rewardsPaid pairId s

/-- What a call leaves that is not about pairs. -/
structure Unmined (s s' : State τ) : Prop where
  pairs : s'.pairs = s.pairs
  stakes : s'.stakes = s.stakes
  events : s'.events = s.events

theorem rewardsPaid_append {event : Event} (hevents : s'.events = s.events ++ [event]) :
    rewardsPaid pairId s' = rewardsPaid pairId s + rewardPaid pairId event := by
  simp [rewardsPaid, hevents]

/-- In the block of the update of its pair a stake has no reward to claim. -/
theorem calculatePendingReward_updated {reward : ℤ} (hpair : s.pairs.lookup pairId = some pair)
    (hblock : pair.lastUpdateBlock = ledger.sequence)
    (hdebt : ∀ key stake, s.stakes.lookup key = some stake → 0 ≤ stake.rewardDebt)
    (h : calculatePendingReward ledger user pairId s = .ok reward) : reward ≤ 0 := by
  simp only [calculatePendingReward, Except.bind_eq_ok, orAbort_eq_ok] at h
  obtain ⟨stake, hstake, _, hpair', h⟩ := h
  obtain rfl := Option.some.inj (hpair.symm.trans hpair')
  split at h
  · exact (Except.ok.inj h).ge
  · simp only [Except.bind_eq_ok] at h
    obtain ⟨multiplier, -, h⟩ := h
    rw [userRewardShare, hblock, sub_self, mul_zero, Int.zero_tdiv, zero_mul, Int.zero_tdiv,
      zero_sub] at h
    rw [← Except.ok.inj h]
    exact neg_nonpos.mpr (hdebt _ _ hstake)

/-- A withdrawal updates its pair before it looks for a reward. -/
theorem withdraw_reward_nonpos {reward : ℤ} (ha : Accounted block s)
    (h : calculatePendingReward ledger user called { s with
      pairs := s.pairs.insert called { pair with lastUpdateBlock := ledger.sequence } } =
        .ok reward) : reward ≤ 0 := by
  have hupdated := AList.lookup_insert (a := called)
    (b := { pair with lastUpdateBlock := ledger.sequence }) s.pairs
  refine calculatePendingReward_updated hupdated rfl ?_ h
  exact ha.debt

variable [TokenClient τ Address Address] {clock : ℕ → ℕ}

theorem restaked_of_provide {lpAmount : ℤ}
    (he : provideLiquidity ledger user called lpAmount s = .ok s') :
    Restaked ledger.sequence user called s s' := by
  simp only [provideLiquidity, requireInitialized, updatePairRewards, Except.bind_eq_ok,
    require_eq_ok, exists_const, orAbort_eq_ok] at he
  obtain ⟨-, -, pair, hpair, -, _, ⟨pair', hpair', h₁⟩, lpToken, -, tokens, -, he⟩ := he
  obtain rfl := Option.some.inj (hpair.symm.trans hpair')
  obtain rfl := Except.ok.inj h₁
  obtain rfl := Except.ok.inj he
  refine ⟨⟨pair, hpair, rfl⟩, ⟨_, ?_, rfl⟩, fun pairId => ?_⟩
  · cases s.stakes.lookup (user, called) <;> rfl
  · simp [rewardsPaid, rewardPaid]

/-- A withdrawal claims nothing: its pair was updated before. -/
theorem restaked_of_withdraw {lpAmount : ℤ} (ha : Accounted block s)
    (he : withdrawLiquidity ledger user called lpAmount s = .ok s') :
    Restaked ledger.sequence user called s s' := by
  simp only [withdrawLiquidity, requireInitialized, updatePairRewards, Except.bind_eq_ok,
    require_eq_ok, exists_const, orAbort_eq_ok] at he
  obtain ⟨-, -, stake, hstake, -, -, -, _, ⟨pair, hpair, h₁⟩, reward, hreward, ⟨paid, s₂⟩, hclaim,
    lpToken, -, tokens, -, he⟩ := he
  obtain rfl := Except.ok.inj h₁
  rw [claimRewardsInternal_of_nonpos (withdraw_reward_nonpos ha hreward)] at hclaim
  obtain ⟨-, rfl⟩ := Prod.mk.inj (Except.ok.inj hclaim)
  obtain rfl := Except.ok.inj he
  refine ⟨⟨pair, hpair, rfl⟩, ⟨_, ?_, rfl⟩, fun pairId => ?_⟩
  · rw [hstake]
    rfl
  · simp [rewardsPaid, rewardPaid]

theorem rewarded_of_claim {reward paid : ℤ} (ha : Accounted ledger.sequence s)
    (hinit : s.initialized = true)
    (hpending : calculatePendingReward ledger user called s = .ok reward) (hpos : 0 < reward)
    (h : claimRewardsInternal ledger user called reward s = .ok (paid, s')) :
    Rewarded ledger.sequence user called s s' := by
  have hget : getPendingRewards ledger user called s = .ok reward := by
    rw [getPendingRewards, requireInitialized, require, if_pos hinit, Except.ok_bind, hpending]
  obtain ⟨-, stake, pair, hstake, hpair, hreward⟩ := (getPendingRewards_eq_ok ha.sound).mp hget
  obtain ⟨-, _, _, stake', -, -, hstake', rfl⟩ := claimRewardsInternal_of_pos hpos h
  obtain rfl := Option.some.inj (hstake.symm.trans hstake')
  refine ⟨rfl, stake, pair, reward, hstake, hpair, hpos, hreward, rfl, fun pairId => ?_⟩
  rw [rewardsPaid_append (s := s) rfl, rewardPaid]

theorem rewarded_of_claimRewards {paid : ℤ} (ha : Accounted ledger.sequence s)
    (he : claimRewards ledger user called s = .ok (paid, s')) :
    Rewarded ledger.sequence user called s s' := by
  simp only [claimRewards, requireInitialized, Except.bind_eq_ok, require_eq_ok, exists_const] at he
  obtain ⟨hinit, reward, hpending, hpos, hclaim⟩ := he
  exact rewarded_of_claim ha hinit hpending hpos hclaim

/-- A lock claims the whole reward. -/
theorem rewarded_of_lock {lockupDays : ℕ} (ha : Accounted ledger.sequence s)
    (he : lockRewardsForGovernance ledger user called lockupDays s = .ok s') :
    Rewarded ledger.sequence user called s s' := by
  simp only [lockRewardsForGovernance, requireInitialized, Except.bind_eq_ok, require_eq_ok,
    exists_const] at he
  obtain ⟨hinit, -, reward, hpending, hpos, ⟨paid, s₁⟩, hclaim, he⟩ := he
  obtain rfl := Except.ok.inj he
  -- the locked rewards are counted before the claim, and read by nobody
  have ha₁ : Accounted ledger.sequence { s with
      locked := s.locked.insert user ((s.locked.lookup user).getD 0 + reward.tdiv 2) } :=
    ⟨⟨ha.sound.total, ha.sound.stored, ha.sound.stake, ha.sound.pair⟩, ha.debt, ha.paid⟩
  obtain ⟨hpairs, stake, pair, pending, hstake, hpair, hpositive, hreward, hstakes, hpaid⟩ :=
    rewarded_of_claim ha₁ hinit hpending hpos hclaim
  refine ⟨hpairs, stake, pair, pending, hstake, hpair, hpositive, hreward, hstakes, fun pairId => ?_⟩
  rw [rewardsPaid_append (s := s₁) rfl, rewardPaid, add_zero]
  · exact hpaid pairId
  · simp

/-- The user and the pair of a claim, also of one by a lock. -/
def claimer? : Call → Option (Address × ℕ)
  | .claimRewards user pairId | .lockRewardsForGovernance user pairId _ => some (user, pairId)
  | _ => none

/-- A call creates a pair, or it restakes, claims, or is not about pairs. -/
theorem execute_effect {call : Call} {r : Option ℤ} (ha : Accounted ledger.sequence s)
    (he : execute ledger s call = .ok (r, s')) :
    (∃ pairId emissionsPerBlock, Creates (.call call) pairId emissionsPerBlock ∧
      Created pairId emissionsPerBlock s s') ∨
    (∀ pairId emissionsPerBlock, ¬ Creates (.call call) pairId emissionsPerBlock) ∧
      ((claimer? call = none ∧ ∃ user called, Restaked ledger.sequence user called s s') ∨
        (∃ user called, claimer? call = some (user, called) ∧
          Rewarded ledger.sequence user called s s') ∨
        (claimer? call = none ∧ Unmined s s')) := by
  cases call with
  | init admin lpToken rewardToken governanceToken =>
    simp only [execute, init, Except.bind_eq_ok, require_eq_ok, exists_const] at he
    obtain ⟨_, ⟨-, h₁⟩, he⟩ := he
    obtain rfl := Except.ok.inj h₁
    obtain ⟨-, rfl⟩ := Prod.mk.inj (Except.ok.inj he)
    exact .inr ⟨by simp [Creates], .inr (.inr ⟨rfl, rfl, rfl, rfl⟩)⟩
  | createPair admin pairId pairSymbol emissionsPerBlock totalAllocated =>
    simp only [execute, createPair, requireInitialized, Except.bind_eq_ok, require_eq_ok,
      orAbort_eq_ok, exists_const] at he
    obtain ⟨_, ⟨-, storedAdmin, -, -, -, hfresh, h₁⟩, he⟩ := he
    obtain rfl := Except.ok.inj h₁
    obtain ⟨-, rfl⟩ := Prod.mk.inj (Except.ok.inj he)
    refine .inl ⟨pairId, emissionsPerBlock, ⟨admin, pairSymbol, totalAllocated, rfl⟩, hfresh,
      ⟨_, rfl, rfl⟩, rfl, fun pairId' => ?_⟩
    simp [rewardsPaid, rewardPaid]
  | provideLiquidity user called lpAmount =>
    simp only [execute, Except.bind_eq_ok] at he
    obtain ⟨s₁, h₁, he⟩ := he
    obtain ⟨-, rfl⟩ := Prod.mk.inj (Except.ok.inj he)
    exact .inr ⟨by simp [Creates], .inl ⟨rfl, user, called, restaked_of_provide h₁⟩⟩
  | withdrawLiquidity user called lpAmount =>
    simp only [execute, Except.bind_eq_ok] at he
    obtain ⟨s₁, h₁, he⟩ := he
    obtain ⟨-, rfl⟩ := Prod.mk.inj (Except.ok.inj he)
    exact .inr ⟨by simp [Creates], .inl ⟨rfl, user, called, restaked_of_withdraw ha h₁⟩⟩
  | claimRewards user called =>
    simp only [execute, Except.bind_eq_ok] at he
    obtain ⟨⟨paid, s₁⟩, h₁, he⟩ := he
    obtain ⟨-, rfl⟩ := Prod.mk.inj (Except.ok.inj he)
    exact .inr ⟨by simp [Creates],
      .inr (.inl ⟨user, called, rfl, rewarded_of_claimRewards ha h₁⟩)⟩
  | lockRewardsForGovernance user called lockupDays =>
    simp only [execute, Except.bind_eq_ok] at he
    obtain ⟨s₁, h₁, he⟩ := he
    obtain ⟨-, rfl⟩ := Prod.mk.inj (Except.ok.inj he)
    exact .inr ⟨by simp [Creates], .inr (.inl ⟨user, called, rfl, rewarded_of_lock ha h₁⟩)⟩

/-- A claim or a lock transfers the reward that it records. -/
theorem transfersReward_of_execute {call : Call} {r : Option ℤ}
    (hcall : claimer? call = some (user, called)) (he : execute ledger s call = .ok (r, s')) :
    ∃ reward, TransfersReward user reward s s' ∧
      rewardsPaid called s' = rewardsPaid called s + reward := by
  cases call with
  | claimRewards user' called' =>
    obtain ⟨rfl, rfl⟩ := Prod.mk.inj (Option.some.inj hcall)
    simp only [execute, claimRewards, Except.bind_eq_ok, require_eq_ok, exists_const] at he
    obtain ⟨⟨paid, s₁⟩, ⟨_, -, reward, -, hpos, hclaim⟩, he⟩ := he
    obtain ⟨-, rfl⟩ := Prod.mk.inj (Except.ok.inj he)
    obtain ⟨-, rewardToken, tokens, stake, htoken, htransfer, -, rfl⟩ :=
      claimRewardsInternal_of_pos hpos hclaim
    refine ⟨reward, ⟨rewardToken, htoken, htransfer⟩, ?_⟩
    rw [rewardsPaid_append (s := s) rfl, rewardPaid, if_pos rfl]
  | lockRewardsForGovernance user' called' lockupDays =>
    obtain ⟨rfl, rfl⟩ := Prod.mk.inj (Option.some.inj hcall)
    simp only [execute, lockRewardsForGovernance, Except.bind_eq_ok, require_eq_ok,
      exists_const] at he
    obtain ⟨s₁, ⟨_, -, -, reward, -, hpos, ⟨paid, s₂⟩, hclaim, h₁⟩, he⟩ := he
    obtain rfl := Except.ok.inj h₁
    obtain ⟨-, rfl⟩ := Prod.mk.inj (Except.ok.inj he)
    obtain ⟨-, rewardToken, tokens, stake, htoken, htransfer, -, rfl⟩ :=
      claimRewardsInternal_of_pos hpos hclaim
    refine ⟨reward, ⟨rewardToken, htoken, htransfer⟩, ?_⟩
    -- the event of the lock reports no payment
    simp [rewardsPaid, rewardPaid]
  | _ => cases hcall

/-- What a commit adds to the rewards that were paid on a pair is transferred to the user who claims
or locks them. -/
def PaysOut (pairId : ℕ) (c : Commit (State τ) (LedgerAction Call) (Option (Option ℤ))) : Prop :=
  rewardsPaid pairId c.after = rewardsPaid pairId c.before ∨
    ∃ call user, c.call = .call call ∧ claimer? call = some (user, pairId) ∧
      TransfersReward user (rewardsPaid pairId c.after - rewardsPaid pairId c.before) c.before c.after

variable {c : Commit (State τ) (LedgerAction Call) (Option (Option ℤ))}

theorem paysOut_of_exec (ha : Accounted c.time c.before)
    (he : (withTransfers (contract τ clock)).exec c.time c.call c.before = .ok (c.result, c.after))
    (pairId : ℕ) : PaysOut pairId c := by
  obtain ⟨block, action, r, s, s'⟩ := c
  rcases exec_withTransfers_eq_ok he with ⟨call, result, rfl, hexec⟩ |
    ⟨token, src, dst, amount, tokens', rfl, -, -, hs'⟩
  · have hcall : execute ⟨block, clock block⟩ s call = .ok (result, s') := hexec
    rcases execute_effect (by exact ha) hcall with ⟨_, _, -, hcreated⟩ |
      ⟨-, ⟨-, _, _, hm⟩ | ⟨user, called, hclaimer, hm⟩ | ⟨-, hm⟩⟩
    · exact .inl (hcreated.paid pairId)
    · exact .inl (hm.paid pairId)
    · -- a claim or a lock pays on its own pair only
      by_cases hcalled : called = pairId
      · subst hcalled
        obtain ⟨reward, htransfers, hpaid⟩ := transfersReward_of_execute hclaimer hcall
        refine .inr ⟨call, user, rfl, hclaimer, ?_⟩
        dsimp only
        rwa [hpaid, add_sub_cancel_left]
      · obtain ⟨_, _, _, -, -, -, -, -, hpaid⟩ := hm.stake
        exact .inl (by rw [hpaid, if_neg hcalled, add_zero])
    · exact .inl (by rw [rewardsPaid, rewardsPaid, hm.events])
  · -- a transfer that is no call of the contract adds no event
    have hs' : s' = { s with tokens := tokens' } := hs'
    subst hs'
    exact .inl rfl

/-! ## Runs -/

/-- The pair is there, with the emissions it was created with and the bounds since. -/
def Bounded (created block pairId : ℕ) (emissionsPerBlock : ℤ) (s : State τ) : Prop :=
  ∃ pair, s.pairs.lookup pairId = some pair ∧ pair.emissionsPerBlock = emissionsPerBlock ∧
    Emitted created block pairId pair s

omit [TokenClient τ Address Address] in
theorem Restaked.bounded {emissionsPerBlock : ℤ} (h : Restaked block user called s s')
    (ha' : Accounted block s') (hb : Bounded created block pairId emissionsPerBlock s) :
    Bounded created block pairId emissionsPerBlock s' := by
  obtain ⟨pair, hpair, hemissions, he⟩ := hb
  obtain ⟨pair', hpair', hpairs⟩ := h.pair
  by_cases hcalled : called = pairId
  · subst hcalled
    obtain rfl := Option.some.inj (hpair.symm.trans hpair')
    exact ⟨{ pair with lastUpdateBlock := block }, by rw [hpairs, AList.lookup_insert], hemissions,
      h.emitted ha' he⟩
  · obtain ⟨stake, -, hstakes⟩ := h.stake
    refine ⟨pair, ?_, hemissions, he.of_ne hstakes hcalled⟩
    rw [hpairs, AList.lookup_insert_ne (Ne.symm hcalled), hpair]

omit [TokenClient τ Address Address] in
theorem Rewarded.bounded {emissionsPerBlock : ℤ} (h : Rewarded block user called s s')
    (ha : Accounted block s) (hb : Bounded created block pairId emissionsPerBlock s) :
    Bounded created block pairId emissionsPerBlock s' := by
  obtain ⟨pair, hpair, hemissions, he⟩ := hb
  refine ⟨pair, by rw [h.pairs, hpair], hemissions, ?_⟩
  by_cases hcalled : called = pairId
  · subst hcalled
    exact h.emitted ha hpair he
  · obtain ⟨stake, _, _, -, -, -, -, hstakes, -⟩ := h.stake
    exact he.of_ne hstakes hcalled

omit [TokenClient τ Address Address] in
/-- A new pair is within its bounds, and the others are kept. -/
theorem Created.bounded {emissionsPerBlock : ℤ} (h : Created called emissionsPerBlock s s')
    (hsound : Sound block s) :
    Bounded block block called emissionsPerBlock s' ∧
      ∀ created pairId e, Bounded created block pairId e s → Bounded created block pairId e s' := by
  obtain ⟨pair, hemissions, hpairs⟩ := h.pairs
  constructor
  · refine ⟨pair, by rw [hpairs, AList.lookup_insert], hemissions, emitted_of_unused fun user => ?_⟩
    -- a stake belongs to a pair
    rw [h.stakes, ← Option.not_isSome_iff_eq_none]
    intro hstake
    obtain ⟨stake, hstake⟩ := Option.isSome_iff_exists.mp hstake
    obtain ⟨-, -, hsome⟩ := hsound.stake _ _ _ hstake
    rw [h.fresh] at hsome
    cases hsome
  · rintro created pairId e ⟨pair', hpair', he, hemitted⟩
    refine ⟨pair', ?_, he, hemitted.of_stakes h.stakes⟩
    have hne : pairId ≠ called := by
      rintro rfl
      rw [h.fresh] at hpair'
      cases hpair'
    rw [hpairs, AList.lookup_insert_ne hne, hpair']

/-- An action keeps the accounts and the bounds of every pair, and a pair is created within its
bounds. -/
theorem Accounted.action {action : LedgerAction Call} {r : Option (Option ℤ)} (ha : Accounted block s)
    (he : (withTransfers (contract τ clock)).exec block action s = .ok (r, s')) :
    Accounted block s' ∧
    (∀ created pairId e, Bounded created block pairId e s → Bounded created block pairId e s') ∧
    ∀ pairId e, Creates action pairId e → Bounded block block pairId e s' := by
  rcases exec_withTransfers_eq_ok he with ⟨call, result, rfl, hexec⟩ |
    ⟨token, src, dst, amount, tokens', rfl, -, -, rfl⟩
  · have hsound := Sound.execute (c := ⟨block, call, result, s, s'⟩) ha.sound hexec
    have hcall : execute ⟨block, clock block⟩ s call = .ok (result, s') := hexec
    rcases execute_effect (by exact ha) hcall with ⟨called, e, hcreates, hcreated⟩ |
      ⟨hnot, ⟨-, user, called, hm⟩ | ⟨user, called, -, hm⟩ | ⟨-, hm⟩⟩
    · obtain ⟨hnew, hold⟩ := hcreated.bounded ha.sound
      refine ⟨ha.of_stakes hsound hcreated.stakes hcreated.paid, hold, fun pairId e' h => ?_⟩
      obtain ⟨rfl, rfl⟩ := hcreates.unique h
      exact hnew
    · have ha' := hm.accounted ha hsound
      exact ⟨ha', fun _ _ _ hb => hm.bounded ha' hb, fun pairId e h => absurd h (hnot pairId e)⟩
    · exact ⟨hm.accounted ha hsound, fun _ _ _ hb => hm.bounded ha hb,
        fun pairId e h => absurd h (hnot pairId e)⟩
    · refine ⟨ha.of_stakes hsound hm.stakes fun _ => by rw [rewardsPaid, rewardsPaid, hm.events], ?_,
        fun pairId e h => absurd h (hnot pairId e)⟩
      rintro created pairId e ⟨pair, hpair, hemissions, hemitted⟩
      exact ⟨pair, by rw [hm.pairs, hpair], hemissions, hemitted.of_stakes hm.stakes⟩
  · refine ⟨⟨⟨ha.sound.total, ha.sound.stored, ha.sound.stake, ha.sound.pair⟩, ha.debt, ha.paid⟩,
      ?_, fun pairId e h => ?_⟩
    · rintro created pairId e ⟨pair, hpair, hemissions, hemitted⟩
      exact ⟨pair, hpair, hemissions, hemitted.of_stakes rfl⟩
    · obtain ⟨_, _, _, h⟩ := h
      cases h

variable {w : World (State τ)} {log : List (Commit (State τ) (LedgerAction Call) (Option (Option ℤ)))}
  {sequence₀ : ℕ} {contractAddress : Address} {tokens : τ}

omit [TokenClient τ Address Address] in
theorem accounted_empty : Accounted block (State.empty contractAddress tokens) where
  sound := sound_empty
  debt key stake h := by simp [State.empty] at h
  paid pairId := by simp [rewardsPaid, pairTotal, State.empty]

theorem accounted_of_run
    (hrun : (withTransfers (contract τ clock)).Run ⟨sequence₀, .empty contractAddress tokens⟩ w
      log) :
    Accounted w.now w.store ∧ ∀ c ∈ log, ∀ pairId e, Creates c.call pairId e →
      Bounded c.time w.now pairId e w.store := by
  refine hrun.invariant_log (I := fun t s log => Accounted t s ∧ ∀ c ∈ log, ∀ pairId e,
    Creates c.call pairId e → Bounded c.time t pairId e s) ⟨accounted_empty, by simp⟩ ?_ ?_
  · rintro t t' s log hle ⟨ha, hlog⟩
    refine ⟨ha.mono hle, fun c hc pairId e h => ?_⟩
    obtain ⟨pair, hpair, hemissions, hemitted⟩ := hlog c hc pairId e h
    exact ⟨pair, hpair, hemissions, hemitted.mono ha hpair hle⟩
  · rintro t action r s s' log ⟨ha, hlog⟩ he
    obtain ⟨ha', hold, hnew⟩ := ha.action he
    refine ⟨ha', fun c hc pairId e h => ?_⟩
    rcases List.mem_append.mp hc with hc | hc
    · exact hold _ _ _ (hlog c hc pairId e h)
    · obtain rfl := List.mem_singleton.mp hc
      exact hnew pairId e h

/-- In every run the rewards that were paid are transferred. -/
theorem paysOut_of_run
    (hrun : (withTransfers (contract τ clock)).Run ⟨sequence₀, .empty contractAddress tokens⟩ w
      log) : ∀ c ∈ log, ∀ pairId, PaysOut pairId c :=
  (hrun.invariant_and_mem (I := fun t s _ => Accounted t s) (P := fun c => ∀ pairId, PaysOut pairId c)
    accounted_empty (fun _ _ _ _ hle ha => ha.mono hle)
    fun t k r s s' _ ha he => ⟨(ha.action he).1, paysOut_of_exec (c := ⟨t, k, r, s, s'⟩) ha he⟩).2

/-- The rewards that were paid on a pair, all of them by transfers, are at most its emissions for the
blocks since it was created. -/
theorem rewardsPaid_le
    (hrun : (withTransfers (contract τ clock)).Run ⟨sequence₀, .empty contractAddress tokens⟩ w log)
    {c : Commit (State τ) (LedgerAction Call) (Option (Option ℤ))} (hc : c ∈ log)
    {pairId : ℕ} {e : ℤ}
    (hcreates : Creates c.call pairId e) :
    (w.store.pairs.lookup pairId).map PairConfig.emissionsPerBlock = some e ∧
      rewardsPaid pairId w.store ≤ e * (w.now - c.time) ∧ ∀ d ∈ log, PaysOut pairId d := by
  obtain ⟨ha, hlog⟩ := accounted_of_run hrun
  obtain ⟨pair, hpair, rfl, hemitted⟩ := hlog c hc pairId e hcreates
  rw [hpair, ha.paid]
  exact ⟨rfl, hemitted.debts, fun d hd => paysOut_of_run hrun d hd pairId⟩

/-- Two users deposit, one of them claims, the contract gets more tokens, and the other one locks
its rewards. -/
def emissionActions : List (ℕ × LedgerAction Call) :=
  [(1, .call (.init ⟨5⟩ ⟨10⟩ ⟨11⟩ ⟨12⟩)), (1, .call (.createPair ⟨5⟩ 1 "USDC_XLM" 10 1000)),
    (1, .call (.provideLiquidity ⟨1⟩ 1 50)), (2, .call (.provideLiquidity ⟨2⟩ 1 50)),
    (4, .call (.claimRewards ⟨1⟩ 1)), (4, .transfer ⟨11⟩ ⟨3⟩ ⟨9⟩ 20),
    (5, .call (.lockRewardsForGovernance ⟨2⟩ 1 30))]

def emissionTokens : Balances Address Address := sampleTokens.mint ⟨11⟩ ⟨3⟩ 20

/-- Of the emissions of four blocks 25 are paid. -/
theorem rewardsPaid_le_sample :
    ∃ w log, (withTransfers (contract (Balances Address Address) (1000 + ·))).Run
        ⟨0, .empty ⟨9⟩ emissionTokens⟩ w log ∧ rewardsPaid 1 w.store = 25 ∧
      ∃ c ∈ log, Creates c.call 1 10 ∧ c.time = 1 ∧ w.now = 5 ∧
        (w.store.pairs.lookup 1).map PairConfig.emissionsPerBlock = some 10 ∧
        rewardsPaid 1 w.store ≤ 10 * (w.now - c.time) ∧ ∀ d ∈ log, PaysOut 1 d := by
  have hrun := Contract.run_play (withTransfers (contract (Balances Address Address) (1000 + ·)))
    ⟨0, .empty ⟨9⟩ emissionTokens⟩ emissionActions (by decide)
  obtain ⟨c, hc⟩ : ∃ c, ((withTransfers (contract (Balances Address Address) (1000 + ·))).play
      ⟨0, .empty ⟨9⟩ emissionTokens⟩ emissionActions).2[1]? = some c := ⟨_, rfl⟩
  have hcreates : Creates c.call 1 10 := by
    obtain rfl := Option.some.inj hc
    exact ⟨⟨5⟩, "USDC_XLM", 1000, rfl⟩
  have htime : c.time = 1 := by
    obtain rfl := Option.some.inj hc
    rfl
  exact ⟨_, _, hrun, rfl, c, List.mem_of_getElem? hc, hcreates, htime, rfl,
    rewardsPaid_le hrun (List.mem_of_getElem? hc) hcreates⟩

end Stellara.Mining
