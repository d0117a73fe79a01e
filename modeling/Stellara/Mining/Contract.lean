import Stellara.Host.Transfers

/-!
# Liquidity mining

Users stake LP tokens on the pairs of an administrator, and earn a share of the emissions of the
pair for every block since its last update. The share is that of the stake in the stakes on all
pairs together.

The integers are exact; blocks and timestamps are those of the ledger of the call.

## Main definitions

* `PairConfig`, `LPStake`, `MultiplierConfig`, `State`: the storage of the contract
* `calculatePendingReward`, `claimRewardsInternal`, `updatePairRewards`: the rewards
* `init`, `createPair`, `provideLiquidity`, `withdrawLiquidity`, `lockRewardsForGovernance`,
  `claimRewards`, `getPendingRewards`: the entry points
* `contract`: liquidity mining as a transactional contract

## Main results

* `provideLiquidity_eq_ok`, `withdrawLiquidity_eq_ok`, `claimRewardsInternal_eq_ok`: what the calls
  that return have checked and written
-/

namespace Stellara.Mining

/-! ## Storage -/

structure PairConfig where
  pairId : ℕ
  pairSymbol : Symbol
  emissionsPerBlock : ℤ
  totalAllocated : ℤ
  accumulatedRewardPerShare : ℤ
  lastUpdateBlock : ℕ
  active : Bool
deriving DecidableEq, Repr

structure LPStake where
  user : Address
  pairId : ℕ
  lpBalance : ℤ
  startTimestamp : ℕ
  rewardDebt : ℤ
  bonusMultiplierTier : ℕ
deriving DecidableEq, Repr

structure MultiplierConfig where
  lockupTier1Days : ℕ
  multiplierTier1 : ℕ
  lockupTier2Days : ℕ
  multiplierTier2 : ℕ
  lockupTier3Days : ℕ
  multiplierTier3 : ℕ
deriving DecidableEq, Repr

inductive LiquidityMiningError where
  | alreadyInitialized
  | notInitialized
  | unauthorized
  | invalidAmount
  | invalidPair
  | insufficientBalance
  | insufficientRewardBalance
  | noRewardsToClaim
  | invalidEmissionSchedule
  | invalidMultiplier
  | pairAlreadyExists
  | invalidLockupPeriod
  | stillLocked
deriving DecidableEq, Repr

inductive Event where
  | pairNew (pairId : ℕ) (pairSymbol : Symbol) (emissionsPerBlock : ℤ)
  | liquidityProvided (user : Address) (pairId : ℕ) (lpAmount : ℤ) (timestamp : ℕ)
  | liquidityWithdrawn (user : Address) (pairId : ℕ) (lpAmount : ℤ) (timestamp : ℕ)
  | rewardsClaimed (user : Address) (pairId : ℕ) (rewardAmount governanceLocked : ℤ)
      (timestamp : ℕ)
  | governanceLocked (user : Address) (governancePower : ℤ) (lockupDuration timestamp : ℕ)
deriving DecidableEq, Repr

/-- The storage of the contract, its events, and the token contracts. The stakes are kept by user
and pair. -/
structure State (τ : Type) where
  contractAddress : Address
  initialized : Bool
  admin : Option Address
  lpToken : Option Address
  rewardToken : Option Address
  governanceToken : Option Address
  pairList : List ℕ
  multiplierConfig : Option MultiplierConfig
  totalLpStaked : Option ℤ
  lastRewardBlock : Option ℕ
  pairs : Store ℕ PairConfig
  stakes : Store (Address × ℕ) LPStake
  locked : Store Address ℤ
  tokens : τ
  events : List Event

abbrev Returns (α : Type) := Outcome LiquidityMiningError α

variable {τ : Type}

/-- The contract before `init`. -/
def State.empty (contractAddress : Address) (tokens : τ) : State τ where
  contractAddress := contractAddress
  initialized := false
  admin := none
  lpToken := none
  rewardToken := none
  governanceToken := none
  pairList := []
  multiplierConfig := none
  totalLpStaked := none
  lastRewardBlock := none
  pairs := ∅
  stakes := ∅
  locked := ∅
  tokens := tokens
  events := []

def requireInitialized (s : State τ) : Returns Unit :=
  require (s.initialized = true) (.error .notInitialized)

/-! ## Administration -/

/-- `initialize`. -/
def init (ledger : Ledger) (admin lpToken rewardToken governanceToken : Address) (s : State τ) :
    Returns (State τ) := do
  require (s.initialized = false) (.error .alreadyInitialized)
  .ok { s with
    initialized := true
    admin := some admin
    lpToken := some lpToken
    rewardToken := some rewardToken
    governanceToken := some governanceToken
    pairList := []
    multiplierConfig := some ⟨30, 200, 90, 300, 180, 500⟩
    totalLpStaked := some 0
    lastRewardBlock := some ledger.sequence }

def createPair (ledger : Ledger) (admin : Address) (pairId : ℕ) (pairSymbol : Symbol)
    (emissionsPerBlock totalAllocated : ℤ) (s : State τ) : Returns (State τ) := do
  requireInitialized s
  let storedAdmin ← orAbort (.error .notInitialized) s.admin
  require (admin = storedAdmin) (.error .unauthorized)
  require (¬ (emissionsPerBlock ≤ 0 ∨ totalAllocated ≤ 0)) (.error .invalidAmount)
  let pairConfig : PairConfig :=
    ⟨pairId, pairSymbol, emissionsPerBlock, totalAllocated, 0, ledger.sequence, true⟩
  require (s.pairs.lookup pairId = none) (.error .pairAlreadyExists)
  .ok { s with
    pairs := s.pairs.insert pairId pairConfig
    pairList := s.pairList ++ [pairId]
    events := s.events ++ [.pairNew pairId pairSymbol emissionsPerBlock] }

/-! ## Rewards -/

def getBonusMultiplier : ℕ → Returns ℤ
  | 0 => .ok 100
  | 1 => .ok 200
  | 2 => .ok 300
  | 3 => .ok 500
  | _ => .error (.error .invalidMultiplier)

/-- The share of a stake in the emissions of its pair up to `block`, with `totalStaked` in all
stakes. -/
def userRewardShare (stake : LPStake) (pair : PairConfig) (block : ℕ) (totalStaked : ℤ) : ℤ :=
  (stake.lpBalance * pair.emissionsPerBlock * (block - pair.lastUpdateBlock)).tdiv totalStaked

def calculatePendingReward (ledger : Ledger) (user : Address) (pairId : ℕ) (s : State τ) :
    Returns ℤ := do
  let stake ← orAbort (.error .invalidPair) (s.stakes.lookup (user, pairId))
  let pair ← orAbort (.error .invalidPair) (s.pairs.lookup pairId)
  let totalStaked := s.totalLpStaked.getD 1
  if totalStaked = 0 ∨ stake.lpBalance = 0 then .ok 0
  else do
    let multiplier ← getBonusMultiplier stake.bonusMultiplierTier
    let finalReward := (userRewardShare stake pair ledger.sequence totalStaked * multiplier).tdiv 100
    .ok (finalReward - stake.rewardDebt)

def updatePairRewards (ledger : Ledger) (pairId : ℕ) (s : State τ) : Returns (State τ) := do
  let pair ← orAbort (.error .invalidPair) (s.pairs.lookup pairId)
  .ok { s with pairs := s.pairs.insert pairId { pair with lastUpdateBlock := ledger.sequence } }

variable [TokenClient τ Address Address]

def claimRewardsInternal (ledger : Ledger) (user : Address) (pairId : ℕ) (pendingReward : ℤ)
    (s : State τ) : Returns (ℤ × State τ) :=
  if pendingReward ≤ 0 then .ok (0, s)
  else do
    let rewardToken ← orAbort (.error .notInitialized) s.rewardToken
    require (pendingReward ≤ TokenClient.balance s.tokens rewardToken s.contractAddress)
      (.error .insufficientRewardBalance)
    let tokens ← tokenTransfer s.tokens rewardToken s.contractAddress user pendingReward
    let stake ← orAbort (.error .invalidPair) (s.stakes.lookup (user, pairId))
    let stake := { stake with rewardDebt := stake.rewardDebt + pendingReward }
    .ok (pendingReward, { s with
      tokens := tokens
      stakes := s.stakes.insert (user, pairId) stake
      events := s.events ++ [.rewardsClaimed user pairId pendingReward 0 ledger.timestamp] })

omit [TokenClient τ Address Address] in
def getPendingRewards (ledger : Ledger) (user : Address) (pairId : ℕ) (s : State τ) :
    Returns ℤ := do
  requireInitialized s
  calculatePendingReward ledger user pairId s

def claimRewards (ledger : Ledger) (user : Address) (pairId : ℕ) (s : State τ) :
    Returns (ℤ × State τ) := do
  requireInitialized s
  let pendingReward ← calculatePendingReward ledger user pairId s
  require (0 < pendingReward) (.error .noRewardsToClaim)
  claimRewardsInternal ledger user pairId pendingReward s

/-- Half of the reward counts as governance power; all of it is claimed. -/
def lockRewardsForGovernance (ledger : Ledger) (user : Address) (pairId lockupDays : ℕ)
    (s : State τ) : Returns (State τ) := do
  requireInitialized s
  require (¬ (lockupDays = 0 ∨ 365 < lockupDays)) (.error .invalidLockupPeriod)
  let pendingReward ← calculatePendingReward ledger user pairId s
  require (0 < pendingReward) (.error .noRewardsToClaim)
  let governanceAmount := pendingReward.tdiv 2
  let locked := (s.locked.lookup user).getD 0 + governanceAmount
  let (_, s) ← claimRewardsInternal ledger user pairId pendingReward
    { s with locked := s.locked.insert user locked }
  .ok { s with events :=
    s.events ++ [.governanceLocked user governanceAmount lockupDays ledger.timestamp] }

/-! ## Liquidity -/

def provideLiquidity (ledger : Ledger) (user : Address) (pairId : ℕ) (lpAmount : ℤ) (s : State τ) :
    Returns (State τ) := do
  requireInitialized s
  require (0 < lpAmount) (.error .invalidAmount)
  let pairConfig ← orAbort (.error .invalidPair) (s.pairs.lookup pairId)
  require (pairConfig.active = true) (.error .invalidPair)
  let s ← updatePairRewards ledger pairId s
  let stake := (s.stakes.lookup (user, pairId)).getD ⟨user, pairId, 0, ledger.timestamp, 0, 0⟩
  let lpToken ← orAbort (.error .notInitialized) s.lpToken
  let tokens ← tokenTransfer s.tokens lpToken user s.contractAddress lpAmount
  .ok { s with
    tokens := tokens
    stakes := s.stakes.insert (user, pairId) { stake with lpBalance := stake.lpBalance + lpAmount }
    totalLpStaked := some (s.totalLpStaked.getD 0 + lpAmount)
    events := s.events ++ [.liquidityProvided user pairId lpAmount ledger.timestamp] }

/-- The lockup of a tier, in seconds. -/
def requiredSeconds (config : MultiplierConfig) : ℕ → ℕ
  | 1 => config.lockupTier1Days * 24 * 60 * 60
  | 2 => config.lockupTier2Days * 24 * 60 * 60
  | 3 => config.lockupTier3Days * 24 * 60 * 60
  | _ => 0

/-- A stake with a multiplier is not withdrawn during its lockup. -/
def checkLockup (ledger : Ledger) (stake : LPStake) (s : State τ) : Returns Unit :=
  if 0 < stake.bonusMultiplierTier then do
    let config ← orAbort (.error .invalidMultiplier) s.multiplierConfig
    require (¬ (ledger.timestamp : ℤ) - stake.startTimestamp <
      requiredSeconds config stake.bonusMultiplierTier) (.error .stillLocked)
  else .ok ()

/-- Withdraw LP tokens. The stake that is written was read before the claim of a reward. -/
def withdrawLiquidity (ledger : Ledger) (user : Address) (pairId : ℕ) (lpAmount : ℤ)
    (s : State τ) : Returns (State τ) := do
  requireInitialized s
  require (0 < lpAmount) (.error .invalidAmount)
  let stake ← orAbort (.error .invalidPair) (s.stakes.lookup (user, pairId))
  require (lpAmount ≤ stake.lpBalance) (.error .insufficientBalance)
  checkLockup ledger stake s
  let s ← updatePairRewards ledger pairId s
  let pendingReward ← calculatePendingReward ledger user pairId s
  -- a reward that is not positive is not claimed
  let (_, s) ← claimRewardsInternal ledger user pairId pendingReward s
  let lpToken ← orAbort (.error .notInitialized) s.lpToken
  let tokens ← tokenTransfer s.tokens lpToken s.contractAddress user lpAmount
  .ok { s with
    tokens := tokens
    stakes := s.stakes.insert (user, pairId) { stake with lpBalance := stake.lpBalance - lpAmount }
    totalLpStaked := some (s.totalLpStaked.getD 0 - lpAmount)
    events := s.events ++ [.liquidityWithdrawn user pairId lpAmount ledger.timestamp] }

/-! ## The contract -/

inductive Call where
  | init (admin lpToken rewardToken governanceToken : Address)
  | createPair (admin : Address) (pairId : ℕ) (pairSymbol : Symbol)
      (emissionsPerBlock totalAllocated : ℤ)
  | provideLiquidity (user : Address) (pairId : ℕ) (lpAmount : ℤ)
  | withdrawLiquidity (user : Address) (pairId : ℕ) (lpAmount : ℤ)
  | claimRewards (user : Address) (pairId : ℕ)
  | lockRewardsForGovernance (user : Address) (pairId lockupDays : ℕ)
deriving DecidableEq, Repr

/-- Execute a call. What it returns is a claimed reward, or nothing. -/
def execute (ledger : Ledger) (s : State τ) : Call → Returns (Option ℤ × State τ)
  | .init admin lpToken rewardToken governanceToken => do
    .ok (none, ← init ledger admin lpToken rewardToken governanceToken s)
  | .createPair admin pairId pairSymbol emissionsPerBlock totalAllocated => do
    .ok (none, ← createPair ledger admin pairId pairSymbol emissionsPerBlock totalAllocated s)
  | .provideLiquidity user pairId lpAmount => do
    .ok (none, ← provideLiquidity ledger user pairId lpAmount s)
  | .withdrawLiquidity user pairId lpAmount => do
    .ok (none, ← withdrawLiquidity ledger user pairId lpAmount s)
  | .claimRewards user pairId => do
    let (reward, s) ← claimRewards ledger user pairId s
    .ok (some reward, s)
  | .lockRewardsForGovernance user pairId lockupDays => do
    .ok (none, ← lockRewardsForGovernance ledger user pairId lockupDays s)

/-- The contract. Its time is the number of the ledger, and `clock` gives the timestamps. -/
def contract (τ : Type) [TokenClient τ Address Address] (clock : ℕ → ℕ) :
    Contract (State τ) Call (Option ℤ) (Fault LiquidityMiningError) where
  exec sequence call s := execute ⟨sequence, clock sequence⟩ s call

instance : HoldsTokens (State τ) τ where
  contractAddress := State.contractAddress
  tokens := State.tokens
  setTokens tokens s := { s with tokens := tokens }

/-! ## What the calls write -/

variable {ledger : Ledger} {user : Address} {pairId lockupDays : ℕ} {lpAmount reward : ℤ}
  {s s' : State τ}

theorem provideLiquidity_eq_ok (h : provideLiquidity ledger user pairId lpAmount s = .ok s') :
    s.initialized = true ∧ 0 < lpAmount ∧
      ∃ pair, s.pairs.lookup pairId = some pair ∧ ∃ tokens events, s' = { s with
        tokens := tokens
        pairs := s.pairs.insert pairId { pair with lastUpdateBlock := ledger.sequence }
        stakes :=
          let stake := (s.stakes.lookup (user, pairId)).getD
            ⟨user, pairId, 0, ledger.timestamp, 0, 0⟩
          s.stakes.insert (user, pairId) { stake with lpBalance := stake.lpBalance + lpAmount }
        totalLpStaked := some (s.totalLpStaked.getD 0 + lpAmount)
        events := events } := by
  simp only [provideLiquidity, requireInitialized, updatePairRewards, Except.bind_eq_ok,
    require_eq_ok, exists_const, orAbort_eq_ok] at h
  obtain ⟨hinit, hpos, pair, hpair, -, _, ⟨pair', hpair', h₁⟩, lpToken, -, tokens, -, h⟩ := h
  obtain rfl := Option.some.inj (hpair.symm.trans hpair')
  obtain rfl := Except.ok.inj h₁
  obtain rfl := Except.ok.inj h
  exact ⟨hinit, hpos, pair, hpair, tokens, _, rfl⟩

/-- A claim adds the reward to the debt of the stake, or leaves the state. -/
theorem claimRewardsInternal_eq_ok
    (h : claimRewardsInternal ledger user pairId reward s = .ok (lpAmount, s')) :
    s' = s ∨ ∃ stake, s.stakes.lookup (user, pairId) = some stake ∧ ∃ tokens events, s' = { s with
      tokens := tokens
      stakes := s.stakes.insert (user, pairId)
        { stake with rewardDebt := stake.rewardDebt + reward }
      events := events } := by
  unfold claimRewardsInternal at h
  split at h
  · exact .inl (Prod.mk.inj (Except.ok.inj h)).2.symm
  · simp only [Except.bind_eq_ok, require_eq_ok, exists_const, orAbort_eq_ok] at h
    obtain ⟨rewardToken, -, -, tokens, -, stake, hstake, h⟩ := h
    obtain ⟨-, rfl⟩ := Prod.mk.inj (Except.ok.inj h)
    exact .inr ⟨stake, hstake, tokens, _, rfl⟩

/-- A reward that is not positive is not claimed. -/
theorem claimRewardsInternal_of_nonpos (h : reward ≤ 0) :
    claimRewardsInternal ledger user pairId reward s = .ok (0, s) := if_pos h

/-- A positive reward is transferred from the contract to the user. -/
theorem claimRewardsInternal_of_pos (hpos : 0 < reward)
    (h : claimRewardsInternal ledger user pairId reward s = .ok (lpAmount, s')) :
    lpAmount = reward ∧ ∃ rewardToken tokens stake, s.rewardToken = some rewardToken ∧
      TokenClient.transfer s.tokens rewardToken s.contractAddress user reward = some tokens ∧
      s.stakes.lookup (user, pairId) = some stake ∧ s' = { s with
        tokens := tokens
        stakes := s.stakes.insert (user, pairId)
          { stake with rewardDebt := stake.rewardDebt + reward }
        events := s.events ++ [.rewardsClaimed user pairId reward 0 ledger.timestamp] } := by
  rw [claimRewardsInternal, if_neg (not_le.mpr hpos)] at h
  simp only [Except.bind_eq_ok, require_eq_ok, exists_const, orAbort_eq_ok,
    tokenTransfer_eq_ok] at h
  obtain ⟨rewardToken, htoken, -, tokens, htransfer, stake, hstake, h⟩ := h
  obtain ⟨rfl, rfl⟩ := Prod.mk.inj (Except.ok.inj h)
  exact ⟨rfl, rewardToken, tokens, stake, htoken, htransfer, hstake, rfl⟩

theorem withdrawLiquidity_eq_ok (h : withdrawLiquidity ledger user pairId lpAmount s = .ok s') :
    s.initialized = true ∧ 0 < lpAmount ∧
      ∃ stake pair, s.stakes.lookup (user, pairId) = some stake ∧ lpAmount ≤ stake.lpBalance ∧
        s.pairs.lookup pairId = some pair ∧ ∃ tokens events, s' = { s with
          tokens := tokens
          pairs := s.pairs.insert pairId { pair with lastUpdateBlock := ledger.sequence }
          stakes := s.stakes.insert (user, pairId)
            { stake with lpBalance := stake.lpBalance - lpAmount }
          totalLpStaked := some (s.totalLpStaked.getD 0 - lpAmount)
          events := events } := by
  simp only [withdrawLiquidity, requireInitialized, updatePairRewards, Except.bind_eq_ok,
    require_eq_ok, exists_const, orAbort_eq_ok] at h
  obtain ⟨hinit, hpos, stake, hstake, hle, -, -, _, ⟨pair, hpair, h₁⟩, reward, -, ⟨paid, s₂⟩,
    hclaim, lpToken, -, tokens, -, h⟩ := h
  obtain rfl := Except.ok.inj h₁
  refine ⟨hinit, hpos, stake, pair, hstake, hle, hpair, tokens, ?_⟩
  -- the stake is written over what the claim wrote
  rcases claimRewardsInternal_eq_ok hclaim with rfl | ⟨_, -, tokens₂, events, rfl⟩
  · exact ⟨_, (Except.ok.inj h).symm⟩
  · dsimp only at h
    rw [AList.insert_insert] at h
    exact ⟨_, (Except.ok.inj h).symm⟩

end Stellara.Mining
