import Stellara.Host.Transfers

/-!
# Staking rewards

Users stake tokens in one of three pools, and a stake earns the yearly rate of its pool. A claim
pays the rewards since the last claim, and compounding adds them to the stake. A stake that is taken
out before the lockup of its pool has expired loses a tenth.

## Main definitions

* `PoolConfig`, `UserStake`, `State`: the storage of the contract
* `calculateRewards`: the rewards of a stake since its last claim
* `init`, `stake`, `claim`, `unstake`, `compound`, `getPendingRewards`: the entry points
* `contract`: the contract as a transactional contract

## Main results

* `stake_eq_ok`, `claim_eq_ok`, `unstake_eq_ok`, `compound_eq_ok`: what the calls that return have
  checked and written
-/

namespace Stellara.Staking

/-! ## Storage -/

structure PoolConfig where
  lockupSeconds : ℕ
  apyBps : ℕ
deriving DecidableEq, Repr

structure UserStake where
  amount : ℤ
  poolId : ℕ
  startTimestamp : ℕ
  lastClaimTimestamp : ℕ
deriving DecidableEq, Repr

inductive ContractError where
  | alreadyInitialized
  | notInitialized
  | unauthorized
  | invalidAmount
  | invalidPool
  | insufficientBalance
  | stillLocked
  | nothingToClaim
deriving DecidableEq, Repr

inductive Event where
  | stake (user : Address) (amount : ℤ) (poolId timestamp : ℕ)
  | claim (user : Address) (rewardAmount : ℤ) (timestamp : ℕ)
  | unstake (user : Address) (principalToReturn : ℤ) (timestamp : ℕ)
  | compound (user : Address) (rewardAmount : ℤ) (timestamp : ℕ)
deriving DecidableEq, Repr

/-- The storage of the contract, its events, and the token contracts. -/
structure State (τ : Type) where
  contractAddress : Address
  admin : Option Address
  stakeToken : Option Address
  rewardToken : Option Address
  poolConfig : Option (List PoolConfig)
  userStakes : Store Address UserStake
  tokens : τ
  events : List Event

abbrev Returns (α : Type) := Outcome ContractError α

variable {τ : Type}

/-- The contract before `init`. -/
def State.empty (contractAddress : Address) (tokens : τ) : State τ :=
  ⟨contractAddress, none, none, none, none, ∅, tokens, []⟩

instance : HoldsTokens (State τ) τ where
  contractAddress := State.contractAddress
  tokens := State.tokens
  setTokens tokens s := { s with tokens := tokens }

/-- The panic of `unwrap` on a missing value. -/
def unwrapNone : Fault ContractError := .panic "called `Option::unwrap()` on a `None` value"

/-- 30, 60 and 90 days. -/
def defaultPools : List PoolConfig :=
  [⟨30 * 24 * 60 * 60, 500⟩, ⟨60 * 24 * 60 * 60, 1000⟩, ⟨90 * 24 * 60 * 60, 1500⟩]

/-- `initialize`. -/
def init (admin stakingToken rewardToken : Address) (s : State τ) : Returns (State τ) := do
  require (s.admin = none) (.error .alreadyInitialized)
  .ok { s with
    admin := some admin
    stakeToken := some stakingToken
    rewardToken := some rewardToken
    poolConfig := some defaultPools }

/-! ## Rewards -/

/-- The rewards of a stake, with the rate in basis points of a year. -/
def calculateRewards (now : ℕ) (userStake : UserStake) (s : State τ) : Returns ℤ := do
  let pools ← orAbort (.error .notInitialized) s.poolConfig
  let pool ← orAbort (.error .invalidPool) pools[userStake.poolId]?
  let elapsedSeconds ← IntFormat.checkedSub .overflow now userStake.lastClaimTimestamp
  if elapsedSeconds = 0 then .ok 0
  else do
    let yearly ← IntFormat.i128.checked .overflow (userStake.amount * pool.apyBps)
    let scaled ← IntFormat.i128.checked .overflow (yearly * elapsedSeconds)
    .ok (scaled.tdiv (10000 * 31536000))

/-- Error codes count as no reward. -/
def getPendingRewards (now : ℕ) (user : Address) (s : State τ) : Returns ℤ :=
  match s.userStakes.lookup user with
  | some userStake =>
    match calculateRewards now userStake s with
    | .error (.error _) => .ok 0
    | reward => reward
  | none => .ok 0

/-! ## Stakes -/

variable [TokenClient τ Address Address]

/-- A deposit. The timers of what was staked before start again. -/
def stake (now : ℕ) (user : Address) (amount : ℤ) (poolId : ℕ) (s : State τ) :
    Returns (State τ) := do
  requireAuth s.contractAddress user
  require (0 < amount) (.error .invalidAmount)
  let pools ← orAbort (.error .notInitialized) s.poolConfig
  require (poolId < pools.length) (.error .invalidPool)
  let stakingToken ← orAbort unwrapNone s.stakeToken
  let tokens ← tokenTransfer s.tokens stakingToken user s.contractAddress amount
  let userStake := (s.userStakes.lookup user).getD ⟨0, poolId, now, now⟩
  let staked ← IntFormat.i128.checked .overflow (userStake.amount + amount)
  .ok { s with
    tokens := tokens
    userStakes := s.userStakes.insert user ⟨staked, poolId, now, now⟩
    events := s.events ++ [.stake user amount poolId now] }

def claim (now : ℕ) (user : Address) (s : State τ) : Returns (ℤ × State τ) := do
  requireAuth s.contractAddress user
  let userStake ← orAbort (.error .nothingToClaim) (s.userStakes.lookup user)
  let rewardAmount ← calculateRewards now userStake s
  require (0 < rewardAmount) (.error .nothingToClaim)
  let rewardToken ← orAbort unwrapNone s.rewardToken
  let tokens ← tokenTransfer s.tokens rewardToken s.contractAddress user rewardAmount
  .ok (rewardAmount, { s with
    tokens := tokens
    userStakes := s.userStakes.insert user { userStake with lastClaimTimestamp := now }
    events := s.events ++ [.claim user rewardAmount now] })

/-- What is left of a stake after the penalty for an early withdrawal. -/
def principalToReturn (pool : PoolConfig) (elapsed : ℕ) (amount : ℤ) : Returns ℤ :=
  if elapsed < pool.lockupSeconds then do
    let scaled ← IntFormat.i128.checked .overflow (amount * 1000)
    IntFormat.i128.checked .overflow (amount - scaled.tdiv 10000)
  else .ok amount

/-- The penalty stays in the contract. -/
def unstake (now : ℕ) (user : Address) (s : State τ) : Returns (ℤ × State τ) := do
  requireAuth s.contractAddress user
  let userStake ← orAbort (.error .nothingToClaim) (s.userStakes.lookup user)
  let pools ← orAbort unwrapNone s.poolConfig
  let pool ← orAbort unwrapNone pools[userStake.poolId]?
  let elapsed ← IntFormat.checkedSub .overflow now userStake.startTimestamp
  let principal ← principalToReturn pool elapsed userStake.amount
  let stakingToken ← orAbort unwrapNone s.stakeToken
  let tokens ← tokenTransfer s.tokens stakingToken s.contractAddress user principal
  .ok (principal, { s with
    tokens := tokens
    userStakes := s.userStakes.erase user
    events := s.events ++ [.unstake user principal now] })

omit [TokenClient τ Address Address] in
/-- Only a stake in the reward token compounds. -/
def compound (now : ℕ) (user : Address) (s : State τ) : Returns (State τ) := do
  requireAuth s.contractAddress user
  let userStake ← orAbort (.error .nothingToClaim) (s.userStakes.lookup user)
  let rewardAmount ← calculateRewards now userStake s
  require (0 < rewardAmount) (.error .nothingToClaim)
  let stakingToken ← orAbort unwrapNone s.stakeToken
  let rewardToken ← orAbort unwrapNone s.rewardToken
  require (stakingToken = rewardToken) (.error .unauthorized)
  let staked ← IntFormat.i128.checked .overflow (userStake.amount + rewardAmount)
  .ok { s with
    userStakes := s.userStakes.insert user { userStake with
      amount := staked
      lastClaimTimestamp := now }
    events := s.events ++ [.compound user rewardAmount now] }

/-! ## The contract -/

inductive Call where
  | init (admin stakingToken rewardToken : Address)
  | stake (user : Address) (amount : ℤ) (poolId : ℕ)
  | claim (user : Address)
  | unstake (user : Address)
  | compound (user : Address)
deriving DecidableEq, Repr

/-- Execute a call. What it returns is the amount paid, or nothing. -/
def execute (now : ℕ) (s : State τ) : Call → Returns (Option ℤ × State τ)
  | .init admin stakingToken rewardToken => do
    .ok (none, ← init admin stakingToken rewardToken s)
  | .stake user amount poolId => do .ok (none, ← stake now user amount poolId s)
  | .claim user => do
    let (reward, s) ← claim now user s
    .ok (some reward, s)
  | .unstake user => do
    let (principal, s) ← unstake now user s
    .ok (some principal, s)
  | .compound user => do .ok (none, ← compound now user s)

/-- The contract. Its time is the timestamp of the ledger. -/
def contract (τ : Type) [TokenClient τ Address Address] :
    Contract (State τ) Call (Option ℤ) (Fault ContractError) where
  exec now call s := execute now s call

/-! ## What the calls write -/

/-- What a user has staked. -/
def stakeOf (s : State τ) (user : Address) : ℤ :=
  (s.userStakes.lookup user).elim 0 UserStake.amount

variable {now poolId : ℕ} {user : Address} {amount reward : ℤ} {s s' : State τ}

omit [TokenClient τ Address Address] in
theorem stakeOf_of_lookup {userStake : UserStake} (h : s.userStakes.lookup user = some userStake) :
    stakeOf s user = userStake.amount := by rw [stakeOf, h, Option.elim_some]

omit [TokenClient τ Address Address] in
theorem init_eq_ok {admin stakingToken rewardToken : Address}
    (h : init admin stakingToken rewardToken s = .ok s') :
    s.admin = none ∧ s' = { s with
      admin := some admin
      stakeToken := some stakingToken
      rewardToken := some rewardToken
      poolConfig := some defaultPools } := by
  simp only [init, Except.bind_eq_ok, require_eq_ok, exists_const] at h
  exact ⟨h.1, (Except.ok.inj h.2).symm⟩

theorem stake_eq_ok (h : stake now user amount poolId s = .ok s') :
    user ≠ s.contractAddress ∧ 0 < amount ∧ IntFormat.i128.Mem (stakeOf s user + amount) ∧
      ∃ pools stakingToken tokens, s.poolConfig = some pools ∧ poolId < pools.length ∧
        s.stakeToken = some stakingToken ∧
        TokenClient.transfer s.tokens stakingToken user s.contractAddress amount = some tokens ∧
        s' = { s with
          tokens := tokens
          userStakes := s.userStakes.insert user ⟨stakeOf s user + amount, poolId, now, now⟩
          events := s.events ++ [.stake user amount poolId now] } := by
  simp only [stake, requireAuth, Except.bind_eq_ok, require_eq_ok, exists_const, orAbort_eq_ok,
    tokenTransfer_eq_ok, IntFormat.checked_eq_ok] at h
  obtain ⟨hauth, hpos, pools, hpools, hpool, token, htoken, tokens, htransfer, _, ⟨hmem, rfl⟩, h⟩ := h
  have hold : ((s.userStakes.lookup user).getD ⟨0, poolId, now, now⟩).amount = stakeOf s user := by
    unfold stakeOf
    cases s.userStakes.lookup user <;> rfl
  rw [hold] at hmem h
  exact ⟨hauth, hpos, hmem, pools, token, tokens, hpools, hpool, htoken, htransfer,
    (Except.ok.inj h).symm⟩

theorem claim_eq_ok (h : claim now user s = .ok (reward, s')) :
    user ≠ s.contractAddress ∧ 0 < reward ∧ ∃ userStake rewardToken tokens,
      s.userStakes.lookup user = some userStake ∧ calculateRewards now userStake s = .ok reward ∧
      s.rewardToken = some rewardToken ∧
      TokenClient.transfer s.tokens rewardToken s.contractAddress user reward = some tokens ∧
      s' = { s with
        tokens := tokens
        userStakes := s.userStakes.insert user { userStake with lastClaimTimestamp := now }
        events := s.events ++ [.claim user reward now] } := by
  simp only [claim, requireAuth, Except.bind_eq_ok, require_eq_ok, exists_const, orAbort_eq_ok,
    tokenTransfer_eq_ok] at h
  obtain ⟨hauth, userStake, hstake, _, hreward, hpos, token, htoken, tokens, htransfer, h⟩ := h
  obtain ⟨rfl, rfl⟩ := Prod.mk.inj (Except.ok.inj h)
  exact ⟨hauth, hpos, userStake, token, tokens, hstake, hreward, htoken, htransfer, rfl⟩

theorem unstake_eq_ok : unstake now user s = .ok (amount, s') ↔
    user ≠ s.contractAddress ∧ ∃ userStake pools pool stakingToken tokens,
      s.userStakes.lookup user = some userStake ∧ s.poolConfig = some pools ∧
      pools[userStake.poolId]? = some pool ∧ userStake.startTimestamp ≤ now ∧
      principalToReturn pool (now - userStake.startTimestamp) userStake.amount = .ok amount ∧
      s.stakeToken = some stakingToken ∧
      TokenClient.transfer s.tokens stakingToken s.contractAddress user amount = some tokens ∧
      s' = { s with
        tokens := tokens
        userStakes := s.userStakes.erase user
        events := s.events ++ [.unstake user amount now] } := by
  simp only [unstake, requireAuth, Except.bind_eq_ok, require_eq_ok, exists_const, orAbort_eq_ok,
    tokenTransfer_eq_ok, IntFormat.checkedSub_eq_ok]
  refine and_congr_right fun _ => ⟨?_, ?_⟩
  · rintro ⟨userStake, hstake, pools, hpools, pool, hpool, _, ⟨hstart, rfl⟩, principal, hprincipal,
      token, htoken, tokens, htransfer, h⟩
    obtain ⟨rfl, rfl⟩ := Prod.mk.inj (Except.ok.inj h)
    exact ⟨userStake, pools, pool, token, tokens, hstake, hpools, hpool, hstart, hprincipal, htoken,
      htransfer, rfl⟩
  · rintro ⟨userStake, pools, pool, token, tokens, hstake, hpools, hpool, hstart, hprincipal, htoken,
      htransfer, rfl⟩
    exact ⟨userStake, hstake, pools, hpools, pool, hpool, _, ⟨hstart, rfl⟩, amount, hprincipal, token,
      htoken, tokens, htransfer, rfl⟩

omit [TokenClient τ Address Address] in
theorem compound_eq_ok (h : compound now user s = .ok s') :
    user ≠ s.contractAddress ∧ ∃ userStake reward token,
      s.userStakes.lookup user = some userStake ∧ calculateRewards now userStake s = .ok reward ∧
      0 < reward ∧ s.stakeToken = some token ∧ s.rewardToken = some token ∧
      IntFormat.i128.Mem (userStake.amount + reward) ∧
      s' = { s with
        userStakes := s.userStakes.insert user { userStake with
          amount := userStake.amount + reward
          lastClaimTimestamp := now }
        events := s.events ++ [.compound user reward now] } := by
  simp only [compound, requireAuth, Except.bind_eq_ok, require_eq_ok, exists_const, orAbort_eq_ok,
    IntFormat.checked_eq_ok] at h
  obtain ⟨hauth, userStake, hstake, reward, hreward, hpos, token, htoken, _, hrewardToken, rfl, _,
    ⟨hmem, rfl⟩, h⟩ := h
  exact ⟨hauth, userStake, reward, token, hstake, hreward, hpos, htoken, hrewardToken, hmem,
    (Except.ok.inj h).symm⟩

/-- A call that returns is an entry point that returns. -/
theorem execute_eq_ok {call : Call} {r : Option ℤ} (h : execute now s call = .ok (r, s')) :
    match call with
    | .init admin stakingToken rewardToken => init admin stakingToken rewardToken s = .ok s'
    | .stake user amount poolId => stake now user amount poolId s = .ok s'
    | .claim user => ∃ reward, claim now user s = .ok (reward, s')
    | .unstake user => ∃ principal, unstake now user s = .ok (principal, s')
    | .compound user => compound now user s = .ok s' := by
  cases call with
  | claim user =>
    simp only [execute, Except.bind_eq_ok] at h
    obtain ⟨⟨reward, s₁⟩, h₁, h⟩ := h
    obtain ⟨-, rfl⟩ := Prod.mk.inj (Except.ok.inj h)
    exact ⟨reward, h₁⟩
  | unstake user =>
    simp only [execute, Except.bind_eq_ok] at h
    obtain ⟨⟨principal, s₁⟩, h₁, h⟩ := h
    obtain ⟨-, rfl⟩ := Prod.mk.inj (Except.ok.inj h)
    exact ⟨principal, h₁⟩
  | _ =>
    simp only [execute, Except.bind_eq_ok] at h
    obtain ⟨s₁, h₁, h⟩ := h
    obtain ⟨-, rfl⟩ := Prod.mk.inj (Except.ok.inj h)
    exact h₁

end Stellara.Staking
