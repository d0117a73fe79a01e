import Stellara.Shared.CircuitBreaker

/-!
# The vesting contract of the academy

An administrator grants a vesting schedule to a beneficiary, who claims what has vested once,
alone or together with other grants, unless the administrator revokes the grant before that.

## Main definitions

* `VestingSchedule`, `State`: a grant, and the storage of the contract
* `calculateVestedAmount`, `claimableAmount`: what a grant has vested, and what can be claimed
* `grantVesting`, `claim`, `batchClaim`, `revoke`: the entry points
* `contract`: the vesting contract as a transactional contract

## Main results

* `calculateVestedAmount_le`: never more than the granted amount vests
* `claimableAmount_eq_ok`: whose grants can be claimed, and when
-/

namespace Stellara.Academy

/-! ## Storage -/

structure VestingSchedule where
  beneficiary : Address
  amount : ℤ
  startTime : ℕ
  /-- Seconds before any tokens unlock. -/
  cliff : ℕ
  /-- Total vesting duration in seconds. -/
  duration : ℕ
  claimed : Bool
  revoked : Bool
  /-- The time of the revocation, 0 if not revoked. -/
  revokeTime : ℕ
deriving DecidableEq, Repr

structure GrantEvent where
  grantId : ℕ
  beneficiary : Address
  amount : ℤ
  startTime : ℕ
  cliff : ℕ
  duration : ℕ
  grantedAt : ℕ
  grantedBy : Address
deriving DecidableEq, Repr

structure ClaimEvent where
  grantId : ℕ
  beneficiary : Address
  amount : ℤ
  claimedAt : ℕ
deriving DecidableEq, Repr

structure RevokeEvent where
  grantId : ℕ
  beneficiary : Address
  revokedAt : ℕ
  revokedBy : Address
deriving DecidableEq, Repr

/-- The events of the contract; a grant and a claim are each published under two topics. -/
inductive Event where
  | grant (e : GrantEvent)
  | credentialIssued (e : GrantEvent)
  | claim (e : ClaimEvent)
  | vestingClaimed (e : ClaimEvent)
  | revoke (e : RevokeEvent)
deriving DecidableEq, Repr

inductive VestingError where
  | unauthorized
  | notVested
  | alreadyClaimed
  | invalidSchedule
  | insufficientBalance
  | grantNotFound
  | revoked
  | invalidTimelock
  | notEnoughTimeForRevoke
  | batchTooLarge
deriving DecidableEq, Repr

/-- A transfer of tokens by the contract, and the grant it is made for. -/
structure Payout where
  grantId : ℕ
  recipient : Address
  amount : ℤ
deriving DecidableEq, Repr

/-- The schedules by grant id. -/
abbrev Schedules := Store ℕ VestingSchedule

/-- The storage of the contract, its events and the tokens. The payouts are not stored: they
record the transfers that the contract made. -/
structure State (τ : Type) where
  contractAddress : Address
  initialized : Bool
  admin : Option Address
  token : Option Address
  grantCount : ℕ
  schedules : Option Schedules
  breaker : CircuitBreaker.Storage
  tokens : τ
  events : List Event
  payouts : List Payout

/-- Maximum number of grants claimed in one call. -/
def maxBatchClaims : ℕ := 25

variable {τ : Type}

/-- The contract before `init`. -/
def State.empty (contractAddress : Address) (tokens : τ) : State τ :=
  ⟨contractAddress, false, none, none, 0, none, .empty, tokens, [], []⟩

/-- Initialize the vesting contract. -/
def init (now : ℕ) (admin rewardToken : Address) (cbConfig : CircuitBreakerConfig) (s : State τ) :
    Outcome VestingError (State τ) := do
  require (s.initialized = false) (.error .unauthorized)
  .ok { s with
    initialized := true
    admin := some admin
    token := some rewardToken
    grantCount := 0
    breaker := CircuitBreaker.init now cbConfig s.breaker }

/-! ## Vesting -/

/-- What has vested between the cliff, which ends at `cliffEnd`, and the end. -/
def linearlyVested (schedule : VestingSchedule) (currentTime cliffEnd : ℕ) :
    Outcome VestingError ℤ := do
  let vestedDuration ← IntFormat.checkedSub .overflow currentTime cliffEnd
  let remainingDuration ← IntFormat.checkedSub .overflow schedule.duration schedule.cliff
  if remainingDuration = 0 then .ok schedule.amount
  else do
    let product ← IntFormat.u128.checked .overflow
      (IntFormat.u128.wrap schedule.amount * vestedDuration)
    .ok (IntFormat.i128.wrap (product / remainingDuration))

/-- What has vested from the end of the cliff on. -/
def vestedAfterCliff (schedule : VestingSchedule) (currentTime cliffEnd : ℕ) :
    Outcome VestingError ℤ := do
  let vestingEnd ← IntFormat.u64.checkedNat .overflow (schedule.startTime + schedule.duration)
  if vestingEnd ≤ currentTime then .ok schedule.amount
  else linearlyVested schedule currentTime cliffEnd

/-- The vested amount at a time. -/
def calculateVestedAmount (schedule : VestingSchedule) (currentTime : ℕ) :
    Outcome VestingError ℤ :=
  if currentTime < schedule.startTime then .ok 0
  else do
    let cliffEnd ← IntFormat.u64.checkedNat .overflow (schedule.startTime + schedule.cliff)
    if currentTime < cliffEnd then .ok 0 else vestedAfterCliff schedule currentTime cliffEnd

/-- What `beneficiary` can claim of a grant. -/
def claimableAmount (now : ℕ) (beneficiary : Address) (schedule : VestingSchedule) :
    Outcome VestingError ℤ := do
  require (schedule.beneficiary = beneficiary) (.error .unauthorized)
  require (schedule.claimed = false) (.error .alreadyClaimed)
  require (schedule.revoked = false) (.error .revoked)
  let vestedAmount ← calculateVestedAmount schedule now
  require (vestedAmount ≠ 0) (.error .notVested)
  .ok vestedAmount

/-- Never more than the granted amount vests. -/
theorem calculateVestedAmount_le {schedule : VestingSchedule} {now : ℕ} {v : ℤ}
    (hamount : 0 ≤ schedule.amount) (h : calculateVestedAmount schedule now = .ok v) :
    v ≤ schedule.amount := by
  unfold calculateVestedAmount at h
  split at h
  · obtain rfl := Except.ok.inj h
    exact hamount
  simp only [Except.bind_eq_ok, IntFormat.checkedNat_eq_ok] at h
  obtain ⟨_, ⟨-, rfl⟩, h⟩ := h
  split at h
  · obtain rfl := Except.ok.inj h
    exact hamount
  simp only [vestedAfterCliff, Except.bind_eq_ok, IntFormat.checkedNat_eq_ok] at h
  obtain ⟨_, ⟨-, rfl⟩, h⟩ := h
  split at h
  · exact (Except.ok.inj h).ge
  rename_i hcliff hend
  simp only [linearlyVested, Except.bind_eq_ok, IntFormat.checkedSub_eq_ok] at h
  obtain ⟨_, ⟨hle, rfl⟩, _, ⟨hle', rfl⟩, h⟩ := h
  split at h
  · exact (Except.ok.inj h).ge
  simp only [Except.bind_eq_ok, IntFormat.checked_eq_ok] at h
  obtain ⟨product, ⟨hmem, rfl⟩, h⟩ := h
  obtain rfl := Except.ok.inj h
  -- the vested fraction of the amount is below one
  have hwrap : IntFormat.u128.wrap schedule.amount ≤ schedule.amount :=
    IntFormat.wrap_le_of_lo_le hamount
  have hnonneg : 0 ≤ IntFormat.u128.wrap schedule.amount := (IntFormat.wrap_mem (F := .u128)).1
  have hfrac : ((now - (schedule.startTime + schedule.cliff) : ℕ) : ℤ) ≤
      ((schedule.duration - schedule.cliff : ℕ) : ℤ) := by omega
  have hdiv : IntFormat.u128.wrap schedule.amount *
      ((now - (schedule.startTime + schedule.cliff) : ℕ) : ℤ) /
        ((schedule.duration - schedule.cliff : ℕ) : ℤ) ≤ IntFormat.u128.wrap schedule.amount :=
    Int.ediv_le_of_le_mul (by omega) (Int.mul_le_mul_of_nonneg_left hfrac hnonneg)
  have hquot := Int.ediv_nonneg hmem.1 (b := ((schedule.duration - schedule.cliff : ℕ) : ℤ))
    (by omega)
  exact (IntFormat.wrap_le_of_lo_le (IntFormat.i128.lo_nonpos.trans hquot)).trans
    (hdiv.trans hwrap)

/-- What can be claimed is the beneficiary's, neither claimed nor revoked before, and at most
the amount of the grant. -/
theorem claimableAmount_eq_ok {now : ℕ} {beneficiary : Address} {schedule : VestingSchedule} {v : ℤ}
    (hamount : 0 ≤ schedule.amount) (h : claimableAmount now beneficiary schedule = .ok v) :
    schedule.beneficiary = beneficiary ∧ schedule.claimed = false ∧ schedule.revoked = false ∧
      v ≤ schedule.amount := by
  simp only [claimableAmount, Except.bind_eq_ok, require_eq_ok, exists_const] at h
  obtain ⟨hb, hc, hr, w, hw, -, h⟩ := h
  obtain rfl := Except.ok.inj h
  exact ⟨hb, hc, hr, calculateVestedAmount_le hamount hw⟩

/-! ## Entry points -/

def loadSchedules (s : State τ) : Outcome VestingError Schedules :=
  orAbort (.error .grantNotFound) s.schedules

def persistSchedules (s : State τ) (schedules : Schedules) : State τ :=
  { s with schedules := some schedules }

/-- The caller is the stored administrator. -/
def requireAdmin (s : State τ) (admin : Address) : Outcome VestingError Unit := do
  let storedAdmin ← orAbort (.error .unauthorized) s.admin
  require (admin = storedAdmin) (.error .unauthorized)

/-- Grant a vesting schedule to a beneficiary. -/
def grantVesting (now : ℕ) (admin beneficiary : Address) (amount : ℤ)
    (startTime cliff duration : ℕ) (s : State τ) : Outcome VestingError (ℕ × State τ) := do
  CircuitBreaker.requireNotPaused s.breaker "grant"
  requireAdmin s admin
  require (0 < amount) (.error .invalidSchedule)
  require (cliff ≤ duration) (.error .invalidSchedule)
  let nextId ← IntFormat.u64.checkedNat .overflow (s.grantCount + 1)
  let schedule : VestingSchedule :=
    ⟨beneficiary, amount, startTime, cliff, duration, false, false, 0⟩
  let s := persistSchedules s ((s.schedules.getD ∅).insert nextId schedule)
  let event : GrantEvent := ⟨nextId, beneficiary, amount, startTime, cliff, duration, now, admin⟩
  .ok (nextId, { s with
    grantCount := nextId
    events := s.events ++ [.grant event, .credentialIssued event] })

/-- The events of a claim. -/
def claimEvents (now grantId : ℕ) (beneficiary : Address) (amount : ℤ) : List Event :=
  let event : ClaimEvent := ⟨grantId, beneficiary, amount, now⟩
  [.claim event, .vestingClaimed event]

section Claims

variable [TokenClient τ Address Address]

/-- Transfer what was claimed of one grant, and publish it. -/
def payOut (now : ℕ) (token : Address) (grantId : ℕ) (beneficiary : Address) (amount : ℤ)
    (s : State τ) : Outcome VestingError (State τ) := do
  let tokens ← tokenTransfer s.tokens token s.contractAddress beneficiary amount
  .ok { s with
    tokens := tokens
    payouts := s.payouts ++ [⟨grantId, beneficiary, amount⟩]
    events := s.events ++ claimEvents now grantId beneficiary amount }

/-- Claim vested tokens. -/
def claim (now grantId : ℕ) (beneficiary : Address) (s : State τ) :
    Outcome VestingError (ℤ × State τ) := do
  let schedules ← loadSchedules s
  let schedule ← orAbort (.error .grantNotFound) (schedules.lookup grantId)
  let vestedAmount ← claimableAmount now beneficiary schedule
  let token ← orAbort (.error .unauthorized) s.token
  require (vestedAmount ≤ TokenClient.balance s.tokens token s.contractAddress)
    (.error .insufficientBalance)
  let s := persistSchedules s (schedules.insert grantId { schedule with claimed := true })
  let s ← payOut now token grantId beneficiary vestedAmount s
  .ok (vestedAmount, s)

/-- What one id of a batch claims: the grant, its schedule with the claim, and the amount. -/
structure Claim where
  grantId : ℕ
  schedule : VestingSchedule
  amount : ℤ

/-- Compute the claims of a batch from the stored schedules, with their total. -/
def collectClaims (now : ℕ) (beneficiary : Address) (schedules : Schedules) :
    List ℕ → ℤ → Outcome VestingError (List Claim × ℤ)
  | [], total => .ok ([], total)
  | grantId :: grantIds, total => do
    let schedule ← orAbort (.error .grantNotFound) (schedules.lookup grantId)
    let claimAmount ← claimableAmount now beneficiary schedule
    let total ← IntFormat.i128.checked .overflow (total + claimAmount)
    let (claims, total) ← collectClaims now beneficiary schedules grantIds total
    .ok (⟨grantId, { schedule with claimed := true }, claimAmount⟩ :: claims, total)

/-- Write the claims back one after another, and pay each of them. -/
def payClaims (now : ℕ) (token beneficiary : Address) :
    List Claim → Schedules → State τ → Outcome VestingError (Schedules × State τ)
  | [], schedules, s => .ok (schedules, s)
  | c :: claims, schedules, s => do
    let s ← payOut now token c.grantId beneficiary c.amount s
    payClaims now token beneficiary claims (schedules.insert c.grantId c.schedule) s

/-- Claim multiple vested rewards for a single beneficiary. -/
def batchClaim (now : ℕ) (grantIds : List ℕ) (beneficiary : Address) (s : State τ) :
    Outcome VestingError (ℤ × State τ) :=
  if grantIds = [] then .ok (0, s)
  else do
    require (grantIds.length ≤ maxBatchClaims) (.error .batchTooLarge)
    let schedules ← loadSchedules s
    let token ← orAbort (.error .unauthorized) s.token
    let currentBalance := TokenClient.balance s.tokens token s.contractAddress
    let (claims, totalClaimable) ← collectClaims now beneficiary schedules grantIds 0
    require (totalClaimable ≤ currentBalance) (.error .insufficientBalance)
    let (schedules, s) ← payClaims now token beneficiary claims schedules s
    .ok (totalClaimable, persistSchedules s schedules)

end Claims

/-- Revoke a vesting schedule, with timelock. -/
def revoke (now grantId : ℕ) (admin : Address) (revokeDelay : ℕ) (s : State τ) :
    Outcome VestingError (State τ) := do
  CircuitBreaker.requireNotPaused s.breaker "revoke"
  requireAdmin s admin
  let schedules ← loadSchedules s
  let schedule ← orAbort (.error .grantNotFound) (schedules.lookup grantId)
  require (schedule.claimed = false) (.error .alreadyClaimed)
  require (schedule.revoked = false) (.error .revoked)
  require (3600 ≤ revokeDelay) (.error .invalidTimelock)
  let earliest ← IntFormat.u64.checkedNat .overflow (schedule.startTime + revokeDelay)
  require (earliest ≤ now) (.error .notEnoughTimeForRevoke)
  let s := persistSchedules s
    (schedules.insert grantId { schedule with revoked := true, revokeTime := now })
  .ok { s with events := s.events ++ [.revoke ⟨grantId, schedule.beneficiary, now, admin⟩] }

/-! ## The contract -/

inductive Call where
  | grantVesting (admin beneficiary : Address) (amount : ℤ) (startTime cliff duration : ℕ)
  | claim (grantId : ℕ) (beneficiary : Address)
  | batchClaim (grantIds : List ℕ) (beneficiary : Address)
  | revoke (grantId : ℕ) (admin : Address) (revokeDelay : ℕ)
deriving DecidableEq, Repr

/-- What a call returns: a grant id, a paid amount or nothing. -/
inductive Result where
  | grantId (id : ℕ)
  | amount (amount : ℤ)
  | unit
deriving DecidableEq, Repr

variable [TokenClient τ Address Address]

/-- Execute a call. -/
def execute (now : ℕ) (s : State τ) : Call → Outcome VestingError (Result × State τ)
  | .grantVesting admin beneficiary amount startTime cliff duration => do
    let (id, s) ← grantVesting now admin beneficiary amount startTime cliff duration s
    .ok (.grantId id, s)
  | .claim grantId beneficiary => do
    let (amount, s) ← claim now grantId beneficiary s
    .ok (.amount amount, s)
  | .batchClaim grantIds beneficiary => do
    let (amount, s) ← batchClaim now grantIds beneficiary s
    .ok (.amount amount, s)
  | .revoke grantId admin revokeDelay => do
    let s ← revoke now grantId admin revokeDelay s
    .ok (.unit, s)

/-- The vesting contract. -/
def contract (τ : Type) [TokenClient τ Address Address] :
    Contract (State τ) Call Result (Fault VestingError) where
  exec now call s := execute now s call

end Stellara.Academy
