import Stellara.Host.Soroban

/-!
# The parametric insurance pool

Liquidity providers fund a shared risk pool. A policyholder pays a premium into it, and the
pool reserves the coverage of the policy until the policy is claimed, cancelled or expired. A
policy is claimed when the value of its oracle feed meets its trigger condition, and its
coverage is then paid out of the pool.

## Main definitions

* `InsurancePolicy`, `RiskPool`, `State`: a policy, the accounting of the pool, the storage
* `depositLiquidity`, `withdrawLiquidity`: the calls of the liquidity providers
* `createPolicy`, `cancelPolicy`, `checkTrigger`, `expirePolicy`: the life of a policy
* `contract`: the pool as a transactional contract

## Main results

* `depositLiquidity_eq_ok`, `createPolicy_eq_ok`, …: what a successful call leaves
-/

namespace Stellara.Insurance

/-! ## Data types -/

/-- Category of risk the policy covers. -/
inductive PolicyType where
  | weather
  | flightDelay
  | naturalDisaster
  | crop
  | custom
deriving DecidableEq, Repr

/-- How the live oracle value is compared against the trigger threshold. -/
inductive TriggerCondition where
  | greaterThan
  | lessThan
  | greaterOrEqual
  | lessOrEqual
  | equalTo
deriving DecidableEq, Repr

/-- Whether the oracle value meets the condition. -/
def TriggerCondition.triggered (condition : TriggerCondition) (oracleValue threshold : ℤ) : Bool :=
  match condition with
  | .greaterThan => threshold < oracleValue
  | .lessThan => oracleValue < threshold
  | .greaterOrEqual => threshold ≤ oracleValue
  | .lessOrEqual => oracleValue ≤ threshold
  | .equalTo => oracleValue = threshold

/-- Lifecycle state of a policy. -/
inductive PolicyStatus where
  | active
  /-- Coverage period ended without a qualifying event. -/
  | expired
  /-- Trigger was met and payout was executed. -/
  | claimed
  /-- Cancelled by the policyholder before a trigger. -/
  | cancelled
deriving DecidableEq, Repr

structure InsurancePolicy where
  id : ℕ
  policyholder : Address
  policyType : PolicyType
  /-- Payout amount, released on trigger. -/
  coverageAmount : ℤ
  premiumAmount : ℤ
  oracleFeed : Symbol
  triggerThreshold : ℤ
  triggerCondition : TriggerCondition
  startTime : ℕ
  endTime : ℕ
  status : PolicyStatus
  createdAt : ℕ
deriving DecidableEq, Repr

/-- Accounting for the shared risk pool. -/
structure RiskPool where
  /-- All tokens currently held by the contract. -/
  totalLiquidity : ℤ
  /-- Sum of the coverage of all active policies, which cannot be withdrawn. -/
  reservedLiquidity : ℤ
  totalPremiumsCollected : ℤ
  totalPayouts : ℤ
  totalPolicies : ℕ
  activePolicies : ℕ
deriving DecidableEq, Repr

namespace RiskPool

def new : RiskPool := ⟨0, 0, 0, 0, 0, 0⟩

/-- Tokens available for new policy reservations or withdrawals. -/
def availableLiquidity (pool : RiskPool) : ℤ :=
  IntFormat.i128.saturate (pool.totalLiquidity - pool.reservedLiquidity)

end RiskPool

structure OracleConfig where
  sources : List Address
  /-- Maximum age of an oracle sample in seconds. -/
  maxStaleness : ℕ
  minSources : ℕ
deriving DecidableEq, Repr

inductive InsuranceError where
  | unauthorized
  | contractPaused
  | notInitialized
  | alreadyInitialized
  | policyNotFound
  | policyNotActive
  | policyExpired
  | triggerNotMet
  | alreadyClaimed
  | policyAlreadyCancelled
  | insufficientPoolLiquidity
  | insufficientLPBalance
  | withdrawalExceedsAvailable
  | invalidAmount
  | invalidDuration
  | coverageExceedsAvailable
  | oracleFailure
deriving DecidableEq, Repr

inductive Event where
  | insInit (admin poolToken : Address)
  | insPause (admin : Address) (now : ℕ)
  | insUnpz (admin : Address) (now : ℕ)
  | liqDep (provider : Address) (amount : ℤ) (now : ℕ)
  | liqWdraw (provider : Address) (amount : ℤ) (now : ℕ)
  | polCrt (policyId : ℕ) (policyholder : Address) (coverageAmount premiumAmount : ℤ) (endTime : ℕ)
  | polCnl (policyId : ℕ) (policyholder : Address) (now : ℕ)
  | polExp (policyId : ℕ) (policyholder : Address) (now : ℕ)
  | trigMiss (policyId : ℕ) (oracleValue triggerThreshold : ℤ)
  | trigAct (policyId : ℕ) (policyholder : Address) (oracleValue triggerThreshold coverageAmount : ℤ)
      (now : ℕ)
  | clmPaid (policyId : ℕ) (policyholder : Address) (coverageAmount : ℤ) (now : ℕ)
deriving DecidableEq, Repr

/-! ## Storage -/

/-- The storage of the contract, its events and the tokens. -/
structure State (τ : Type) where
  contractAddress : Address
  initialized : Bool
  admin : Option Address
  paused : Bool
  poolToken : Option Address
  oracleConfig : Option OracleConfig
  policyCounter : ℕ
  pool : RiskPool
  policies : Store ℕ InsurancePolicy
  liquidityProviders : Store Address ℤ
  policyIdsByHolder : Store Address (List ℕ)
  tokens : τ
  events : List Event

variable {τ : Type}

/-- The contract before `init`. -/
def State.empty (contractAddress : Address) (tokens : τ) : State τ :=
  ⟨contractAddress, false, none, false, none, none, 0, .new, ∅, ∅, ∅, tokens, []⟩

/-- Record that the policy belongs to the holder, once. -/
def addPolicyToHolderIndex (index : Store Address (List ℕ)) (holder : Address) (policyId : ℕ) :
    Store Address (List ℕ) :=
  let ids := (index.lookup holder).getD []
  if policyId ∈ ids then index else index.insert holder (ids ++ [policyId])

def setPolicy (s : State τ) (policy : InsurancePolicy) : State τ :=
  { s with
    policies := s.policies.insert policy.id policy
    policyIdsByHolder := addPolicyToHolderIndex s.policyIdsByHolder policy.policyholder policy.id }

def getLpBalance (s : State τ) (provider : Address) : ℤ :=
  (s.liquidityProviders.lookup provider).getD 0

def setLpBalance (s : State τ) (provider : Address) (amount : ℤ) : State τ :=
  { s with liquidityProviders := s.liquidityProviders.insert provider amount }

def publish (s : State τ) (event : Event) : State τ :=
  { s with events := s.events ++ [event] }

/-! ## Guards -/

def requireInitialized (s : State τ) : Outcome InsuranceError Unit :=
  require (s.initialized = true) (.error .notInitialized)

def requireNotPaused (s : State τ) : Outcome InsuranceError Unit :=
  require (s.paused = false) (.error .contractPaused)

def requireAdminAuth (s : State τ) (admin : Address) : Outcome InsuranceError Unit := do
  requireInitialized s
  require (s.admin = some admin) (.error .unauthorized)

/-! ## Administration -/

/-- Bootstrap the contract. -/
def init (admin poolToken : Address) (oracleSources : List Address)
    (maxStaleness minOracleSources : ℕ) (s : State τ) : Outcome InsuranceError (State τ) := do
  require (s.initialized = false) (.error .alreadyInitialized)
  .ok (publish { s with
    admin := some admin
    poolToken := some poolToken
    oracleConfig := some ⟨oracleSources, maxStaleness, minOracleSources⟩
    pool := .new
    initialized := true } (.insInit admin poolToken))

/-- Replace the oracle configuration. -/
def updateOracleConfig (admin : Address) (oracleSources : List Address)
    (maxStaleness minOracleSources : ℕ) (s : State τ) : Outcome InsuranceError (State τ) := do
  requireAdminAuth s admin
  .ok { s with oracleConfig := some ⟨oracleSources, maxStaleness, minOracleSources⟩ }

def pause (now : ℕ) (admin : Address) (s : State τ) : Outcome InsuranceError (State τ) := do
  requireAdminAuth s admin
  .ok (publish { s with paused := true } (.insPause admin now))

def unpause (now : ℕ) (admin : Address) (s : State τ) : Outcome InsuranceError (State τ) := do
  requireAdminAuth s admin
  .ok (publish { s with paused := false } (.insUnpz admin now))

/-! ## Liquidity pool management -/

section Tokens

variable [TokenClient τ Address Address]

/-- Deposit tokens into the shared risk pool. -/
def depositLiquidity (now : ℕ) (provider : Address) (amount : ℤ) (s : State τ) :
    Outcome InsuranceError (State τ) := do
  requireNotPaused s
  requireInitialized s
  require (0 < amount) (.error .invalidAmount)
  let poolToken ← orAbort (.error .notInitialized) s.poolToken
  let tokens ← tokenTransfer s.tokens poolToken provider s.contractAddress amount
  let balance ← IntFormat.i128.checked .overflow (getLpBalance s provider + amount)
  let totalLiquidity ← IntFormat.i128.checked .overflow (s.pool.totalLiquidity + amount)
  let s := setLpBalance { s with tokens := tokens } provider balance
  .ok (publish { s with pool := { s.pool with totalLiquidity := totalLiquidity } }
    (.liqDep provider amount now))

/-- Withdraw previously deposited tokens from the risk pool, up to the deposit of the caller
and to what is not reserved. -/
def withdrawLiquidity (now : ℕ) (provider : Address) (amount : ℤ) (s : State τ) :
    Outcome InsuranceError (State τ) := do
  requireNotPaused s
  requireInitialized s
  require (0 < amount) (.error .invalidAmount)
  require (amount ≤ getLpBalance s provider) (.error .insufficientLPBalance)
  require (amount ≤ s.pool.availableLiquidity) (.error .withdrawalExceedsAvailable)
  let poolToken ← orAbort (.error .notInitialized) s.poolToken
  let tokens ← tokenTransfer s.tokens poolToken s.contractAddress provider amount
  let balance ← IntFormat.i128.checked .overflow (getLpBalance s provider - amount)
  let totalLiquidity ← IntFormat.i128.checked .overflow (s.pool.totalLiquidity - amount)
  let s := setLpBalance { s with tokens := tokens } provider balance
  .ok (publish { s with pool := { s.pool with totalLiquidity := totalLiquidity } }
    (.liqWdraw provider amount now))

/-! ## Policy management -/

/-- The terms that a policyholder asks for. -/
structure PolicyTerms where
  policyType : PolicyType
  oracleFeed : Symbol
  triggerThreshold : ℤ
  triggerCondition : TriggerCondition
  coverageAmount : ℤ
  premiumAmount : ℤ
  durationSecs : ℕ
deriving DecidableEq, Repr

/-- Create a new policy: the premium is paid, and the coverage is reserved. -/
def createPolicy (now : ℕ) (policyholder : Address) (terms : PolicyTerms) (s : State τ) :
    Outcome InsuranceError (ℕ × State τ) := do
  requireNotPaused s
  requireInitialized s
  require (0 < terms.coverageAmount ∧ 0 < terms.premiumAmount) (.error .invalidAmount)
  require (terms.durationSecs ≠ 0) (.error .invalidDuration)
  require (terms.coverageAmount ≤ s.pool.availableLiquidity) (.error .insufficientPoolLiquidity)
  let poolToken ← orAbort (.error .notInitialized) s.poolToken
  let tokens ← tokenTransfer s.tokens poolToken policyholder s.contractAddress terms.premiumAmount
  let policyId ← IntFormat.u64.checkedNat .overflow (s.policyCounter + 1)
  let endTime ← IntFormat.u64.checkedNat .overflow (now + terms.durationSecs)
  let policy : InsurancePolicy :=
    { id := policyId
      policyholder := policyholder
      policyType := terms.policyType
      coverageAmount := terms.coverageAmount
      premiumAmount := terms.premiumAmount
      oracleFeed := terms.oracleFeed
      triggerThreshold := terms.triggerThreshold
      triggerCondition := terms.triggerCondition
      startTime := now
      endTime := endTime
      status := .active
      createdAt := now }
  let totalLiquidity ← IntFormat.i128.checked .overflow
    (s.pool.totalLiquidity + terms.premiumAmount)
  let reservedLiquidity ← IntFormat.i128.checked .overflow
    (s.pool.reservedLiquidity + terms.coverageAmount)
  let totalPremiumsCollected ← IntFormat.i128.checked .overflow
    (s.pool.totalPremiumsCollected + terms.premiumAmount)
  let totalPolicies ← IntFormat.u64.checkedNat .overflow (s.pool.totalPolicies + 1)
  let activePolicies ← IntFormat.u64.checkedNat .overflow (s.pool.activePolicies + 1)
  let s := setPolicy { s with tokens := tokens, policyCounter := policyId } policy
  .ok (policyId, publish { s with
    pool := ⟨totalLiquidity, reservedLiquidity, totalPremiumsCollected, s.pool.totalPayouts,
      totalPolicies, activePolicies⟩ }
    (.polCrt policyId policyholder terms.coverageAmount terms.premiumAmount endTime))

end Tokens

/-- A policy that is not active cannot be cancelled; the error says why. -/
def requireCancellable : PolicyStatus → Outcome InsuranceError Unit
  | .active => .ok ()
  | .cancelled => .error (.error .policyAlreadyCancelled)
  | .claimed => .error (.error .alreadyClaimed)
  | .expired => .error (.error .policyExpired)

theorem requireCancellable_eq_ok {status : PolicyStatus} {u : Unit} :
    requireCancellable status = .ok u ↔ status = .active := by
  cases status <;> simp [requireCancellable]

/-- Cancel an active policy before a trigger fires, and release the reserved coverage. -/
def cancelPolicy (now : ℕ) (policyholder : Address) (policyId : ℕ) (s : State τ) :
    Outcome InsuranceError (State τ) := do
  requireNotPaused s
  let policy ← orAbort (.error .policyNotFound) (s.policies.lookup policyId)
  require (policy.policyholder = policyholder) (.error .unauthorized)
  requireCancellable policy.status
  let pool := { s.pool with
    reservedLiquidity :=
      IntFormat.i128.saturate (s.pool.reservedLiquidity - policy.coverageAmount)
    -- subtraction of natural numbers saturates at 0, as that of `u64` does
    activePolicies := s.pool.activePolicies - 1 }
  .ok (publish (setPolicy { s with pool := pool } { policy with status := .cancelled })
    (.polCnl policyId policyholder now))

/-- Shared logic for expiring a policy: release the reservation and persist the status. -/
def doExpirePolicy (now : ℕ) (policy : InsurancePolicy) (s : State τ) : State τ :=
  let pool := { s.pool with
    reservedLiquidity :=
      IntFormat.i128.saturate (s.pool.reservedLiquidity - policy.coverageAmount)
    activePolicies := s.pool.activePolicies - 1 }
  publish (setPolicy { s with pool := pool } { policy with status := .expired })
    (.polExp policy.id policy.policyholder now)

/-- Mark an expired policy as expired and release its reserved coverage. -/
def expirePolicy (now policyId : ℕ) (s : State τ) : Outcome InsuranceError (State τ) := do
  requireInitialized s
  let policy ← orAbort (.error .policyNotFound) (s.policies.lookup policyId)
  require (policy.status = .active) (.error .policyNotActive)
  require (policy.endTime < now) (.error .policyNotActive)
  .ok (doExpirePolicy now policy s)

/-! ## Oracle trigger -/

/-- What `fetch_aggregate_price` answers for the given sources, feed, staleness and number of
sources: the median of the samples, or nothing on a failure. -/
abbrev Oracle := List Address → Symbol → ℕ → ℕ → Option ℤ

section Tokens

variable [TokenClient τ Address Address]

/-- Execute the payout of a triggered policy. -/
def payOut (now policyId : ℕ) (policy : InsurancePolicy) (oracleValue : ℤ) (s : State τ) :
    Outcome InsuranceError (State τ) := do
  let poolToken ← orAbort (.error .notInitialized) s.poolToken
  let tokens ← tokenTransfer s.tokens poolToken s.contractAddress policy.policyholder
    policy.coverageAmount
  let totalPayouts ← IntFormat.i128.checked .overflow
    (s.pool.totalPayouts + policy.coverageAmount)
  let pool := { s.pool with
    totalLiquidity := IntFormat.i128.saturate (s.pool.totalLiquidity - policy.coverageAmount)
    reservedLiquidity :=
      IntFormat.i128.saturate (s.pool.reservedLiquidity - policy.coverageAmount)
    totalPayouts := totalPayouts
    activePolicies := s.pool.activePolicies - 1 }
  let s := setPolicy { s with tokens := tokens, pool := pool } { policy with status := .claimed }
  .ok (publish (publish s
    (.trigAct policyId policy.policyholder oracleValue policy.triggerThreshold
      policy.coverageAmount now))
    (.clmPaid policyId policy.policyholder policy.coverageAmount now))

/-- Check whether the oracle condition of a policy is satisfied, and disburse the payout if it
is. Anybody may call it. -/
def checkTrigger (now policyId : ℕ) (oracle : Oracle) (s : State τ) :
    Outcome InsuranceError (Bool × State τ) := do
  requireInitialized s
  let policy ← orAbort (.error .policyNotFound) (s.policies.lookup policyId)
  require (policy.status = .active) (.error .policyNotActive)
  -- the source expires the policy before it returns this error, which discards the expiry
  require (now ≤ policy.endTime) (.error .policyExpired)
  let oracleConfig ← orAbort (.error .notInitialized) s.oracleConfig
  let oracleValue ← orAbort (.error .oracleFailure)
    (oracle oracleConfig.sources policy.oracleFeed oracleConfig.maxStaleness
      oracleConfig.minSources)
  if policy.triggerCondition.triggered oracleValue policy.triggerThreshold then
    let s ← payOut now policyId policy oracleValue s
    .ok (true, s)
  else
    .ok (false, publish s (.trigMiss policyId oracleValue policy.triggerThreshold))

end Tokens

/-! ## What a successful call leaves -/

section Effects

variable [TokenClient τ Address Address] {now policyId : ℕ} {s s' : State τ}

theorem depositLiquidity_eq_ok {provider : Address} {amount : ℤ}
    (h : depositLiquidity now provider amount s = .ok s') :
    (s.initialized = true ∧ 0 < amount ∧ IntFormat.i128.Mem (s.pool.totalLiquidity + amount)) ∧
      ∃ poolToken tokens, s.poolToken = some poolToken ∧
        TokenClient.transfer s.tokens poolToken provider s.contractAddress amount = some tokens ∧
        s' = publish { s with
          tokens := tokens
          liquidityProviders := s.liquidityProviders.insert provider (getLpBalance s provider + amount)
          pool := { s.pool with totalLiquidity := s.pool.totalLiquidity + amount } }
          (.liqDep provider amount now) := by
  simp only [depositLiquidity, requireNotPaused, requireInitialized, Except.bind_eq_ok,
    require_eq_ok, exists_const, orAbort_eq_ok, tokenTransfer_eq_ok, IntFormat.checked_eq_ok] at h
  obtain ⟨-, hinit, hpos, poolToken, hpool, tokens, htokens, _, ⟨-, rfl⟩, _, ⟨hmem, rfl⟩, h⟩ := h
  obtain rfl := Except.ok.inj h
  exact ⟨⟨hinit, hpos, hmem⟩, poolToken, tokens, hpool, htokens, rfl⟩

theorem withdrawLiquidity_eq_ok {provider : Address} {amount : ℤ}
    (h : withdrawLiquidity now provider amount s = .ok s') :
    (s.initialized = true ∧ 0 < amount ∧ amount ≤ s.pool.availableLiquidity ∧
        IntFormat.i128.Mem (s.pool.totalLiquidity - amount)) ∧
      ∃ poolToken tokens, s.poolToken = some poolToken ∧
        TokenClient.transfer s.tokens poolToken s.contractAddress provider amount = some tokens ∧
        s' = publish { s with
          tokens := tokens
          liquidityProviders := s.liquidityProviders.insert provider (getLpBalance s provider - amount)
          pool := { s.pool with totalLiquidity := s.pool.totalLiquidity - amount } }
          (.liqWdraw provider amount now) := by
  simp only [withdrawLiquidity, requireNotPaused, requireInitialized, Except.bind_eq_ok,
    require_eq_ok, exists_const, orAbort_eq_ok, tokenTransfer_eq_ok, IntFormat.checked_eq_ok] at h
  obtain ⟨-, hinit, hpos, -, havail, poolToken, hpool, tokens, htokens, _, ⟨-, rfl⟩, _,
    ⟨hmem, rfl⟩, h⟩ := h
  obtain rfl := Except.ok.inj h
  exact ⟨⟨hinit, hpos, havail, hmem⟩, poolToken, tokens, hpool, htokens, rfl⟩

theorem createPolicy_eq_ok {policyholder : Address} {terms : PolicyTerms}
    (h : createPolicy now policyholder terms s = .ok (policyId, s')) :
    (s.initialized = true ∧ 0 < terms.coverageAmount ∧ 0 < terms.premiumAmount ∧
        terms.coverageAmount ≤ s.pool.availableLiquidity ∧
        IntFormat.i128.Mem (s.pool.totalLiquidity + terms.premiumAmount)) ∧
      ∃ poolToken tokens policy, s.poolToken = some poolToken ∧
        TokenClient.transfer s.tokens poolToken policyholder s.contractAddress terms.premiumAmount =
          some tokens ∧
        (policy.id = s.policyCounter + 1 ∧ policy.status = .active ∧
          policy.coverageAmount = terms.coverageAmount) ∧
        s'.contractAddress = s.contractAddress ∧ s'.initialized = s.initialized ∧
        s'.poolToken = s.poolToken ∧ s'.tokens = tokens ∧
        s'.policyCounter = s.policyCounter + 1 ∧
        s'.liquidityProviders = s.liquidityProviders ∧
        s'.policies = s.policies.insert policy.id policy ∧
        s'.pool = ⟨s.pool.totalLiquidity + terms.premiumAmount,
          s.pool.reservedLiquidity + terms.coverageAmount,
          s.pool.totalPremiumsCollected + terms.premiumAmount, s.pool.totalPayouts,
          s.pool.totalPolicies + 1, s.pool.activePolicies + 1⟩ := by
  simp only [createPolicy, requireNotPaused, requireInitialized, Except.bind_eq_ok,
    require_eq_ok, exists_const, orAbort_eq_ok, tokenTransfer_eq_ok, IntFormat.checked_eq_ok,
    IntFormat.checkedNat_eq_ok] at h
  obtain ⟨-, hinit, hpos, -, havail, poolToken, hpool, tokens, htokens, _, ⟨-, rfl⟩, _, ⟨-, rfl⟩,
    _, ⟨hmem, rfl⟩, _, ⟨-, rfl⟩, _, ⟨-, rfl⟩, _, ⟨-, rfl⟩, _, ⟨-, rfl⟩, h⟩ := h
  obtain ⟨rfl, rfl⟩ := Prod.mk.inj (Except.ok.inj h)
  exact ⟨⟨hinit, hpos.1, hpos.2, havail, hmem⟩, poolToken, tokens, _, hpool, htokens,
    ⟨rfl, rfl, rfl⟩, rfl, rfl, rfl, rfl, rfl, rfl, rfl, rfl⟩

/-- From `s` to `s'` an active policy leaves the pool, with `paid` paid for it. The pool is as
it says where the exact results are in the format. -/
structure Leaves (s s' : State τ) (policyId : ℕ) (policy : InsurancePolicy) (paid : ℤ) : Prop where
  lookup : s.policies.lookup policyId = some policy
  active : policy.status = .active
  policies : ∃ status, status ≠ .active ∧
    s'.policies = s.policies.insert policy.id { policy with status := status }
  totalLiquidity : IntFormat.i128.Mem (s.pool.totalLiquidity - paid) →
    s'.pool.totalLiquidity = s.pool.totalLiquidity - paid
  reservedLiquidity : IntFormat.i128.Mem (s.pool.reservedLiquidity - policy.coverageAmount) →
    s'.pool.reservedLiquidity = s.pool.reservedLiquidity - policy.coverageAmount
  totalPremiumsCollected : s'.pool.totalPremiumsCollected = s.pool.totalPremiumsCollected
  totalPayouts : s'.pool.totalPayouts = s.pool.totalPayouts + paid
  activePolicies : s'.pool.activePolicies = s.pool.activePolicies - 1
  contractAddress : s'.contractAddress = s.contractAddress
  initialized : s'.initialized = s.initialized
  poolToken : s'.poolToken = s.poolToken
  policyCounter : s'.policyCounter = s.policyCounter
  liquidityProviders : s'.liquidityProviders = s.liquidityProviders

omit [TokenClient τ Address Address] in
theorem cancelPolicy_eq_ok {policyholder : Address}
    (h : cancelPolicy now policyholder policyId s = .ok s') :
    ∃ policy, Leaves s s' policyId policy 0 ∧ s'.tokens = s.tokens := by
  simp only [cancelPolicy, requireNotPaused, Except.bind_eq_ok, require_eq_ok, exists_const,
    orAbort_eq_ok, requireCancellable_eq_ok] at h
  obtain ⟨-, policy, hread, -, hactive, h⟩ := h
  obtain rfl := Except.ok.inj h
  refine ⟨policy, ⟨hread, hactive, ⟨.cancelled, by decide, rfl⟩, fun _ => ?_,
    fun hmem => IntFormat.saturate_of_mem hmem, rfl, ?_, rfl, rfl, rfl, rfl, rfl, rfl⟩, rfl⟩
  · exact (sub_zero _).symm
  · exact (add_zero _).symm

omit [TokenClient τ Address Address] in
theorem expirePolicy_eq_ok (h : expirePolicy now policyId s = .ok s') :
    ∃ policy, Leaves s s' policyId policy 0 ∧ s'.tokens = s.tokens := by
  simp only [expirePolicy, requireInitialized, Except.bind_eq_ok, require_eq_ok, exists_const,
    orAbort_eq_ok] at h
  obtain ⟨-, policy, hread, hactive, -, h⟩ := h
  obtain rfl := Except.ok.inj h
  refine ⟨policy, ⟨hread, hactive, ⟨.expired, by decide, rfl⟩, fun _ => ?_,
    fun hmem => IntFormat.saturate_of_mem hmem, rfl, ?_, rfl, rfl, rfl, rfl, rfl, rfl⟩, rfl⟩
  · exact (sub_zero _).symm
  · exact (add_zero _).symm

/-- A checked trigger is missed, or the policy leaves the pool and its coverage is paid. -/
theorem checkTrigger_eq_ok {oracle : Oracle} {b : Bool}
    (h : checkTrigger now policyId oracle s = .ok (b, s')) :
    (∃ event, s' = publish s event) ∨ ∃ policy poolToken, s.poolToken = some poolToken ∧
      TokenClient.transfer s.tokens poolToken s.contractAddress policy.policyholder
        policy.coverageAmount = some s'.tokens ∧
      Leaves s s' policyId policy policy.coverageAmount := by
  simp only [checkTrigger, requireInitialized, Except.bind_eq_ok, require_eq_ok, exists_const,
    orAbort_eq_ok] at h
  obtain ⟨-, policy, hread, hactive, -, config, -, oracleValue, -, h⟩ := h
  split at h
  · simp only [payOut, Except.bind_eq_ok, orAbort_eq_ok, tokenTransfer_eq_ok,
      IntFormat.checked_eq_ok] at h
    obtain ⟨_, ⟨poolToken, hpool, tokens, htokens, _, ⟨-, rfl⟩, h₁⟩, h⟩ := h
    obtain rfl := Except.ok.inj h₁
    obtain ⟨-, rfl⟩ := Prod.mk.inj (Except.ok.inj h)
    exact .inr ⟨policy, poolToken, hpool, htokens, hread, hactive, ⟨.claimed, by decide, rfl⟩,
      fun hmem => IntFormat.saturate_of_mem hmem, fun hmem => IntFormat.saturate_of_mem hmem,
      rfl, rfl, rfl, rfl, rfl, rfl, rfl, rfl⟩
  · obtain ⟨-, rfl⟩ := Prod.mk.inj (Except.ok.inj h)
    exact .inl ⟨_, rfl⟩

end Effects

/-! ## The contract -/

section Tokens

variable [TokenClient τ Address Address]

/-- The calls of the contract, and the transfers of tokens that accounts make on their own. -/
inductive Call where
  | init (admin poolToken : Address) (oracleSources : List Address)
      (maxStaleness minOracleSources : ℕ)
  | updateOracleConfig (admin : Address) (oracleSources : List Address)
      (maxStaleness minOracleSources : ℕ)
  | pause (admin : Address)
  | unpause (admin : Address)
  | depositLiquidity (provider : Address) (amount : ℤ)
  | withdrawLiquidity (provider : Address) (amount : ℤ)
  | createPolicy (policyholder : Address) (terms : PolicyTerms)
  | cancelPolicy (policyholder : Address) (policyId : ℕ)
  | checkTrigger (policyId : ℕ) (oracle : Oracle)
  | expirePolicy (policyId : ℕ)
  | transfer (token src dst : Address) (amount : ℤ)

/-- What a call returns. -/
inductive Result where
  | unit
  | policyId (id : ℕ)
  | triggered (b : Bool)
deriving DecidableEq, Repr

/-- A transfer on the token contract. -/
def transfer (token src dst : Address) (amount : ℤ) (s : State τ) :
    Outcome InsuranceError (State τ) := do
  let tokens ← tokenTransfer s.tokens token src dst amount
  .ok { s with tokens := tokens }

/-- Execute a call. -/
def execute (now : ℕ) (s : State τ) : Call → Outcome InsuranceError (Result × State τ)
  | .init admin poolToken oracleSources maxStaleness minOracleSources =>
    (Result.unit, ·) <$> init admin poolToken oracleSources maxStaleness minOracleSources s
  | .updateOracleConfig admin oracleSources maxStaleness minOracleSources =>
    (Result.unit, ·) <$> updateOracleConfig admin oracleSources maxStaleness minOracleSources s
  | .pause admin => (Result.unit, ·) <$> pause now admin s
  | .unpause admin => (Result.unit, ·) <$> unpause now admin s
  | .depositLiquidity provider amount =>
    (Result.unit, ·) <$> depositLiquidity now provider amount s
  | .withdrawLiquidity provider amount =>
    (Result.unit, ·) <$> withdrawLiquidity now provider amount s
  | .createPolicy policyholder terms =>
    (fun p => (Result.policyId p.1, p.2)) <$> createPolicy now policyholder terms s
  | .cancelPolicy policyholder policyId =>
    (Result.unit, ·) <$> cancelPolicy now policyholder policyId s
  | .checkTrigger policyId oracle =>
    (fun p => (Result.triggered p.1, p.2)) <$> checkTrigger now policyId oracle s
  | .expirePolicy policyId => (Result.unit, ·) <$> expirePolicy now policyId s
  | .transfer token src dst amount => (Result.unit, ·) <$> transfer token src dst amount s

/-- The insurance contract. -/
def contract (τ : Type) [TokenClient τ Address Address] :
    Contract (State τ) Call Result (Fault InsuranceError) where
  exec now call s := execute now s call

end Tokens

end Stellara.Insurance
