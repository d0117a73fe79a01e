import Stellara.Shared.BreakerRuns
import Stellara.Shared.Fees

/-!
# The badges of the academy

An administrator awards badges of a type, and their holders redeem them for a discount on the fee
of a transaction. Every redemption is recorded for an audit trail, under its user and the number of
redemptions of the badge before it.

## Main definitions

* `Badge`, `BadgeMetadata`, `RedemptionRecord`, `State`: the storage of the contract
* `createBadgeType`, `mintBadge`, `revokeBadge`: the entry points of the administrator
* `redeemBadge`: the entry point of the users
* `getRedemptionHistory`, `getTotalMinted`: the audit trail and the counters
* `contract`: the contract as a transactional contract

## Main results

* `mintBadge_eq_ok`, `redeemBadge_eq_ok`: what the calls that return have checked and written
* `execute_effect`: what a call does to the badges and what is recorded about them
-/

namespace Stellara.AcademyRewards

open Governance (GovernanceRole GovernanceError)

/-! ## Storage -/

structure Badge where
  badgeType : ℕ
  /-- Discount in basis points. -/
  discountBps : ℕ
  earnedAt : ℕ
  redeemedCount : ℕ
  /-- Max allowed redemptions, 0 if unlimited. -/
  maxRedemptions : ℕ
  /-- Expiry timestamp, 0 if the badge never expires. -/
  expiry : ℕ
  active : Bool
deriving DecidableEq, Repr

structure BadgeMetadata where
  name : String
  discountBps : ℕ
  maxRedemptions : ℕ
  /-- Duration in seconds. -/
  validityDuration : ℕ
  enabled : Bool
deriving DecidableEq, Repr

/-- Redemption record for the audit trail. -/
structure RedemptionRecord where
  badgeType : ℕ
  timestamp : ℕ
  discountApplied : ℕ
  transactionHash : String
deriving DecidableEq, Repr

inductive ContractError where
  | alreadyInitialized
  | notInitialized
  | unauthorized
  | contractPaused
  | invalidDiscount
  | badgeTypeNotFound
  | badgeTypeDisabled
  | userAlreadyHasBadge
  | userHasNoBadge
  | badgeNotActive
  | badgeExpired
  | redemptionLimitReached
  | transactionAlreadyRedeemed
deriving DecidableEq, Repr

inductive Event where
  | badgeMinted (recipient : Address) (badgeType timestamp : ℕ)
  | badgeRevoked (user : Address) (badgeType : ℕ)
  | badgeRedeemed (user : Address) (badgeType discountBps : ℕ)
deriving DecidableEq, Repr

/-- The storage of the contract, with the entries of its roles and of its breaker, and its
events. -/
structure State where
  admin : Option Address
  pauses : CircuitBreaker.State
  badges : Store Address Badge
  badgeMetadata : Store ℕ BadgeMetadata
  redemptionHistory : Store (Address × ℕ) RedemptionRecord
  totalBadgesMinted : Store ℕ ℕ
  usedTransactionHashes : Store String Bool
  events : List Event

/-- The contract before `init`. -/
def State.empty : State := ⟨none, ⟨.initial ∅, .empty⟩, ∅, ∅, ∅, ∅, ∅, []⟩

abbrev Returns (α : Type) := Outcome ContractError α

/-- `initialize`. -/
def init (now : ℕ) (admin : Address) (cbConfig : CircuitBreakerConfig) (s : State) :
    Returns State := do
  require (s.admin = none) (.error .alreadyInitialized)
  let roles : Store Address GovernanceRole := AList.insert admin .admin ∅
  .ok { s with
    admin := some admin
    pauses :=
      { governance := { s.pauses.governance with roles := roles }
        breaker := CircuitBreaker.init now cbConfig s.pauses.breaker } }

def requireAdmin (admin : Address) (s : State) : Returns Unit := do
  let storedAdmin ← orAbort (.error .notInitialized) s.admin
  require (admin = storedAdmin) (.error .unauthorized)

/-! ## Badge types and badges -/

/-- Create a new badge type. An existing type is replaced, and its counter starts again. -/
def createBadgeType (admin : Address) (badgeType : ℕ) (name : String)
    (discountBps maxRedemptions validityDuration : ℕ) (s : State) : Returns State := do
  requireAdmin admin s
  require (discountBps ≤ 10000) (.error .invalidDiscount)
  let metadata : BadgeMetadata := ⟨name, discountBps, maxRedemptions, validityDuration, true⟩
  .ok { s with
    badgeMetadata := s.badgeMetadata.insert badgeType metadata
    totalBadgesMinted := s.totalBadgesMinted.insert badgeType 0 }

/-- The user has an active badge of the type. -/
def hasBadge (s : State) (recipient : Address) (badgeType : ℕ) : Prop :=
  ∃ existing, s.badges.lookup recipient = some existing ∧
    existing.badgeType = badgeType ∧ existing.active = true

instance (s : State) (recipient : Address) (badgeType : ℕ) :
    Decidable (hasBadge s recipient badgeType) :=
  match h : s.badges.lookup recipient with
  | none => isFalse fun ⟨_, he, _⟩ => nomatch h.symm.trans he
  | some existing =>
    decidable_of_iff (existing.badgeType = badgeType ∧ existing.active = true)
      ⟨fun he => ⟨existing, h, he⟩, fun ⟨_, he, hb⟩ => Option.some.inj (h.symm.trans he) ▸ hb⟩

/-- When a badge of the type expires that is awarded at `now`. -/
def badgeExpiry (now : ℕ) (metadata : BadgeMetadata) : Returns ℕ :=
  if 0 < metadata.validityDuration then
    IntFormat.u64.checkedNat .overflow (now + metadata.validityDuration)
  else .ok 0

/-- Get total badges minted for a type. -/
def getTotalMinted (s : State) (badgeType : ℕ) : ℕ := (s.totalBadgesMinted.lookup badgeType).getD 0

/-- Award a badge to a user, in the place of the one the user has. -/
def mintBadge (now : ℕ) (admin recipient : Address) (badgeType : ℕ) (s : State) :
    Returns State := do
  requireAdmin admin s
  CircuitBreaker.requireNotPaused s.pauses.breaker "mint_b"
  let metadata ← orAbort (.error .badgeTypeNotFound) (s.badgeMetadata.lookup badgeType)
  require (metadata.enabled = true) (.error .badgeTypeDisabled)
  require (¬ hasBadge s recipient badgeType) (.error .userAlreadyHasBadge)
  let expiry ← badgeExpiry now metadata
  let badge : Badge :=
    { badgeType := badgeType
      discountBps := metadata.discountBps
      earnedAt := now
      redeemedCount := 0
      maxRedemptions := metadata.maxRedemptions
      expiry := expiry
      active := true }
  let count ← IntFormat.u32.checkedNat .overflow (getTotalMinted s badgeType + 1)
  .ok { s with
    badges := s.badges.insert recipient badge
    totalBadgesMinted := s.totalBadgesMinted.insert badgeType count
    events := s.events ++ [.badgeMinted recipient badgeType now] }

/-- Revoke the badge of a user. -/
def revokeBadge (admin user : Address) (s : State) : Returns State := do
  requireAdmin admin s
  let badge ← orAbort (.error .userHasNoBadge) (s.badges.lookup user)
  .ok { s with
    badges := s.badges.insert user { badge with active := false }
    events := s.events ++ [.badgeRevoked user badge.badgeType] }

/-! ## Pauses -/

/-- Run a call of the administration of the breaker, which has no error codes. -/
def breakerCall (call : CircuitBreaker.State → Outcome GovernanceError CircuitBreaker.State)
    (admin : Address) (s : State) : Returns State := do
  requireAdmin admin s
  let pauses ← FeeManager.mapErr (fun _ => ContractError.unauthorized) (call s.pauses)
  .ok { s with pauses := pauses }

def setCbPauseLevel (admin : Address) (level : PauseLevel) : State → Returns State :=
  breakerCall (CircuitBreaker.setPauseLevel admin level) admin

def pauseCbFunction (admin : Address) (funcName : Symbol) : State → Returns State :=
  breakerCall (CircuitBreaker.pauseFunction admin funcName) admin

def unpauseCbFunction (admin : Address) (funcName : Symbol) : State → Returns State :=
  breakerCall (CircuitBreaker.unpauseFunction admin funcName) admin

/-! ## Redemptions -/

/-- The record of a redemption. -/
def redemptionRecord (now : ℕ) (badge : Badge) (transactionHash : String) : RedemptionRecord :=
  ⟨badge.badgeType, now, badge.discountBps, transactionHash⟩

/-- Redeem a badge for a fee discount in basis points. The record is stored at the current count of
the badge, before it is incremented. -/
def redeemBadge (now : ℕ) (user : Address) (transactionHash : String) (s : State) :
    Returns (ℕ × State) := do
  CircuitBreaker.requireNotPaused s.pauses.breaker "redeem_b"
  require (s.usedTransactionHashes.lookup transactionHash = none)
    (.error .transactionAlreadyRedeemed)
  let badge ← orAbort (.error .userHasNoBadge) (s.badges.lookup user)
  require (badge.active = true) (.error .badgeNotActive)
  require (¬ (0 < badge.expiry ∧ badge.expiry < now)) (.error .badgeExpired)
  require (¬ (0 < badge.maxRedemptions ∧ badge.maxRedemptions ≤ badge.redeemedCount))
    (.error .redemptionLimitReached)
  let redeemedCount ← IntFormat.u32.checkedNat .overflow (badge.redeemedCount + 1)
  let breaker ← CircuitBreaker.trackActivity now 1 s.pauses.breaker
  .ok (badge.discountBps, { s with
    redemptionHistory := s.redemptionHistory.insert (user, badge.redeemedCount)
      (redemptionRecord now badge transactionHash)
    usedTransactionHashes := s.usedTransactionHashes.insert transactionHash true
    badges := s.badges.insert user { badge with redeemedCount := redeemedCount }
    pauses := { s.pauses with breaker := breaker }
    events := s.events ++ [.badgeRedeemed user badge.badgeType badge.discountBps] })

/-- Get redemption history for user. -/
def getRedemptionHistory (s : State) (user : Address) (index : ℕ) : Option RedemptionRecord :=
  s.redemptionHistory.lookup (user, index)

/-! ## The contract -/

inductive Call where
  | init (admin : Address) (cbConfig : CircuitBreakerConfig)
  | createBadgeType (admin : Address) (badgeType : ℕ) (name : String)
      (discountBps maxRedemptions validityDuration : ℕ)
  | mintBadge (admin recipient : Address) (badgeType : ℕ)
  | revokeBadge (admin user : Address)
  | setCbPauseLevel (admin : Address) (level : PauseLevel)
  | pauseCbFunction (admin : Address) (funcName : Symbol)
  | unpauseCbFunction (admin : Address) (funcName : Symbol)
  | redeemBadge (user : Address) (transactionHash : String)
deriving DecidableEq, Repr

/-- Execute a call. What it returns is a discount, or nothing. -/
def execute (now : ℕ) (s : State) : Call → Returns (Option ℕ × State)
  | .init admin cbConfig => do .ok (none, ← init now admin cbConfig s)
  | .createBadgeType admin badgeType name discountBps maxRedemptions validityDuration => do
    .ok (none, ← createBadgeType admin badgeType name discountBps maxRedemptions validityDuration s)
  | .mintBadge admin recipient badgeType => do
    .ok (none, ← mintBadge now admin recipient badgeType s)
  | .revokeBadge admin user => do .ok (none, ← revokeBadge admin user s)
  | .setCbPauseLevel admin level => do .ok (none, ← setCbPauseLevel admin level s)
  | .pauseCbFunction admin funcName => do .ok (none, ← pauseCbFunction admin funcName s)
  | .unpauseCbFunction admin funcName => do .ok (none, ← unpauseCbFunction admin funcName s)
  | .redeemBadge user transactionHash => do
    let (discountBps, s) ← redeemBadge now user transactionHash s
    .ok (some discountBps, s)

/-- The contract. Its time is the timestamp of the ledger. -/
def contract : Contract State Call (Option ℕ) (Fault ContractError) where
  exec now call s := execute now s call

/-! ## What the calls write -/

variable {now badgeType discountBps : ℕ} {admin recipient user : Address} {transactionHash : String}
  {s s' : State}

theorem mintBadge_eq_ok (h : mintBadge now admin recipient badgeType s = .ok s') :
    ∃ badge events, badge.redeemedCount = 0 ∧ s' = { s with
      badges := s.badges.insert recipient badge
      totalBadgesMinted := s.totalBadgesMinted.insert badgeType (getTotalMinted s badgeType + 1)
      events := events } := by
  simp only [mintBadge, Except.bind_eq_ok, require_eq_ok, exists_const, orAbort_eq_ok,
    IntFormat.checkedNat_eq_ok] at h
  obtain ⟨-, -, -, -, metadata, -, -, -, expiry, -, count, ⟨-, rfl⟩, h⟩ := h
  obtain rfl := Except.ok.inj h
  exact ⟨_, _, rfl, rfl⟩

theorem redeemBadge_eq_ok (h : redeemBadge now user transactionHash s = .ok (discountBps, s')) :
    s.usedTransactionHashes.lookup transactionHash = none ∧
      ∃ badge pauses events, s.badges.lookup user = some badge ∧ s' = { s with
        redemptionHistory := s.redemptionHistory.insert (user, badge.redeemedCount)
          (redemptionRecord now badge transactionHash)
        usedTransactionHashes := s.usedTransactionHashes.insert transactionHash true
        badges := s.badges.insert user { badge with redeemedCount := badge.redeemedCount + 1 }
        pauses := pauses
        events := events } := by
  simp only [redeemBadge, Except.bind_eq_ok, require_eq_ok, exists_const, orAbort_eq_ok,
    IntFormat.checkedNat_eq_ok] at h
  obtain ⟨-, -, hhash, badge, hbadge, -, -, -, _, ⟨-, rfl⟩, breaker, -, h⟩ := h
  obtain ⟨-, rfl⟩ := Prod.mk.inj (Except.ok.inj h)
  exact ⟨hhash, badge, _, _, hbadge, rfl⟩

/-- The administration of the breaker writes its entries only. -/
theorem breakerCall_eq_ok {call : CircuitBreaker.State → Outcome GovernanceError CircuitBreaker.State}
    (h : breakerCall call admin s = .ok s') : ∃ pauses, s' = { s with pauses := pauses } := by
  simp only [breakerCall, Except.bind_eq_ok] at h
  obtain ⟨-, -, pauses, -, h⟩ := h
  exact ⟨pauses, (Except.ok.inj h).symm⟩

/-- What a redemption checks of the badge, and what it returns. -/
theorem redeemBadge_checks (h : redeemBadge now user transactionHash s = .ok (discountBps, s')) :
    ∃ badge, s.badges.lookup user = some badge ∧ badge.active = true ∧
      ¬ (0 < badge.expiry ∧ badge.expiry < now) ∧
      ¬ (0 < badge.maxRedemptions ∧ badge.maxRedemptions ≤ badge.redeemedCount) ∧
      discountBps = badge.discountBps := by
  simp only [redeemBadge, Except.bind_eq_ok, require_eq_ok, exists_const, orAbort_eq_ok] at h
  obtain ⟨-, -, -, badge, hbadge, hactive, hexpiry, hlimit, _, -, breaker, -, h⟩ := h
  obtain ⟨rfl, -⟩ := Prod.mk.inj (Except.ok.inj h)
  exact ⟨badge, hbadge, hactive, hexpiry, hlimit, rfl⟩

/-- The calls that leave the badges and what is recorded about them. -/
def Call.quiet : Call → Bool
  | .init .. | .setCbPauseLevel .. | .pauseCbFunction .. | .unpauseCbFunction .. => true
  | .createBadgeType .. | .mintBadge .. | .revokeBadge .. | .redeemBadge .. => false

/-- The records of redemptions, the used transactions and the counters of two states are the same.
-/
structure SameRecords (s s' : State) : Prop where
  history : s'.redemptionHistory = s.redemptionHistory
  used : s'.usedTransactionHashes = s.usedTransactionHashes
  minted : s'.totalBadgesMinted = s.totalBadgesMinted

/-- What a call does to the badges and what is recorded about them. -/
inductive Effect (now : ℕ) (s s' : State) : Call → Prop
  | kept {call : Call} : call.quiet = true → s'.badges = s.badges → SameRecords s s' →
      Effect now s s' call
  | created {admin : Address} {badgeType : ℕ} {name : String}
      {discountBps maxRedemptions validityDuration : ℕ} :
      s'.badges = s.badges → s'.redemptionHistory = s.redemptionHistory →
      s'.usedTransactionHashes = s.usedTransactionHashes →
      s'.totalBadgesMinted = s.totalBadgesMinted.insert badgeType 0 →
      Effect now s s'
        (.createBadgeType admin badgeType name discountBps maxRedemptions validityDuration)
  | awarded {admin recipient : Address} {badgeType : ℕ} {badge : Badge} :
      badge.redeemedCount = 0 → s'.badges = s.badges.insert recipient badge →
      s'.redemptionHistory = s.redemptionHistory →
      s'.usedTransactionHashes = s.usedTransactionHashes →
      s'.totalBadgesMinted =
        s.totalBadgesMinted.insert badgeType (getTotalMinted s badgeType + 1) →
      Effect now s s' (.mintBadge admin recipient badgeType)
  | revoked {admin user : Address} {badge : Badge} :
      s.badges.lookup user = some badge →
      s'.badges = s.badges.insert user { badge with active := false } → SameRecords s s' →
      Effect now s s' (.revokeBadge admin user)
  | redeemed {user : Address} {transactionHash : String} {badge : Badge} :
      s.usedTransactionHashes.lookup transactionHash = none →
      s.badges.lookup user = some badge →
      ¬ (0 < badge.maxRedemptions ∧ badge.maxRedemptions ≤ badge.redeemedCount) →
      s'.badges = s.badges.insert user { badge with redeemedCount := badge.redeemedCount + 1 } →
      s'.redemptionHistory = s.redemptionHistory.insert (user, badge.redeemedCount)
        (redemptionRecord now badge transactionHash) →
      s'.usedTransactionHashes = s.usedTransactionHashes.insert transactionHash true →
      s'.totalBadgesMinted = s.totalBadgesMinted →
      Effect now s s' (.redeemBadge user transactionHash)

theorem execute_effect {call : Call} {r : Option ℕ} (h : execute now s call = .ok (r, s')) :
    Effect now s s' call := by
  cases call with
  | init admin cbConfig =>
    simp only [execute, init, Except.bind_eq_ok, require_eq_ok, exists_const] at h
    obtain ⟨_, ⟨-, h₁⟩, h⟩ := h
    obtain rfl := Except.ok.inj h₁
    obtain ⟨-, rfl⟩ := Prod.mk.inj (Except.ok.inj h)
    exact .kept rfl rfl ⟨rfl, rfl, rfl⟩
  | createBadgeType admin badgeType name discountBps maxRedemptions validityDuration =>
    simp only [execute, createBadgeType, Except.bind_eq_ok, require_eq_ok, exists_const] at h
    obtain ⟨_, ⟨-, -, -, h₁⟩, h⟩ := h
    obtain rfl := Except.ok.inj h₁
    obtain ⟨-, rfl⟩ := Prod.mk.inj (Except.ok.inj h)
    exact .created rfl rfl rfl rfl
  | mintBadge admin recipient badgeType =>
    simp only [execute, Except.bind_eq_ok] at h
    obtain ⟨_, h₁, h⟩ := h
    obtain ⟨-, rfl⟩ := Prod.mk.inj (Except.ok.inj h)
    obtain ⟨badge, events, hcount, rfl⟩ := mintBadge_eq_ok h₁
    exact .awarded hcount rfl rfl rfl rfl
  | revokeBadge admin user =>
    simp only [execute, revokeBadge, Except.bind_eq_ok, orAbort_eq_ok] at h
    obtain ⟨_, ⟨-, -, badge, hbadge, h₁⟩, h⟩ := h
    obtain rfl := Except.ok.inj h₁
    obtain ⟨-, rfl⟩ := Prod.mk.inj (Except.ok.inj h)
    exact .revoked hbadge rfl ⟨rfl, rfl, rfl⟩
  | redeemBadge user transactionHash =>
    simp only [execute, Except.bind_eq_ok] at h
    obtain ⟨⟨discountBps, _⟩, h₁, h⟩ := h
    obtain ⟨-, rfl⟩ := Prod.mk.inj (Except.ok.inj h)
    obtain ⟨hhash, badge, pauses, events, hbadge, rfl⟩ := redeemBadge_eq_ok h₁
    -- the badge that is written is the one that was checked
    obtain ⟨badge', hbadge', -, -, hlimit, -⟩ := redeemBadge_checks h₁
    obtain rfl := Option.some.inj (hbadge'.symm.trans hbadge)
    exact .redeemed hhash hbadge hlimit rfl rfl rfl rfl
  | setCbPauseLevel admin level | pauseCbFunction admin funcName | unpauseCbFunction admin funcName =>
    simp only [execute, Except.bind_eq_ok] at h
    obtain ⟨_, h₁, h⟩ := h
    obtain ⟨-, rfl⟩ := Prod.mk.inj (Except.ok.inj h)
    obtain ⟨pauses, rfl⟩ := breakerCall_eq_ok h₁
    exact .kept rfl rfl ⟨rfl, rfl, rfl⟩

end Stellara.AcademyRewards
