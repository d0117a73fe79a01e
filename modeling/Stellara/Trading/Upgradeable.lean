import Stellara.Shared.AclDecision
import Stellara.Shared.Governance
import Stellara.Trading.EntryPoints

/-!
# The upgradeable trading contract

All entry points of the trading contract: beside the calls that trade on the book there are the
calls of administrators, who hold their permissions in an access control list, the private trades,
of which only commitments are stored, and the upgrade governance.

## Main definitions

* `State`: the storage of the contract
* `setRateLimitConfig`, `setPremiumUser`, `setPauseLevel`, `pauseFunction`, `unpauseFunction`,
  `manageAcl`: the calls of administrators
* `submitSolvencyProof`, `executePrivateTrade`, `auditPrivateTrade`, …: private trades
* `contract`: the contract as a transactional contract

## Main results

* `execute_cases`: what a committed call leaves
-/

namespace Stellara.UpgradeableTrading

open Trading (TradeError RateLimitConfig)

/-! ## Storage -/

/-- A hash or a commitment. -/
abbrev Bytes32 := BitVec 256

structure PrivateBalanceCommitment where
  commitment : Bytes32
  nonce : ℕ
  updatedAt : ℕ
deriving DecidableEq, Repr

structure SolvencyProofRecord where
  proofHash : Bytes32
  assetsCommitment : Bytes32
  liabilitiesCommitment : Bytes32
  balanceCommitment : Bytes32
  nonce : ℕ
  submittedAt : ℕ
  expiresAt : ℕ
deriving DecidableEq, Repr

structure PrivateTradeRecord where
  id : ℕ
  trader : Address
  pair : Symbol
  price : ℤ
  isBuy : Bool
  amountCommitment : Bytes32
  balanceCommitment : Bytes32
  solvencyProofHash : Bytes32
  timestamp : ℕ
deriving DecidableEq, Repr

structure ComplianceViewKey where
  encryptedKey : List UInt8
  keyVersion : ℕ
  updatedAt : ℕ
deriving DecidableEq, Repr

structure PrivateTradeAuditRecord where
  auditId : ℕ
  tradeId : ℕ
  auditor : Address
  trader : Address
  action : Symbol
  timestamp : ℕ
deriving DecidableEq, Repr

structure PrivateTradeAuditView where
  trade : PrivateTradeRecord
  proof : List SolvencyProofRecord
  traderViewKey : List ComplianceViewKey
  selectiveDisclosure : List (List UInt8)
deriving DecidableEq, Repr

/-- The events of the private trades. -/
inductive PrivateEvent where
  | solvencySubmitted (trader : Address) (proofHash : Bytes32)
  | balanceUpdated (trader : Address) (commitment : Bytes32)
  | privateExecuted (tradeId : ℕ) (trader : Address) (pair : Symbol)
      (amountCommitment balanceCommitment : Bytes32)
  | keyRegistered (trader : Address) (version : ℕ)
  | privateAudited (auditId tradeId : ℕ) (auditor : Address)
deriving DecidableEq, Repr

/-- The entries `prv_trd`, `pt_cnt`, `solv_prf`, `s_ttl`, `prv_bal`, `cmp_key`, `prv_aud` and
`pa_cnt`, and the events of the private trades. -/
structure PrivateTrades where
  trades : Store ℕ PrivateTradeRecord
  tradeCount : ℕ
  solvencyProofs : Store Address SolvencyProofRecord
  solvencyTtl : Option ℕ
  balances : Store Address PrivateBalanceCommitment
  viewKeys : Store Address ComplianceViewKey
  audits : Store ℕ PrivateTradeAuditRecord
  auditCount : ℕ
  events : List PrivateEvent

structure State (τ : Type) where
  trading : Trading.State τ
  acl : ACL.Storage
  governance : Governance.State
  privateTrades : PrivateTrades

/-- The error codes of the contract: those of the book, and those of the private trades. -/
inductive ContractError where
  | trade (e : TradeError)
  | invalidCommitment
  | missingSolvencyProof
  | invalidSolvencyProof
  | solvencyProofExpired
  | privateTradeNotFound
  | auditUnauthorized
deriving DecidableEq, Repr

abbrev Returns (α : Type) := Outcome ContractError α

/-- Default validity of a solvency proof in seconds. -/
def defaultSolvencyProofTtlSecs : ℕ := 3600

variable {τ : Type}

/-- The contract before `init`. -/
def State.empty (tokens : τ) : State τ where
  trading := .empty tokens
  acl := .empty
  governance := .initial ∅
  privateTrades := ⟨∅, 0, ∅, none, ∅, ∅, ∅, 0, []⟩

def PrivateTrades.publish (p : PrivateTrades) (e : PrivateEvent) : PrivateTrades :=
  { p with events := p.events ++ [e] }

/-- An outcome of the book as one of the contract. -/
def lift {α : Type} : Outcome TradeError α → Returns α := FeeManager.mapErr .trade

@[simp] theorem lift_eq_ok {α : Type} {x : Outcome TradeError α} {a : α} :
    lift x = .ok a ↔ x = .ok a := FeeManager.mapErr_eq_ok

/-! ## Administration -/

/-- The role of the administrator, with its permissions. -/
def initialAcl (admin : Address) (s : ACL.Storage) : ACL.Storage :=
  let s := ACL.assignRole admin "admin" (ACL.createRole "admin" s)
  ["set_rate", "premium", "pause", "unpause", "manage_acl"].foldl
    (fun s permission => ACL.assignPermission "admin" permission s) s

/-- Initialize the contract with admin and initial approvers. -/
def init (now : ℕ) (admin : Address) (approvers : List Address) (executor : Address)
    (cbConfig : CircuitBreakerConfig) (s : State τ) : Returns (State τ) := do
  let trading ← lift (Trading.init now cbConfig s.trading)
  .ok { s with
    trading := trading
    acl := initialAcl admin s.acl
    governance := { s.governance with roles := Governance.initialRoles admin approvers executor } }

def requireInitialized (s : State τ) : Returns Unit := lift (Trading.requireInitialized s.trading)

/-- The guards of every call of an administrator. -/
def requireAdmin (admin : Address) (permission : Symbol) (s : State τ) : Returns Unit := do
  requireInitialized s
  ACL.requirePermission admin permission s.acl

/-- Set rate-limit config (ACL protected). -/
def setRateLimitConfig (admin : Address) (windowSecs userLimit globalLimit premiumUserLimit : ℕ)
    (s : State τ) : Returns (State τ) := do
  requireAdmin admin "set_rate" s
  require (¬ (windowSecs = 0 ∨ userLimit = 0 ∨ globalLimit = 0 ∨ premiumUserLimit = 0))
    (.error (.trade .invalidRateLimitConfig))
  let cfg : RateLimitConfig := ⟨windowSecs, userLimit, globalLimit, premiumUserLimit⟩
  .ok { s with trading := { s.trading with limits := { s.trading.limits with cfg := some cfg } } }

/-- Mark or unmark a premium user (ACL protected). -/
def setPremiumUser (admin user : Address) (isPremium : Bool) (s : State τ) :
    Returns (State τ) := do
  requireAdmin admin "premium" s
  let premiumUsers := s.trading.limits.premiumUsers.insert user isPremium
  .ok { s with
    trading := { s.trading with limits := { s.trading.limits with premiumUsers := premiumUsers } } }

/-- Change the circuit breaker. -/
def State.setBreaker (s : State τ) (breaker : CircuitBreaker.Storage) : State τ :=
  { s with trading := { s.trading with breaker := breaker } }

def setTradePauseLevel (level : PauseLevel) (b : CircuitBreaker.Storage) : CircuitBreaker.Storage :=
  { b with state := some { CircuitBreaker.getState b with pauseLevel := level } }

def pauseTradeFunction (funcName : Symbol) (b : CircuitBreaker.Storage) : CircuitBreaker.Storage :=
  let b := { b with pausedFuncs := b.pausedFuncs.insert funcName true }
  if (CircuitBreaker.getState b).pauseLevel = .none then setTradePauseLevel .partialPause b else b

def unpauseTradeFunction (funcName : Symbol) (b : CircuitBreaker.Storage) :
    CircuitBreaker.Storage :=
  { b with pausedFuncs := b.pausedFuncs.erase funcName }

/-- Change the breaker as an administrator with a permission. -/
def administerBreaker (admin : Address) (permission : Symbol)
    (f : CircuitBreaker.Storage → CircuitBreaker.Storage) (s : State τ) : Returns (State τ) := do
  requireAdmin admin permission s
  .ok (s.setBreaker (f s.trading.breaker))

/-- Set circuit breaker pause level (ACL protected). -/
def setPauseLevel (admin : Address) (level : PauseLevel) : State τ → Returns (State τ) :=
  administerBreaker admin "pause" (setTradePauseLevel level)

/-- Pause specific function (ACL protected). -/
def pauseFunction (admin : Address) (funcName : Symbol) : State τ → Returns (State τ) :=
  administerBreaker admin "pause" (pauseTradeFunction funcName)

/-- Unpause specific function (ACL protected). -/
def unpauseFunction (admin : Address) (funcName : Symbol) : State τ → Returns (State τ) :=
  administerBreaker admin "unpause" (unpauseTradeFunction funcName)

/-- Pause the contract (ACL protected). -/
def pause (admin : Address) : State τ → Returns (State τ) :=
  administerBreaker admin "pause" (setTradePauseLevel .full)

/-- Unpause the contract (ACL protected). -/
def unpause (admin : Address) : State τ → Returns (State τ) :=
  administerBreaker admin "unpause" (setTradePauseLevel .none)

/-- Create a role, assign one, assign permissions to one or set its parent (ACL protected). -/
def manageAcl (admin : Address) (call : ACL.Call) (s : State τ) : Returns (State τ) := do
  requireAdmin admin "manage_acl" s
  -- the list has no error codes of its own
  let (_, acl) ← FeeManager.mapErr Empty.elim (ACL.execute s.acl call)
  .ok { s with acl := acl }

/-- A call of the upgrade governance. -/
def govern (now : ℕ) (call : Governance.Call) (s : State τ) :
    Returns (Governance.Result × State τ) := do
  requireInitialized s
  let (result, governance) ← FeeManager.mapErr (fun _ => ContractError.trade .unauthorized)
    (Governance.execute now s.governance call)
  .ok (result, { s with governance := governance })

/-! ## Private trades -/

/-- The count after the one that is stored: a nonce or a version. -/
def nextCount {V : Type} (F : IntFormat) (stored : Option V) (count : V → ℕ) : Returns ℕ :=
  match stored with
  | some v => F.checkedNat .overflow (count v + 1)
  | none => .ok 1

/-- Submit a proof of solvency. -/
def submitSolvencyProof (now : ℕ) (trader : Address) (proofHash assetsCommitment
    liabilitiesCommitment balanceCommitment : Bytes32) (s : State τ) : Returns (State τ) := do
  requireInitialized s
  require (proofHash ≠ 0) (.error .invalidSolvencyProof)
  require (assetsCommitment ≠ 0) (.error .invalidSolvencyProof)
  require (liabilitiesCommitment ≠ 0) (.error .invalidSolvencyProof)
  require (balanceCommitment ≠ 0) (.error .invalidSolvencyProof)
  let ttlSecs := s.privateTrades.solvencyTtl.getD defaultSolvencyProofTtlSecs
  let nonce ← nextCount .u64 (s.privateTrades.solvencyProofs.lookup trader)
    SolvencyProofRecord.nonce
  let expiresAt ← IntFormat.u64.checkedNat .overflow (now + ttlSecs)
  let record : SolvencyProofRecord := ⟨proofHash, assetsCommitment, liabilitiesCommitment,
    balanceCommitment, nonce, now, expiresAt⟩
  let p := { s.privateTrades with
    solvencyProofs := s.privateTrades.solvencyProofs.insert trader record }
  .ok { s with privateTrades := p.publish (.solvencySubmitted trader proofHash) }

/-- The balances after a commitment of the trader is stored. -/
def storeBalance (now : ℕ) (trader : Address) (commitment : Bytes32)
    (balances : Store Address PrivateBalanceCommitment) :
    Returns (Store Address PrivateBalanceCommitment) := do
  let nonce ← nextCount .u64 (balances.lookup trader) PrivateBalanceCommitment.nonce
  .ok (balances.insert trader ⟨commitment, nonce, now⟩)

/-- Update the private balance commitment. -/
def updatePrivateBalance (now : ℕ) (trader : Address) (commitment : Bytes32) (s : State τ) :
    Returns (State τ) := do
  requireInitialized s
  require (commitment ≠ 0) (.error .invalidCommitment)
  let balances ← storeBalance now trader commitment s.privateTrades.balances
  let p := { s.privateTrades with balances := balances }
  .ok { s with privateTrades := p.publish (.balanceUpdated trader commitment) }

/-- Execute a private trade. -/
def executePrivateTrade (now : ℕ) (trader : Address) (pair : Symbol) (price : ℤ) (isBuy : Bool)
    (amountCommitment balanceCommitment solvencyProofHash : Bytes32) (s : State τ) :
    Returns (ℕ × State τ) := do
  requireInitialized s
  require (0 < price) (.error (.trade .invalidPrice))
  require (amountCommitment ≠ 0) (.error .invalidCommitment)
  require (balanceCommitment ≠ 0) (.error .invalidCommitment)
  require (solvencyProofHash ≠ 0) (.error .invalidSolvencyProof)
  let record ← orAbort (.error .missingSolvencyProof)
    (s.privateTrades.solvencyProofs.lookup trader)
  require (now ≤ record.expiresAt) (.error .solvencyProofExpired)
  require (record.proofHash = solvencyProofHash) (.error .invalidSolvencyProof)
  let tradeId ← IntFormat.u64.checkedNat .overflow (s.privateTrades.tradeCount + 1)
  let trade : PrivateTradeRecord := ⟨tradeId, trader, pair, price, isBuy, amountCommitment,
    balanceCommitment, solvencyProofHash, now⟩
  let balances ← storeBalance now trader balanceCommitment s.privateTrades.balances
  let p := { s.privateTrades with
    tradeCount := tradeId
    trades := s.privateTrades.trades.insert tradeId trade
    balances := balances }
  let p := p.publish
    (.privateExecuted tradeId trader pair amountCommitment balanceCommitment)
  .ok (tradeId, { s with privateTrades := p })

/-- Register a compliance view key. -/
def registerComplianceViewKey (now : ℕ) (trader : Address) (encryptedKey : List UInt8)
    (s : State τ) : Returns (State τ) := do
  requireInitialized s
  let version ← nextCount .u32 (s.privateTrades.viewKeys.lookup trader)
    ComplianceViewKey.keyVersion
  let p := { s.privateTrades with
    viewKeys := s.privateTrades.viewKeys.insert trader ⟨encryptedKey, version, now⟩ }
  .ok { s with privateTrades := p.publish (.keyRegistered trader version) }

/-- Audit a private trade. -/
def auditPrivateTrade (now : ℕ) (auditor : Address) (tradeId : ℕ) (action : Symbol)
    (s : State τ) : Returns (PrivateTradeAuditView × State τ) := do
  requireInitialized s
  let permitted ← ACL.hasPermission auditor "audit" s.acl
  require (permitted = true) (.error .auditUnauthorized)
  let trade ← orAbort (.error .privateTradeNotFound) (s.privateTrades.trades.lookup tradeId)
  let auditId ← IntFormat.u64.checkedNat .overflow (s.privateTrades.auditCount + 1)
  let p := { s.privateTrades with
    auditCount := auditId
    audits := s.privateTrades.audits.insert auditId
      ⟨auditId, tradeId, auditor, trade.trader, action, now⟩ }
  let view : PrivateTradeAuditView :=
    { trade := trade
      proof := (s.privateTrades.solvencyProofs.lookup trade.trader).toList
      traderViewKey := (s.privateTrades.viewKeys.lookup trade.trader).toList
      selectiveDisclosure := [] }
  .ok (view, { s with privateTrades := p.publish (.privateAudited auditId tradeId auditor) })

/-! ## The contract -/

inductive Call where
  | init (admin : Address) (approvers : List Address) (executor : Address)
      (cbConfig : CircuitBreakerConfig)
  | trading (call : Trading.Call)
  | setRateLimitConfig (admin : Address) (windowSecs userLimit globalLimit premiumUserLimit : ℕ)
  | setPremiumUser (admin user : Address) (isPremium : Bool)
  | setPauseLevel (admin : Address) (level : PauseLevel)
  | pauseFunction (admin : Address) (funcName : Symbol)
  | unpauseFunction (admin : Address) (funcName : Symbol)
  | pause (admin : Address)
  | unpause (admin : Address)
  | manageAcl (admin : Address) (call : ACL.Call)
  | govern (call : Governance.Call)
  | submitSolvencyProof (trader : Address) (proofHash assetsCommitment liabilitiesCommitment
      balanceCommitment : Bytes32)
  | updatePrivateBalance (trader : Address) (commitment : Bytes32)
  | executePrivateTrade (trader : Address) (pair : Symbol) (price : ℤ) (isBuy : Bool)
      (amountCommitment balanceCommitment solvencyProofHash : Bytes32)
  | registerComplianceViewKey (trader : Address) (encryptedKey : List UInt8)
  | auditPrivateTrade (auditor : Address) (tradeId : ℕ) (action : Symbol)
deriving DecidableEq, Repr

/-- What a call returns. -/
inductive Result where
  | trading (r : Trading.Result)
  | governance (r : Governance.Result)
  | privateTradeId (id : ℕ)
  | auditView (view : PrivateTradeAuditView)
  | unit
deriving DecidableEq, Repr

/-- A call that returns nothing. -/
def done (x : Returns (State τ)) : Returns (Result × State τ) := (Result.unit, ·) <$> x

/-- Execute a call. -/
def execute [TokenClient τ Address Address] (now : ℕ) (s : State τ) :
    Call → Returns (Result × State τ)
  | .init admin approvers executor cbConfig => done (init now admin approvers executor cbConfig s)
  | .trading call => do
    let (r, trading) ← lift (Trading.execute now s.trading call)
    .ok (.trading r, { s with trading := trading })
  | .setRateLimitConfig admin windowSecs userLimit globalLimit premiumUserLimit =>
    done (setRateLimitConfig admin windowSecs userLimit globalLimit premiumUserLimit s)
  | .setPremiumUser admin user isPremium => done (setPremiumUser admin user isPremium s)
  | .setPauseLevel admin level => done (setPauseLevel admin level s)
  | .pauseFunction admin funcName => done (pauseFunction admin funcName s)
  | .unpauseFunction admin funcName => done (unpauseFunction admin funcName s)
  | .pause admin => done (pause admin s)
  | .unpause admin => done (unpause admin s)
  | .manageAcl admin call => done (manageAcl admin call s)
  | .govern call => do
    let (r, s) ← govern now call s
    .ok (.governance r, s)
  | .submitSolvencyProof trader proofHash assetsCommitment liabilitiesCommitment
      balanceCommitment =>
    done (submitSolvencyProof now trader proofHash assetsCommitment liabilitiesCommitment
      balanceCommitment s)
  | .updatePrivateBalance trader commitment => done (updatePrivateBalance now trader commitment s)
  | .executePrivateTrade trader pair price isBuy amountCommitment balanceCommitment
      solvencyProofHash => do
    let (id, s) ← executePrivateTrade now trader pair price isBuy amountCommitment
      balanceCommitment solvencyProofHash s
    .ok (.privateTradeId id, s)
  | .registerComplianceViewKey trader encryptedKey =>
    done (registerComplianceViewKey now trader encryptedKey s)
  | .auditPrivateTrade auditor tradeId action => do
    let (view, s) ← auditPrivateTrade now auditor tradeId action s
    .ok (.auditView view, s)

/-- The upgradeable trading contract. -/
def contract (τ : Type) [TokenClient τ Address Address] :
    Contract (State τ) Call Result (Fault ContractError) where
  exec now call s := execute now s call

/-- The contract before `init`, without tokens. -/
def emptyWorld : World (State (Balances Address Address)) := ⟨0, .empty Balances.zero⟩

/-! ## What a call leaves -/

/-- The call executes a private trade. -/
def Call.isPrivateTrade : Call → Bool
  | .executePrivateTrade .. => true
  | _ => false

/-- No limit of the configuration is zero, and no window is empty. -/
structure RateLimitsPositive (cfg : RateLimitConfig) : Prop where
  windowSecs : 0 < cfg.windowSecs
  userLimit : 0 < cfg.userLimit
  globalLimit : 0 < cfg.globalLimit
  premiumUserLimit : 0 < cfg.premiumUserLimit

theorem RateLimitsPositive.not_zero {cfg : RateLimitConfig} (h : RateLimitsPositive cfg) :
    ¬ (cfg.windowSecs = 0 ∨ cfg.userLimit = 0 ∨ cfg.globalLimit = 0 ∨ cfg.premiumUserLimit = 0) := by
  obtain ⟨hwindow, huser, hglobal, hpremium⟩ := h
  omega

/-- What a call leaves that neither initializes the contract nor trades on the book. -/
structure Administers (call : Call) (s s' : State τ) : Prop where
  initialized : s.trading.initialized = true
  trading : ∃ cfg premiumUsers breaker, s'.trading = { s.trading with
    limits := { s.trading.limits with cfg := cfg, premiumUsers := premiumUsers }
    breaker := breaker }
  cfg : s'.trading.limits.cfg = s.trading.limits.cfg ∨
    ∃ cfg, s'.trading.limits.cfg = some cfg ∧ RateLimitsPositive cfg
  trades : call.isPrivateTrade = false → s'.privateTrades.trades = s.privateTrades.trades

section Effects

variable {now : ℕ} {s s' : State τ} {call : Call} {r : Result} {admin : Address}

theorem requireInitialized_eq_ok {u : Unit} (h : requireInitialized s = .ok u) :
    s.trading.initialized = true := by
  rw [requireInitialized, lift_eq_ok] at h
  exact require_eq_ok.mp h

theorem requireAdmin_eq_ok {permission : Symbol} {u : Unit}
    (h : requireAdmin admin permission s = .ok u) : s.trading.initialized = true := by
  simp only [requireAdmin, Except.bind_eq_ok] at h
  obtain ⟨u, hinit, -⟩ := h
  exact requireInitialized_eq_ok hinit

theorem done_eq_ok {x : Returns (State τ)} (h : done x = .ok (r, s')) : x = .ok s' := by
  rw [done, Except.map_eq_ok] at h
  obtain ⟨s₁, hx, h⟩ := h
  rw [hx, (Prod.mk.inj h).2]

/-- A call that leaves the book's state alone, and the private trades unless it is one. -/
theorem Administers.of_eq (hinit : s.trading.initialized = true) (htrading : s'.trading = s.trading)
    (htrades : call.isPrivateTrade = false → s'.privateTrades.trades = s.privateTrades.trades) :
    Administers call s s' :=
  ⟨hinit, ⟨_, _, _, htrading⟩, .inl (by rw [htrading]), htrades⟩

theorem administerBreaker_eq_ok {permission : Symbol}
    {f : CircuitBreaker.Storage → CircuitBreaker.Storage}
    (h : administerBreaker admin permission f s = .ok s') : Administers call s s' := by
  simp only [administerBreaker, Except.bind_eq_ok] at h
  obtain ⟨u, hadmin, h⟩ := h
  obtain rfl := Except.ok.inj h
  exact ⟨requireAdmin_eq_ok hadmin, ⟨_, _, _, rfl⟩, .inl rfl, fun _ => rfl⟩

theorem setRateLimitConfig_eq_ok {windowSecs userLimit globalLimit premiumUserLimit : ℕ}
    (h : setRateLimitConfig admin windowSecs userLimit globalLimit premiumUserLimit s = .ok s') :
    Administers call s s' := by
  simp only [setRateLimitConfig, Except.bind_eq_ok, require_eq_ok, exists_const] at h
  obtain ⟨u, hadmin, hpos, h⟩ := h
  obtain rfl := Except.ok.inj h
  refine ⟨requireAdmin_eq_ok hadmin, ⟨_, _, _, rfl⟩, .inr ⟨_, rfl, ?_⟩, fun _ => rfl⟩
  constructor <;> exact Nat.pos_of_ne_zero fun hzero => hpos (by simp_all)

theorem setPremiumUser_eq_ok {user : Address} {isPremium : Bool}
    (h : setPremiumUser admin user isPremium s = .ok s') : Administers call s s' := by
  simp only [setPremiumUser, Except.bind_eq_ok] at h
  obtain ⟨u, hadmin, h⟩ := h
  obtain rfl := Except.ok.inj h
  exact ⟨requireAdmin_eq_ok hadmin, ⟨_, _, _, rfl⟩, .inl rfl, fun _ => rfl⟩

theorem manageAcl_eq_ok {aclCall : ACL.Call} (h : manageAcl admin aclCall s = .ok s') :
    Administers call s s' := by
  simp only [manageAcl, Except.bind_eq_ok] at h
  obtain ⟨u, hadmin, ⟨_, acl⟩, -, h⟩ := h
  obtain rfl := Except.ok.inj h
  exact .of_eq (requireAdmin_eq_ok hadmin) rfl fun _ => rfl

theorem govern_eq_ok {governanceCall : Governance.Call} {result : Governance.Result}
    (h : govern now governanceCall s = .ok (result, s')) : Administers call s s' := by
  simp only [govern, Except.bind_eq_ok] at h
  obtain ⟨u, hinit, ⟨_, governance⟩, -, h⟩ := h
  obtain ⟨-, rfl⟩ := Prod.mk.inj (Except.ok.inj h)
  exact .of_eq (requireInitialized_eq_ok hinit) rfl fun _ => rfl

theorem submitSolvencyProof_eq_ok {trader : Address}
    {proofHash assetsCommitment liabilitiesCommitment balanceCommitment : Bytes32}
    (h : submitSolvencyProof now trader proofHash assetsCommitment liabilitiesCommitment
      balanceCommitment s = .ok s') : Administers call s s' := by
  simp only [submitSolvencyProof, Except.bind_eq_ok, require_eq_ok, exists_const] at h
  obtain ⟨u, hinit, -, -, -, -, nonce, -, expiresAt, -, h⟩ := h
  obtain rfl := Except.ok.inj h
  exact .of_eq (requireInitialized_eq_ok hinit) rfl fun _ => rfl

theorem updatePrivateBalance_eq_ok {trader : Address} {commitment : Bytes32}
    (h : updatePrivateBalance now trader commitment s = .ok s') : Administers call s s' := by
  simp only [updatePrivateBalance, Except.bind_eq_ok, require_eq_ok, exists_const] at h
  obtain ⟨u, hinit, -, balances, -, h⟩ := h
  obtain rfl := Except.ok.inj h
  exact .of_eq (requireInitialized_eq_ok hinit) rfl fun _ => rfl

theorem executePrivateTrade_eq_ok {trader : Address} {pair : Symbol} {price : ℤ} {isBuy : Bool}
    {amountCommitment balanceCommitment solvencyProofHash : Bytes32} {id : ℕ}
    (h : executePrivateTrade now trader pair price isBuy amountCommitment balanceCommitment
      solvencyProofHash s = .ok (id, s')) : s.trading.initialized = true ∧
        s'.trading = s.trading := by
  simp only [executePrivateTrade, Except.bind_eq_ok, require_eq_ok, exists_const] at h
  obtain ⟨u, hinit, -, -, -, -, record, -, -, -, tradeId, -, balances, -, h⟩ := h
  obtain ⟨-, rfl⟩ := Prod.mk.inj (Except.ok.inj h)
  exact ⟨requireInitialized_eq_ok hinit, rfl⟩

theorem registerComplianceViewKey_eq_ok {trader : Address} {encryptedKey : List UInt8}
    (h : registerComplianceViewKey now trader encryptedKey s = .ok s') : Administers call s s' := by
  simp only [registerComplianceViewKey, Except.bind_eq_ok] at h
  obtain ⟨u, hinit, version, -, h⟩ := h
  obtain rfl := Except.ok.inj h
  exact .of_eq (requireInitialized_eq_ok hinit) rfl fun _ => rfl

theorem auditPrivateTrade_eq_ok {auditor : Address} {tradeId : ℕ} {action : Symbol}
    {view : PrivateTradeAuditView}
    (h : auditPrivateTrade now auditor tradeId action s = .ok (view, s')) :
    Administers call s s' := by
  simp only [auditPrivateTrade, Except.bind_eq_ok, require_eq_ok, exists_const] at h
  obtain ⟨u, hinit, permitted, -, -, trade, -, auditId, -, h⟩ := h
  obtain ⟨-, rfl⟩ := Prod.mk.inj (Except.ok.inj h)
  exact .of_eq (requireInitialized_eq_ok hinit) rfl fun _ => rfl

variable [TokenClient τ Address Address]

/-- A committed call initializes the contract, trades on the book or administers. -/
theorem execute_cases (h : execute now s call = .ok (r, s')) :
    (∃ admin approvers executor cbConfig, call = .init admin approvers executor cbConfig ∧
      Trading.init now cbConfig s.trading = .ok s'.trading ∧
      s'.privateTrades = s.privateTrades) ∨
    (∃ c result, call = .trading c ∧ Trading.execute now s.trading c = .ok (result, s'.trading) ∧
      s' = { s with trading := s'.trading }) ∨
    (∀ c, call ≠ .trading c) ∧ Administers call s s' := by
  cases call with
  | init admin approvers executor cbConfig =>
    have h := done_eq_ok h
    simp only [init, Except.bind_eq_ok, lift_eq_ok] at h
    obtain ⟨trading, hinit, h⟩ := h
    obtain rfl := Except.ok.inj h
    exact .inl ⟨admin, approvers, executor, cbConfig, rfl, hinit, rfl⟩
  | trading c =>
    simp only [execute, Except.bind_eq_ok, lift_eq_ok] at h
    obtain ⟨⟨result, trading⟩, hexec, h⟩ := h
    obtain ⟨-, rfl⟩ := Prod.mk.inj (Except.ok.inj h)
    exact .inr (.inl ⟨c, result, rfl, hexec, rfl⟩)
  | setRateLimitConfig admin windowSecs userLimit globalLimit premiumUserLimit =>
    exact .inr (.inr ⟨fun _ => by simp, setRateLimitConfig_eq_ok (done_eq_ok h)⟩)
  | setPremiumUser admin user isPremium =>
    exact .inr (.inr ⟨fun _ => by simp, setPremiumUser_eq_ok (done_eq_ok h)⟩)
  | setPauseLevel admin level =>
    exact .inr (.inr ⟨fun _ => by simp, administerBreaker_eq_ok (done_eq_ok h)⟩)
  | pauseFunction admin funcName =>
    exact .inr (.inr ⟨fun _ => by simp, administerBreaker_eq_ok (done_eq_ok h)⟩)
  | unpauseFunction admin funcName =>
    exact .inr (.inr ⟨fun _ => by simp, administerBreaker_eq_ok (done_eq_ok h)⟩)
  | pause admin =>
    exact .inr (.inr ⟨fun _ => by simp, administerBreaker_eq_ok (done_eq_ok h)⟩)
  | unpause admin =>
    exact .inr (.inr ⟨fun _ => by simp, administerBreaker_eq_ok (done_eq_ok h)⟩)
  | manageAcl admin aclCall =>
    exact .inr (.inr ⟨fun _ => by simp, manageAcl_eq_ok (done_eq_ok h)⟩)
  | govern governanceCall =>
    simp only [execute, Except.bind_eq_ok] at h
    obtain ⟨⟨result, s₁⟩, hexec, h⟩ := h
    obtain ⟨-, rfl⟩ := Prod.mk.inj (Except.ok.inj h)
    exact .inr (.inr ⟨fun _ => by simp, govern_eq_ok hexec⟩)
  | submitSolvencyProof trader proofHash assetsCommitment liabilitiesCommitment balanceCommitment =>
    exact .inr (.inr ⟨fun _ => by simp, submitSolvencyProof_eq_ok (done_eq_ok h)⟩)
  | updatePrivateBalance trader commitment =>
    exact .inr (.inr ⟨fun _ => by simp, updatePrivateBalance_eq_ok (done_eq_ok h)⟩)
  | executePrivateTrade trader pair price isBuy amountCommitment balanceCommitment
      solvencyProofHash =>
    simp only [execute, Except.bind_eq_ok] at h
    obtain ⟨⟨id, s₁⟩, hexec, h⟩ := h
    obtain ⟨-, rfl⟩ := Prod.mk.inj (Except.ok.inj h)
    obtain ⟨hinit, htrading⟩ := executePrivateTrade_eq_ok hexec
    refine .inr (.inr ⟨fun _ => by simp, .of_eq hinit htrading fun hfalse => ?_⟩)
    exact absurd hfalse (by simp [Call.isPrivateTrade])
  | registerComplianceViewKey trader encryptedKey =>
    exact .inr (.inr ⟨fun _ => by simp, registerComplianceViewKey_eq_ok (done_eq_ok h)⟩)
  | auditPrivateTrade auditor tradeId action =>
    simp only [execute, Except.bind_eq_ok] at h
    obtain ⟨⟨view, s₁⟩, hexec, h⟩ := h
    obtain ⟨-, rfl⟩ := Prod.mk.inj (Except.ok.inj h)
    exact .inr (.inr ⟨fun _ => by simp, auditPrivateTrade_eq_ok hexec⟩)

end Effects

end Stellara.UpgradeableTrading
