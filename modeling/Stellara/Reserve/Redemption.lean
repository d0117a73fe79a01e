import Stellara.Lib.FirstMatch
import Stellara.Reserve.ProofOfReserves

/-!
# Redemptions

Holders of the stablecoin request the redemption of an amount, an administrator approves or rejects
the request, and an executor processes it. Requests are numbered by a counter, stored in one list,
and looked up by the time of the request. The callers have the roles that the calls ask for.

Ids and times are exact integers.

## Main definitions

* `RedemptionRequest`, `RedemptionQueue`, `RedemptionConfig`, `ReserveAsset`, `ReserveSnapshot`,
  `State`: the storage of the contract
* `addAsset`, `updateAsset`, `updateSnapshot`: the tracked reserves
* `requestRedemption`: a new request
* `Settlement`, `settle`: the approval, the rejection and the processing of a request
* `contract`: the contract with its redemptions and reserves

## Main results

* `execute_effect`: what a call leaves of the requests and the configuration
-/

namespace Stellara.Reserve

/-! ## Storage -/

inductive AssetType where
  | usd
  | treasury
  | repo
  | corporateBond
  | etf
deriving DecidableEq, Repr

structure ReserveAsset where
  assetType : AssetType
  amount : ℕ
  custodian : Address
  lastVerified : ℕ
  verificationHash : List UInt8
deriving DecidableEq, Repr

/-- A snapshot of the reserves. The ratio is in basis points. -/
structure ReserveSnapshot where
  timestamp : ℕ
  totalReserves : ℕ
  totalSupply : ℕ
  reserveRatio : ℕ
  assets : List ReserveAsset
deriving DecidableEq, Repr

inductive RedemptionStatus where
  | pending
  | approved
  | rejected
  | processed
deriving DecidableEq, Repr

structure RedemptionRequest where
  requester : Address
  amount : ℕ
  requestTime : ℕ
  status : RedemptionStatus
  processedTime : Option ℕ
deriving DecidableEq, Repr

structure RedemptionQueue where
  pendingRequests : List ℕ
  totalPendingAmount : ℕ
  lastProcessed : ℕ
deriving DecidableEq, Repr

structure RedemptionConfig where
  largeHolderThreshold : ℕ
  processingDelay : ℕ
  maxDailyRedemption : ℕ
  emergencyPause : Bool
deriving DecidableEq, Repr

inductive Event where
  | initialized (stablecoin : Address) (timestamp : ℕ)
  | assetAdded (assetType : AssetType) (amount : ℕ) (custodian : Address)
  | assetUpdated (assetIndex newAmount : ℕ)
  | ratioWarning (reserveRatio totalReserves totalSupply : ℕ)
  | requested (requester : Address) (amount requestId : ℕ)
  | approved (requester : Address) (amount requestId : ℕ)
  | rejected (requester : Address) (amount requestId : ℕ) (reason : Symbol)
  | processed (requester : Address) (amount requestId : ℕ)
  | configUpdated (config : RedemptionConfig)
deriving DecidableEq, Repr

/-- The storage of the contract, and its events. -/
structure State where
  stablecoin : Option Address
  assets : Option (List ReserveAsset)
  currentSnapshot : Option ReserveSnapshot
  snapshots : List ReserveSnapshot
  totalSupply : ℕ
  requests : Option (List RedemptionRequest)
  counter : ℕ
  queue : Option RedemptionQueue
  config : Option RedemptionConfig
  events : List Event

/-- The contract before `init`. -/
def State.empty : State := ⟨none, none, none, [], 0, none, 0, none, none, []⟩

abbrev Returns (α : Type) := Outcome ReserveError α

def publish (event : Event) (s : State) : State := { s with events := s.events ++ [event] }

/-! ## Reserves -/

/-- `initialize`. It can be called again. -/
def init (now : ℕ) (stablecoin : Address) (s : State) : State :=
  publish (.initialized stablecoin now) { s with
    stablecoin := some stablecoin
    assets := some []
    snapshots := []
    totalSupply := 0 }

/-- Append a snapshot, and keep the last 365. -/
def pushSnapshot (snapshot : ReserveSnapshot) (snapshots : List ReserveSnapshot) :
    List ReserveSnapshot :=
  (snapshots ++ [snapshot]).drop (snapshots.length + 1 - 365)

/-- The ratio of the reserves to the supply, in basis points. -/
def reserveRatio (totalReserves totalSupply : ℕ) : Returns ℕ :=
  if 0 < totalSupply then do
    let scaled ← IntFormat.u128.checkedNat .overflow (totalReserves * 10000)
    .ok (scaled / totalSupply)
  else .ok 10000

def updateSnapshot (now : ℕ) (s : State) : Returns State := do
  let assets := s.assets.getD []
  let totalReserves ← IntFormat.u128.checkedNat .overflow (assets.map ReserveAsset.amount).sum
  let ratio ← reserveRatio totalReserves s.totalSupply
  let snapshot : ReserveSnapshot := ⟨now, totalReserves, s.totalSupply, ratio, assets⟩
  let s := { s with
    currentSnapshot := some snapshot
    snapshots := pushSnapshot snapshot s.snapshots }
  .ok (if ratio < 10000 then publish (.ratioWarning ratio totalReserves s.totalSupply) s else s)

def addAsset (now : ℕ) (assetType : AssetType) (amount : ℕ) (custodian : Address)
    (verificationHash : List UInt8) (s : State) : Returns State := do
  let asset : ReserveAsset := ⟨assetType, amount, custodian, now, verificationHash⟩
  let s ← updateSnapshot now { s with assets := some (s.assets.getD [] ++ [asset]) }
  .ok (publish (.assetAdded assetType amount custodian) s)

def updateAsset (now assetIndex newAmount : ℕ) (verificationHash : List UInt8) (s : State) :
    Returns State := do
  let assets ← orAbort (.error .invalidAsset) s.assets
  let asset ← orAbort (.error .invalidAsset) assets[assetIndex]?
  let asset := { asset with
    amount := newAmount, lastVerified := now, verificationHash := verificationHash }
  let s ← updateSnapshot now { s with assets := some (assets.set assetIndex asset) }
  .ok (publish (.assetUpdated assetIndex newAmount) s)

def getTotalReserves (s : State) : Returns ℕ := do
  let snapshot ← orAbort (.error .invalidAsset) s.currentSnapshot
  .ok snapshot.totalReserves

def updateTotalSupply (now newSupply : ℕ) (s : State) : Returns State :=
  updateSnapshot now { s with totalSupply := newSupply }

/-! ## The configuration of redemptions -/

/-- The configuration that holds until one is stored. -/
def defaultConfig : RedemptionConfig := ⟨1000000000000, 86400, 10000000000000, false⟩

def getRedemptionConfig (s : State) : RedemptionConfig := s.config.getD defaultConfig

def updateRedemptionConfig (config : RedemptionConfig) (s : State) : State :=
  publish (.configUpdated config) { s with config := some config }

/-! ## The list of requests -/

/-- The time of a request stands for its id. -/
def getRequestId (request : RedemptionRequest) : ℕ := request.requestTime

def readRequests (s : State) : Returns (List RedemptionRequest) :=
  orAbort (.error .redemptionAmountTooSmall) s.requests

/-- The first request with an id. -/
def getRequestById (requests : List RedemptionRequest) (requestId : ℕ) :
    Returns RedemptionRequest :=
  orAbort (.error .redemptionAmountTooSmall)
    (requests.find? fun request => getRequestId request = requestId)

/-- Write a request over the first one with an id. -/
def updateRequest (requestId : ℕ) (request : RedemptionRequest) (s : State) : Returns State := do
  let requests ← readRequests s
  let requests ← updateFirst (fun r => getRequestId r = requestId) (fun _ => .ok request) requests
  .ok { s with requests := some requests }

/-- The amount of the requests of the current day that were processed. -/
def dailyTotal (now : ℕ) (requests : List RedemptionRequest) : ℕ :=
  ((requests.filter fun r => now - now % 86400 ≤ r.requestTime ∧ r.status = .processed).map
    RedemptionRequest.amount).sum

def getDailyRedemptionTotal (now : ℕ) (s : State) : Returns ℕ := do
  let requests ← readRequests s
  IntFormat.u128.checkedNat .overflow (dailyTotal now requests)

/-! ## The queue -/

def addToQueue (requestId amount : ℕ) (s : State) : Returns State := do
  let queue := s.queue.getD ⟨[], 0, 0⟩
  let total ← IntFormat.u128.checkedNat .overflow (queue.totalPendingAmount + amount)
  .ok { s with queue := some { queue with
    pendingRequests := queue.pendingRequests ++ [requestId]
    totalPendingAmount := total } }

def removeFromQueue (now requestId amount : ℕ) (s : State) : Returns State := do
  let queue ← orAbort (.error .redemptionAmountTooSmall) s.queue
  let pendingRequests := queue.pendingRequests.filter fun id => id ≠ requestId
  .ok { s with queue := some ⟨pendingRequests, queue.totalPendingAmount - amount, now⟩ }

/-! ## Requests -/

/-- The least amount that is redeemed, checked by the entry point. -/
def minimumRedemption : ℕ := 1000000000000

def requestRedemption (now : ℕ) (requester : Address) (amount : ℕ) (s : State) :
    Returns (ℕ × State) := do
  require (minimumRedemption ≤ amount) (.error .redemptionAmountTooSmall)
  let config := getRedemptionConfig s
  require (config.emergencyPause = false) (.error .redemptionAmountTooSmall)
  require (config.largeHolderThreshold ≤ amount) (.error .redemptionAmountTooSmall)
  let daily ← getDailyRedemptionTotal now s
  let total ← IntFormat.u128.checkedNat .overflow (daily + amount)
  require (total ≤ config.maxDailyRedemption) (.error .redemptionAmountTooLarge)
  let totalReserves ← getTotalReserves s
  require (amount ≤ totalReserves) (.error .insufficientReserves)
  let requestId := s.counter + 1
  let request : RedemptionRequest := ⟨requester, amount, now, .pending, none⟩
  let s ← addToQueue requestId amount { s with
    counter := requestId
    requests := some (s.requests.getD [] ++ [request]) }
  .ok (requestId, publish (.requested requester amount requestId) s)

def approveRedemption (requestId : ℕ) (s : State) : Returns State := do
  let requests ← readRequests s
  let request ← getRequestById requests requestId
  require (request.status = .pending) (.error .redemptionAmountTooSmall)
  let s ← updateRequest requestId { request with status := .approved } s
  .ok (publish (.approved request.requester request.amount requestId) s)

def rejectRedemption (now requestId : ℕ) (reason : Symbol) (s : State) : Returns State := do
  let requests ← readRequests s
  let request ← getRequestById requests requestId
  require (request.status = .pending) (.error .redemptionAmountTooSmall)
  let s ← updateRequest requestId { request with status := .rejected } s
  let s ← removeFromQueue now requestId request.amount s
  .ok (publish (.rejected request.requester request.amount requestId reason) s)

/-- Process a request. Where the reserves do not cover it, the error undoes the rejection that is
written before. -/
def processRedemption (now requestId : ℕ) (s : State) : Returns State := do
  let config := getRedemptionConfig s
  let requests ← readRequests s
  let request ← getRequestById requests requestId
  require (request.status = .pending) (.error .redemptionAmountTooSmall)
  let age ← IntFormat.checkedSub .overflow now request.requestTime
  require (config.processingDelay ≤ age) (.error .redemptionAmountTooSmall)
  let totalReserves ← getTotalReserves s
  require (request.amount ≤ totalReserves) (.error .insufficientReserves)
  let s ← updateRequest requestId { request with status := .processed, processedTime := some now } s
  let s ← removeFromQueue now requestId request.amount s
  let newSupply ← IntFormat.checkedSub .overflow s.totalSupply request.amount
  let s ← updateTotalSupply now newSupply s
  .ok (publish (.processed request.requester request.amount requestId) s)

/-! ## The contract -/

/-- What is decided about a stored request. -/
inductive Settlement where
  | approve (requestId : ℕ)
  | reject (requestId : ℕ) (reason : Symbol)
  | process (requestId : ℕ)
deriving DecidableEq, Repr

def settle (now : ℕ) (s : State) : Settlement → Returns State
  | .approve requestId => approveRedemption requestId s
  | .reject requestId reason => rejectRedemption now requestId reason s
  | .process requestId => processRedemption now requestId s

inductive Call where
  | init (stablecoin : Address)
  | addAsset (assetType : AssetType) (amount : ℕ) (custodian : Address)
      (verificationHash : List UInt8)
  | updateAsset (assetIndex newAmount : ℕ) (verificationHash : List UInt8)
  | updateConfig (config : RedemptionConfig)
  | request (requester : Address) (amount : ℕ)
  | settle (settlement : Settlement)
deriving DecidableEq, Repr

/-- Execute a call. What it returns is the id of a request, or nothing. -/
def execute (now : ℕ) (s : State) : Call → Returns (Option ℕ × State)
  | .init stablecoin => .ok (none, init now stablecoin s)
  | .addAsset assetType amount custodian verificationHash => do
    .ok (none, ← addAsset now assetType amount custodian verificationHash s)
  | .updateAsset assetIndex newAmount verificationHash => do
    .ok (none, ← updateAsset now assetIndex newAmount verificationHash s)
  | .updateConfig config => .ok (none, updateRedemptionConfig config s)
  | .request requester amount => do
    let (id, s) ← requestRedemption now requester amount s
    .ok (some id, s)
  | .settle settlement => do .ok (none, ← settle now s settlement)

/-- The contract with its redemptions and its reserves. Its time is the timestamp of the ledger. -/
def contract : Contract State Call (Option ℕ) (Fault ReserveError) where
  exec now call s := execute now s call

/-- The calls on stored requests alone. -/
def settlements : Contract State Settlement Unit (Fault ReserveError) where
  exec now settlement s := do .ok ((), ← settle now s settlement)

/-- A new snapshot leaves the supply, the requests, the configuration and the assets. -/
theorem updateSnapshot_eq_ok {now : ℕ} {s s' : State} (h : updateSnapshot now s = .ok s') :
    s'.totalSupply = s.totalSupply ∧ s'.requests = s.requests ∧ s'.config = s.config ∧
      s'.assets = s.assets := by
  simp only [updateSnapshot, Except.bind_eq_ok] at h
  obtain ⟨_, -, ratio, -, h⟩ := h
  rw [← Except.ok.inj h]
  split <;> exact ⟨rfl, rfl, rfl, rfl⟩

/-- The amount that a call requests. -/
def amount? : Call → Option ℕ
  | .request _ amount => some amount
  | _ => none

/-- The configuration that a call stores. -/
def newConfig? : Call → Option RedemptionConfig
  | .updateConfig config => some config
  | _ => none

/-- What a call leaves of the requests and the configuration. -/
inductive Effect (now : ℕ) (s s' : State) : Call → Option ℕ → Prop
  | other {call : Call} : amount? call = none → s'.requests = s.requests →
      (newConfig? call = none → s'.config = s.config) → Effect now s s' call none
  | request {requester : Address} {amount id : ℕ} :
      requestRedemption now requester amount s = .ok (id, s') →
      Effect now s s' (.request requester amount) (some id)
  | settle {settlement : Settlement} :
      Reserve.settle now s settlement = .ok s' → Effect now s s' (.settle settlement) none

theorem execute_effect {now : ℕ} {s s' : State} {call : Call} {result : Option ℕ}
    (h : execute now s call = .ok (result, s')) : Effect now s s' call result := by
  cases call with
  | init stablecoin =>
    obtain ⟨rfl, rfl⟩ := Prod.mk.inj (Except.ok.inj h)
    exact .other rfl rfl fun _ => rfl
  | addAsset assetType amount custodian verificationHash =>
    simp only [execute, addAsset, Except.bind_eq_ok] at h
    obtain ⟨_, ⟨s₁, hupdate, h₁⟩, h⟩ := h
    obtain rfl := Except.ok.inj h₁
    obtain ⟨rfl, rfl⟩ := Prod.mk.inj (Except.ok.inj h)
    obtain ⟨-, hrequests, hconfig, -⟩ := updateSnapshot_eq_ok hupdate
    exact .other rfl hrequests fun _ => hconfig
  | updateAsset assetIndex newAmount verificationHash =>
    simp only [execute, updateAsset, Except.bind_eq_ok] at h
    obtain ⟨_, ⟨_, -, _, -, s₁, hupdate, h₁⟩, h⟩ := h
    obtain rfl := Except.ok.inj h₁
    obtain ⟨rfl, rfl⟩ := Prod.mk.inj (Except.ok.inj h)
    obtain ⟨-, hrequests, hconfig, -⟩ := updateSnapshot_eq_ok hupdate
    exact .other rfl hrequests fun _ => hconfig
  | updateConfig config =>
    obtain ⟨rfl, rfl⟩ := Prod.mk.inj (Except.ok.inj h)
    exact .other rfl rfl nofun
  | request requester amount =>
    simp only [execute, Except.bind_eq_ok] at h
    obtain ⟨⟨id, s₁⟩, hrequest, h⟩ := h
    obtain ⟨rfl, rfl⟩ := Prod.mk.inj (Except.ok.inj h)
    exact .request hrequest
  | settle settlement =>
    simp only [execute, Except.bind_eq_ok] at h
    obtain ⟨s₁, hsettle, h⟩ := h
    obtain ⟨rfl, rfl⟩ := Prod.mk.inj (Except.ok.inj h)
    exact .settle hsettle

end Stellara.Reserve
