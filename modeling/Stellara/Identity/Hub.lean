import Stellara.Shared.Governance

/-!
# The identity hub

The owner of a hub adds data entries to it and grants permissions on them to others, who can then
read an entry. A permission can carry conditions and a time at which it expires, and can be
revoked. An owner can also disclose fields of an entry to a verifier.

Entries, permissions, hubs and disclosures have formatted ids, which the model reads as the numbers
in them.

## Main definitions

* `Hub`, `DataEntry`, `Permission`, `SelectiveDisclosure`, `State`: the storage of the contract
* `init`, `createHub`, `addDataEntry`, `grantPermission`, `revokePermission`,
  `createSelectiveDisclosure`: the writers
* `getDataEntry`: the reader
* `contract`: the hub as a transactional contract
* `Step`: what the calls do to the state

## Main results

* `createHub_eq_ok`, `addDataEntry_eq_ok`, `grantPermission_eq_ok`, `revokePermission_eq_ok`,
  `createSelectiveDisclosure_eq_ok`, `step_of_execute`: what a call leaves
* `getDataEntry_eq_ok`: when a read returns
-/

namespace Stellara.IdentityHub

open Governance (GovernanceRole)

/-! ## Storage -/

structure DataEntry where
  id : ℕ
  type : Symbol
  encryptedData : List UInt8
  hash : List UInt8
  createdAt : ℕ
  expiresAt : Option ℕ
  metadata : List (Symbol × Symbol)
deriving DecidableEq, Repr

inductive PermissionType where
  | read
  | write
  | share
  | verify
deriving DecidableEq, Repr

structure Condition where
  type : Symbol
  value : Symbol
  operator : Symbol
deriving DecidableEq, Repr

structure Permission where
  id : ℕ
  granterDid : Symbol
  granteeDid : Symbol
  dataEntryId : ℕ
  permissionType : PermissionType
  conditions : List Condition
  createdAt : ℕ
  expiresAt : Option ℕ
  active : Bool
deriving DecidableEq, Repr

structure Hub where
  id : ℕ
  ownerDid : Symbol
  dataEntries : List DataEntry
  permissions : List Permission
  createdAt : ℕ
  updatedAt : ℕ
deriving DecidableEq, Repr

structure SelectiveDisclosure where
  id : ℕ
  presenterDid : Symbol
  verifierDid : Symbol
  dataEntryId : ℕ
  disclosedFields : List Symbol
  proof : List UInt8
  nonce : List UInt8
  createdAt : ℕ
  expiresAt : ℕ
deriving DecidableEq, Repr

/-- The entries `roles`, `hubs`, `own_hub`, `hub_cnt`, `disclosrs` and `disc_cnt`. -/
structure State where
  roles : Store Address GovernanceRole
  hubs : Store ℕ Hub
  ownerMap : Store Symbol ℕ
  hubCount : ℕ
  disclosures : Store ℕ SelectiveDisclosure
  disclosureCount : ℕ

/-- The contract before it is initialized. -/
def State.empty : State := ⟨∅, ∅, ∅, 0, ∅, 0⟩

/-- The contract panics, it returns no error codes. -/
abbrev Returns (α : Type) := Outcome Empty α

/-! ## Writers -/

/-- Initialize contract with governance. -/
def init (admin : Address) (approvers : List Address) (executor : Address) (s : State) : State :=
  { s with roles := Governance.initialRoles admin approvers executor, hubCount := 0 }

/-- The check of the authorisation of the contract's own address. -/
def requireAuth (authorized : Bool) : Returns Unit :=
  require (authorized = true) (.panic "not authorised")

def getHub (hubId : ℕ) (s : State) : Returns Hub :=
  orAbort (.panic "called `Result::unwrap()` on an `Err` value: HubNotFound") (s.hubs.lookup hubId)

def State.setHub (s : State) (hubId : ℕ) (hub : Hub) : State :=
  { s with hubs := s.hubs.insert hubId hub }

/-- Create identity hub for a DID. -/
def createHub (authorized : Bool) (now : ℕ) (ownerDid : Symbol) (s : State) :
    Returns (ℕ × State) := do
  requireAuth authorized
  let hubId ← IntFormat.u64.checkedNat .overflow (s.hubCount + 1)
  require (s.ownerMap.lookup ownerDid = none) (.panic "Hub already exists for this DID")
  let hub : Hub := ⟨hubId, ownerDid, [], [], now, now⟩
  .ok (hubId, { s.setHub hubId hub with
    ownerMap := s.ownerMap.insert ownerDid hubId
    hubCount := hubId })

/-- Add data entry to hub. -/
def addDataEntry (authorized : Bool) (now hubId : ℕ) (dataType : Symbol)
    (encryptedData hash : List UInt8) (expiresAt : Option ℕ) (metadata : List (Symbol × Symbol))
    (s : State) : Returns (ℕ × State) := do
  let hub ← getHub hubId s
  requireAuth authorized
  let entryId ← IntFormat.u32.checkedNat .overflow (hub.dataEntries.length + 1)
  let dataEntry : DataEntry := ⟨entryId, dataType, encryptedData, hash, now, expiresAt, metadata⟩
  .ok (entryId, s.setHub hubId { hub with
    dataEntries := hub.dataEntries ++ [dataEntry]
    updatedAt := now })

/-- Grant permission to access data. -/
def grantPermission (authorized : Bool) (now hubId : ℕ) (granteeDid : Symbol) (dataEntryId : ℕ)
    (permissionType : PermissionType) (conditions : List Condition) (expiresAt : Option ℕ)
    (s : State) : Returns (ℕ × State) := do
  let hub ← getHub hubId s
  requireAuth authorized
  require (∃ entry ∈ hub.dataEntries, entry.id = dataEntryId) (.panic "Data entry not found")
  let permissionId ← IntFormat.u32.checkedNat .overflow (hub.permissions.length + 1)
  let permission : Permission :=
    { id := permissionId
      granterDid := hub.ownerDid
      granteeDid := granteeDid
      dataEntryId := dataEntryId
      permissionType := permissionType
      conditions := conditions
      createdAt := now
      expiresAt := expiresAt
      active := true }
  .ok (permissionId, s.setHub hubId { hub with
    permissions := hub.permissions ++ [permission]
    updatedAt := now })

/-- The loop that looks for a permission and deactivates it. It iterates over copies, and what it
deactivates is one of them. -/
def deactivatedCopy (permissionId : ℕ) (permissions : List Permission) : Option Permission :=
  (permissions.find? fun permission => permission.id = permissionId).map fun permission =>
    { permission with active := false }

/-- Revoke permission. -/
def revokePermission (authorized : Bool) (now hubId permissionId : ℕ) (s : State) :
    Returns State := do
  let hub ← getHub hubId s
  requireAuth authorized
  -- the copy is dropped, and the hub is stored with the permissions it had
  let _permission := deactivatedCopy permissionId hub.permissions
  .ok (s.setHub hubId { hub with updatedAt := now })

/-- Create selective disclosure. The code takes what `get_hub_by_owner` returns for the hub. -/
def createSelectiveDisclosure (authorized : Bool) (now : ℕ) (presenterDid verifierDid : Symbol)
    (dataEntryId : ℕ) (disclosedFields : List Symbol) (proof nonce : List UInt8) (expiresAt : ℕ)
    (s : State) : Returns (ℕ × State) := do
  let hubId ← orAbort (.panic "called `Result::unwrap()` on an `Err` value: HubNotFound")
    (s.ownerMap.lookup presenterDid)
  let hub ← getHub hubId s
  requireAuth authorized
  require (∃ entry ∈ hub.dataEntries, entry.id = dataEntryId)
    (.panic "Data entry not found in presenter's hub")
  let disclosureId ← IntFormat.u64.checkedNat .overflow (s.disclosureCount + 1)
  let disclosure : SelectiveDisclosure :=
    { id := disclosureId
      presenterDid := presenterDid
      verifierDid := verifierDid
      dataEntryId := dataEntryId
      disclosedFields := disclosedFields
      proof := proof
      nonce := nonce
      createdAt := now
      expiresAt := expiresAt }
  .ok (disclosureId, { s with
    disclosures := s.disclosures.insert disclosureId disclosure
    disclosureCount := disclosureId })

/-! ## The reader -/

section Reader

variable (toU64 : Symbol → Option ℕ)

/-- One condition of a permission: only time limits are checked. -/
def checkCondition (now : ℕ) (condition : Condition) : Returns Bool :=
  if condition.type = "time_lmt" then do
    let limit ← orAbort (.panic "called `Option::unwrap()` on a `None` value")
      (toU64 condition.value)
    .ok (now ≤ limit)
  else .ok true

def checkConditions (now : ℕ) : List Condition → Returns Bool
  | [] => .ok true
  | condition :: conditions => do
    if ← checkCondition toU64 now condition then checkConditions now conditions else .ok false

/-- The permission is an active one for the requester to read the entry. -/
def Permission.IsFor (p : Permission) (dataEntryId : ℕ) (requesterDid : Symbol) : Prop :=
  p.active = true ∧ p.granteeDid = requesterDid ∧ p.dataEntryId = dataEntryId ∧
    p.permissionType = .read

instance (p : Permission) (dataEntryId : ℕ) (requesterDid : Symbol) :
    Decidable (p.IsFor dataEntryId requesterDid) := inferInstanceAs (Decidable (_ ∧ _))

/-- Whether the permission lets the requester read the entry. -/
def Permission.permits (now dataEntryId : ℕ) (requesterDid : Symbol) (p : Permission) :
    Returns Bool :=
  if p.IsFor dataEntryId requesterDid then checkConditions toU64 now p.conditions else .ok false

/-- Get data entry with permission check. -/
def getDataEntry (now hubId dataEntryId : ℕ) (requesterDid : Symbol) (s : State) :
    Returns DataEntry := do
  let hub ← getHub hubId s
  let dataEntry ← orAbort
    (.panic "called `Result::unwrap()` on an `Err` value: DataEntryNotFound")
    (hub.dataEntries.find? fun entry => entry.id = dataEntryId)
  require (∀ expiration ∈ dataEntry.expiresAt, now ≤ expiration) (.panic "Data entry has expired")
  if hub.ownerDid = requesterDid then .ok dataEntry
  else do
    let hasPermission ← hub.permissions.anyM (Permission.permits toU64 now dataEntryId requesterDid)
    require (hasPermission = true) (.panic "Permission denied")
    .ok dataEntry

end Reader

/-! ## The contract -/

inductive Call where
  | init (admin : Address) (approvers : List Address) (executor : Address)
  | createHub (ownerDid : Symbol)
  | addDataEntry (hubId : ℕ) (dataType : Symbol) (encryptedData hash : List UInt8)
      (expiresAt : Option ℕ) (metadata : List (Symbol × Symbol))
  | grantPermission (hubId : ℕ) (granteeDid : Symbol) (dataEntryId : ℕ)
      (permissionType : PermissionType) (conditions : List Condition) (expiresAt : Option ℕ)
  | revokePermission (hubId permissionId : ℕ)
  | createSelectiveDisclosure (presenterDid verifierDid : Symbol) (dataEntryId : ℕ)
      (disclosedFields : List Symbol) (proof nonce : List UInt8) (expiresAt : ℕ)
deriving DecidableEq, Repr

/-- A call, and whether the address of the contract authorises it. -/
structure Request where
  call : Call
  authorized : Bool
deriving DecidableEq, Repr

/-- What a call returns: the id of a hub, an entry, a permission or a disclosure, or nothing. -/
inductive Result where
  | id (id : ℕ)
  | unit
deriving DecidableEq, Repr

def execute (now : ℕ) (request : Request) (s : State) : Returns (Result × State) :=
  match request.call with
  | .init admin approvers executor => .ok (.unit, init admin approvers executor s)
  | .createHub ownerDid => do
    let (id, s) ← createHub request.authorized now ownerDid s
    .ok (.id id, s)
  | .addDataEntry hubId dataType encryptedData hash expiresAt metadata => do
    let (id, s) ← addDataEntry request.authorized now hubId dataType encryptedData hash expiresAt
      metadata s
    .ok (.id id, s)
  | .grantPermission hubId granteeDid dataEntryId permissionType conditions expiresAt => do
    let (id, s) ← grantPermission request.authorized now hubId granteeDid dataEntryId permissionType
      conditions expiresAt s
    .ok (.id id, s)
  | .revokePermission hubId permissionId => do
    let s ← revokePermission request.authorized now hubId permissionId s
    .ok (.unit, s)
  | .createSelectiveDisclosure presenterDid verifierDid dataEntryId disclosedFields proof nonce
      expiresAt => do
    let (id, s) ← createSelectiveDisclosure request.authorized now presenterDid verifierDid
      dataEntryId disclosedFields proof nonce expiresAt s
    .ok (.id id, s)

/-- The identity hub. -/
def contract : Contract State Request Result (Fault Empty) where
  exec now request s := execute now request s

/-! ## What a call leaves -/

section Effects

variable {authorized : Bool} {now hubId id : ℕ} {s s' : State}

theorem getHub_eq_ok {hub : Hub} : getHub hubId s = .ok hub ↔ s.hubs.lookup hubId = some hub :=
  orAbort_eq_ok

/-- A new hub has the next id, and nothing in it. -/
theorem createHub_eq_ok {ownerDid : Symbol} (h : createHub authorized now ownerDid s = .ok (id, s')) :
    id = s.hubCount + 1 ∧ s' = { s with
      hubs := s.hubs.insert id ⟨id, ownerDid, [], [], now, now⟩
      ownerMap := s.ownerMap.insert ownerDid id
      hubCount := id } := by
  simp only [createHub, requireAuth, Except.bind_eq_ok, require_eq_ok, exists_const,
    IntFormat.checkedNat_eq_ok] at h
  obtain ⟨-, _, ⟨-, rfl⟩, -, h⟩ := h
  obtain ⟨rfl, rfl⟩ := Prod.mk.inj (Except.ok.inj h)
  exact ⟨rfl, rfl⟩

/-- An entry is added to a hub. -/
theorem addDataEntry_eq_ok {dataType : Symbol} {encryptedData hash : List UInt8}
    {expiresAt : Option ℕ} {metadata : List (Symbol × Symbol)}
    (h : addDataEntry authorized now hubId dataType encryptedData hash expiresAt metadata s =
      .ok (id, s')) :
    ∃ hub, s.hubs.lookup hubId = some hub ∧ s' = s.setHub hubId { hub with
      dataEntries := hub.dataEntries ++
        [⟨id, dataType, encryptedData, hash, now, expiresAt, metadata⟩]
      updatedAt := now } := by
  simp only [addDataEntry, requireAuth, Except.bind_eq_ok, require_eq_ok, exists_const,
    IntFormat.checkedNat_eq_ok, getHub_eq_ok] at h
  obtain ⟨hub, hread, -, _, ⟨-, rfl⟩, h⟩ := h
  obtain ⟨rfl, rfl⟩ := Prod.mk.inj (Except.ok.inj h)
  exact ⟨hub, hread, rfl⟩

/-- A permission is added to a hub. -/
theorem grantPermission_eq_ok {granteeDid : Symbol} {dataEntryId : ℕ}
    {permissionType : PermissionType} {conditions : List Condition} {expiresAt : Option ℕ}
    (h : grantPermission authorized now hubId granteeDid dataEntryId permissionType conditions
      expiresAt s = .ok (id, s')) :
    ∃ hub, s.hubs.lookup hubId = some hub ∧ s' = s.setHub hubId { hub with
      permissions := hub.permissions ++ [⟨id, hub.ownerDid, granteeDid, dataEntryId, permissionType,
        conditions, now, expiresAt, true⟩]
      updatedAt := now } := by
  simp only [grantPermission, requireAuth, Except.bind_eq_ok, require_eq_ok, exists_const,
    IntFormat.checkedNat_eq_ok, getHub_eq_ok] at h
  obtain ⟨hub, hread, -, -, _, ⟨-, rfl⟩, h⟩ := h
  obtain ⟨rfl, rfl⟩ := Prod.mk.inj (Except.ok.inj h)
  exact ⟨hub, hread, rfl⟩

/-- A revocation stores the hub as it was, but for the time of the update. -/
theorem revokePermission_eq_ok (h : revokePermission authorized now hubId id s = .ok s') :
    ∃ hub, s.hubs.lookup hubId = some hub ∧ s' = s.setHub hubId { hub with updatedAt := now } := by
  simp only [revokePermission, requireAuth, Except.bind_eq_ok, require_eq_ok, exists_const,
    getHub_eq_ok] at h
  obtain ⟨hub, hread, -, h⟩ := h
  exact ⟨hub, hread, (Except.ok.inj h).symm⟩

/-- A new disclosure has the next id, and leaves the hubs. -/
theorem createSelectiveDisclosure_eq_ok {presenterDid verifierDid : Symbol} {dataEntryId : ℕ}
    {disclosedFields : List Symbol} {proof nonce : List UInt8} {expiresAt : ℕ}
    (h : createSelectiveDisclosure authorized now presenterDid verifierDid dataEntryId
      disclosedFields proof nonce expiresAt s = .ok (id, s')) :
    id = s.disclosureCount + 1 ∧ s' = { s with
      disclosures := s.disclosures.insert id ⟨id, presenterDid, verifierDid, dataEntryId,
        disclosedFields, proof, nonce, now, expiresAt⟩
      disclosureCount := id } := by
  simp only [createSelectiveDisclosure, requireAuth, Except.bind_eq_ok, require_eq_ok,
    exists_const, IntFormat.checkedNat_eq_ok] at h
  obtain ⟨_, -, _, -, -, -, _, ⟨-, rfl⟩, h⟩ := h
  obtain ⟨rfl, rfl⟩ := Prod.mk.inj (Except.ok.inj h)
  exact ⟨rfl, rfl⟩

/-- What a call does when it returns. -/
inductive Step (now : ℕ) (s : State) : Call → Result → State → Prop
  | init (admin : Address) (approvers : List Address) (executor : Address) :
      Step now s (.init admin approvers executor) .unit (init admin approvers executor s)
  | createHub (ownerDid : Symbol) :
      Step now s (.createHub ownerDid) (.id (s.hubCount + 1)) { s with
        hubs := s.hubs.insert (s.hubCount + 1) ⟨s.hubCount + 1, ownerDid, [], [], now, now⟩
        ownerMap := s.ownerMap.insert ownerDid (s.hubCount + 1)
        hubCount := s.hubCount + 1 }
  | addDataEntry {hubId : ℕ} {hub : Hub} (hread : s.hubs.lookup hubId = some hub) (id : ℕ)
      (dataType : Symbol) (encryptedData hash : List UInt8) (expiresAt : Option ℕ)
      (metadata : List (Symbol × Symbol)) :
      Step now s (.addDataEntry hubId dataType encryptedData hash expiresAt metadata) (.id id)
        (s.setHub hubId { hub with
          dataEntries := hub.dataEntries ++
            [⟨id, dataType, encryptedData, hash, now, expiresAt, metadata⟩]
          updatedAt := now })
  | grantPermission {hubId : ℕ} {hub : Hub} (hread : s.hubs.lookup hubId = some hub) (id : ℕ)
      (granteeDid : Symbol) (dataEntryId : ℕ) (permissionType : PermissionType)
      (conditions : List Condition) (expiresAt : Option ℕ) :
      Step now s (.grantPermission hubId granteeDid dataEntryId permissionType conditions expiresAt)
        (.id id) (s.setHub hubId { hub with
          permissions := hub.permissions ++ [⟨id, hub.ownerDid, granteeDid, dataEntryId,
            permissionType, conditions, now, expiresAt, true⟩]
          updatedAt := now })
  | revokePermission {hubId : ℕ} {hub : Hub} (hread : s.hubs.lookup hubId = some hub)
      (permissionId : ℕ) :
      Step now s (.revokePermission hubId permissionId) .unit
        (s.setHub hubId { hub with updatedAt := now })
  | createSelectiveDisclosure (presenterDid verifierDid : Symbol) (dataEntryId : ℕ)
      (disclosedFields : List Symbol) (proof nonce : List UInt8) (expiresAt : ℕ) :
      Step now s (.createSelectiveDisclosure presenterDid verifierDid dataEntryId disclosedFields
        proof nonce expiresAt) (.id (s.disclosureCount + 1)) { s with
          disclosures := s.disclosures.insert (s.disclosureCount + 1) ⟨s.disclosureCount + 1,
            presenterDid, verifierDid, dataEntryId, disclosedFields, proof, nonce, now, expiresAt⟩
          disclosureCount := s.disclosureCount + 1 }

theorem step_of_execute {call : Call} {r : Result}
    (h : execute now ⟨call, authorized⟩ s = .ok (r, s')) : Step now s call r s' := by
  cases call with
  | init admin approvers executor =>
    obtain ⟨rfl, rfl⟩ := Prod.mk.inj (Except.ok.inj h)
    exact .init admin approvers executor
  | createHub ownerDid =>
    simp only [execute, Except.bind_eq_ok] at h
    obtain ⟨⟨id, s₁⟩, hcreate, h⟩ := h
    obtain ⟨rfl, rfl⟩ := Prod.mk.inj (Except.ok.inj h)
    obtain ⟨rfl, rfl⟩ := createHub_eq_ok hcreate
    exact .createHub ownerDid
  | addDataEntry hubId dataType encryptedData hash expiresAt metadata =>
    simp only [execute, Except.bind_eq_ok] at h
    obtain ⟨⟨id, s₁⟩, hadd, h⟩ := h
    obtain ⟨rfl, rfl⟩ := Prod.mk.inj (Except.ok.inj h)
    obtain ⟨hub, hread, rfl⟩ := addDataEntry_eq_ok hadd
    exact .addDataEntry hread id dataType encryptedData hash expiresAt metadata
  | grantPermission hubId granteeDid dataEntryId permissionType conditions expiresAt =>
    simp only [execute, Except.bind_eq_ok] at h
    obtain ⟨⟨id, s₁⟩, hgrant, h⟩ := h
    obtain ⟨rfl, rfl⟩ := Prod.mk.inj (Except.ok.inj h)
    obtain ⟨hub, hread, rfl⟩ := grantPermission_eq_ok hgrant
    exact .grantPermission hread id granteeDid dataEntryId permissionType conditions expiresAt
  | revokePermission hubId permissionId =>
    simp only [execute, Except.bind_eq_ok] at h
    obtain ⟨s₁, hrevoke, h⟩ := h
    obtain ⟨rfl, rfl⟩ := Prod.mk.inj (Except.ok.inj h)
    obtain ⟨hub, hread, rfl⟩ := revokePermission_eq_ok hrevoke
    exact .revokePermission hread permissionId
  | createSelectiveDisclosure presenterDid verifierDid dataEntryId disclosedFields proof nonce
      expiresAt =>
    simp only [execute, Except.bind_eq_ok] at h
    obtain ⟨⟨id, s₁⟩, hdisclose, h⟩ := h
    obtain ⟨rfl, rfl⟩ := Prod.mk.inj (Except.ok.inj h)
    obtain ⟨rfl, rfl⟩ := createSelectiveDisclosure_eq_ok hdisclose
    exact .createSelectiveDisclosure presenterDid verifierDid dataEntryId disclosedFields proof
      nonce expiresAt

/-- The entry can be found in the hub, and has not expired. -/
def Hub.Readable (hub : Hub) (now dataEntryId : ℕ) (entry : DataEntry) : Prop :=
  (hub.dataEntries.find? fun entry => entry.id = dataEntryId) = some entry ∧
    ∀ expiration ∈ entry.expiresAt, now ≤ expiration

/-- A read returns an entry that has not expired, to the owner or to a requester whom one of the
permissions lets read. -/
theorem getDataEntry_eq_ok {toU64 : Symbol → Option ℕ} {dataEntryId : ℕ} {requesterDid : Symbol}
    {hub : Hub} {entry : DataEntry} (hread : s.hubs.lookup hubId = some hub) :
    getDataEntry toU64 now hubId dataEntryId requesterDid s = .ok entry ↔
      hub.Readable now dataEntryId entry ∧ (hub.ownerDid = requesterDid ∨
        hub.permissions.anyM (Permission.permits toU64 now dataEntryId requesterDid) = .ok true) := by
  simp only [getDataEntry, getHub, Except.bind_eq_ok, orAbort_eq_ok, hread, Option.some_inj,
    exists_eq_left', require_eq_ok, exists_const, Hub.Readable]
  by_cases howner : hub.ownerDid = requesterDid
  · simp only [howner, if_true, true_or, and_true, Except.ok.injEq]
    constructor
    · rintro ⟨e, hfind, hexp, rfl⟩
      exact ⟨hfind, hexp⟩
    · rintro ⟨hfind, hexp⟩
      exact ⟨entry, hfind, hexp, rfl⟩
  · simp only [howner, if_false, false_or, Except.bind_eq_ok, require_eq_ok, exists_const,
      Except.ok.injEq]
    constructor
    · rintro ⟨e, hfind, hexp, b, hany, rfl, rfl⟩
      exact ⟨⟨hfind, hexp⟩, hany⟩
    · rintro ⟨⟨hfind, hexp⟩, hany⟩
      exact ⟨entry, hfind, hexp, true, hany, rfl, rfl⟩

end Effects

end Stellara.IdentityHub
