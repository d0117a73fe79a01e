import Stellara.Shared.Governance

/-!
# Verifiable credentials

Issuers issue credentials about subjects, and a credential can be revoked once. The revocations are
kept in a registry of their own beside the credentials.

Credentials and their statuses have formatted ids, which the model reads as the numbers in them.

## Main definitions

* `VerifiableCredential`, `RevocationEntry`, `State`: the storage of the contract
* `init`, `issueCredential`, `verifyCredential`, `revokeCredential`: the entry points
* `contract`: the credentials as a transactional contract
* `Effect`: what the calls do to the state

## Main results

* `issueCredential_eq_ok`, `revokeCredential_eq_ok`: what a call leaves
* `verifyCredential_eq_true`: when a credential is verified
* `execute_effect`: what a call does when it returns
-/

namespace Stellara.Credentials

open Governance (GovernanceRole)

/-! ## Storage -/

structure CredentialSubject where
  id : Symbol
  claims : List (Symbol × Symbol)
deriving DecidableEq, Repr

structure Proof where
  type : Symbol
  created : ℕ
  verificationMethod : Symbol
  proofPurpose : Symbol
  proofValue : List UInt8
  domain : Option Symbol
deriving DecidableEq, Repr

structure CredentialStatus where
  id : ℕ
  type : Symbol
  status : Symbol
  revocationReason : Option Symbol
deriving DecidableEq, Repr

structure VerifiableCredential where
  id : ℕ
  context : Symbol
  type : List Symbol
  issuer : Symbol
  issuanceDate : ℕ
  expirationDate : Option ℕ
  credentialSubject : CredentialSubject
  proof : Proof
  credentialStatus : Option CredentialStatus
  createdAt : ℕ
deriving DecidableEq, Repr

inductive CredentialType where
  | kycVerified
  | accreditedInvestor
  | educationalAchievement
  | professionalLicense
  | custom
deriving DecidableEq, Repr

/-- The symbol of a type in a credential. -/
def CredentialType.symbol : CredentialType → Symbol
  | .kycVerified => "kyc_vc"
  | .accreditedInvestor => "acc_vc"
  | .educationalAchievement => "edu_vc"
  | .professionalLicense => "pro_vc"
  | .custom => "cust_vc"

/-- Revocation registry entry. -/
structure RevocationEntry where
  credentialId : ℕ
  revoker : Symbol
  revocationDate : ℕ
  reason : Symbol
  proof : List UInt8
deriving DecidableEq, Repr

/-- The entries `roles`, `creds`, `revocatn` and `vc_cnt`. -/
structure State where
  roles : Store Address GovernanceRole
  credentials : Store ℕ VerifiableCredential
  revocations : Store ℕ RevocationEntry
  vcCount : ℕ

/-- The contract before it is initialized. -/
def State.empty : State := ⟨∅, ∅, ∅, 0⟩

inductive VCError where
  | invalidCredential
  | credentialNotFound
  | invalidProof
deriving DecidableEq, Repr

abbrev Returns (α : Type) := Outcome VCError α

/-! ## The entry points -/

/-- Initialize contract with governance. -/
def init (admin : Address) (approvers : List Address) (executor : Address) (s : State) : State :=
  { s with
    roles := Governance.initialRoles admin approvers executor
    vcCount := 0
    revocations := ∅ }

/-- The check of the authorisation of the contract's own address. -/
def requireAuth (authorized : Bool) : Returns Unit :=
  require (authorized = true) (.panic "not authorised")

/-- Issue a verifiable credential. -/
def issueCredential (authorized : Bool) (now : ℕ) (issuerDid subjectDid : Symbol)
    (credentialType : CredentialType) (claims : List (Symbol × Symbol))
    (expirationDate : Option ℕ) (proof : Proof) (s : State) : Returns (ℕ × State) := do
  requireAuth authorized
  require (proof.proofValue ≠ []) (.error .invalidProof)
  require (∀ exp ∈ expirationDate, now < exp) (.error .invalidCredential)
  let credentialId ← IntFormat.u64.checkedNat .overflow (s.vcCount + 1)
  let status : CredentialStatus := ⟨credentialId, "csl2021", "valid", none⟩
  let credential : VerifiableCredential :=
    { id := credentialId
      context := "w3c_ctx"
      type := ["vc", credentialType.symbol]
      issuer := issuerDid
      issuanceDate := now
      expirationDate := expirationDate
      credentialSubject := ⟨subjectDid, claims⟩
      proof := proof
      credentialStatus := some status
      createdAt := now }
  .ok (credentialId, { s with
    credentials := s.credentials.insert credentialId credential
    vcCount := credentialId })

/-- Get credential (internal helper). -/
def getCredential (credentialId : ℕ) (s : State) : Returns VerifiableCredential :=
  orAbort (.error .credentialNotFound) (s.credentials.lookup credentialId)

/-- Check if credential is revoked (internal helper). -/
def isRevoked (credentialId : ℕ) (s : State) : Bool := (s.revocations.lookup credentialId).isSome

/-- Verify a verifiable credential. -/
def verifyCredential (now credentialId : ℕ) (s : State) : Returns Bool := do
  let credential ← getCredential credentialId s
  if isRevoked credentialId s then .ok false
  else if ∃ expiration ∈ credential.expirationDate, expiration < now then .ok false
  else do
    require (credential.proof.proofValue ≠ []) (.error .invalidProof)
    .ok true

/-- The status of a revoked credential. -/
def CredentialStatus.revoke (reason : Symbol) (status : CredentialStatus) : CredentialStatus :=
  { status with status := "revoked", revocationReason := some reason }

/-- Revoke a verifiable credential. -/
def revokeCredential (authorized : Bool) (now credentialId : ℕ) (revokerDid reason : Symbol)
    (proof : List UInt8) (s : State) : Returns State := do
  let credential ← orAbort
    (.panic "called `Result::unwrap()` on an `Err` value: CredentialNotFound")
    (s.credentials.lookup credentialId)
  requireAuth authorized
  require (s.revocations.lookup credentialId = none) (.panic "Credential already revoked")
  let revocation : RevocationEntry := ⟨credentialId, revokerDid, now, reason, proof⟩
  let credential := { credential with
    credentialStatus := credential.credentialStatus.map (CredentialStatus.revoke reason) }
  .ok { s with
    revocations := s.revocations.insert credentialId revocation
    credentials := s.credentials.insert credentialId credential }

/-! ## The contract -/

inductive Call where
  | init (admin : Address) (approvers : List Address) (executor : Address)
  | issueCredential (issuerDid subjectDid : Symbol) (credentialType : CredentialType)
      (claims : List (Symbol × Symbol)) (expirationDate : Option ℕ) (proof : Proof)
  | revokeCredential (credentialId : ℕ) (revokerDid reason : Symbol) (proof : List UInt8)
deriving DecidableEq, Repr

/-- A call, and whether the address of the contract authorises it. -/
structure Request where
  call : Call
  authorized : Bool
deriving DecidableEq, Repr

/-- What a call returns: the id of a credential, or nothing. -/
inductive Result where
  | id (id : ℕ)
  | unit
deriving DecidableEq, Repr

def execute (now : ℕ) (request : Request) (s : State) : Returns (Result × State) :=
  match request.call with
  | .init admin approvers executor => .ok (.unit, init admin approvers executor s)
  | .issueCredential issuerDid subjectDid credentialType claims expirationDate proof => do
    let (id, s) ← issueCredential request.authorized now issuerDid subjectDid credentialType claims
      expirationDate proof s
    .ok (.id id, s)
  | .revokeCredential credentialId revokerDid reason proof => do
    let s ← revokeCredential request.authorized now credentialId revokerDid reason proof s
    .ok (.unit, s)

/-- The verifiable credentials. -/
def contract : Contract State Request Result (Fault VCError) where
  exec now request s := execute now request s

/-! ## What a call leaves -/

section Effects

variable {authorized : Bool} {now credentialId : ℕ} {s s' : State}

/-- A new credential has the next id, and is valid. -/
theorem issueCredential_eq_ok {issuerDid subjectDid : Symbol} {credentialType : CredentialType}
    {claims : List (Symbol × Symbol)} {expirationDate : Option ℕ} {proof : Proof}
    (h : issueCredential authorized now issuerDid subjectDid credentialType claims expirationDate
      proof s = .ok (credentialId, s')) :
    credentialId = s.vcCount + 1 ∧ s' = { s with
      credentials := s.credentials.insert credentialId ⟨credentialId, "w3c_ctx",
        ["vc", credentialType.symbol], issuerDid, now, expirationDate, ⟨subjectDid, claims⟩, proof,
        some ⟨credentialId, "csl2021", "valid", none⟩, now⟩
      vcCount := credentialId } := by
  simp only [issueCredential, requireAuth, Except.bind_eq_ok, require_eq_ok, exists_const,
    IntFormat.checkedNat_eq_ok] at h
  obtain ⟨-, -, -, _, ⟨-, rfl⟩, h⟩ := h
  obtain ⟨rfl, rfl⟩ := Prod.mk.inj (Except.ok.inj h)
  exact ⟨rfl, rfl⟩

theorem proofValue_of_issue {issuerDid subjectDid : Symbol} {credentialType : CredentialType}
    {claims : List (Symbol × Symbol)} {expirationDate : Option ℕ} {proof : Proof}
    (h : issueCredential authorized now issuerDid subjectDid credentialType claims expirationDate
      proof s = .ok (credentialId, s')) : proof.proofValue ≠ [] := by
  simp only [issueCredential, requireAuth, Except.bind_eq_ok, require_eq_ok, exists_const] at h
  exact h.2.1

/-- A credential is verified when it is stored with a proof, not revoked and not expired. -/
theorem verifyCredential_eq_true : verifyCredential now credentialId s = .ok true ↔
    ∃ credential, s.credentials.lookup credentialId = some credential ∧
      isRevoked credentialId s = false ∧ (∀ expiration ∈ credential.expirationDate, now ≤ expiration) ∧
      credential.proof.proofValue ≠ [] := by
  simp only [verifyCredential, getCredential, Except.bind_eq_ok, orAbort_eq_ok]
  refine exists_congr fun credential => and_congr_right fun _ => ?_
  split
  · simp [*]
  · rename_i hrevoked
    split
    · rename_i hexpired
      obtain ⟨expiration, hmem, hlt⟩ := hexpired
      refine iff_of_false (by simp) fun h => ?_
      exact absurd (h.2.1 expiration hmem) (Nat.not_le_of_lt hlt)
    · rename_i hlive
      simp only [not_exists, not_and, not_lt] at hlive
      simp only [Except.bind_eq_ok, require_eq_ok, exists_const, and_true]
      exact ⟨fun h => ⟨by simpa using hrevoked, hlive, h⟩, fun h => h.2.2⟩

/-- A credential that was not revoked is entered into the registry, and its status updated. -/
theorem revokeCredential_eq_ok {revokerDid reason : Symbol} {proof : List UInt8}
    (h : revokeCredential authorized now credentialId revokerDid reason proof s = .ok s') :
    ∃ credential, s.credentials.lookup credentialId = some credential ∧
      s.revocations.lookup credentialId = none ∧ s' = { s with
        revocations := s.revocations.insert credentialId
          ⟨credentialId, revokerDid, now, reason, proof⟩
        credentials := s.credentials.insert credentialId { credential with
          credentialStatus :=
            credential.credentialStatus.map (CredentialStatus.revoke reason) } } := by
  simp only [revokeCredential, requireAuth, Except.bind_eq_ok, orAbort_eq_ok, require_eq_ok,
    exists_const] at h
  obtain ⟨credential, hread, -, hnone, h⟩ := h
  exact ⟨credential, hread, hnone, (Except.ok.inj h).symm⟩

/-- What a call does when it returns. -/
inductive Effect (now : ℕ) (s : State) : Call → Result → State → Prop
  | init (admin : Address) (approvers : List Address) (executor : Address) :
      Effect now s (.init admin approvers executor) .unit (init admin approvers executor s)
  /-- A credential is issued with the next id. -/
  | issue {issuerDid subjectDid : Symbol} {credentialType : CredentialType}
      {claims : List (Symbol × Symbol)} {expirationDate : Option ℕ} {proof : Proof}
      (hproof : proof.proofValue ≠ []) :
      Effect now s (.issueCredential issuerDid subjectDid credentialType claims expirationDate proof)
        (.id (s.vcCount + 1)) { s with
          credentials := s.credentials.insert (s.vcCount + 1) ⟨s.vcCount + 1, "w3c_ctx",
            ["vc", credentialType.symbol], issuerDid, now, expirationDate, ⟨subjectDid, claims⟩,
            proof, some ⟨s.vcCount + 1, "csl2021", "valid", none⟩, now⟩
          vcCount := s.vcCount + 1 }
  /-- A credential is revoked that was not revoked before. -/
  | revoke {credentialId : ℕ} {revokerDid reason : Symbol} {proof : List UInt8}
      {credential : VerifiableCredential}
      (hread : s.credentials.lookup credentialId = some credential)
      (hnone : s.revocations.lookup credentialId = none) :
      Effect now s (.revokeCredential credentialId revokerDid reason proof) .unit { s with
        revocations := s.revocations.insert credentialId
          ⟨credentialId, revokerDid, now, reason, proof⟩
        credentials := s.credentials.insert credentialId { credential with
          credentialStatus :=
            credential.credentialStatus.map (CredentialStatus.revoke reason) } }

theorem execute_effect {request : Request} {r : Result}
    (h : execute now request s = .ok (r, s')) : Effect now s request.call r s' := by
  obtain ⟨call, authorized⟩ := request
  cases call with
  | init admin approvers executor =>
    obtain ⟨rfl, rfl⟩ := Prod.mk.inj (Except.ok.inj h)
    exact .init admin approvers executor
  | issueCredential issuerDid subjectDid credentialType claims expirationDate proof =>
    simp only [execute, Except.bind_eq_ok] at h
    obtain ⟨⟨id, s₁⟩, hissue, h⟩ := h
    obtain ⟨rfl, rfl⟩ := Prod.mk.inj (Except.ok.inj h)
    have hproof := proofValue_of_issue hissue
    obtain ⟨rfl, rfl⟩ := issueCredential_eq_ok hissue
    exact .issue hproof
  | revokeCredential credentialId revokerDid reason proof =>
    simp only [execute, Except.bind_eq_ok] at h
    obtain ⟨s₁, hrevoke, h⟩ := h
    obtain ⟨rfl, rfl⟩ := Prod.mk.inj (Except.ok.inj h)
    obtain ⟨credential, hread, hnone, rfl⟩ := revokeCredential_eq_ok hrevoke
    exact .revoke hread hnone

end Effects

end Stellara.Credentials
