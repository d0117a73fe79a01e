import Stellara.Shared.Governance

/-!
# The DID registry

Administrators create the documents of decentralized identifiers, of the address of an account or
of a public key. The owner of a document and the administrators can change it until it is
deactivated.

How an address and a public key are written as an identifier is a parameter.

## Main definitions

* `VerificationMethod`, `Service`, `DIDDocument`, `State`: the storage of the contract
* `init`, `createStellarDid`, `createKeyDid`, `updateDidDocument`, `deactivateDid`,
  `addVerificationMethod`, `addService`: the entry points
* `contract`: the registry as a transactional contract
* `Edits`, `Effect`, `Step`: what the calls do to a document and to the state

## Main results

* `createDid_eq_ok`, `editDocument_eq_ok`: what is stored when a document is created or changed
* `execute_effect`, `step_of_execute`: what a call does when it returns
-/

namespace Stellara.DidRegistry

open Governance (GovernanceRole GovernanceError)

/-! ## Storage -/

structure VerificationMethod where
  id : Symbol
  type : Symbol
  controller : Symbol
  publicKey : List UInt8
  createdAt : ℕ
deriving DecidableEq, Repr

structure Service where
  id : Symbol
  type : Symbol
  serviceEndpoint : Symbol
  createdAt : ℕ
deriving DecidableEq, Repr

structure DIDDocument where
  id : Symbol
  verificationMethods : List VerificationMethod
  authentication : List Symbol
  assertionMethod : List Symbol
  keyAgreement : List Symbol
  service : List Service
  createdAt : ℕ
  updatedAt : ℕ
  deactivated : Bool
  owner : Address
deriving DecidableEq, Repr

/-- The entries `roles`, `dids` and `did_cnt`. -/
structure State where
  roles : Store Address GovernanceRole
  dids : Store Symbol DIDDocument
  didCount : ℕ

/-- The contract before it is initialized. -/
def State.empty : State := ⟨∅, ∅, 0⟩

/-- The contract panics, it returns no error codes. -/
abbrev Returns (α : Type) := Outcome GovernanceError α

/-! ## Who can do what -/

/-- Initialize contract with governance. -/
def init (admin : Address) (approvers : List Address) (executor : Address) (s : State) : State :=
  { s with roles := Governance.initialRoles admin approvers executor, didCount := 0 }

/-- Check governance role. -/
def requireAdmin (caller : Address) (s : State) : Returns Unit :=
  Governance.requireRole (.initial s.roles) caller .admin

/-- The caller has governance permission or is the owner. -/
def IsAuthorized (s : State) (caller : Address) (document : DIDDocument) : Prop :=
  caller = document.owner ∨
    ∃ role ∈ s.roles.lookup caller, role.rank ≤ GovernanceRole.admin.rank

instance (s : State) (caller : Address) (document : DIDDocument) :
    Decidable (IsAuthorized s caller document) := inferInstanceAs (Decidable (_ ∨ _))

def getDidDocument (did : Symbol) (s : State) : Returns DIDDocument :=
  orAbort (.panic "called `Result::unwrap()` on an `Err` value: DIDNotFound") (s.dids.lookup did)

/-! ## Creating documents -/

section Creators

/-- What both creators do: store a new document, and count it. -/
def createDid (now : ℕ) (did : Symbol) (owner : Address)
    (verificationMethods : List VerificationMethod) (services : List Service) (s : State) :
    Returns (Symbol × State) := do
  require (s.dids.lookup did = none) (.panic "DID already exists")
  let document : DIDDocument :=
    { id := did
      verificationMethods := verificationMethods
      authentication := verificationMethods.map VerificationMethod.id
      assertionMethod := []
      keyAgreement := []
      service := services
      createdAt := now
      updatedAt := now
      deactivated := false
      owner := owner }
  let didCount ← IntFormat.u64.checkedNat .overflow (s.didCount + 1)
  .ok (did, { s with dids := s.dids.insert did document, didCount := didCount })

/-- Create DID document for `did:stellar`, which the address owns. -/
def createStellarDid (stellarDid : Address → Symbol) (now : ℕ) (caller stellarAddress : Address)
    (verificationMethods : List VerificationMethod) (services : List Service) (s : State) :
    Returns (Symbol × State) := do
  requireAdmin caller s
  createDid now (stellarDid stellarAddress) stellarAddress verificationMethods services s

/-- Create DID document for `did:key`, with an explicit owner. -/
def createKeyDid (keyDid : List UInt8 → Symbol) (now : ℕ) (caller : Address)
    (publicKey : List UInt8) (owner : Address) (verificationMethods : List VerificationMethod)
    (services : List Service) (s : State) : Returns (Symbol × State) := do
  requireAdmin caller s
  require (publicKey ≠ []) (.panic "Invalid public key")
  createDid now (keyDid publicKey) owner verificationMethods services s

end Creators

/-! ## Changing documents -/

/-- What every change does: the caller must be authorised, and the document not deactivated. -/
def editDocument (now : ℕ) (caller : Address) (did : Symbol) (deactivatedMessage : String)
    (edit : DIDDocument → Returns DIDDocument) (s : State) : Returns State := do
  let document ← getDidDocument did s
  require (IsAuthorized s caller document) (.panic "Unauthorized")
  require (document.deactivated = false) (.panic deactivatedMessage)
  let document ← edit document
  .ok { s with dids := s.dids.insert did { document with updatedAt := now } }

/-- Update verification methods if provided, with the authentication list. -/
def DIDDocument.setVerificationMethods (verificationMethods : Option (List VerificationMethod))
    (document : DIDDocument) : DIDDocument :=
  match verificationMethods with
  | some newVms => { document with
      verificationMethods := newVms
      authentication := newVms.map VerificationMethod.id }
  | none => document

/-- Update DID document. -/
def updateDidDocument (now : ℕ) (caller : Address) (did : Symbol)
    (verificationMethods : Option (List VerificationMethod)) (services : Option (List Service)) :
    State → Returns State :=
  editDocument now caller did "DID is deactivated" fun document =>
    let document := document.setVerificationMethods verificationMethods
    .ok { document with service := services.getD document.service }

/-- Deactivate DID. -/
def deactivateDid (now : ℕ) (caller : Address) (did : Symbol) : State → Returns State :=
  editDocument now caller did "DID already deactivated" fun document =>
    .ok { document with deactivated := true }

/-- Add verification method. -/
def addVerificationMethod (now : ℕ) (caller : Address) (did : Symbol)
    (verificationMethod : VerificationMethod) : State → Returns State :=
  editDocument now caller did "DID is deactivated" fun document => do
    require (∀ existingVm ∈ document.verificationMethods, existingVm.id ≠ verificationMethod.id)
      (.panic "Verification method already exists")
    .ok { document with
      verificationMethods := document.verificationMethods ++ [verificationMethod]
      authentication := document.authentication ++ [verificationMethod.id] }

/-- Add service. -/
def addService (now : ℕ) (caller : Address) (did : Symbol) (service : Service) :
    State → Returns State :=
  editDocument now caller did "DID is deactivated" fun document => do
    require (∀ existingService ∈ document.service, existingService.id ≠ service.id)
      (.panic "Service already exists")
    .ok { document with service := document.service ++ [service] }

/-! ## The contract -/

inductive Call where
  | init (admin : Address) (approvers : List Address) (executor : Address)
  | createStellarDid (caller stellarAddress : Address)
      (verificationMethods : List VerificationMethod) (services : List Service)
  | createKeyDid (caller : Address) (publicKey : List UInt8) (owner : Address)
      (verificationMethods : List VerificationMethod) (services : List Service)
  | updateDidDocument (caller : Address) (did : Symbol)
      (verificationMethods : Option (List VerificationMethod)) (services : Option (List Service))
  | deactivateDid (caller : Address) (did : Symbol)
  | addVerificationMethod (caller : Address) (did : Symbol)
      (verificationMethod : VerificationMethod)
  | addService (caller : Address) (did : Symbol) (service : Service)
deriving DecidableEq, Repr

/-- The caller, whose authorisation every call but the initialization requires. -/
def Call.caller? : Call → Option Address
  | .init .. => none
  | .createStellarDid caller .. | .createKeyDid caller .. | .updateDidDocument caller ..
  | .deactivateDid caller .. | .addVerificationMethod caller .. | .addService caller .. =>
    some caller

/-- The verification methods that a call gives as a whole list. -/
def Call.verificationMethods? : Call → Option (List VerificationMethod)
  | .createStellarDid _ _ verificationMethods _ | .createKeyDid _ _ _ verificationMethods _ =>
    some verificationMethods
  | .updateDidDocument _ _ verificationMethods _ => verificationMethods
  | _ => none

/-- The services that a call gives as a whole list. -/
def Call.services? : Call → Option (List Service)
  | .createStellarDid _ _ _ services | .createKeyDid _ _ _ _ services => some services
  | .updateDidDocument _ _ _ services => services
  | _ => none

/-- What a call returns: an identifier, or nothing. -/
inductive Result where
  | did (did : Symbol)
  | unit
deriving DecidableEq, Repr

section Contract

variable (stellarDid : Address → Symbol) (keyDid : List UInt8 → Symbol)

def execute (now : ℕ) (call : Call) (s : State) : Returns (Result × State) :=
  match call with
  | .init admin approvers executor => .ok (.unit, init admin approvers executor s)
  | .createStellarDid caller stellarAddress verificationMethods services => do
    let (did, s) ← createStellarDid stellarDid now caller stellarAddress verificationMethods
      services s
    .ok (.did did, s)
  | .createKeyDid caller publicKey owner verificationMethods services => do
    let (did, s) ← createKeyDid keyDid now caller publicKey owner verificationMethods services s
    .ok (.did did, s)
  | .updateDidDocument caller did verificationMethods services => do
    let s ← updateDidDocument now caller did verificationMethods services s
    .ok (.unit, s)
  | .deactivateDid caller did => do
    let s ← deactivateDid now caller did s
    .ok (.unit, s)
  | .addVerificationMethod caller did verificationMethod => do
    let s ← addVerificationMethod now caller did verificationMethod s
    .ok (.unit, s)
  | .addService caller did service => do
    let s ← addService now caller did service s
    .ok (.unit, s)

/-- The DID registry. -/
def contract : Contract State Call Result (Fault GovernanceError) where
  exec now call s := execute stellarDid keyDid now call s

end Contract

/-! ## What a call leaves -/

section Effects

variable {now : ℕ} {caller : Address} {did : Symbol} {s s' : State}

/-- A document is created under an identifier that has none, and counted. -/
theorem createDid_eq_ok {did' : Symbol} {owner : Address}
    {verificationMethods : List VerificationMethod} {services : List Service}
    (h : createDid now did owner verificationMethods services s = .ok (did', s')) :
    did' = did ∧ s.dids.lookup did = none ∧ s' = { s with
      dids := s.dids.insert did ⟨did, verificationMethods,
        verificationMethods.map VerificationMethod.id, [], [], services, now, now, false, owner⟩
      didCount := s.didCount + 1 } := by
  simp only [createDid, Except.bind_eq_ok, require_eq_ok, exists_const,
    IntFormat.checkedNat_eq_ok] at h
  obtain ⟨hnone, _, ⟨-, rfl⟩, h⟩ := h
  obtain ⟨rfl, rfl⟩ := Prod.mk.inj (Except.ok.inj h)
  exact ⟨rfl, hnone, rfl⟩

/-- A document is changed by its owner or an administrator, unless it is deactivated. -/
theorem editDocument_eq_ok {deactivatedMessage : String} {edit : DIDDocument → Returns DIDDocument}
    (h : editDocument now caller did deactivatedMessage edit s = .ok s') :
    ∃ document document', s.dids.lookup did = some document ∧ IsAuthorized s caller document ∧
      document.deactivated = false ∧ edit document = .ok document' ∧
      s' = { s with dids := s.dids.insert did { document' with updatedAt := now } } := by
  simp only [editDocument, getDidDocument, Except.bind_eq_ok, orAbort_eq_ok, require_eq_ok,
    exists_const] at h
  obtain ⟨document, hread, hauthorized, hactive, document', hedit, h⟩ := h
  exact ⟨document, document', hread, hauthorized, hactive, hedit, (Except.ok.inj h).symm⟩

/-- What a call does when it returns. -/
inductive Step (s : State) : Call → State → Prop
  | init (admin : Address) (approvers : List Address) (executor : Address) :
      Step s (.init admin approvers executor) (init admin approvers executor s)
  /-- An administrator creates a document. -/
  | create {call : Call} {caller : Address} {did : Symbol} (document : DIDDocument)
      (hcaller : call.caller? = some caller) (hadmin : requireAdmin caller s = .ok ())
      (hnone : s.dids.lookup did = none) :
      Step s call { s with dids := s.dids.insert did document, didCount := s.didCount + 1 }
  /-- The owner or an administrator changes a document. -/
  | edit {call : Call} {caller : Address} {did : Symbol} {document : DIDDocument}
      (document' : DIDDocument) (hcaller : call.caller? = some caller)
      (hread : s.dids.lookup did = some document) (hauthorized : IsAuthorized s caller document)
      (hactive : document.deactivated = false) :
      Step s call { s with dids := s.dids.insert did document' }

/-- How a call changes a document, before the time of the change is noted. -/
inductive Edits (document : DIDDocument) : Call → DIDDocument → Prop
  | update {caller : Address} {did : Symbol} (verificationMethods : Option (List VerificationMethod))
      (services : Option (List Service)) :
      Edits document (.updateDidDocument caller did verificationMethods services)
        { document.setVerificationMethods verificationMethods with
          service := services.getD document.service }
  | deactivate {caller : Address} {did : Symbol} :
      Edits document (.deactivateDid caller did) { document with deactivated := true }
  | addVerificationMethod {caller : Address} {did : Symbol} {verificationMethod : VerificationMethod}
      (hnew : ∀ existingVm ∈ document.verificationMethods, existingVm.id ≠ verificationMethod.id) :
      Edits document (.addVerificationMethod caller did verificationMethod) { document with
        verificationMethods := document.verificationMethods ++ [verificationMethod]
        authentication := document.authentication ++ [verificationMethod.id] }
  | addService {caller : Address} {did : Symbol} {service : Service}
      (hnew : ∀ existingService ∈ document.service, existingService.id ≠ service.id) :
      Edits document (.addService caller did service) { document with
        service := document.service ++ [service] }

/-- What a call does when it returns, with the documents that it writes. -/
inductive Effect (now : ℕ) (s : State) : Call → State → Prop
  | init (admin : Address) (approvers : List Address) (executor : Address) :
      Effect now s (.init admin approvers executor) (init admin approvers executor s)
  | create {call : Call} {caller owner : Address} {did : Symbol}
      {verificationMethods : List VerificationMethod} {services : List Service}
      (hcaller : call.caller? = some caller) (hadmin : requireAdmin caller s = .ok ())
      (hmethods : call.verificationMethods? = some verificationMethods)
      (hservices : call.services? = some services) (hnone : s.dids.lookup did = none) :
      Effect now s call { s with
        dids := s.dids.insert did ⟨did, verificationMethods,
          verificationMethods.map VerificationMethod.id, [], [], services, now, now, false, owner⟩
        didCount := s.didCount + 1 }
  | edit {call : Call} {caller : Address} {did : Symbol} {document document' : DIDDocument}
      (hcaller : call.caller? = some caller) (hread : s.dids.lookup did = some document)
      (hauthorized : IsAuthorized s caller document) (hactive : document.deactivated = false)
      (hedits : Edits document call document') :
      Effect now s call { s with dids := s.dids.insert did { document' with updatedAt := now } }

theorem Effect.step {call : Call} (h : Effect now s call s') : Step s call s' := by
  cases h with
  | init admin approvers executor => exact .init admin approvers executor
  | create hcaller hadmin _ _ hnone => exact .create _ hcaller hadmin hnone
  | edit hcaller hread hauthorized hactive _ => exact .edit _ hcaller hread hauthorized hactive

theorem effect_of_createDid {call : Call} {owner : Address} {did' : Symbol}
    {verificationMethods : List VerificationMethod} {services : List Service}
    (hcaller : call.caller? = some caller) (hadmin : requireAdmin caller s = .ok ())
    (hmethods : call.verificationMethods? = some verificationMethods)
    (hservices : call.services? = some services)
    (h : createDid now did owner verificationMethods services s = .ok (did', s')) :
    Effect now s call s' := by
  obtain ⟨-, hnone, rfl⟩ := createDid_eq_ok h
  exact .create hcaller hadmin hmethods hservices hnone

theorem effect_of_editDocument {call : Call} {deactivatedMessage : String} {r : Result}
    {edit : DIDDocument → Returns DIDDocument} (hcaller : call.caller? = some caller)
    (h : (editDocument now caller did deactivatedMessage edit s >>= fun s₁ => .ok (.unit, s₁)) =
      .ok (r, s'))
    (hedit : ∀ document document', edit document = .ok document' → Edits document call document') :
    Effect now s call s' := by
  obtain ⟨s₁, h₁, h⟩ := Except.bind_eq_ok.mp h
  obtain ⟨-, rfl⟩ := Prod.mk.inj (Except.ok.inj h)
  obtain ⟨document, document', hread, hauthorized, hactive, hdocument, rfl⟩ := editDocument_eq_ok h₁
  exact .edit hcaller hread hauthorized hactive (hedit document document' hdocument)

/-- Every call that returns has such an effect. -/
theorem execute_effect {stellarDid : Address → Symbol} {keyDid : List UInt8 → Symbol}
    {call : Call} {r : Result} (h : execute stellarDid keyDid now call s = .ok (r, s')) :
    Effect now s call s' := by
  cases call with
  | init admin approvers executor =>
    obtain ⟨-, rfl⟩ := Prod.mk.inj (Except.ok.inj h)
    exact .init admin approvers executor
  | createStellarDid caller stellarAddress verificationMethods services =>
    simp only [execute, createStellarDid, Except.bind_eq_ok] at h
    obtain ⟨⟨did, s₁⟩, ⟨_, hadmin, h₁⟩, h⟩ := h
    obtain ⟨-, rfl⟩ := Prod.mk.inj (Except.ok.inj h)
    exact effect_of_createDid rfl hadmin rfl rfl h₁
  | createKeyDid caller publicKey owner verificationMethods services =>
    simp only [execute, createKeyDid, Except.bind_eq_ok] at h
    obtain ⟨⟨did, s₁⟩, ⟨_, hadmin, _, -, h₁⟩, h⟩ := h
    obtain ⟨-, rfl⟩ := Prod.mk.inj (Except.ok.inj h)
    exact effect_of_createDid rfl hadmin rfl rfl h₁
  | updateDidDocument caller did verificationMethods services =>
    refine effect_of_editDocument rfl h ?_
    intro document document' hdocument
    obtain rfl := Except.ok.inj hdocument
    cases verificationMethods with
    | none => exact .update none services
    | some newVms => exact .update (some newVms) services
  | deactivateDid caller did =>
    refine effect_of_editDocument rfl h ?_
    intro document document' hdocument
    obtain rfl := Except.ok.inj hdocument
    exact .deactivate
  | addVerificationMethod caller did verificationMethod =>
    refine effect_of_editDocument rfl h ?_
    intro document document' hdocument
    simp only [Except.bind_eq_ok, require_eq_ok, exists_const] at hdocument
    obtain ⟨hnew, hdocument⟩ := hdocument
    obtain rfl := Except.ok.inj hdocument
    exact .addVerificationMethod hnew
  | addService caller did service =>
    refine effect_of_editDocument rfl h ?_
    intro document document' hdocument
    simp only [Except.bind_eq_ok, require_eq_ok, exists_const] at hdocument
    obtain ⟨hnew, hdocument⟩ := hdocument
    obtain rfl := Except.ok.inj hdocument
    exact .addService hnew

/-- Every call that returns is such a step. -/
theorem step_of_execute {stellarDid : Address → Symbol} {keyDid : List UInt8 → Symbol}
    {call : Call} {r : Result} (h : execute stellarDid keyDid now call s = .ok (r, s')) :
    Step s call s' :=
  (execute_effect h).step

end Effects

end Stellara.DidRegistry
