import Stellara.Host.Soroban

/-!
# Upgrade governance

An administrator proposes the upgrade of a contract and names its approvers. The proposal is
approved when enough of them approve it, and can be executed after its timelock. An approver
can reject it while it is pending, and an administrator can cancel it until it is executed.

## Main definitions

* `UpgradeProposal`, `State`: a proposal, and the entries of the storage
* `proposeUpgrade`, `approveProposal`, `executeProposal`, `rejectProposal`, `cancelProposal`: the
  calls
* `contract`: governance as a transactional contract

## Main results

* `approveProposal_eq_ok`, `executeProposal_eq_ok`, …: what a successful call leaves
-/

namespace Stellara.Governance

/-! ## Storage -/

/-- Status of an upgrade proposal. -/
inductive ProposalStatus where
  | pending
  | approved
  | rejected
  | executed
  | cancelled
deriving DecidableEq, Repr

/-- Upgrade proposal that must be approved via governance. -/
structure UpgradeProposal where
  id : ℕ
  proposer : Address
  newContractHash : Symbol
  targetContract : Address
  description : Symbol
  approvalThreshold : ℕ
  approvers : List Address
  approvalsCount : ℕ
  status : ProposalStatus
  createdAt : ℕ
  /-- Timelock: when it can be executed. -/
  executionTime : ℕ
  executed : Bool
deriving DecidableEq, Repr

inductive GovernanceRole where
  | admin
  | approver
  | executor
deriving DecidableEq, Repr

/-- The number of a role; lower numbers have more privileges. -/
def GovernanceRole.rank : GovernanceRole → ℕ
  | .admin => 0
  | .approver => 1
  | .executor => 2

inductive GovernanceError where
  | unauthorized
  | invalidProposal
  | insufficientApprovals
  | timelockNotExpired
  | proposalNotApproved
  | invalidThreshold
  | duplicateApproval
  | proposalNotFound
deriving DecidableEq, Repr

/-- The entries `roles`, `props`, `apprv` and `prop_cnt` of a contract's storage. -/
structure State where
  roles : Store Address GovernanceRole
  proposals : Store ℕ UpgradeProposal
  approvals : Store (ℕ × Address) Bool
  proposalCounter : ℕ

/-- No proposals yet. -/
def State.initial (roles : Store Address GovernanceRole) : State := ⟨roles, ∅, ∅, 0⟩

/-- The roles that an initializer assigns; a later role of an address replaces the one before. -/
def initialRoles (admin : Address) (approvers : List Address) (executor : Address) :
    Store Address GovernanceRole :=
  (approvers.foldl (fun roles approver => roles.insert approver .approver)
    ((∅ : Store Address GovernanceRole).insert admin .admin)).insert executor .executor

/-! ## The calls -/

/-- Validate that an address has a specific role; an address without a role is an executor. -/
def requireRole (s : State) (address : Address) (requiredRole : GovernanceRole) :
    Outcome GovernanceError Unit :=
  let userRole := (s.roles.lookup address).getD .executor
  require (userRole.rank ≤ requiredRole.rank) (.panic "UNAUTH")

def findProposal (s : State) (proposalId : ℕ) : Outcome GovernanceError UpgradeProposal :=
  orAbort (.error .proposalNotFound) (s.proposals.lookup proposalId)

def setProposal (s : State) (proposalId : ℕ) (proposal : UpgradeProposal) : State :=
  { s with proposals := s.proposals.insert proposalId proposal }

/-- Create a new upgrade proposal. -/
def proposeUpgrade (now : ℕ) (proposer : Address) (newContractHash : Symbol)
    (targetContract : Address) (description : Symbol) (approvalThreshold : ℕ)
    (approvers : List Address) (timelockDelay : ℕ) (s : State) :
    Outcome GovernanceError (ℕ × State) := do
  requireRole s proposer .admin
  require (¬ (approvalThreshold = 0 ∨ approvers.length < approvalThreshold))
    (.error .invalidThreshold)
  let nextId ← IntFormat.u64.checkedNat .overflow (s.proposalCounter + 1)
  let executionTime ← IntFormat.u64.checkedNat .overflow (now + timelockDelay)
  let proposal : UpgradeProposal :=
    { id := nextId
      proposer := proposer
      newContractHash := newContractHash
      targetContract := targetContract
      description := description
      approvalThreshold := approvalThreshold
      approvers := approvers
      approvalsCount := 0
      status := .pending
      createdAt := now
      executionTime := executionTime
      executed := false }
  .ok (nextId, { setProposal s nextId proposal with proposalCounter := nextId })

/-- Approve a proposal. -/
def approveProposal (proposalId : ℕ) (approver : Address) (s : State) :
    Outcome GovernanceError State := do
  requireRole s approver .approver
  let proposal ← findProposal s proposalId
  require (proposal.status = .pending) (.error .invalidProposal)
  require (approver ∈ proposal.approvers) (.error .unauthorized)
  require (s.approvals.lookup (proposalId, approver) = none) (.error .duplicateApproval)
  let s := { s with approvals := s.approvals.insert (proposalId, approver) true }
  let approvalsCount ← IntFormat.u32.checkedNat .overflow (proposal.approvalsCount + 1)
  let status := if proposal.approvalThreshold ≤ approvalsCount then .approved else proposal.status
  .ok (setProposal s proposalId
    { proposal with approvalsCount := approvalsCount, status := status })

/-- Execute an approved proposal, after its timelock expired. -/
def executeProposal (now proposalId : ℕ) (executor : Address) (s : State) :
    Outcome GovernanceError State := do
  requireRole s executor .executor
  let proposal ← findProposal s proposalId
  require (proposal.status = .approved) (.error .proposalNotApproved)
  require (proposal.executionTime ≤ now) (.error .timelockNotExpired)
  .ok (setProposal s proposalId { proposal with executed := true, status := .executed })

/-- Reject a proposal. -/
def rejectProposal (proposalId : ℕ) (rejector : Address) (s : State) :
    Outcome GovernanceError State := do
  requireRole s rejector .approver
  let proposal ← findProposal s proposalId
  require (proposal.status = .pending) (.error .invalidProposal)
  .ok (setProposal s proposalId { proposal with status := .rejected })

/-- Cancel a proposal. -/
def cancelProposal (proposalId : ℕ) (admin : Address) (s : State) :
    Outcome GovernanceError State := do
  requireRole s admin .admin
  let proposal ← findProposal s proposalId
  require (proposal.executed = false) (.error .invalidProposal)
  .ok (setProposal s proposalId { proposal with status := .cancelled })

inductive Call where
  | proposeUpgrade (proposer : Address) (newContractHash : Symbol) (targetContract : Address)
      (description : Symbol) (approvalThreshold : ℕ) (approvers : List Address) (timelockDelay : ℕ)
  | approveProposal (proposalId : ℕ) (approver : Address)
  | executeProposal (proposalId : ℕ) (executor : Address)
  | rejectProposal (proposalId : ℕ) (rejector : Address)
  | cancelProposal (proposalId : ℕ) (admin : Address)
deriving DecidableEq, Repr

/-- What a call returns. -/
inductive Result where
  | proposalId (id : ℕ)
  | unit
deriving DecidableEq, Repr

/-- Execute a call. -/
def execute (now : ℕ) (s : State) : Call → Outcome GovernanceError (Result × State)
  | .proposeUpgrade proposer newContractHash targetContract description approvalThreshold approvers
      timelockDelay =>
    (fun p => (Result.proposalId p.1, p.2)) <$> proposeUpgrade now proposer newContractHash
      targetContract description approvalThreshold approvers timelockDelay s
  | .approveProposal proposalId approver =>
    (Result.unit, ·) <$> approveProposal proposalId approver s
  | .executeProposal proposalId executor =>
    (Result.unit, ·) <$> executeProposal now proposalId executor s
  | .rejectProposal proposalId rejector =>
    (Result.unit, ·) <$> rejectProposal proposalId rejector s
  | .cancelProposal proposalId admin => (Result.unit, ·) <$> cancelProposal proposalId admin s

/-- The governance of a contract. -/
def contract : Contract State Call Result (Fault GovernanceError) where
  exec now call s := execute now s call

/-! ## What a successful call leaves -/

section Effects

variable {now proposalId : ℕ} {address : Address} {s s' : State}

/-- The address holds a role that may approve. -/
def MayApprove (s : State) (a : Address) : Prop :=
  s.roles.lookup a = some .admin ∨ s.roles.lookup a = some .approver

theorem requireRole_approver {u : Unit} (h : requireRole s address .approver = .ok u) :
    MayApprove s address := by
  rw [requireRole, require_eq_ok] at h
  unfold MayApprove
  -- an address without a role would be an executor
  cases hr : s.roles.lookup address with
  | none => simp [hr, GovernanceRole.rank] at h
  | some role => cases role <;> simp_all [GovernanceRole.rank]

theorem approveProposal_eq_ok (h : approveProposal proposalId address s = .ok s') :
    MayApprove s address ∧ ∃ p, s.proposals.lookup proposalId = some p ∧ p.status = .pending ∧
      address ∈ p.approvers ∧ s.approvals.lookup (proposalId, address) = none ∧
      s' = ⟨s.roles, s.proposals.insert proposalId
          { p with
            approvalsCount := p.approvalsCount + 1
            status := if p.approvalThreshold ≤ p.approvalsCount + 1 then .approved else p.status },
        s.approvals.insert (proposalId, address) true, s.proposalCounter⟩ := by
  simp only [approveProposal, findProposal, Except.bind_eq_ok, require_eq_ok, exists_const,
    orAbort_eq_ok, IntFormat.checkedNat_eq_ok] at h
  obtain ⟨_, hrole, p, hread, hstatus, hmem, hnew, _, ⟨-, rfl⟩, h⟩ := h
  obtain rfl := Except.ok.inj h
  exact ⟨requireRole_approver hrole, p, hread, hstatus, hmem, hnew, rfl⟩

theorem executeProposal_eq_ok (h : executeProposal now proposalId address s = .ok s') :
    ∃ p, s.proposals.lookup proposalId = some p ∧ p.status = .approved ∧ p.executionTime ≤ now ∧
      s' = setProposal s proposalId { p with executed := true, status := .executed } := by
  simp only [executeProposal, findProposal, Except.bind_eq_ok, require_eq_ok, exists_const,
    orAbort_eq_ok] at h
  obtain ⟨_, -, p, hread, hstatus, htime, h⟩ := h
  obtain rfl := Except.ok.inj h
  exact ⟨p, hread, hstatus, htime, rfl⟩

theorem rejectProposal_eq_ok (h : rejectProposal proposalId address s = .ok s') :
    ∃ p, s.proposals.lookup proposalId = some p ∧ p.status = .pending ∧
      s' = setProposal s proposalId { p with status := .rejected } := by
  simp only [rejectProposal, findProposal, Except.bind_eq_ok, require_eq_ok, exists_const,
    orAbort_eq_ok] at h
  obtain ⟨_, -, p, hread, hstatus, h⟩ := h
  obtain rfl := Except.ok.inj h
  exact ⟨p, hread, hstatus, rfl⟩

theorem cancelProposal_eq_ok (h : cancelProposal proposalId address s = .ok s') :
    ∃ p, s.proposals.lookup proposalId = some p ∧ p.executed = false ∧
      s' = setProposal s proposalId { p with status := .cancelled } := by
  simp only [cancelProposal, findProposal, Except.bind_eq_ok, require_eq_ok, exists_const,
    orAbort_eq_ok] at h
  obtain ⟨_, -, p, hread, hexecuted, h⟩ := h
  obtain rfl := Except.ok.inj h
  exact ⟨p, hread, hexecuted, rfl⟩

theorem proposeUpgrade_eq_ok {hash description : Symbol} {target : Address} {threshold delay id : ℕ}
    {approvers : List Address}
    (h : proposeUpgrade now address hash target description threshold approvers delay s =
      .ok (id, s')) :
    0 < threshold ∧ id = s.proposalCounter + 1 ∧
      s' = ⟨s.roles, s.proposals.insert id ⟨id, address, hash, target, description, threshold,
        approvers, 0, .pending, now, now + delay, false⟩, s.approvals, id⟩ := by
  simp only [proposeUpgrade, Except.bind_eq_ok, require_eq_ok, exists_const,
    IntFormat.checkedNat_eq_ok] at h
  obtain ⟨_, -, hthreshold, _, ⟨-, rfl⟩, _, ⟨-, rfl⟩, h⟩ := h
  obtain ⟨rfl, rfl⟩ := Prod.mk.inj (Except.ok.inj h)
  exact ⟨Nat.pos_of_ne_zero fun h0 => hthreshold (.inl h0), rfl, rfl⟩

end Effects

end Stellara.Governance
