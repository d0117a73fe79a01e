import Mathlib.Data.List.Dedup
import Stellara.Shared.GovernanceRuns

/-!
# Satisfiable proposals

A proposal is accepted when its threshold is at most the length of the list of its approvers. The
list may repeat an address, or name one without a role, but every address approves at most once and
only with a role. So a proposal can be approved exactly when enough different approvers have one.

## Main definitions

* `eligible`: the different approvers of a list that may approve
* `Satisfiable`: a proposal that approvals alone can bring to its threshold

## Main results

* `le_eligible`: what an approved proposal says about its approvers
* `approve_all`: voters who may approve bring a proposal to its threshold
* `satisfiable_iff`: the accepted proposals that can be approved
-/

namespace Stellara.Governance

instance (s : State) (a : Address) : Decidable (MayApprove s a) :=
  inferInstanceAs (Decidable (_ ∨ _))

/-- The different approvers of a list that hold a role that may approve. -/
def eligible (s : State) (approvers : List Address) : List Address :=
  (approvers.filter fun a => MayApprove s a).dedup

theorem mem_eligible {s : State} {approvers : List Address} {a : Address} :
    a ∈ eligible s approvers ↔ a ∈ approvers ∧ MayApprove s a := by
  simp [eligible]

/-- Approvals by addresses that may approve, and nothing else, can bring the proposal `id` of the
world `w` to its threshold. -/
def Satisfiable (w : World State) (id : ℕ) : Prop :=
  ∃ voters : List Address, (∀ a ∈ voters, MayApprove w.store a) ∧
    ∃ w' log, contract.Run w w' log ∧ log.map Commit.call = voters.map (Call.approveProposal id) ∧
      ∃ p, w'.store.proposals.lookup id = some p ∧ p.status = .approved

/-! ## Approved proposals -/

section Approved

variable {now : ℕ} {s s' : State} {call : Call} {r : Result}

/-- No call changes a role. -/
theorem execute_roles (he : execute now s call = .ok (r, s')) : s'.roles = s.roles := by
  cases call with
  | proposeUpgrade proposer hash target description threshold approvers delay =>
    simp only [execute, Except.map_eq_ok] at he
    obtain ⟨⟨id, s₁⟩, h₁, he⟩ := he
    obtain ⟨-, rfl⟩ := Prod.mk.inj he
    obtain ⟨-, -, rfl⟩ := proposeUpgrade_eq_ok h₁
    rfl
  | approveProposal id a =>
    simp only [execute, Except.map_eq_ok] at he
    obtain ⟨s₁, h₁, he⟩ := he
    obtain ⟨-, rfl⟩ := Prod.mk.inj he
    obtain ⟨-, p, -, -, -, -, rfl⟩ := approveProposal_eq_ok h₁
    rfl
  | executeProposal id a =>
    simp only [execute, Except.map_eq_ok] at he
    obtain ⟨s₁, h₁, he⟩ := he
    obtain ⟨-, rfl⟩ := Prod.mk.inj he
    obtain ⟨p, -, -, -, rfl⟩ := executeProposal_eq_ok h₁
    rfl
  | rejectProposal id a =>
    simp only [execute, Except.map_eq_ok] at he
    obtain ⟨s₁, h₁, he⟩ := he
    obtain ⟨-, rfl⟩ := Prod.mk.inj he
    obtain ⟨p, -, -, rfl⟩ := rejectProposal_eq_ok h₁
    rfl
  | cancelProposal id a =>
    simp only [execute, Except.map_eq_ok] at he
    obtain ⟨s₁, h₁, he⟩ := he
    obtain ⟨-, rfl⟩ := Prod.mk.inj he
    obtain ⟨p, -, -, rfl⟩ := cancelProposal_eq_ok h₁
    rfl

variable {t : ℕ} {roles : Store Address GovernanceRole} {w : World State} {log : Log} {id : ℕ}
  {p : UpgradeProposal}

/-- The roles of a run are those that it started with. -/
theorem run_roles (h : contract.Run ⟨t, .initial roles⟩ w log) :
    w.store.roles = roles ∧ ∀ c ∈ log, c.before.roles = roles := by
  have hstep : ∀ t k r s s', s.roles = roles → contract.exec t k s = .ok (r, s') →
      s'.roles = roles := fun _ _ _ _ _ hs he => (execute_roles he).trans hs
  exact ⟨h.invariant hstep rfl, fun c hc => (h.invariant_of_mem hstep rfl c hc).1⟩

theorem eligible_of_roles {s : State} (hroles : s.roles = roles) (approvers : List Address) :
    eligible s approvers = eligible (.initial roles) approvers := by
  have hmay : ∀ a, MayApprove s a ↔ MayApprove (.initial roles) a := fun a => by
    rw [MayApprove, hroles, MayApprove, State.initial]
  exact congrArg List.dedup (List.filter_congr fun a _ => decide_eq_decide.mpr (hmay a))

/-- Whatever is called afterwards, a stored proposal keeps its terms. -/
theorem run_sameTerms {w' : World State} {log' : Log} (h : contract.Run ⟨t, .initial roles⟩ w log)
    (h' : contract.Run w w' log') (hread : w.store.proposals.lookup id = some p) :
    ∃ p', w'.store.proposals.lookup id = some p' ∧ SameTerms p p' := by
  refine (h'.invariant_log (I := fun _ s log' => Tracked s (log ++ log') ∧
    ∃ p', s.proposals.lookup id = some p' ∧ SameTerms p p') ?_ (fun _ _ _ _ _ hs => hs) ?_).2
  · rw [List.append_nil]
    exact ⟨run_tracked h, p, hread, .refl p⟩
  · rintro t k r s s' log' ⟨ht, p', hread', hterms⟩ he
    obtain ⟨p'', hread'', hterms', -⟩ := execute_keeps ht he id p' hread'
    rw [← List.append_assoc]
    exact ⟨execute_tracked ht he, p'', hread'', hterms.trans hterms'⟩

/-- Whatever was called, an approved proposal has enough different approvers that may approve. -/
theorem le_eligible (h : contract.Run ⟨t, .initial roles⟩ w log)
    (hread : w.store.proposals.lookup id = some p) (hstatus : p.status = .approved) :
    p.approvalThreshold ≤ (eligible w.store p.approvers).length := by
  obtain ⟨m, hvoters, hthreshold, -, hlife⟩ := ((run_tracked h).tracks id p hread).life
  rw [hstatus] at hlife
  -- the recorded approvals are by different approvers, who all may approve
  have hsub : Motion.approvals (trail id log) ⊆ eligible w.store p.approvers := by
    intro a ha
    obtain ⟨c, hc, hact⟩ := mem_trail (Motion.mem_approvals.mp ha)
    have hexec := h.exec_of_mem c hc
    rw [call_of_approve hact] at hexec
    simp only [contract, execute, Except.map_eq_ok] at hexec
    obtain ⟨s', happrove, -⟩ := hexec
    have hmay := (approveProposal_eq_ok happrove).1
    rw [MayApprove, (run_roles h).2 c hc, ← (run_roles h).1] at hmay
    exact mem_eligible.mpr ⟨hvoters ▸ hlife.approvals_sound.2 a ha, hmay⟩
  calc p.approvalThreshold = m.threshold := hthreshold.symm
    _ ≤ (Motion.approvals (trail id log)).length := hlife.le_approvals (.inl rfl)
    _ ≤ (eligible w.store p.approvers).length :=
        (List.subperm_of_subset hlife.approvals_sound.1 hsub).length_le

end Approved

/-! ## Approving a proposal -/

section Approving

variable {s : State} {id : ℕ} {p : UpgradeProposal} {a : Address}

theorem requireRole_of_mayApprove (h : MayApprove s a) : requireRole s a .approver = .ok () := by
  rw [requireRole, require_eq_ok]
  rcases h with h | h
  · simp [h, GovernanceRole.rank]
  · simp [h, GovernanceRole.rank]

/-- A proposal with one more approval. -/
def UpgradeProposal.counted (p : UpgradeProposal) : UpgradeProposal :=
  { p with
    approvalsCount := p.approvalsCount + 1
    status := if p.approvalThreshold ≤ p.approvalsCount + 1 then .approved else p.status }

/-- What a voter's approval leaves. -/
def State.approved (s : State) (id : ℕ) (p : UpgradeProposal) (a : Address) : State :=
  ⟨s.roles, s.proposals.insert id p.counted, s.approvals.insert (id, a) true, s.proposalCounter⟩

/-- An approver who may approve and has not done so can approve a pending proposal. -/
theorem approveProposal_of_pending (hmay : MayApprove s a)
    (hread : s.proposals.lookup id = some p) (hstatus : p.status = .pending) (hmem : a ∈ p.approvers)
    (hnew : s.approvals.lookup (id, a) = none)
    (hcount : ((p.approvalsCount + 1 : ℕ) : ℤ) ≤ IntFormat.u32.hi) :
    approveProposal id a s = .ok (s.approved id p a) := by
  rw [approveProposal, requireRole_of_mayApprove hmay, Except.ok_bind, findProposal, hread, orAbort,
    Except.ok_bind, require_pos hstatus, Except.ok_bind, require_pos hmem, Except.ok_bind,
    require_pos hnew, Except.ok_bind,
    IntFormat.checkedNat_eq_ok.mpr ⟨hcount, rfl⟩, Except.ok_bind]
  rfl

/-- As many different voters as the threshold asks for bring a pending proposal to it. -/
theorem approve_all {w : World State} {voters : List Address} (hne : voters ≠ [])
    (hnodup : voters.Nodup)
    (hvoters : ∀ a ∈ voters, MayApprove w.store a ∧ a ∈ p.approvers ∧
      w.store.approvals.lookup (id, a) = none)
    (hread : w.store.proposals.lookup id = some p) (hstatus : p.status = .pending)
    (hthreshold : p.approvalThreshold = p.approvalsCount + voters.length)
    (hfits : (p.approvalThreshold : ℤ) ≤ IntFormat.u32.hi) :
    ∃ w' log, contract.Run w w' log ∧ log.map Commit.call = voters.map (Call.approveProposal id) ∧
      ∃ p', w'.store.proposals.lookup id = some p' ∧ p'.status = .approved := by
  induction voters generalizing w p with
  | nil => exact absurd rfl hne
  | cons a voters ih =>
    obtain ⟨hmay, hmem, hnew⟩ := hvoters a List.mem_cons_self
    rw [List.length_cons] at hthreshold
    have happrove := approveProposal_of_pending hmay hread hstatus hmem hnew (by omega)
    have hexec : contract.exec w.now (.approveProposal id a) w.store =
        .ok (.unit, w.store.approved id p a) := by
      change execute w.now w.store (.approveProposal id a) = _
      rw [execute, happrove]
      rfl
    have hfirst := Contract.Run.commit .start (le_refl w.now) hexec
    have hread' : (w.store.approved id p a).proposals.lookup id = some p.counted :=
      (Store.lookup_insert_ite ..).trans (if_pos rfl)
    by_cases hlast : voters = []
    · -- the last voter reaches the threshold
      subst hlast
      exact ⟨_, _, hfirst, rfl, _, hread', if_pos hthreshold.le⟩
    · -- the others find the proposal pending, and have not approved it
      have hpos := List.length_pos_iff.mpr hlast
      rw [List.nodup_cons] at hnodup
      have hothers : ∀ b ∈ voters, MayApprove (w.store.approved id p a) b ∧
          b ∈ p.counted.approvers ∧ (w.store.approved id p a).approvals.lookup (id, b) = none := by
        intro b hb
        obtain ⟨hmay', hmem', hnew'⟩ := hvoters b (List.mem_cons_of_mem a hb)
        have hne' : b ≠ a := fun heq => hnodup.1 (heq ▸ hb)
        refine ⟨hmay', hmem', (Store.lookup_insert_ite ..).trans ?_⟩
        rw [if_neg (by simp [hne']), hnew']
      obtain ⟨w', log, hrest, hcalls, hend⟩ := ih hlast hnodup.2
        (w := ⟨w.now, w.store.approved id p a⟩) hothers hread' ((if_neg (by omega)).trans hstatus)
        (by dsimp only [UpgradeProposal.counted]; omega) hfits
      exact ⟨w', _, hfirst.append hrest, by simp [hcalls], hend⟩

end Approving

section Proposing

variable {t t' : ℕ} {roles : Store Address GovernanceRole} {w : World State} {log : Log}
  {proposer targetContract : Address} {newContractHash description : Symbol}
  {approvalThreshold timelockDelay id : ℕ} {approvers : List Address} {s' : State}

/-- The run that ends with a proposal, and the proposal as it is stored. -/
theorem run_propose (h : contract.Run ⟨t, .initial roles⟩ w log) (ht : w.now ≤ t')
    (hpropose : proposeUpgrade t' proposer newContractHash targetContract description
      approvalThreshold approvers timelockDelay w.store = .ok (id, s')) :
    (∃ log', contract.Run ⟨t, .initial roles⟩ ⟨t', s'⟩ log') ∧
      s'.proposals.lookup id = some ⟨id, proposer, newContractHash, targetContract, description,
        approvalThreshold, approvers, 0, .pending, t', t' + timelockDelay, false⟩ ∧
      ∀ a, s'.approvals.lookup (id, a) = none := by
  have hexec : contract.exec t' (.proposeUpgrade proposer newContractHash targetContract description
      approvalThreshold approvers timelockDelay) w.store = .ok (.proposalId id, s') := by
    simp only [contract, execute, Except.map_eq_ok, hpropose]
    exact ⟨_, rfl, rfl⟩
  refine ⟨⟨_, h.commit ht hexec⟩, ?_⟩
  obtain ⟨-, hid, rfl⟩ := proposeUpgrade_eq_ok hpropose
  refine ⟨(Store.lookup_insert_ite ..).trans (if_pos rfl), fun a => ?_⟩
  -- nobody approved the next id before it was proposed
  have htracked := run_tracked h
  change w.store.approvals.lookup (id, a) = none
  rw [htracked.records.lookup_eq_none, htracked.unknown id (htracked.lookup_next hid)]
  exact List.not_mem_nil

/-- A proposal that can be approved has enough different approvers that may approve. -/
theorem Satisfiable.le_eligible (h : contract.Run ⟨t, .initial roles⟩ w log) (ht : w.now ≤ t')
    (hpropose : proposeUpgrade t' proposer newContractHash targetContract description
      approvalThreshold approvers timelockDelay w.store = .ok (id, s'))
    (hsatisfiable : Satisfiable ⟨t', s'⟩ id) :
    approvalThreshold ≤ (eligible (.initial roles) approvers).length := by
  obtain ⟨⟨log', hrun⟩, hread, -⟩ := run_propose h ht hpropose
  obtain ⟨-, -, w'', log'', h'', -, p, hp, hstatus⟩ := hsatisfiable
  -- whatever is called, the proposal keeps its terms
  obtain ⟨q, hq, hterms⟩ := run_sameTerms hrun h'' hread
  obtain rfl := Option.some.inj (hq.symm.trans hp)
  have hle := Governance.le_eligible (hrun.append h'') hp hstatus
  rw [hterms.approvalThreshold, hterms.approvers,
    eligible_of_roles (run_roles (hrun.append h'')).1] at hle
  exact hle

/-- An accepted proposal can be approved exactly when its threshold is at most the number of its
different approvers that may approve. -/
theorem satisfiable_iff (h : contract.Run ⟨t, .initial roles⟩ w log) (ht : w.now ≤ t')
    (hfits : (approvalThreshold : ℤ) ≤ IntFormat.u32.hi)
    (hpropose : proposeUpgrade t' proposer newContractHash targetContract description
      approvalThreshold approvers timelockDelay w.store = .ok (id, s')) :
    Satisfiable ⟨t', s'⟩ id ↔ approvalThreshold ≤ (eligible w.store approvers).length := by
  rw [eligible_of_roles (run_roles h).1]
  constructor
  · exact Satisfiable.le_eligible h ht hpropose
  · intro hle
    obtain ⟨⟨log', hrun⟩, hread, hnew⟩ := run_propose h ht hpropose
    have hpos := (proposeUpgrade_eq_ok hpropose).1
    rw [← eligible_of_roles (run_roles hrun).1] at hle
    -- the first of the eligible approvers, as many as the threshold asks for
    have hlength : ((eligible s' approvers).take approvalThreshold).length = approvalThreshold :=
      List.length_take_of_le hle
    have hmem : ∀ a ∈ (eligible s' approvers).take approvalThreshold,
        a ∈ approvers ∧ MayApprove s' a := fun a ha => mem_eligible.mp (List.mem_of_mem_take ha)
    refine ⟨_, fun a ha => (hmem a ha).2, approve_all ?_ ?_ ?_ hread rfl ?_ hfits⟩
    · exact List.ne_nil_of_length_pos (by omega)
    · exact (List.nodup_dedup _).sublist (List.take_sublist _ _)
    · exact fun a ha => ⟨(hmem a ha).2, (hmem a ha).1, hnew a⟩
    · rw [hlength, Nat.zero_add]

end Proposing

/-- What is stored when two approvers are named for a proposal that needs both. -/
theorem satisfiable_sample :
    Satisfiable ⟨10, (contract.play ⟨0, .initial sampleRoles⟩
      [(10, .proposeUpgrade ⟨1⟩ "v2" ⟨9⟩ "fees" 2 [⟨2⟩, ⟨3⟩] 100)]).1.store⟩ 1 ↔
      2 ≤ (eligible (.initial sampleRoles) [⟨2⟩, ⟨3⟩]).length :=
  satisfiable_iff (w := ⟨0, .initial sampleRoles⟩) .start (Nat.zero_le 10) (by decide)
    (show proposeUpgrade 10 ⟨1⟩ "v2" ⟨9⟩ "fees" 2 [⟨2⟩, ⟨3⟩] 100 _ = _ from rfl)

/-- A proposal that names one approver twice is accepted with a threshold of two, and can not be
approved. -/
theorem repeated_approver_not_satisfiable :
    ∃ s', proposeUpgrade 10 ⟨1⟩ "v2" ⟨9⟩ "fees" 2 [⟨2⟩, ⟨2⟩] 100 (.initial sampleRoles) =
      .ok (1, s') ∧ ¬ Satisfiable ⟨10, s'⟩ 1 := by
  refine ⟨_, rfl, fun h => ?_⟩
  have hle := h.le_eligible (w := ⟨0, .initial sampleRoles⟩) .start (Nat.zero_le 10)
    (show proposeUpgrade 10 ⟨1⟩ "v2" ⟨9⟩ "fees" 2 [⟨2⟩, ⟨2⟩] 100 _ = _ from rfl)
  exact absurd hle (by decide)

end Stellara.Governance
