import Stellara.Lib.Quorum
import Stellara.Shared.Governance

/-!
# Runs of upgrade governance

The life of a proposal is the life of a motion whose voters are its approvers: the calls on it
are actions on the motion, whatever is called on other proposals in between. So only a
proposal that its threshold of approvers approved is executed, once and after its timelock.

## Main definitions

* `trail`: the actions on a proposal that a log records
* `Tracks`: a stored proposal agrees with the actions on it
* `SameTerms`: what no call changes of a proposal
* `Governed`: what is required of a stored proposal

## Main results

* `Tracks.approve`, `Tracks.reject`, `Tracks.cancel`, `Tracks.execute`: the calls on a proposal
  are actions on its motion
* `execute_tracked`, `execute_keeps`: what a call preserves
* `upgrade_governed`: every run
-/

namespace Stellara.Governance

open Motion (Action Stage Life)

abbrev Log := List (Commit State Call Result)

/-! ## Requirements -/

/-- The terms of a proposal, which no call changes. -/
structure SameTerms (p p' : UpgradeProposal) : Prop where
  id : p'.id = p.id
  proposer : p'.proposer = p.proposer
  newContractHash : p'.newContractHash = p.newContractHash
  targetContract : p'.targetContract = p.targetContract
  description : p'.description = p.description
  approvalThreshold : p'.approvalThreshold = p.approvalThreshold
  approvers : p'.approvers = p.approvers
  createdAt : p'.createdAt = p.createdAt
  executionTime : p'.executionTime = p.executionTime

theorem SameTerms.refl (p : UpgradeProposal) : SameTerms p p :=
  ⟨rfl, rfl, rfl, rfl, rfl, rfl, rfl, rfl, rfl⟩

theorem SameTerms.trans {p p' p'' : UpgradeProposal} (h : SameTerms p p') (h' : SameTerms p' p'') :
    SameTerms p p'' where
  id := h'.id.trans h.id
  proposer := h'.proposer.trans h.proposer
  newContractHash := h'.newContractHash.trans h.newContractHash
  targetContract := h'.targetContract.trans h.targetContract
  description := h'.description.trans h.description
  approvalThreshold := h'.approvalThreshold.trans h.approvalThreshold
  approvers := h'.approvers.trans h.approvers
  createdAt := h'.createdAt.trans h.createdAt
  executionTime := h'.executionTime.trans h.executionTime

/-- The calls change the count and the status of a proposal, and whether it was executed. -/
theorem SameTerms.of_update (p : UpgradeProposal) (approvalsCount : ℕ) (status : ProposalStatus)
    (executed : Bool) :
    SameTerms p
      { p with approvalsCount := approvalsCount, status := status, executed := executed } :=
  ⟨rfl, rfl, rfl, rfl, rfl, rfl, rfl, rfl, rfl⟩

/-- The stored proposal a call is on; a new proposal is not stored yet. -/
def Call.proposalId? : Call → Option ℕ
  | .proposeUpgrade .. => none
  | .approveProposal id _ => some id
  | .executeProposal id _ => some id
  | .rejectProposal id _ => some id
  | .cancelProposal id _ => some id

/-- Between two states a call keeps the terms of every proposal, and all of every proposal that
it is not on. -/
def Keeps (call : Call) (s s' : State) : Prop :=
  ∀ id p, s.proposals.lookup id = some p → ∃ p', s'.proposals.lookup id = some p' ∧
    SameTerms p p' ∧ (call.proposalId? ≠ some id → p' = p)

/-- The number of the recorded approvals of a proposal. -/
def recordedCount (approvals : Store (ℕ × Address) Bool) (id : ℕ) : ℕ :=
  approvals.total fun k _ => if k.1 = id then 1 else 0

/-- The commits that execute a proposal. -/
def executionsOf (id : ℕ) (log : Log) : Log :=
  log.filter fun c => match c.call with
    | .executeProposal id' _ => id' = id
    | _ => false

/-- The commit proposed `p` under the given id. -/
def Proposes (c : Commit State Call Result) (id : ℕ) (p : UpgradeProposal) (timelockDelay : ℕ) :
    Prop :=
  c.call = .proposeUpgrade p.proposer p.newContractHash p.targetContract p.description
      p.approvalThreshold p.approvers timelockDelay ∧
    c.result = .proposalId id ∧ p.createdAt = c.time

/-- What is required of an executed proposal. -/
structure Executed (log : Log) (id : ℕ) (p : UpgradeProposal) : Prop where
  /-- Enough of its approvers approved it, and could when they did. -/
  approved : ∃ voters : List Address, voters.Nodup ∧ p.approvalThreshold ≤ voters.length ∧
    ∀ a ∈ voters, a ∈ p.approvers ∧
      ∃ c ∈ log, c.call = .approveProposal id a ∧ MayApprove c.before a
  not_rejected : ∀ c ∈ log, ∀ a, c.call ≠ .rejectProposal id a
  not_cancelled : ∀ c ∈ log, ∀ a, c.call ≠ .cancelProposal id a
  /-- It was executed once, after the delay it was proposed with. -/
  timelock : ∃ proposed ∈ log, ∃ timelockDelay, Proposes proposed id p timelockDelay ∧
    ∃ c, executionsOf id log = [c] ∧ p.createdAt + timelockDelay ≤ c.time

/-- What is required of a stored proposal. -/
structure Governed (s : State) (log : Log) (id : ℕ) (p : UpgradeProposal) : Prop where
  count : p.approvalsCount = recordedCount s.approvals id
  pending : p.status = .pending → p.approvalsCount < p.approvalThreshold
  approved : p.status = .approved → p.approvalThreshold ≤ p.approvalsCount
  executed : p.status = .executed → Executed log id p

/-! ## Actions on a proposal -/

/-- The action of a commit on the proposal `id`. -/
def action? (id : ℕ) (c : Commit State Call Result) : Option (Action Address) :=
  match c.call with
  | .proposeUpgrade .. => none
  | .approveProposal id' a => if id' = id then some (.approve a) else none
  | .executeProposal id' _ => if id' = id then some (.execute c.time) else none
  | .rejectProposal id' _ => if id' = id then some .reject else none
  | .cancelProposal id' _ => if id' = id then some .cancel else none

/-- The actions on the proposal `id`, in order. -/
def trail (id : ℕ) (log : Log) : List (Action Address) := log.filterMap (action? id)

theorem trail_snoc (id : ℕ) (log : Log) (c : Commit State Call Result) :
    trail id (log ++ [c]) = trail id log ++ (action? id c).toList := by
  cases h : action? id c <;> simp [trail, List.filterMap_append, h]

theorem action?_eq_none {id : ℕ} {c : Commit State Call Result}
    (h : c.call.proposalId? ≠ some id) : action? id c = none := by
  unfold action?
  cases hc : c.call <;> simp_all [Call.proposalId?]

/-- The stage of a motion with the status of a proposal. -/
def ProposalStatus.stage : ProposalStatus → Stage
  | .pending => .pending
  | .approved => .approved
  | .rejected => .rejected
  | .executed => .executed
  | .cancelled => .cancelled

/-- A proposal agrees with the actions on it. -/
structure Tracks (p : UpgradeProposal) (actions : List (Action Address)) : Prop where
  count : p.approvalsCount = (Motion.approvals actions).length
  executed : p.executed = true ↔ p.status = .executed
  life : ∃ m : Motion Address, m.voters = p.approvers ∧ m.threshold = p.approvalThreshold ∧
    m.opens = p.executionTime ∧ Life m actions p.status.stage

namespace Tracks

variable {p : UpgradeProposal} {actions : List (Action Address)}

theorem approve (h : Tracks p actions) (hstatus : p.status = .pending) {a : Address}
    (hmem : a ∈ p.approvers) (hnew : a ∉ Motion.approvals actions) :
    Tracks
      { p with
        approvalsCount := p.approvalsCount + 1
        status := if p.approvalThreshold ≤ p.approvalsCount + 1 then .approved else p.status }
      (actions ++ [.approve a]) := by
  obtain ⟨m, hvoters, hthreshold, hopens, hlife⟩ := h.life
  have hcount := h.count
  have hexecuted := h.executed
  rw [hstatus] at hlife hexecuted
  constructor
  · rw [Motion.approvals_snoc]
    simp [hcount, Action.approval?]
  · show p.executed = true ↔ _
    rw [hexecuted]
    split <;> simp [hstatus]
  · refine ⟨m, hvoters, hthreshold, hopens, ?_⟩
    show Life m _ (ProposalStatus.stage (if _ then _ else _))
    split
    · exact hlife.pass (hvoters ▸ hmem) hnew (by omega)
    · rw [hstatus]
      exact hlife.approve (hvoters ▸ hmem) hnew (by omega)

theorem reject (h : Tracks p actions) (hstatus : p.status = .pending) :
    Tracks { p with status := .rejected } (actions ++ [.reject]) := by
  obtain ⟨m, hvoters, hthreshold, hopens, hlife⟩ := h.life
  have hexecuted := h.executed
  rw [hstatus] at hlife hexecuted
  refine ⟨?_, ?_, m, hvoters, hthreshold, hopens, hlife.reject⟩
  · rw [Motion.approvals_snoc]
    simpa [Action.approval?] using h.count
  · simpa using hexecuted

theorem cancel (h : Tracks p actions) (hexecuted : p.executed = false) :
    Tracks { p with status := .cancelled } (actions ++ [.cancel]) := by
  obtain ⟨m, hvoters, hthreshold, hopens, hlife⟩ := h.life
  have hstatus : p.status ≠ .executed := fun he => by
    rw [h.executed.mpr he] at hexecuted
    cases hexecuted
  refine ⟨?_, ?_, m, hvoters, hthreshold, hopens, hlife.cancel ?_⟩
  · rw [Motion.approvals_snoc]
    simpa [Action.approval?] using h.count
  · simp [hexecuted]
  · cases hs : p.status <;> simp_all [ProposalStatus.stage]

theorem execute (h : Tracks p actions) (hstatus : p.status = .approved) {now : ℕ}
    (htime : p.executionTime ≤ now) :
    Tracks { p with executed := true, status := .executed } (actions ++ [.execute now]) := by
  obtain ⟨m, hvoters, hthreshold, hopens, hlife⟩ := h.life
  rw [hstatus] at hlife
  refine ⟨?_, by simp, m, hvoters, hthreshold, hopens, hlife.execute (hopens ▸ htime)⟩
  rw [Motion.approvals_snoc]
  simpa [Action.approval?] using h.count

end Tracks

/-! ## Recorded approvals -/

/-- The recorded approvals are those of the log. -/
structure Records (approvals : Store (ℕ × Address) Bool) (log : Log) : Prop where
  lookup_eq_none : ∀ id a, approvals.lookup (id, a) = none ↔ a ∉ Motion.approvals (trail id log)
  count : ∀ id, recordedCount approvals id = (Motion.approvals (trail id log)).length

namespace Records

variable {approvals : Store (ℕ × Address) Bool} {log : Log} {c : Commit State Call Result} {id : ℕ}
  {a : Address}

/-- The approvals of a log are extended by that of the next commit, if it is one. -/
theorem approvals_trail_snoc (id : ℕ) (log : Log) (c : Commit State Call Result) :
    Motion.approvals (trail id (log ++ [c])) =
      Motion.approvals (trail id log) ++ ((action? id c).bind Action.approval?).toList := by
  -- the commit is on another proposal, or is one action
  rw [trail_snoc]
  cases action? id c with
  | none => simp
  | some x => rw [Option.toList_some, Motion.approvals_snoc, Option.bind_some]

/-- A commit that is no approval. -/
theorem quiet (h : Records approvals log) (hc : ∀ id a, c.call ≠ .approveProposal id a) :
    Records approvals (log ++ [c]) := by
  have hnone : ∀ id, (action? id c).bind Action.approval? = none := by
    intro id
    unfold action?
    cases hcall : c.call with
    | approveProposal id' a => exact absurd hcall (hc id' a)
    | proposeUpgrade => rfl
    | executeProposal id' a => dsimp only; split <;> rfl
    | rejectProposal id' a => dsimp only; split <;> rfl
    | cancelProposal id' a => dsimp only; split <;> rfl
  constructor
  · intro id a
    rw [approvals_trail_snoc, hnone, Option.toList_none, List.append_nil]
    exact h.lookup_eq_none id a
  · intro id
    rw [approvals_trail_snoc, hnone, Option.toList_none, List.append_nil]
    exact h.count id

/-- A new approval. -/
theorem approve (h : Records approvals log) (hnew : approvals.lookup (id, a) = none)
    (hc : c.call = .approveProposal id a) :
    Records (approvals.insert (id, a) true) (log ++ [c]) := by
  have happroval : ∀ id', (action? id' c).bind Action.approval? =
      if id = id' then some a else none := by
    intro id'
    rw [action?, hc]
    dsimp only
    split <;> rfl
  constructor
  · intro id' a'
    rw [approvals_trail_snoc, happroval, Store.lookup_insert_ite, List.mem_append]
    simp only [Prod.mk.injEq]
    have hold := h.lookup_eq_none id' a'
    by_cases hid : id = id'
    · subst hid
      by_cases ha : a' = a
      · simp [ha]
      · simpa [ha] using hold
    · simpa [hid, Ne.symm hid] using hold
  · intro id'
    rw [approvals_trail_snoc, happroval, recordedCount, Store.total_insert_new hnew,
      List.length_append, ← h.count id', recordedCount, add_comm]
    by_cases hid : id = id'
    · simp [hid]
    · simp [hid]

end Records

/-! ## Runs -/

/-- What holds of the stored proposals after every call, in terms of the log. -/
structure Tracked (s : State) (log : Log) : Prop where
  id_le : ∀ id p, s.proposals.lookup id = some p → id ≤ s.proposalCounter
  unknown : ∀ id, s.proposals.lookup id = none → trail id log = []
  tracks : ∀ id p, s.proposals.lookup id = some p → Tracks p (trail id log)
  proposed : ∀ id p, s.proposals.lookup id = some p → ∃ c ∈ log, ∃ timelockDelay,
    Proposes c id p timelockDelay ∧ p.executionTime = p.createdAt + timelockDelay
  records : Records s.approvals log

namespace Tracked

variable {s s' : State} {log : Log} {c : Commit State Call Result} {id : ℕ} {p p' : UpgradeProposal}

theorem initial (roles : Store Address GovernanceRole) : Tracked (.initial roles) [] where
  id_le _ _ h := by cases h
  unknown _ _ := rfl
  tracks _ _ h := by cases h
  proposed _ _ h := by cases h
  records := ⟨fun _ _ => iff_of_true rfl List.not_mem_nil, fun _ => rfl⟩

/-- A call acts on a stored proposal. -/
theorem act (h : Tracked s log) (hread : s.proposals.lookup id = some p)
    {approvals : Store (ℕ × Address) Bool}
    (hs' : s' = ⟨s.roles, s.proposals.insert id p', approvals, s.proposalCounter⟩)
    (hterms : SameTerms p p') {x : Action Address} (hact : action? id c = some x)
    (htracks : Tracks p' (trail id log ++ [x])) (hrecords : Records approvals (log ++ [c])) :
    Tracked s' (log ++ [c]) := by
  -- the commit is on this proposal, so the trails of all others stay
  have hon : c.call.proposalId? = some id := by
    by_contra hne
    rw [action?_eq_none hne] at hact
    cases hact
  subst hs'
  have hother : ∀ id', id' ≠ id → trail id' (log ++ [c]) = trail id' log := by
    intro id' hne
    rw [trail_snoc, action?_eq_none, Option.toList_none, List.append_nil]
    rw [hon]
    exact fun heq => hne (Option.some.inj heq).symm
  refine ⟨fun id' q hq => ?_, fun id' hq => ?_, fun id' q hq => ?_, fun id' q hq => ?_, hrecords⟩
  · rcases Store.eq_or_lookup_of_insert hq with ⟨rfl, -⟩ | ⟨-, hq⟩
    · exact h.id_le _ p hread
    · exact h.id_le id' q hq
  · rw [Store.lookup_insert_ite] at hq
    split at hq
    · cases hq
    · rw [hother id' ‹_›]
      exact h.unknown id' hq
  · rcases Store.eq_or_lookup_of_insert hq with ⟨rfl, rfl⟩ | ⟨hne, hq⟩
    · rw [trail_snoc, hact]
      exact htracks
    · rw [hother id' hne]
      exact h.tracks id' q hq
  · -- the proposal has the terms that it was proposed with
    rcases Store.eq_or_lookup_of_insert hq with ⟨rfl, rfl⟩ | ⟨-, hq⟩
    · obtain ⟨c₀, hc₀, delay, ⟨hcall, hresult, htime⟩, hexec⟩ := h.proposed _ p hread
      refine ⟨c₀, List.mem_append_left _ hc₀, delay, ⟨?_, hresult, ?_⟩, ?_⟩
      · rw [hcall, hterms.proposer, hterms.newContractHash, hterms.targetContract,
          hterms.description, hterms.approvalThreshold, hterms.approvers]
      · rw [hterms.createdAt, htime]
      · rw [hterms.executionTime, hterms.createdAt, hexec]
    · obtain ⟨c₀, hc₀, hrest⟩ := h.proposed id' q hq
      exact ⟨c₀, List.mem_append_left _ hc₀, hrest⟩

/-- All stored ids are smaller than the next one. -/
theorem lookup_next (h : Tracked s log) (hid : id = s.proposalCounter + 1) :
    s.proposals.lookup id = none := by
  cases hl : s.proposals.lookup id with
  | none => rfl
  | some q =>
    have := h.id_le id q hl
    omega

/-- A new proposal is stored under the next id. -/
theorem propose (h : Tracked s log) (hid : id = s.proposalCounter + 1) {timelockDelay : ℕ}
    (hproposes : Proposes c id p timelockDelay)
    (htime : p.executionTime = p.createdAt + timelockDelay) (htracks : Tracks p []) :
    Tracked ⟨s.roles, s.proposals.insert id p, s.approvals, id⟩ (log ++ [c]) := by
  have hnew := h.lookup_next hid
  have htrail : ∀ id', trail id' (log ++ [c]) = trail id' log := by
    intro id'
    rw [trail_snoc, action?_eq_none, Option.toList_none, List.append_nil]
    rw [hproposes.1]
    simp [Call.proposalId?]
  refine ⟨fun id' q hq => ?_, fun id' hq => ?_, fun id' q hq => ?_, fun id' q hq => ?_,
    h.records.quiet fun id' a => by rw [hproposes.1]; simp⟩
  · rcases Store.eq_or_lookup_of_insert hq with ⟨rfl, -⟩ | ⟨-, hq⟩
    · exact le_rfl
    · have := h.id_le id' q hq
      show id' ≤ id
      omega
  · rw [Store.lookup_insert_ite] at hq
    split at hq
    · cases hq
    · rw [htrail]
      exact h.unknown id' hq
  · rw [htrail]
    rcases Store.eq_or_lookup_of_insert hq with ⟨rfl, rfl⟩ | ⟨-, hq⟩
    · rw [h.unknown _ hnew]
      exact htracks
    · exact h.tracks id' q hq
  · rcases Store.eq_or_lookup_of_insert hq with ⟨rfl, rfl⟩ | ⟨-, hq⟩
    · exact ⟨c, by simp, timelockDelay, hproposes, htime⟩
    · obtain ⟨c₀, hc₀, hrest⟩ := h.proposed id' q hq
      exact ⟨c₀, List.mem_append_left _ hc₀, hrest⟩

end Tracked

section Step

variable {now : ℕ} {s s' : State} {log : Log} {call : Call} {r : Result}

/-- Every call is an action on its proposal, or a new proposal. -/
theorem execute_tracked (h : Tracked s log) (he : execute now s call = .ok (r, s')) :
    Tracked s' (log ++ [⟨now, call, r, s, s'⟩]) := by
  cases call with
  | proposeUpgrade proposer hash target description threshold approvers delay =>
    simp only [execute, Except.map_eq_ok] at he
    obtain ⟨⟨id, s₁⟩, h₁, he⟩ := he
    obtain ⟨rfl, rfl⟩ := Prod.mk.inj he
    obtain ⟨hpos, hid, rfl⟩ := proposeUpgrade_eq_ok h₁
    exact h.propose hid ⟨rfl, rfl, rfl⟩ rfl
      ⟨rfl, by simp, ⟨approvers, threshold, now + delay, hpos⟩, rfl, rfl, rfl, .start⟩
  | approveProposal id a =>
    simp only [execute, Except.map_eq_ok] at he
    obtain ⟨s₁, h₁, he⟩ := he
    obtain ⟨rfl, rfl⟩ := Prod.mk.inj he
    obtain ⟨-, p, hread, hstatus, hmem, hnew, hs⟩ := approveProposal_eq_ok h₁
    have hact : action? id ⟨now, .approveProposal id a, .unit, s, s₁⟩ = some (.approve a) :=
      if_pos rfl
    exact h.act hread hs (.of_update p _ _ _) hact ((h.tracks id p hread).approve hstatus hmem
      ((h.records.lookup_eq_none id a).mp hnew)) (h.records.approve hnew rfl)
  | executeProposal id a =>
    simp only [execute, Except.map_eq_ok] at he
    obtain ⟨s₁, h₁, he⟩ := he
    obtain ⟨rfl, rfl⟩ := Prod.mk.inj he
    obtain ⟨p, hread, hstatus, htime, hs⟩ := executeProposal_eq_ok h₁
    have hact : action? id ⟨now, .executeProposal id a, .unit, s, s₁⟩ = some (.execute now) :=
      if_pos rfl
    exact h.act hread hs (.of_update p _ _ _) hact ((h.tracks id p hread).execute hstatus htime)
      (h.records.quiet (by simp))
  | rejectProposal id a =>
    simp only [execute, Except.map_eq_ok] at he
    obtain ⟨s₁, h₁, he⟩ := he
    obtain ⟨rfl, rfl⟩ := Prod.mk.inj he
    obtain ⟨p, hread, hstatus, hs⟩ := rejectProposal_eq_ok h₁
    have hact : action? id ⟨now, .rejectProposal id a, .unit, s, s₁⟩ = some .reject := if_pos rfl
    exact h.act hread hs (.of_update p _ _ _) hact ((h.tracks id p hread).reject hstatus)
      (h.records.quiet (by simp))
  | cancelProposal id a =>
    simp only [execute, Except.map_eq_ok] at he
    obtain ⟨s₁, h₁, he⟩ := he
    obtain ⟨rfl, rfl⟩ := Prod.mk.inj he
    obtain ⟨p, hread, hexecuted, hs⟩ := cancelProposal_eq_ok h₁
    have hact : action? id ⟨now, .cancelProposal id a, .unit, s, s₁⟩ = some .cancel := if_pos rfl
    exact h.act hread hs (.of_update p _ _ _) hact ((h.tracks id p hread).cancel hexecuted)
      (h.records.quiet (by simp))

/-- Storing a proposal with the same terms keeps all others. -/
theorem keeps_insert {id : ℕ} {p p' : UpgradeProposal} (hread : s.proposals.lookup id = some p)
    (hterms : SameTerms p p') (hon : call.proposalId? = some id)
    (hs' : s'.proposals = s.proposals.insert id p') : Keeps call s s' := by
  intro id' q hq
  rw [hs', Store.lookup_insert_ite, hon]
  -- the proposal of the call, or another one
  by_cases hid : id' = id
  · subst hid
    obtain rfl := Option.some.inj (hread.symm.trans hq)
    exact ⟨p', if_pos rfl, hterms, fun hne => absurd rfl hne⟩
  · exact ⟨q, by rw [if_neg hid, hq], .refl q, fun _ => rfl⟩

/-- A call changes no terms, and no proposal that it is not on. -/
theorem execute_keeps (h : Tracked s log) (he : execute now s call = .ok (r, s')) :
    Keeps call s s' := by
  cases call with
  | proposeUpgrade proposer hash target description threshold approvers delay =>
    simp only [execute, Except.map_eq_ok] at he
    obtain ⟨⟨id, s₁⟩, h₁, he⟩ := he
    obtain ⟨rfl, rfl⟩ := Prod.mk.inj he
    obtain ⟨-, hid, rfl⟩ := proposeUpgrade_eq_ok h₁
    intro id' q hq
    have hne : id' ≠ id := by
      have := h.id_le id' q hq
      omega
    exact ⟨q, by rw [Store.lookup_insert_ite, if_neg hne, hq], .refl q, fun _ => rfl⟩
  | approveProposal id a =>
    simp only [execute, Except.map_eq_ok] at he
    obtain ⟨s₁, h₁, he⟩ := he
    obtain ⟨-, rfl⟩ := Prod.mk.inj he
    obtain ⟨-, p, hread, -, -, -, rfl⟩ := approveProposal_eq_ok h₁
    exact keeps_insert hread (.of_update p _ _ _) rfl rfl
  | executeProposal id a =>
    simp only [execute, Except.map_eq_ok] at he
    obtain ⟨s₁, h₁, he⟩ := he
    obtain ⟨-, rfl⟩ := Prod.mk.inj he
    obtain ⟨p, hread, -, -, rfl⟩ := executeProposal_eq_ok h₁
    exact keeps_insert hread (.of_update p _ _ _) rfl rfl
  | rejectProposal id a =>
    simp only [execute, Except.map_eq_ok] at he
    obtain ⟨s₁, h₁, he⟩ := he
    obtain ⟨-, rfl⟩ := Prod.mk.inj he
    obtain ⟨p, hread, -, rfl⟩ := rejectProposal_eq_ok h₁
    exact keeps_insert hread (.of_update p _ _ _) rfl rfl
  | cancelProposal id a =>
    simp only [execute, Except.map_eq_ok] at he
    obtain ⟨s₁, h₁, he⟩ := he
    obtain ⟨-, rfl⟩ := Prod.mk.inj he
    obtain ⟨p, hread, -, rfl⟩ := cancelProposal_eq_ok h₁
    exact keeps_insert hread (.of_update p _ _ _) rfl rfl

end Step

section Run

variable {t : ℕ} {roles : Store Address GovernanceRole} {w : World State} {log : Log} {id : ℕ}
  {p : UpgradeProposal}

theorem run_tracked (h : contract.Run ⟨t, .initial roles⟩ w log) : Tracked w.store log :=
  h.invariant_log (I := fun _ s log => Tracked s log) (.initial roles) (fun _ _ _ _ _ hs => hs)
    (fun _ _ _ _ _ _ hs he => execute_tracked hs he)

/-- Every committed call keeps the terms of all proposals, and all other proposals. -/
theorem run_keeps (h : contract.Run ⟨t, .initial roles⟩ w log) :
    ∀ c ∈ log, Keeps c.call c.before c.after :=
  (h.invariant_and_mem (I := fun _ s log => Tracked s log)
    (P := fun c => Keeps c.call c.before c.after) (.initial roles) (fun _ _ _ _ _ hs => hs)
    fun _ _ _ _ _ _ hs he => ⟨execute_tracked hs he, execute_keeps hs he⟩).2

/-- The executions of a log are those of its trail. -/
theorem map_time_executionsOf (id : ℕ) (log : Log) :
    (executionsOf id log).map Commit.time = Motion.executions (trail id log) := by
  induction log with
  | nil => rfl
  | cons c log ih =>
    obtain ⟨time, call, r, s, s'⟩ := c
    unfold executionsOf trail Motion.executions at ih ⊢
    cases call with
    | proposeUpgrade => simpa [action?, List.filterMap_cons] using ih
    | approveProposal id' a | executeProposal id' a | rejectProposal id' a | cancelProposal id' a =>
      by_cases hid : id' = id
      · simpa [action?, hid, Action.execution?, List.filterMap_cons] using ih
      · simpa [action?, hid, List.filterMap_cons] using ih

/-- A recorded action was executed. -/
theorem mem_trail {x : Action Address} (hx : x ∈ trail id log) :
    ∃ c ∈ log, action? id c = some x := List.mem_filterMap.mp hx

theorem mem_trail_of_mem {c : Commit State Call Result} {x : Action Address} (hc : c ∈ log)
    (hx : action? id c = some x) : x ∈ trail id log := List.mem_filterMap.mpr ⟨c, hc, hx⟩

/-- Only an approval is recorded as one. -/
theorem call_of_approve {c : Commit State Call Result} {a : Address}
    (h : action? id c = some (.approve a)) : c.call = .approveProposal id a := by
  unfold action? at h
  cases hc : c.call <;> simp_all

theorem executed_of_run (h : contract.Run ⟨t, .initial roles⟩ w log)
    (hread : w.store.proposals.lookup id = some p) (hstatus : p.status = .executed) :
    Executed log id p := by
  have ht := run_tracked h
  obtain ⟨m, hvoters, hthreshold, hopens, hlife⟩ := (ht.tracks id p hread).life
  rw [hstatus] at hlife
  -- the proposal was executed, so nothing stopped it before
  obtain ⟨hreject, hcancel⟩ := hlife.not_stopped (by decide) (by decide)
  refine ⟨⟨Motion.approvals (trail id log), hlife.approvals_sound.1,
    hthreshold ▸ hlife.le_approvals (.inr rfl), fun a ha => ?_⟩, fun c hc a hcall => ?_,
    fun c hc a hcall => ?_, ?_⟩
  · obtain ⟨c, hc, hact⟩ := mem_trail (Motion.mem_approvals.mp ha)
    have hcall := call_of_approve hact
    have hexec := h.exec_of_mem c hc
    rw [hcall] at hexec
    simp only [contract, execute, Except.map_eq_ok] at hexec
    obtain ⟨s', happrove, -⟩ := hexec
    exact ⟨hvoters ▸ hlife.approvals_sound.2 a ha, c, hc, hcall, (approveProposal_eq_ok happrove).1⟩
  · exact hreject (mem_trail_of_mem hc (by rw [action?, hcall]; exact if_pos rfl))
  · exact hcancel (mem_trail_of_mem hc (by rw [action?, hcall]; exact if_pos rfl))
  · obtain ⟨c₀, hc₀, delay, hproposes, htime⟩ := ht.proposed id p hread
    -- a motion takes effect once
    have hlength : (executionsOf id log).length = 1 := by
      have hone := hlife.length_executions
      rw [← map_time_executionsOf, List.length_map] at hone
      exact hone
    obtain ⟨c, hc⟩ := List.length_eq_one_iff.mp hlength
    refine ⟨c₀, hc₀, delay, hproposes, c, hc, ?_⟩
    rw [← htime, ← hopens]
    -- the only execution is in the trail, at its time
    refine hlife.opens_le_of_mem (Motion.mem_executions.mp ?_)
    rw [← map_time_executionsOf, hc]
    exact List.mem_singleton_self _

/-- In every run an executed proposal was approved by its threshold of approvers, neither
rejected nor cancelled, and executed once after its timelock; the count of a proposal is that
of its recorded approvals and decides its status; and no call changes another proposal or any
terms. -/
theorem upgrade_governed (h : contract.Run ⟨t, .initial roles⟩ w log) :
    (∀ id p, w.store.proposals.lookup id = some p → Governed w.store log id p) ∧
      ∀ c ∈ log, Keeps c.call c.before c.after := by
  refine ⟨fun id p hread => ?_, run_keeps h⟩
  have ht := run_tracked h
  have htracks := ht.tracks id p hread
  -- the proposal lives as a motion with the same threshold
  obtain ⟨m, -, hthreshold, -, hlife⟩ := htracks.life
  refine ⟨?_, fun hstatus => ?_, fun hstatus => ?_, executed_of_run h hread⟩
  · rw [htracks.count, ht.records.count]
  · rw [hstatus] at hlife
    rw [htracks.count, ← hthreshold]
    exact hlife.approvals_lt_of_pending
  · rw [hstatus] at hlife
    rw [htracks.count, ← hthreshold]
    exact hlife.le_approvals (.inl rfl)

end Run

/-- An administrator, two approvers and an executor. -/
def sampleRoles : Store Address GovernanceRole :=
  (((AList.insert ⟨4⟩ .executor ∅).insert ⟨3⟩ .approver).insert ⟨2⟩ .approver).insert ⟨1⟩ .admin

/-- A proposal that both approvers approve, and that is executed 100 seconds later; a second
one that is rejected. -/
def sampleCalls : List (ℕ × Call) :=
  [(10, .proposeUpgrade ⟨1⟩ "v2" ⟨9⟩ "fees" 2 [⟨2⟩, ⟨3⟩] 100),
    (20, .approveProposal 1 ⟨2⟩), (25, .proposeUpgrade ⟨1⟩ "v3" ⟨9⟩ "more" 1 [⟨3⟩] 0),
    (30, .rejectProposal 2 ⟨3⟩), (40, .approveProposal 1 ⟨3⟩), (50, .executeProposal 1 ⟨4⟩),
    (110, .executeProposal 1 ⟨4⟩)]

theorem upgrade_governed_sample :
    ∃ p, (contract.play ⟨0, .initial sampleRoles⟩ sampleCalls).1.store.proposals.lookup 1 = some p ∧
      Executed (contract.play ⟨0, .initial sampleRoles⟩ sampleCalls).2 1 p := by
  have hrun := Contract.run_play contract ⟨0, .initial sampleRoles⟩ sampleCalls (by decide)
  have hread : (contract.play ⟨0, .initial sampleRoles⟩ sampleCalls).1.store.proposals.lookup 1 =
      some ⟨1, ⟨1⟩, "v2", ⟨9⟩, "fees", 2, [⟨2⟩, ⟨3⟩], 2, .executed, 10, 110, true⟩ := by decide
  exact ⟨_, hread, ((upgrade_governed hrun).1 1 _ hread).executed rfl⟩

end Stellara.Governance
