import Stellara.Insurance.Accounting

/-!
# The life of an insurance policy

A policy is active until it is cancelled by its holder, expired by anybody after its end, or paid
when its trigger is met in time. Each of these writes the policy back with another status, and to
the index of its holder; nothing changes the policy after that.

## Main definitions

* `payouts`: the payouts that the events record
* `PaidBy`: a commit that pays the coverage of a policy
* `Effect`: what a call does to the policies
* `Lifecycle`: what is required of a run

## Main results

* `execute_effect`: every call has one of four effects
* `Kept.commit`, `Kept.onlyRetires`: what these preserve
* `policy_lifecycle`: every run
-/

namespace Stellara.Insurance

variable {τ : Type}

/-! ## Payouts -/

/-- A payout as it is published. -/
structure Payout where
  policyId : ℕ
  policyholder : Address
  coverageAmount : ℤ
  time : ℕ
deriving DecidableEq, Repr

/-- The payout that an event records. -/
def Event.payout? : Event → Option Payout
  | .clmPaid policyId policyholder coverageAmount now =>
    some ⟨policyId, policyholder, coverageAmount, now⟩
  | _ => none

/-- The payouts that the events record, in order. -/
def payouts (events : List Event) : List Payout := events.filterMap Event.payout?

/-- The payouts for one policy. -/
def payoutsOf (events : List Event) (policyId : ℕ) : List Payout :=
  (payouts events).filter (·.policyId = policyId)

theorem payouts_append (events : List Event) (event : Event) :
    payouts (events ++ [event]) = payouts events ++ event.payout?.toList := by
  cases h : event.payout? <;> simp [payouts, h]

/-- Publishing anything else than a payout. -/
theorem payouts_publish (s : State τ) {event : Event} (h : event.payout? = none) :
    payouts (publish s event).events = payouts s.events := by
  simp [publish, payouts_append, h]

/-! ## The index of a holder -/

/-- The policies that the index lists for a holder. -/
def idsOf (index : Store Address (List ℕ)) (holder : Address) : List ℕ :=
  (index.lookup holder).getD []

theorem idsOf_add (index : Store Address (List ℕ)) (holder holder' : Address) (policyId : ℕ) :
    idsOf (addPolicyToHolderIndex index holder policyId) holder' =
      if holder' = holder ∧ policyId ∉ idsOf index holder then idsOf index holder ++ [policyId]
      else idsOf index holder' := by
  unfold addPolicyToHolderIndex idsOf
  by_cases hmem : policyId ∈ (index.lookup holder).getD []
  · simp [hmem]
  · simp only [hmem, if_false, not_false_eq_true, and_true, Store.lookup_insert_ite]
    split <;> rfl

/-- The index lists the policies of every holder, each of them once. -/
def Indexed (policies : Store ℕ InsurancePolicy) (index : Store Address (List ℕ)) : Prop :=
  ∀ holder, (idsOf index holder).Nodup ∧ ∀ id, id ∈ idsOf index holder ↔
    ∃ policy, policies.lookup id = some policy ∧ policy.policyholder = holder

/-- A policy is written, and indexed again. -/
theorem Indexed.insert {policies : Store ℕ InsurancePolicy} {index : Store Address (List ℕ)}
    (h : Indexed policies index) (policy : InsurancePolicy)
    (hholder : ∀ old, policies.lookup policy.id = some old →
      old.policyholder = policy.policyholder) :
    Indexed (policies.insert policy.id policy)
      (addPolicyToHolderIndex index policy.policyholder policy.id) := by
  intro holder
  obtain ⟨hnodup, hmem⟩ := h holder
  rw [idsOf_add]
  constructor
  · split
    · rename_i hnew
      rw [hnew.1] at hnodup
      rw [← List.concat_eq_append, List.nodup_concat]
      exact ⟨hnew.2, hnodup⟩
    · exact hnodup
  · intro id
    simp only [Store.lookup_insert_ite]
    by_cases hid : id = policy.id
    · -- the written policy is listed for its holder, and was listed for no other
      subst hid
      simp only [if_true, Option.some.injEq, exists_eq_left']
      split
      · rename_i hnew
        simp [hnew.1]
      · rename_i hold
        rw [hmem]
        constructor
        · rintro ⟨old, hread, rfl⟩
          exact (hholder old hread).symm
        · rintro rfl
          obtain ⟨old, hread, heq⟩ := ((h policy.policyholder).2 policy.id).mp (by simpa using hold)
          exact ⟨old, hread, heq⟩
    · simp only [if_neg hid]
      rw [← hmem]
      split
      · rename_i hnew
        rw [hnew.1]
        simp [hid]
      · exact Iff.rfl

/-! ## What a call does to the policies -/

/-- A commit pays the coverage of the policy that is stored under `id`: a trigger is checked in
time, and the oracle's median meets the condition of the policy. -/
structure PaidBy [TokenClient τ Address Address] (c : Commit (State τ) Call Result) (id : ℕ)
    (policy : InsurancePolicy) : Prop where
  stored : c.before.policies.lookup id = some policy
  active : policy.status = .active
  in_time : c.time ≤ policy.endTime
  triggered : ∃ oracle config value, c.call = .checkTrigger id oracle ∧
    c.before.oracleConfig = some config ∧
    oracle config.sources policy.oracleFeed config.maxStaleness config.minSources = some value ∧
    policy.triggerCondition.triggered value policy.triggerThreshold = true
  transferred : ∃ poolToken, c.before.poolToken = some poolToken ∧
    TokenClient.transfer c.before.tokens poolToken c.before.contractAddress policy.policyholder
      policy.coverageAmount = some c.after.tokens

/-- A commit writes an active policy back with another status. -/
structure Retires (c : Commit (State τ) Call Result) (id : ℕ) (policy : InsurancePolicy)
    (status : PolicyStatus) : Prop where
  stored : c.before.policies.lookup id = some policy
  active : policy.status = .active
  inactive : status ≠ .active
  policies : c.after.policies = c.before.policies.insert policy.id { policy with status := status }
  index : c.after.policyIdsByHolder =
    addPolicyToHolderIndex c.before.policyIdsByHolder policy.policyholder policy.id
  counter : c.after.policyCounter = c.before.policyCounter

theorem Retires.policies_eq {c : Commit (State τ) Call Result} {id : ℕ} {policy : InsurancePolicy}
    {status : PolicyStatus} (h : Retires c id policy status) (hid : policy.id = id) :
    c.after.policies = c.before.policies.insert id { policy with status := status } :=
  h.policies.trans (by rw [hid])

/-- The id of the policy that a commit creates. -/
def issued? (c : Commit (State τ) Call Result) : Option ℕ :=
  match c.result with
  | .policyId id => some id
  | _ => none

/-- A commit pays nothing, and the payouts of the pool start with its initialization. -/
structure NoPayout (c : Commit (State τ) Call Result) : Prop where
  events : payouts c.after.events = payouts c.before.events
  total : c.after.pool.totalPayouts = c.before.pool.totalPayouts ∨
    c.before.initialized = false ∧ c.after.pool.totalPayouts = 0
  initialized : c.before.initialized = true → c.after.initialized = true

/-- What a commit does to the policies. -/
inductive Effect [TokenClient τ Address Address] (c : Commit (State τ) Call Result) : Prop
  /-- Nothing. -/
  | quiet (policies : c.after.policies = c.before.policies)
      (index : c.after.policyIdsByHolder = c.before.policyIdsByHolder)
      (counter : c.after.policyCounter = c.before.policyCounter) (issued : issued? c = none)
      (unpaid : NoPayout c)
  /-- It creates an active policy under the next id. -/
  | issue (policy : InsurancePolicy) (id_eq : policy.id = c.before.policyCounter + 1)
      (active : policy.status = .active)
      (policies : c.after.policies = c.before.policies.insert policy.id policy)
      (index : c.after.policyIdsByHolder =
        addPolicyToHolderIndex c.before.policyIdsByHolder policy.policyholder policy.id)
      (counter : c.after.policyCounter = policy.id) (issued : issued? c = some policy.id)
      (unpaid : NoPayout c)
  /-- It cancels or expires an active policy. -/
  | leave (id : ℕ) (policy : InsurancePolicy) (status : PolicyStatus)
      (retires : Retires c id policy status) (issued : issued? c = none) (unpaid : NoPayout c)
  /-- It pays an active policy. -/
  | pay (id : ℕ) (policy : InsurancePolicy) (retires : Retires c id policy .claimed)
      (issued : issued? c = none) (paid : PaidBy c id policy)
      (events : payouts c.after.events = payouts c.before.events ++
        [⟨id, policy.policyholder, policy.coverageAmount, c.time⟩])
      (total : c.after.pool.totalPayouts = c.before.pool.totalPayouts + policy.coverageAmount)
      (initialized : c.before.initialized = true ∧ c.after.initialized = true)

section Effects

variable [TokenClient τ Address Address] {now : ℕ} {s s' : State τ}

/-- A call that changes neither the policies nor the payouts, and that is not the initialization. -/
theorem effect_quiet {call : Call} {r : Result} (hpolicies : s'.policies = s.policies)
    (hindex : s'.policyIdsByHolder = s.policyIdsByHolder)
    (hcounter : s'.policyCounter = s.policyCounter)
    (hissued : issued? (⟨now, call, r, s, s'⟩ : Commit (State τ) Call Result) = none)
    (hevents : payouts s'.events = payouts s.events)
    (htotal : s'.pool.totalPayouts = s.pool.totalPayouts) (hinit : s'.initialized = s.initialized) :
    Effect (⟨now, call, r, s, s'⟩ : Commit (State τ) Call Result) :=
  .quiet hpolicies hindex hcounter hissued ⟨hevents, .inl htotal, fun h => hinit.trans h⟩

theorem createPolicy_effect {policyholder : Address} {terms : PolicyTerms} {policyId : ℕ}
    (h : createPolicy now policyholder terms s = .ok (policyId, s')) :
    Effect (⟨now, .createPolicy policyholder terms, .policyId policyId, s, s'⟩ :
      Commit (State τ) Call Result) := by
  simp only [createPolicy, requireNotPaused, requireInitialized, Except.bind_eq_ok,
    require_eq_ok, exists_const, orAbort_eq_ok, tokenTransfer_eq_ok, IntFormat.checked_eq_ok,
    IntFormat.checkedNat_eq_ok] at h
  obtain ⟨-, -, -, -, -, poolToken, -, tokens, -, _, ⟨-, rfl⟩, _, ⟨-, rfl⟩, _, ⟨-, rfl⟩, _,
    ⟨-, rfl⟩, _, ⟨-, rfl⟩, _, ⟨-, rfl⟩, _, ⟨-, rfl⟩, h⟩ := h
  obtain ⟨rfl, rfl⟩ := Prod.mk.inj (Except.ok.inj h)
  exact .issue _ rfl rfl rfl rfl rfl rfl ⟨payouts_publish _ rfl, .inl rfl, id⟩

theorem cancelPolicy_effect {policyholder : Address} {policyId : ℕ}
    (h : cancelPolicy now policyholder policyId s = .ok s') :
    Effect (⟨now, .cancelPolicy policyholder policyId, .unit, s, s'⟩ :
      Commit (State τ) Call Result) := by
  simp only [cancelPolicy, requireNotPaused, Except.bind_eq_ok, require_eq_ok, exists_const,
    orAbort_eq_ok, requireCancellable_eq_ok] at h
  obtain ⟨-, policy, hread, -, hactive, h⟩ := h
  obtain rfl := Except.ok.inj h
  exact .leave policyId policy .cancelled ⟨hread, hactive, by decide, rfl, rfl, rfl⟩ rfl
    ⟨payouts_publish _ rfl, .inl rfl, id⟩

theorem expirePolicy_effect {policyId : ℕ} (h : expirePolicy now policyId s = .ok s') :
    Effect (⟨now, .expirePolicy policyId, .unit, s, s'⟩ : Commit (State τ) Call Result) := by
  simp only [expirePolicy, requireInitialized, Except.bind_eq_ok, require_eq_ok, exists_const,
    orAbort_eq_ok] at h
  obtain ⟨-, policy, hread, hactive, -, h⟩ := h
  obtain rfl := Except.ok.inj h
  exact .leave policyId policy .expired ⟨hread, hactive, by decide, rfl, rfl, rfl⟩ rfl
    ⟨payouts_publish _ rfl, .inl rfl, id⟩

theorem checkTrigger_effect {policyId : ℕ} {oracle : Oracle} {b : Bool}
    (h : checkTrigger now policyId oracle s = .ok (b, s')) :
    Effect (⟨now, .checkTrigger policyId oracle, .triggered b, s, s'⟩ :
      Commit (State τ) Call Result) := by
  simp only [checkTrigger, requireInitialized, Except.bind_eq_ok, require_eq_ok, exists_const,
    orAbort_eq_ok] at h
  obtain ⟨hinit, policy, hread, hactive, htime, config, hconfig, value, hvalue, h⟩ := h
  split at h
  · rename_i htriggered
    simp only [payOut, Except.bind_eq_ok, orAbort_eq_ok, tokenTransfer_eq_ok,
      IntFormat.checked_eq_ok] at h
    obtain ⟨_, ⟨poolToken, hpool, tokens, htokens, _, ⟨-, rfl⟩, h₁⟩, h⟩ := h
    obtain rfl := Except.ok.inj h₁
    obtain ⟨rfl, rfl⟩ := Prod.mk.inj (Except.ok.inj h)
    refine .pay policyId policy ⟨hread, hactive, by decide, rfl, rfl, rfl⟩ rfl
      ⟨hread, hactive, htime, ⟨oracle, config, value, rfl, hconfig, hvalue, htriggered⟩, poolToken,
        hpool, htokens⟩ ?_ rfl ⟨hinit, hinit⟩
    exact (payouts_append _ _).trans (congrArg (· ++ _) (payouts_publish _ rfl))
  · obtain ⟨rfl, rfl⟩ := Prod.mk.inj (Except.ok.inj h)
    exact effect_quiet rfl rfl rfl rfl (payouts_publish _ rfl) rfl rfl

/-- What every call does to the policies. -/
theorem execute_effect {call : Call} {r : Result} (he : execute now s call = .ok (r, s')) :
    Effect (⟨now, call, r, s, s'⟩ : Commit (State τ) Call Result) := by
  cases call with
  | init admin poolToken oracleSources maxStaleness minOracleSources =>
    simp only [execute, init, Except.map_eq_ok, Except.bind_eq_ok, require_eq_ok, exists_const] at he
    obtain ⟨s₁, ⟨hinit, h₁⟩, he⟩ := he
    obtain rfl := Except.ok.inj h₁
    obtain ⟨rfl, rfl⟩ := Prod.mk.inj he
    exact .quiet rfl rfl rfl rfl ⟨payouts_publish _ rfl, .inr ⟨hinit, rfl⟩, fun _ => rfl⟩
  | updateOracleConfig admin oracleSources maxStaleness minOracleSources =>
    simp only [execute, updateOracleConfig, Except.map_eq_ok, Except.bind_eq_ok] at he
    obtain ⟨s₁, ⟨_, -, h₁⟩, he⟩ := he
    obtain rfl := Except.ok.inj h₁
    obtain ⟨rfl, rfl⟩ := Prod.mk.inj he
    exact effect_quiet rfl rfl rfl rfl rfl rfl rfl
  | pause admin =>
    simp only [execute, pause, Except.map_eq_ok, Except.bind_eq_ok] at he
    obtain ⟨s₁, ⟨_, -, h₁⟩, he⟩ := he
    obtain rfl := Except.ok.inj h₁
    obtain ⟨rfl, rfl⟩ := Prod.mk.inj he
    exact effect_quiet rfl rfl rfl rfl (payouts_publish _ rfl) rfl rfl
  | unpause admin =>
    simp only [execute, unpause, Except.map_eq_ok, Except.bind_eq_ok] at he
    obtain ⟨s₁, ⟨_, -, h₁⟩, he⟩ := he
    obtain rfl := Except.ok.inj h₁
    obtain ⟨rfl, rfl⟩ := Prod.mk.inj he
    exact effect_quiet rfl rfl rfl rfl (payouts_publish _ rfl) rfl rfl
  | depositLiquidity provider amount =>
    obtain ⟨s₁, h₁, rfl, rfl⟩ := Except.map_pair_eq_ok.mp he
    obtain ⟨-, poolToken, tokens, -, -, rfl⟩ := depositLiquidity_eq_ok h₁
    exact effect_quiet rfl rfl rfl rfl (payouts_publish _ rfl) rfl rfl
  | withdrawLiquidity provider amount =>
    obtain ⟨s₁, h₁, rfl, rfl⟩ := Except.map_pair_eq_ok.mp he
    obtain ⟨-, poolToken, tokens, -, -, rfl⟩ := withdrawLiquidity_eq_ok h₁
    exact effect_quiet rfl rfl rfl rfl (payouts_publish _ rfl) rfl rfl
  | createPolicy policyholder terms =>
    obtain ⟨⟨policyId, s₁⟩, h₁, rfl, rfl⟩ := Except.map_pair_eq_ok.mp he
    exact createPolicy_effect h₁
  | cancelPolicy policyholder policyId =>
    obtain ⟨s₁, h₁, rfl, rfl⟩ := Except.map_pair_eq_ok.mp he
    exact cancelPolicy_effect h₁
  | checkTrigger policyId oracle =>
    obtain ⟨⟨b, s₁⟩, h₁, rfl, rfl⟩ := Except.map_pair_eq_ok.mp he
    exact checkTrigger_effect h₁
  | expirePolicy policyId =>
    obtain ⟨s₁, h₁, rfl, rfl⟩ := Except.map_pair_eq_ok.mp he
    exact expirePolicy_effect h₁
  | transfer token src dst amount =>
    simp only [execute, transfer, Except.map_eq_ok, Except.bind_eq_ok] at he
    obtain ⟨s₁, ⟨tokens, -, h₁⟩, he⟩ := he
    obtain rfl := Except.ok.inj h₁
    obtain ⟨rfl, rfl⟩ := Prod.mk.inj he
    exact effect_quiet rfl rfl rfl rfl rfl rfl rfl

end Effects

/-! ## Runs -/

/-- A commit changes a stored policy at most by giving an active one another status. -/
def OnlyRetires (c : Commit (State τ) Call Result) : Prop :=
  ∀ id policy, c.before.policies.lookup id = some policy →
    ∃ policy', c.after.policies.lookup id = some policy' ∧ (policy' = policy ∨
      policy.status = .active ∧ ∃ status, status ≠ .active ∧
        policy' = { policy with status := status })

/-- What is stored for a policy that is not active is stored in the second state as well. -/
def KeepsSettled (s s' : State τ) : Prop :=
  ∀ id policy, s.policies.lookup id = some policy → policy.status ≠ .active →
    s'.policies.lookup id = some policy

/-- What is required of the state that a run reaches with the commits `log`. -/
structure Lifecycle [TokenClient τ Address Address] (s : State τ)
    (log : List (Commit (State τ) Call Result)) : Prop where
  /-- The ids of the created policies are 1, 2, …, in the order of their creation. -/
  ids : log.filterMap issued? = List.range' 1 s.policyCounter
  stored : ∀ id, (s.policies.lookup id).isSome ↔ 1 ≤ id ∧ id ≤ s.policyCounter
  indexed : Indexed s.policies s.policyIdsByHolder
  /-- Every policy is paid at most once. -/
  once : ∀ id, (payoutsOf s.events id).length ≤ 1
  /-- Every payout is of the coverage of a policy, to its holder, by a commit that may pay it. -/
  paid : ∀ p ∈ payouts s.events, ∃ c ∈ log, ∃ policy, PaidBy c p.policyId policy ∧
    p = ⟨p.policyId, policy.policyholder, policy.coverageAmount, c.time⟩
  /-- The payouts of the pool are these payouts. -/
  total : s.pool.totalPayouts = ((payouts s.events).map Payout.coverageAmount).sum

/-- What holds of the stored policies after every call. -/
structure Kept [TokenClient τ Address Address] (s : State τ)
    (log : List (Commit (State τ) Call Result)) : Prop where
  lifecycle : Lifecycle s log
  id_eq : ∀ id policy, s.policies.lookup id = some policy → policy.id = id
  unpaid : ∀ id, (∀ policy, s.policies.lookup id = some policy → policy.status = .active) →
    payoutsOf s.events id = []
  fresh : s.initialized = false → payouts s.events = []

section Preservation

variable [TokenClient τ Address Address] {c : Commit (State τ) Call Result}
  {log : List (Commit (State τ) Call Result)}

/-- A commit that pays nothing keeps what is required of the payouts. -/
theorem Kept.nothing_paid (h : Kept c.before log) (hc : NoPayout c) :
    (∀ id, payoutsOf c.after.events id = payoutsOf c.before.events id) ∧
      (∀ p ∈ payouts c.after.events, ∃ c' ∈ log ++ [c], ∃ policy, PaidBy c' p.policyId policy ∧
        p = ⟨p.policyId, policy.policyholder, policy.coverageAmount, c'.time⟩) ∧
      c.after.pool.totalPayouts = ((payouts c.after.events).map Payout.coverageAmount).sum ∧
      (c.after.initialized = false → payouts c.after.events = []) := by
  rw [hc.events]
  refine ⟨fun id => by rw [payoutsOf, payoutsOf, hc.events], fun p hp => ?_, ?_, fun hfalse => ?_⟩
  · obtain ⟨c', hc', hpaid⟩ := h.lifecycle.paid p hp
    exact ⟨c', List.mem_append_left _ hc', hpaid⟩
  · rcases hc.total with htotal | ⟨hinit, htotal⟩
    · exact htotal.trans h.lifecycle.total
    · -- the initialization comes before the first payout
      rw [htotal, h.fresh hinit]
      rfl
  · refine h.fresh ?_
    cases hinit : c.before.initialized with
    | false => rfl
    | true => rw [hc.initialized hinit] at hfalse; cases hfalse

/-- A commit that pays an active policy adds its payout to those before it. -/
theorem Kept.one_paid (h : Kept c.before log) {id : ℕ} {policy : InsurancePolicy}
    (hpaid : PaidBy c id policy)
    (hevents : payouts c.after.events = payouts c.before.events ++
      [⟨id, policy.policyholder, policy.coverageAmount, c.time⟩])
    (htotal : c.after.pool.totalPayouts = c.before.pool.totalPayouts + policy.coverageAmount) :
    (∀ id', (payoutsOf c.after.events id').length ≤ 1) ∧
      (∀ p ∈ payouts c.after.events, ∃ c' ∈ log ++ [c], ∃ policy, PaidBy c' p.policyId policy ∧
        p = ⟨p.policyId, policy.policyholder, policy.coverageAmount, c'.time⟩) ∧
      c.after.pool.totalPayouts = ((payouts c.after.events).map Payout.coverageAmount).sum ∧
      ∀ id' ≠ id, payoutsOf c.after.events id' = payoutsOf c.before.events id' := by
  have hpayouts : ∀ id', payoutsOf c.after.events id' = payoutsOf c.before.events id' ++
      if id = id' then [⟨id, policy.policyholder, policy.coverageAmount, c.time⟩] else [] := by
    intro id'
    rw [payoutsOf, hevents, List.filter_append, payoutsOf]
    by_cases hid : id = id' <;> simp [hid]
  -- before its payout the policy was active, and had none
  have hnone : payoutsOf c.before.events id = [] := h.unpaid id fun q hq => by
    obtain rfl := Option.some.inj (hq.symm.trans hpaid.stored)
    exact hpaid.active
  refine ⟨fun id' => ?_, fun p hp => ?_, ?_, fun id' hne => ?_⟩
  · rw [hpayouts]
    by_cases hid : id = id'
    · subst hid
      simp [hnone]
    · simpa [hid] using h.lifecycle.once id'
  · rw [hevents, List.mem_append, List.mem_singleton] at hp
    rcases hp with hp | rfl
    · obtain ⟨c', hc', hold⟩ := h.lifecycle.paid p hp
      exact ⟨c', List.mem_append_left _ hc', hold⟩
    · exact ⟨c, by simp, policy, hpaid, rfl⟩
  · rw [htotal, hevents, h.lifecycle.total]
    simp
  · rw [hpayouts, if_neg (Ne.symm hne), List.append_nil]

/-- The next id is not stored yet. -/
theorem Lifecycle.ne_next {s : State τ} (h : Lifecycle s log) {id : ℕ} {q : InsurancePolicy}
    (hq : s.policies.lookup id = some q) : id ≠ s.policyCounter + 1 := by
  rintro rfl
  rw [Store.lookup_next h.stored] at hq
  cases hq

theorem ids_append (h : Lifecycle c.before log) :
    (log ++ [c]).filterMap issued? =
      List.range' 1 c.before.policyCounter ++ (issued? c).toList := by
  cases hissued : issued? c <;> simp [h.ids, hissued]

/-- A commit that writes an active policy back keeps what is required of the policies. -/
theorem Kept.retires (h : Kept c.before log) {id : ℕ} {policy : InsurancePolicy}
    {status : PolicyStatus} (hc : Retires c id policy status) :
    (∀ id', (c.after.policies.lookup id').isSome ↔ 1 ≤ id' ∧ id' ≤ c.after.policyCounter) ∧
      Indexed c.after.policies c.after.policyIdsByHolder ∧
      (∀ id' q, c.after.policies.lookup id' = some q → q.id = id') ∧
      ∀ id', (∀ q, c.after.policies.lookup id' = some q → q.status = .active) →
        id' ≠ id ∧ ∀ q, c.before.policies.lookup id' = some q → q.status = .active := by
  have hid := h.id_eq id policy hc.stored
  have hpolicies := hc.policies_eq hid
  refine ⟨fun id' => ?_, ?_, fun id' q hq => ?_, fun id' hactive => ?_⟩
  · rw [hpolicies, hc.counter, Store.isSome_insert, h.lifecycle.stored]
    have hstored := (h.lifecycle.stored id).mp (Option.isSome_of_eq_some hc.stored)
    exact ⟨fun hor => hor.elim (fun heq => heq ▸ hstored) fun hold => hold, .inr⟩
  · rw [hc.policies, hc.index]
    refine h.lifecycle.indexed.insert { policy with status := status } fun old hold => ?_
    obtain rfl := Option.some.inj ((hid ▸ hold).symm.trans hc.stored)
    rfl
  · rw [hpolicies] at hq
    rcases Store.eq_or_lookup_of_insert hq with ⟨rfl, rfl⟩ | ⟨-, hq⟩
    · exact hid
    · exact h.id_eq id' q hq
  · rw [hpolicies] at hactive
    have hne : id' ≠ id := by
      rintro rfl
      exact hc.inactive (hactive _ (by rw [Store.lookup_insert_ite, if_pos rfl]))
    refine ⟨hne, fun q hq => hactive q ?_⟩
    rw [Store.lookup_insert_ite, if_neg hne, hq]

/-- Every effect keeps what is required. -/
theorem Kept.commit (h : Kept c.before log) (hc : Effect c) : Kept c.after (log ++ [c]) := by
  cases hc with
  | quiet policies index counter issued unpaid =>
    obtain ⟨hsame, hpaid, htotal, hfresh⟩ := h.nothing_paid unpaid
    refine ⟨⟨?_, ?_, ?_, fun id => ?_, hpaid, htotal⟩, ?_, fun id hactive => ?_, hfresh⟩
    · rw [ids_append h.lifecycle, issued, counter, Option.toList_none, List.append_nil]
    · rw [policies, counter]
      exact h.lifecycle.stored
    · rw [policies, index]
      exact h.lifecycle.indexed
    · rw [hsame]
      exact h.lifecycle.once id
    · rw [policies]
      exact h.id_eq
    · rw [policies] at hactive
      rw [hsame]
      exact h.unpaid id hactive
  | issue policy id_eq active policies index counter issued unpaid =>
    obtain ⟨hsame, hpaid, htotal, hfresh⟩ := h.nothing_paid unpaid
    have hne : ∀ {id q}, c.before.policies.lookup id = some q → id ≠ policy.id := fun hq =>
      id_eq ▸ h.lifecycle.ne_next hq
    refine ⟨⟨?_, fun id => ?_, ?_, fun id => ?_, hpaid, htotal⟩, fun id q hq => ?_,
      fun id hactive => ?_, hfresh⟩
    · rw [ids_append h.lifecycle, issued, counter, id_eq, List.range'_1_concat, Option.toList_some,
        add_comm]
    · rw [policies, counter, id_eq]
      exact Store.isSome_insert_next h.lifecycle.stored policy id
    · rw [policies, index]
      exact h.lifecycle.indexed.insert policy fun old hold => absurd rfl (hne hold)
    · rw [hsame]
      exact h.lifecycle.once id
    · rw [policies] at hq
      rcases Store.eq_or_lookup_of_insert hq with ⟨rfl, rfl⟩ | ⟨-, hq⟩
      · rfl
      · exact h.id_eq id q hq
    · rw [hsame]
      refine h.unpaid id fun q hq => hactive q ?_
      -- the new id was not stored before
      rw [policies, Store.lookup_insert_ite, if_neg (hne hq), hq]
  | leave id policy status retires issued unpaid =>
    obtain ⟨hsame, hpaid, htotal, hfresh⟩ := h.nothing_paid unpaid
    obtain ⟨hstored, hindexed, hid, hactive⟩ := h.retires retires
    refine ⟨⟨?_, hstored, hindexed, fun id => ?_, hpaid, htotal⟩, hid, fun id hall => ?_, hfresh⟩
    · rw [ids_append h.lifecycle, issued, retires.counter, Option.toList_none, List.append_nil]
    · rw [hsame]
      exact h.lifecycle.once id
    · rw [hsame]
      exact h.unpaid id (hactive id hall).2
  | pay id policy retires issued paid events total initialized =>
    obtain ⟨hstored, hindexed, hid, hactive⟩ := h.retires retires
    obtain ⟨honce, hpaid, htotal, hothers⟩ := h.one_paid paid events total
    refine ⟨⟨?_, hstored, hindexed, honce, hpaid, htotal⟩, hid, fun id' hall => ?_, fun hfalse => ?_⟩
    · rw [ids_append h.lifecycle, issued, retires.counter, Option.toList_none, List.append_nil]
    · obtain ⟨hne, hbefore⟩ := hactive id' hall
      rw [hothers id' hne]
      exact h.unpaid id' hbefore
    · rw [initialized.2] at hfalse
      cases hfalse

/-- A commit changes a policy only when the policy leaves the active ones. -/
theorem Kept.onlyRetires (h : Kept c.before log) (hc : Effect c) : OnlyRetires c := by
  have hretires : ∀ {id policy status}, Retires c id policy status → OnlyRetires c := by
    intro id policy status hr id' q hq
    rw [hr.policies_eq (h.id_eq id policy hr.stored), Store.lookup_insert_ite]
    by_cases heq : id' = id
    · subst heq
      obtain rfl := Option.some.inj (hq.symm.trans hr.stored)
      exact ⟨_, if_pos rfl, .inr ⟨hr.active, status, hr.inactive, rfl⟩⟩
    · exact ⟨q, by rw [if_neg heq, hq], .inl rfl⟩
  cases hc with
  | quiet policies => exact fun id q hq => ⟨q, by rw [policies, hq], .inl rfl⟩
  | issue policy id_eq _ policies =>
    intro id q hq
    have hne : id ≠ policy.id := id_eq ▸ h.lifecycle.ne_next hq
    exact ⟨q, by rw [policies, Store.lookup_insert_ite, if_neg hne, hq], .inl rfl⟩
  | leave _ _ _ retires => exact hretires retires
  | pay _ _ retires => exact hretires retires

omit [TokenClient τ Address Address] in
theorem OnlyRetires.keepsSettled (h : OnlyRetires c) : KeepsSettled c.before c.after := by
  intro id policy hread hstatus
  obtain ⟨policy', hread', heq | ⟨hactive, -⟩⟩ := h id policy hread
  · rw [hread', heq]
  · exact absurd hactive hstatus

end Preservation

section Run

variable [TokenClient τ Address Address] {t : ℕ} {address : Address} {tokens : τ}
  {w : World (State τ)} {log : List (Commit (State τ) Call Result)}

theorem kept_empty (address : Address) (tokens : τ) : Kept (.empty address tokens) [] where
  lifecycle :=
    { ids := rfl
      stored := fun id => iff_of_false (by simp [State.empty]) (by
        rintro ⟨hpos, hle⟩
        exact absurd hpos (not_le.mpr (Nat.lt_succ_of_le hle)))
      indexed := fun holder => ⟨List.nodup_nil, fun id => iff_of_false List.not_mem_nil (by
        rintro ⟨policy, hread, -⟩
        cases hread)⟩
      once := fun _ => Nat.zero_le 1
      paid := fun p hp => absurd hp List.not_mem_nil
      total := rfl }
  id_eq _ _ h := by cases h
  unpaid _ _ := rfl
  fresh _ := rfl

/-- In every run a policy changes at most once, when it is cancelled, expired or paid, and is kept
as it is from then on; its coverage is paid at most once, to its holder, by a check of its trigger
that is in time and finds it met; ids are issued one after another; and the index of a holder lists
each policy of the holder once. -/
theorem policy_lifecycle (h : (contract τ).Run ⟨t, .empty address tokens⟩ w log) :
    Lifecycle w.store log ∧ (∀ c ∈ log, OnlyRetires c) ∧
      ∀ past c rest, log = past ++ c :: rest → KeepsSettled c.after w.store ∧
        ∀ c' ∈ rest, KeepsSettled c.after c'.before ∧ KeepsSettled c.after c'.after := by
  obtain ⟨hkept, honly⟩ := h.invariant_and_mem (I := fun _ s log => Kept s log)
    (P := fun c => OnlyRetires c) (kept_empty address tokens) (fun _ _ _ _ _ hs => hs)
    fun t k r s s' log hs he => by
      have hc : Effect ⟨t, k, r, s, s'⟩ := execute_effect he
      exact ⟨hs.commit hc, hs.onlyRetires hc⟩
  refine ⟨hkept.lifecycle, honly, fun past c rest hlog => ?_⟩
  -- what follows the commit is a run whose commits keep what is settled
  have hrest : ∀ c' ∈ rest, OnlyRetires c' := fun c' hc' => honly c' (by simp [hlog, hc'])
  obtain ⟨hend, hmem⟩ := (h.from_commit hlog).invariant_throughout (G := OnlyRetires)
    (I := KeepsSettled c.after)
    (fun c' hc' hs _ id policy hread hstatus =>
      hc'.keepsSettled id policy (hs id policy hread hstatus) hstatus)
    (fun _ _ hread _ => hread) hrest
  exact ⟨hend, hmem⟩

end Run

theorem policy_lifecycle_sample :
    Lifecycle ((contract _).play ⟨0, .empty ⟨7⟩ sampleTokens⟩ sampleCalls).1.store
      ((contract _).play ⟨0, .empty ⟨7⟩ sampleTokens⟩ sampleCalls).2 :=
  (policy_lifecycle (Contract.run_play _ _ sampleCalls (by decide))).1

end Stellara.Insurance
