import Stellara.Insurance.Accounting
import Stellara.Lib.Rollback

/-!
# Automatic expiry

Checking the trigger of a policy after its end expires the policy, and then reports that it has
expired. The report is an error, so the host discards the expiry with all other writes of the call:
the policy stays active, and its coverage reserved.

## Main definitions

* `checkTriggerBody`: the check with its writes, whether it returns or fails
* `AutoExpired`: what the expiry of a policy leaves

## Main results

* `commit_checkTriggerBody`: the host makes the modelled call of the body
* `not_autoExpired`: the call does not expire the policy
-/

namespace Stellara.Insurance

variable {τ : Type} [TokenClient τ Address Address]

/-- The body of `checkTrigger`, with what it writes before it fails. -/
def checkTriggerBody (now policyId : ℕ) (oracle : Oracle) :
    Body (State τ) (Fault InsuranceError) Bool := do
  let s ← get
  Body.of (requireInitialized s)
  let policy ← Body.of (orAbort (.error .policyNotFound) (s.policies.lookup policyId))
  Body.of (require (policy.status = .active) (.error .policyNotActive))
  if policy.endTime < now then do
    -- auto-expire if the coverage window has elapsed
    modify (doExpirePolicy now policy)
    throw (.error .policyExpired)
  else do
    let oracleConfig ← Body.of (orAbort (.error .notInitialized) s.oracleConfig)
    let oracleValue ← Body.of (orAbort (.error .oracleFailure)
      (oracle oracleConfig.sources policy.oracleFeed oracleConfig.maxStaleness
        oracleConfig.minSources))
    if policy.triggerCondition.triggered oracleValue policy.triggerThreshold then do
      -- a payout that panics is discarded as a whole
      let s ← Body.of (payOut now policyId policy oracleValue s)
      set s
      pure true
    else do
      modify (publish · (.trigMiss policyId oracleValue policy.triggerThreshold))
      pure false

variable {now policyId : ℕ} {oracle : Oracle} {s : State τ} {policy : InsurancePolicy}

/-- The host makes the call of the body that the contract is modelled with. -/
theorem commit_checkTriggerBody (now policyId : ℕ) (oracle : Oracle) (s : State τ) :
    (checkTriggerBody now policyId oracle).commit s = checkTrigger now policyId oracle s := by
  unfold checkTriggerBody checkTrigger
  simp only [Body.commit_of_bind, Body.commit_get_bind, Body.commit_set_bind, Body.commit_modify_bind,
    Body.commit_ite, Body.commit_throw, Body.commit_pure]
  refine bind_congr fun _ => bind_congr fun policy => bind_congr fun _ => ?_
  -- the check of the end is the only one that is made after a write
  by_cases hlate : policy.endTime < now
  · rw [if_pos hlate, require, if_neg (not_le.mpr hlate)]
    rfl
  · rw [if_neg hlate, require, if_pos (not_lt.mp hlate), Except.ok_bind]

/-- What the expiry of an active policy leaves: its status, and the pool without its coverage and
without it. -/
structure AutoExpired (s s' : State τ) (policyId : ℕ) (policy : InsurancePolicy) : Prop where
  status : s'.policies.lookup policyId = some { policy with status := .expired }
  reserved : s'.pool.reservedLiquidity = s.pool.reservedLiquidity - policy.coverageAmount
  active : s'.pool.activePolicies + 1 = s.pool.activePolicies

/-- After the end of an active policy the check fails. -/
theorem checkTrigger_late (oracle : Oracle) (hread : s.policies.lookup policyId = some policy)
    (hactive : policy.status = .active) (hlate : policy.endTime < now) :
    ∃ e, checkTrigger now policyId oracle s = .error e := by
  cases hinit : s.initialized with
  | false =>
    refine ⟨.error .notInitialized, ?_⟩
    simp [checkTrigger, requireInitialized, require, hinit]
  | true =>
    refine ⟨.error .policyExpired, ?_⟩
    simp [checkTrigger, requireInitialized, require, hinit, orAbort, hread, hactive,
      not_le.mpr hlate]

/-- After the end of an active policy the call of the check leaves it active, and its coverage
reserved: the host discards the expiry with the error that reports it. -/
theorem not_autoExpired (hread : s.policies.lookup policyId = some policy)
    (hactive : policy.status = .active) (hlate : policy.endTime < now) :
    (checkTriggerBody now policyId oracle).after s = s ∧
      ¬ AutoExpired s ((checkTriggerBody now policyId oracle).after s) policyId policy := by
  obtain ⟨e, he⟩ := checkTrigger_late oracle hread hactive hlate
  have hafter := Body.after_of_error ((commit_checkTriggerBody now policyId oracle s).trans he)
  refine ⟨hafter, fun h => ?_⟩
  have hstatus := h.status
  rw [hafter, hread] at hstatus
  have := congrArg InsurancePolicy.status (Option.some.inj hstatus)
  rw [hactive] at this
  cases this

/-- A policy that ended at time 86402, in the state after a deposit. -/
def lateCalls : List (ℕ × Call) :=
  [(0, .init ⟨1⟩ ⟨5⟩ [⟨6⟩] 3600 1), (1, .depositLiquidity ⟨2⟩ 20000),
    (2, .createPolicy ⟨3⟩ sampleTerms)]

/-- The state after `lateCalls`. -/
def lateState : State (Balances Address Address) :=
  ((contract _).play ⟨0, .empty ⟨7⟩ sampleTokens⟩ lateCalls).1.store

/-- The policy of `lateCalls`. -/
def latePolicy : InsurancePolicy :=
  ⟨1, ⟨3⟩, .weather, 5000, 500, "RAINFALL", 200, .greaterOrEqual, 2, 86402, .active, 2⟩

theorem not_autoExpired_late :
    (checkTriggerBody 90000 1 fun _ _ _ _ => some 250).after lateState = lateState ∧
      ¬ AutoExpired lateState
        ((checkTriggerBody 90000 1 fun _ _ _ _ => some 250).after lateState) 1 latePolicy :=
  not_autoExpired (by decide) rfl (by decide)

/-- Checked a few thousand seconds after its end, the policy is still active. -/
theorem late_policy_active :
    ¬ ∀ (s : State (Balances Address Address)) now policyId policy oracle,
      s.policies.lookup policyId = some policy → policy.status = .active → policy.endTime < now →
        AutoExpired s ((checkTriggerBody now policyId oracle).after s) policyId policy := by
  intro h
  have hstatus := (h lateState 90000 1 latePolicy (fun _ _ _ _ => some 250) (by decide) rfl
    (by decide)).status
  exact absurd hstatus (by decide)

end Stellara.Insurance
