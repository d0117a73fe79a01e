import Stellara.Treasury.Confirmations

/-!
# The quorum of the treasury

A transaction above the threshold of the deployment needs the confirmations of a quorum of owners
only as long as no owner raises the threshold. Any owner can raise it alone.

## Main definitions

* `callers`: the owners that ever make a call
* `Minority`: what holds while fewer owners than a quorum act, and nobody raises the threshold

## Main results

* `Effect.minority`: what a call preserves
* `quorum_of_threshold_kept`: the runs in which no owner raises the threshold
* `threshold_raised`: a run in which one owner does
-/

namespace Stellara.Treasury

open Evm (Bytes Revert)

/-- The owners that made one of the calls. -/
def callers (owners : List Evm.Address) (made : List Message) : Finset Evm.Address :=
  owners.toFinset.filter fun account => account ∈ made.map (·.sender)

/-- No owner sets the threshold above `threshold` by this call. -/
def KeepsThreshold (owners : List Evm.Address) (threshold : ℕ) (m : Message) : Prop :=
  ∀ dailyLimit weeklyLimit raised, m.function = .updateLimits dailyLimit weeklyLimit raised →
    m.sender ∈ owners → raised ≤ threshold

/-- Every executed transaction has at most the value `threshold`. -/
def ExecutesBelow (threshold : ℕ) (log : Log) : Prop :=
  ∀ e ∈ log, ∀ i txn, e.call.function = .executeTransaction i →
    e.before.transactions[i]? = some txn → txn.value ≤ threshold

/-- Only the owners of `acting` have confirmed anything, the threshold is not above that of the
deployment, and nothing above it was executed. -/
structure Minority (owners : List Evm.Address) (required threshold : ℕ) (acting : Finset Evm.Address)
    (s : State) (log : Log) : Prop where
  sound : Sound required s log
  owners_eq : s.owners = owners
  confirmers : ∀ i, s.confirmers i ⊆ acting
  threshold_le : s.threshold ≤ threshold
  executions : ExecutesBelow threshold log

section Calls

variable {owners : List Evm.Address} {required threshold now : ℕ} {acting : Finset Evm.Address}
  {s s' : State} {log : Log} {m : Message} {exit : Exit Message} {abi : Abi} {treasury : Evm.Address}

/-- The owners stay. -/
theorem Effect.owners_eq (heffect : Effect abi treasury now m s s' exit) :
    s'.owners = s.owners := by
  cases heffect with
  | executed _ hexecuted _ => exact hexecuted.frame.1
  | submitted _ _ hs | confirmed _ _ _ _ _ _ hs | revoked _ _ _ _ _ _ hs | limited _ _ hs
  | frozen _ _ hs | unfrozen _ _ hs | received _ hs | viewed _ hs => rw [hs]

/-- A call adds nobody but an owner that makes it to those that have confirmed a transaction. -/
theorem Effect.confirmers_subset (heffect : Effect abi treasury now m s s' exit) {i : ℕ}
    {account : Evm.Address} (hmem : account ∈ s'.confirmers i) :
    account ∈ s.confirmers i ∨ account = m.sender ∧ s.owns m.sender = true := by
  have howners := heffect.owners_eq
  -- most calls leave the confirmations
  have hsame : s'.isConfirmed = s.isConfirmed →
      account ∈ s.confirmers i ∨ account = m.sender ∧ s.owns m.sender = true := by
    intro hconfirmed
    rw [confirmers_congr howners hconfirmed] at hmem
    exact .inl hmem
  rw [mem_confirmers, howners] at hmem
  cases heffect with
  | executed _ hexecuted _ => exact hsame hexecuted.frame.2.2.2.2.2
  | @confirmed i' _ _ howner _ _ _ _ hs =>
    have hstore : s'.isConfirmed = s.isConfirmed.insert (i', m.sender) true := by rw [hs]
    rw [confirmed_of_insert hstore] at hmem
    by_cases hnew : i = i' ∧ account = m.sender
    · exact .inr ⟨hnew.2, howner⟩
    · rw [if_neg hnew] at hmem
      exact .inl (mem_confirmers.mpr hmem)
  | @revoked i' _ _ _ _ _ _ _ hs =>
    have hstore : s'.isConfirmed = s.isConfirmed.insert (i', m.sender) false := by rw [hs]
    rw [confirmed_of_insert hstore] at hmem
    split at hmem
    · -- the confirmation is the one that was revoked
      cases hmem.2
    · exact .inl (mem_confirmers.mpr hmem)
  | submitted _ _ hs | limited _ _ hs | frozen _ _ hs | unfrozen _ _ hs | received _ hs
  | viewed _ hs => exact hsame (by rw [hs])

/-- Only owners change the threshold. -/
theorem Effect.threshold_eq (heffect : Effect abi treasury now m s s' exit) :
    s'.threshold = s.threshold ∨ s.owns m.sender = true ∧ ∃ dailyLimit weeklyLimit,
      m.function = .updateLimits dailyLimit weeklyLimit s'.threshold := by
  cases heffect with
  | executed _ hexecuted _ => exact .inl hexecuted.frame.2.2.2.1
  | limited hcall howner hs => exact .inr ⟨howner, _, _, by rw [hs]; exact hcall⟩
  | submitted _ _ hs | confirmed _ _ _ _ _ _ hs | revoked _ _ _ _ _ _ hs | frozen _ _ hs
  | unfrozen _ _ hs | received _ hs | viewed _ hs => exact .inl (by rw [hs])

/-- While only a minority of the owners acts and nobody raises the threshold, nothing above it is
executed. -/
theorem Effect.minority (h : Minority owners required threshold acting s log)
    (hfew : acting.card < required) (hsender : m.sender ∈ owners → m.sender ∈ acting)
    (hkeeps : KeepsThreshold owners threshold m)
    (heffect : Effect abi treasury now m s s' exit) :
    Minority owners required threshold acting s' (log ++ [⟨now, m, exit, s, s'⟩]) := by
  have howner : s.owns m.sender = true → m.sender ∈ owners := fun howns => by
    rw [← h.owners_eq]
    exact (h.sound.isOwner _).mp howns
  refine ⟨heffect.sound h.sound, heffect.owners_eq.trans h.owners_eq, ?_, ?_, ?_⟩
  · intro i account hmem
    rcases heffect.confirmers_subset hmem with hold | ⟨rfl, howns⟩
    · exact h.confirmers i hold
    · exact hsender (howner howns)
  · -- an owner that sets the threshold keeps it down
    rcases heffect.threshold_eq with hsame | ⟨howns, dailyLimit, weeklyLimit, hcall⟩
    · rw [hsame]
      exact h.threshold_le
    · exact hkeeps _ _ _ hcall (howner howns)
  · intro e he i txn hcall hlookup
    rcases List.mem_append.mp he with he | he
    · exact h.executions e he i txn hcall hlookup
    · obtain rfl := List.mem_singleton.mp he
      -- enough owners would have confirmed a value above the threshold
      by_contra hlarge
      cases heffect with
      | @executed i' txn' _ hcall' hexecuted _ =>
        obtain rfl := Function.executeTransaction.inj (hcall'.symm.trans hcall)
        obtain rfl := Option.some.inj (hexecuted.lookup.symm.trans hlookup)
        have hthreshold : s.threshold < txn'.value :=
          h.threshold_le.trans_lt (Nat.lt_of_not_le hlarge)
        have hrequired := hexecuted.large hthreshold
        rw [h.sound.required_eq, h.sound.count _ _ hexecuted.lookup] at hrequired
        exact absurd (hrequired.trans (Finset.card_le_card (h.confirmers _))) (not_le.mpr hfew)
      | submitted hcall' _ _ | confirmed hcall' _ _ _ _ _ _ | revoked hcall' _ _ _ _ _ _
      | limited hcall' _ _ | frozen hcall' _ _ | unfrozen hcall' _ _ | received hcall' _ =>
        cases hcall'.symm.trans hcall
      | viewed hview _ =>
        have hcall : m.function = .executeTransaction i := hcall
        rw [hcall] at hview
        cases hview

end Calls

/-! ## Runs -/

section Runs

variable {abi : Abi} {treasury : Evm.Address} {now required dailyLimit weeklyLimit threshold : ℕ}
  {balance : ℕ} {owners : List Evm.Address} {s₀ : State} {c : Reentrant.Config State Message}
  {made : List Message}

/-- **The quorum**: in every run in which fewer owners than required ever make a call, and none of
them sets the threshold above that of the deployment, no transaction above it is executed. -/
theorem quorum_of_threshold_kept
    (hdeploy : construct now owners required dailyLimit weeklyLimit threshold balance = .ok s₀)
    (h : (contract abi treasury).Run (.initial now s₀) c made)
    (hfew : (callers owners made).card < required)
    (hkeeps : ∀ m ∈ made, KeepsThreshold owners threshold m) : ExecutesBelow threshold c.log := by
  -- every message of the run is from an acting owner, or from no owner
  have hmade : ∀ m ∈ made, (m.sender ∈ owners → m.sender ∈ callers owners made) ∧
      KeepsThreshold owners threshold m := by
    intro m hm
    refine ⟨fun howner => ?_, hkeeps m hm⟩
    exact Finset.mem_filter.mpr ⟨List.mem_toFinset.mpr howner, List.mem_map_of_mem hm⟩
  have hstart : Minority owners required threshold (callers owners made) s₀ [] := by
    have hsound := construct_sound hdeploy
    obtain ⟨-, -, hs⟩ := construct_eq_ok hdeploy
    refine ⟨hsound, by rw [hs], fun i account hmem => ?_, by rw [hs], by simp [ExecutesBelow]⟩
    have hconfirmed := (mem_confirmers.mp hmem).2
    rw [hs] at hconfirmed
    cases hconfirmed
  have hrun := h.invariant
    (I := fun _ s log => Minority owners required threshold (callers owners made) s log)
    (J := fun _ => True) (fun _ _ _ _ _ hs => hs)
    (fun _ _ _ _ _ _ hG _ hs he =>
      ⟨(enter_effect he).minority hs hfew hG.1 hG.2, fun _ _ => trivial⟩)
    hmade rfl hstart
  exact hrun.executions

end Runs

/-- One owner submits and confirms a transaction below the threshold. -/
def smallActions : List (Reentrant.Action Message) :=
  [.call ⟨1, 0, .submitTransaction 7 15 []⟩, .call ⟨1, 0, .confirmTransaction 0⟩,
    .call ⟨1, 0, .updateLimits 100 1000 10⟩, .call ⟨1, 0, .updateLimits 100 1000 20⟩,
    .call ⟨8, 0, .executeTransaction 0⟩, .finish]

theorem quorum_of_threshold_kept_sample : ExecutesBelow 20 (sampleAfter smallActions).log := by
  have hrun := Reentrant.run_play (contract sampleAbi 99) (.initial 0 sampleStore) smallActions
  have hmade : ((contract sampleAbi 99).play (.initial 0 sampleStore) smallActions).2 =
      [⟨1, 0, .submitTransaction 7 15 []⟩, ⟨1, 0, .confirmTransaction 0⟩,
        ⟨1, 0, .updateLimits 100 1000 10⟩, ⟨1, 0, .updateLimits 100 1000 20⟩,
        ⟨8, 0, .executeTransaction 0⟩] := by decide
  refine quorum_of_threshold_kept construct_sample hrun (by rw [hmade]; decide) ?_
  rw [hmade]
  intro m hm dailyLimit weeklyLimit raised hcall _
  simp only [List.mem_cons, List.not_mem_nil, or_false] at hm
  rcases hm with rfl | rfl | rfl | rfl | rfl <;> cases hcall <;> decide

/-- The same for a transaction above the threshold, after the owner has raised it. -/
def raisingActions : List (Reentrant.Action Message) :=
  [.call ⟨1, 0, .submitTransaction 7 30 []⟩, .call ⟨1, 0, .updateLimits 100 1000 50⟩,
    .call ⟨1, 0, .confirmTransaction 0⟩, .call ⟨1, 0, .executeTransaction 0⟩, .finish]

/-- A single owner can have a transaction executed that is above the threshold of the deployment. -/
theorem threshold_raised : construct 0 [1, 2, 3] 2 100 1000 20 500 = .ok sampleStore ∧
    ¬ ∀ c made, (contract sampleAbi 99).Run (.initial 0 sampleStore) c made →
      (callers [1, 2, 3] made).card < 2 → ExecutesBelow 20 c.log := by
  refine ⟨rfl, fun hall => ?_⟩
  have hbelow := hall _ _
    (Reentrant.run_play (contract sampleAbi 99) (.initial 0 sampleStore) raisingActions) (by decide)
  have hlarge : ∃ e ∈ (sampleAfter raisingActions).log, e.call.function = .executeTransaction 0 ∧
      (e.before.transactions[0]?.any fun txn => 20 < txn.value) = true := by decide
  obtain ⟨e, he, hcall, hvalue⟩ := hlarge
  obtain ⟨txn, hlookup, hlt⟩ := (Option.any_eq_true _ _).mp hvalue
  exact absurd (hbelow e he 0 txn hcall hlookup) (not_le.mpr (of_decide_eq_true hlt))

end Stellara.Treasury
