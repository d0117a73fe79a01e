import Mathlib.Data.List.Nodup
import Stellara.Reserve.Redemption

/-!
# The settlement of requests

A stored request is approved, rejected or processed once, and processing takes its amount off the
supply. The three calls accept pending requests alone. So what is processed was never approved, and
an approved request is never processed.

## Main definitions

* `Processable`: approved requests can be processed
* `Uncovered`: the reserves cover no approved request
* `Settled`: what the approval, the rejection and the processing of requests are for

## Main results

* `settle_eq_ok`: what a settlement checks and writes
* `supply_of_run`: the supply falls by what is processed
* `settled_iff`: the runs that settle requests as they should
-/

namespace Stellara.Reserve

variable {s s' : State} {now id : ℕ}

/-! ## One settlement -/

/-- The status that a settlement gives. -/
def Settlement.status : Settlement → RedemptionStatus
  | .approve _ => .approved
  | .reject _ _ => .rejected
  | .process _ => .processed

/-- The request that is found for an id is the first one with it. -/
theorem getRequestById_eq_ok {requests : List RedemptionRequest} {request : RedemptionRequest}
    (h : getRequestById requests id = .ok request) :
    getRequestId request = id ∧ ∃ l₁ l₂, requests = l₁ ++ request :: l₂ ∧
      ∀ r ∈ l₁, ¬ getRequestId r = id := by
  rw [getRequestById, orAbort_eq_ok, List.find?_eq_some_iff_append] at h
  obtain ⟨hid, l₁, l₂, rfl, hfirst⟩ := h
  exact ⟨of_decide_eq_true hid, l₁, l₂, rfl, fun r hr => by simpa using hfirst r hr⟩

/-- The request that is found for an id is the one that is written. -/
theorem updateRequest_eq_ok {l₁ l₂ : List RedemptionRequest} {request request' : RedemptionRequest}
    (hrequests : s.requests = some (l₁ ++ request :: l₂)) (hid : getRequestId request = id)
    (hfirst : ∀ r ∈ l₁, ¬ getRequestId r = id) (h : updateRequest id request' s = .ok s') :
    s' = { s with requests := some (l₁ ++ request' :: l₂) } := by
  rw [updateRequest, readRequests, hrequests, orAbort, Except.ok_bind,
    updateFirst_split hfirst hid] at h
  exact (Except.ok.inj h).symm

/-- A settlement gives a pending request its status, and processing takes the amount of a request
whose delay has elapsed off the supply. -/
theorem settle_eq_ok {settlement : Settlement} (h : settle now s settlement = .ok s') :
    ∃ l₁ r l₂ time, s.requests = some (l₁ ++ r :: l₂) ∧ r.status = .pending ∧
      s'.requests =
        some (l₁ ++ { r with status := settlement.status, processedTime := time } :: l₂) ∧
      s'.totalSupply + (if settlement.status = .processed then r.amount else 0) =
        s.totalSupply ∧ s'.config = s.config ∧
      (settlement.status = .processed →
        r.requestTime + (getRedemptionConfig s).processingDelay ≤ now) := by
  cases settlement with
  | approve id =>
    simp only [settle, approveRedemption, readRequests, Except.bind_eq_ok, orAbort_eq_ok,
      require_eq_ok, exists_const] at h
    obtain ⟨requests, hrequests, r, hget, hstatus, s₁, hupdate, h⟩ := h
    obtain ⟨hid, l₁, l₂, rfl, hfirst⟩ := getRequestById_eq_ok hget
    obtain rfl := updateRequest_eq_ok hrequests hid hfirst hupdate
    obtain rfl := Except.ok.inj h
    exact ⟨l₁, r, l₂, _, hrequests, hstatus, rfl, rfl, rfl, fun h => by cases h⟩
  | reject id reason =>
    simp only [settle, rejectRedemption, readRequests, removeFromQueue, Except.bind_eq_ok,
      orAbort_eq_ok, require_eq_ok, exists_const] at h
    obtain ⟨requests, hrequests, r, hget, hstatus, s₁, hupdate, _, ⟨queue, -, h₂⟩, h⟩ := h
    obtain ⟨hid, l₁, l₂, rfl, hfirst⟩ := getRequestById_eq_ok hget
    obtain rfl := updateRequest_eq_ok hrequests hid hfirst hupdate
    obtain rfl := Except.ok.inj h₂
    obtain rfl := Except.ok.inj h
    exact ⟨l₁, r, l₂, _, hrequests, hstatus, rfl, rfl, rfl, fun h => by cases h⟩
  | process id =>
    simp only [settle, processRedemption, readRequests, removeFromQueue, updateTotalSupply,
      getTotalReserves, Except.bind_eq_ok, orAbort_eq_ok, require_eq_ok, exists_const,
      IntFormat.checkedSub_eq_ok] at h
    obtain ⟨requests, hrequests, r, hget, hstatus, age, ⟨hage, rfl⟩, hdelay, _, -, -, s₁, hupdate,
      _, ⟨queue, -, h₂⟩, _, ⟨hsupply, rfl⟩, s₃, hsnapshot, h⟩ := h
    obtain ⟨hid, l₁, l₂, rfl, hfirst⟩ := getRequestById_eq_ok hget
    obtain rfl := updateRequest_eq_ok hrequests hid hfirst hupdate
    obtain rfl := Except.ok.inj h₂
    obtain rfl := Except.ok.inj h
    obtain ⟨htotal, hsame, hconfig, -⟩ := updateSnapshot_eq_ok hsnapshot
    refine ⟨l₁, r, l₂, _, hrequests, hstatus, hsame, ?_, hconfig, fun _ => by omega⟩
    rw [show (publish _ s₃).totalSupply = s₃.totalSupply from rfl, htotal, Settlement.status,
      if_pos rfl]
    exact Nat.sub_add_cancel hsupply

/-! ## The life of a request -/

variable {c : Commit State Settlement Unit}

/-- A call that processes a request. -/
def Settlement.Processes (settlement : Settlement) : Prop := settlement.status = .processed

instance (settlement : Settlement) : Decidable settlement.Processes :=
  inferInstanceAs (Decidable (_ = _))

/-- A request that becomes processed was approved, and its delay has elapsed. -/
def ProcessedFromApproved (c : Commit State Settlement Unit) : Prop :=
  ∀ (i : ℕ) (r r' : RedemptionRequest), (c.before.requests.getD [])[i]? = some r →
    (c.after.requests.getD [])[i]? = some r' → r.status ≠ .processed → r'.status = .processed →
    r.status = .approved ∧
      r.requestTime + (getRedemptionConfig c.before).processingDelay ≤ c.time

/-- Rejected and processed requests stay as they are. -/
def Final (c : Commit State Settlement Unit) : Prop :=
  ∀ (i : ℕ) (r : RedemptionRequest), (c.before.requests.getD [])[i]? = some r →
    r.status = .rejected ∨ r.status = .processed → (c.after.requests.getD [])[i]? = some r

/-- An approved request can be processed when its delay has elapsed and the reserves cover it. -/
def Processable (s : State) : Prop :=
  ∀ now, ∀ r ∈ s.requests.getD [], r.status = .approved →
    r.requestTime + (getRedemptionConfig s).processingDelay ≤ now →
    (∃ snapshot ∈ s.currentSnapshot, r.amount ≤ snapshot.totalReserves) →
    ∃ s', processRedemption now (getRequestId r) s = .ok s'

/-- The reserves cover no approved request. -/
def Uncovered (s : State) : Prop :=
  ∀ r ∈ s.requests.getD [], r.status = .approved → ∀ snapshot ∈ s.currentSnapshot,
    snapshot.totalReserves < r.amount

/-- The amount of a request that becomes processed, zero for every other one. -/
def gain (r r' : RedemptionRequest) : ℕ :=
  if r.status ≠ .processed ∧ r'.status = .processed then r'.amount else 0

/-- The amount of the requests that become processed from one state to another. -/
def becameProcessed (s s' : State) : ℕ :=
  (List.zipWith gain (s.requests.getD []) (s'.requests.getD [])).sum

/-- The stored requests have distinct ids. -/
def DistinctIds (s : State) : Prop := ((s.requests.getD []).map getRequestId).Nodup

theorem gain_self (l : List RedemptionRequest) : (List.zipWith gain l l).sum = 0 := by
  induction l with
  | nil => rfl
  | cons r l ih =>
    rw [List.zipWith_cons_cons, List.sum_cons, ih, gain, if_neg fun h => h.1 h.2]

/-- The supply falls by what becomes processed. -/
theorem supply_of_settle {settlement : Settlement} (h : settle now s settlement = .ok s') :
    s'.totalSupply + becameProcessed s s' = s.totalSupply := by
  obtain ⟨l₁, r, l₂, time, hrequests, hstatus, hafter, hsupply, -, -⟩ := settle_eq_ok h
  have hgain : becameProcessed s s' = if settlement.status = .processed then r.amount else 0 := by
    rw [becameProcessed, hrequests, hafter, Option.getD_some, Option.getD_some,
      List.zipWith_append rfl, List.sum_append, gain_self, List.zipWith_cons_cons, List.sum_cons,
      gain_self, gain, hstatus]
    simp
  rw [hgain, hsupply]

theorem distinctIds_of_settle {settlement : Settlement} (hs : DistinctIds s)
    (h : settle now s settlement = .ok s') : DistinctIds s' := by
  obtain ⟨l₁, r, l₂, time, hrequests, -, hafter, -⟩ := settle_eq_ok h
  rw [DistinctIds, hrequests, Option.getD_some] at hs
  rw [DistinctIds, hafter, Option.getD_some]
  simpa [getRequestId] using hs

/-- A settlement gives one pending request its status, and leaves the requests in all other
places. -/
theorem settle_getElem? {settlement : Settlement} (h : settle now s settlement = .ok s') :
    ∃ (place : ℕ) (r r' : RedemptionRequest),
      (s.requests.getD [])[place]? = some r ∧ r.status = .pending ∧
      (s'.requests.getD [])[place]? = some r' ∧ r'.status = settlement.status ∧
      ∀ i ≠ place, (s'.requests.getD [])[i]? = (s.requests.getD [])[i]? := by
  obtain ⟨l₁, r, l₂, time, hrequests, hstatus, hafter, -⟩ := settle_eq_ok h
  rw [hrequests, hafter, Option.getD_some, Option.getD_some]
  exact ⟨l₁.length, r, _, getElem?_middle _ _ _, hstatus, getElem?_middle _ _ _, rfl,
    fun i hi => getElem?_of_ne_middle _ _ hi⟩

/-- A settlement leaves every request that is not pending. -/
theorem final_of_settle (he : settle c.time c.before c.call = .ok c.after) : Final c := by
  obtain ⟨place, r, r', hr, hpending, -, -, hother⟩ := settle_getElem? he
  intro i q hq hdecided
  by_cases hi : i = place
  · subst hi
    rw [hr] at hq
    rw [← Option.some.inj hq, hpending] at hdecided
    rcases hdecided with hd | hd <;> cases hd
  · rw [hother i hi, hq]

/-- What becomes processed was pending, so that only the other settlements are as they should be. -/
theorem processedFromApproved_iff (he : settle c.time c.before c.call = .ok c.after) :
    ProcessedFromApproved c ↔ ¬ c.call.Processes := by
  obtain ⟨place, r, r', hr, hpending, hr', hstatus, hother⟩ := settle_getElem? he
  constructor
  · intro h hprocesses
    have happroved := (h place r r' hr hr' (by rw [hpending]; decide)
      (hstatus.trans hprocesses)).1
    rw [hpending] at happroved
    cases happroved
  · intro hnot i q q' hq hq' hne hprocessed
    -- only the settled request changes, and it does not become processed
    by_cases hi : i = place
    · subst hi
      rw [hr'] at hq'
      rw [← Option.some.inj hq', hstatus] at hprocessed
      exact absurd hprocessed hnot
    · rw [hother i hi, hq] at hq'
      rw [Option.some.inj hq'] at hne
      exact absurd hprocessed hne

/-- An approved request is not pending, so that no covered one can be processed. -/
theorem processable_iff (hs : DistinctIds s) : Processable s ↔ Uncovered s := by
  constructor
  · intro h r hr happroved snapshot hsnapshot
    by_contra hcovered
    obtain ⟨s', hs'⟩ := h _ r hr happroved le_rfl ⟨snapshot, hsnapshot, not_lt.mp hcovered⟩
    obtain ⟨requests, hrequests⟩ : ∃ requests, s.requests = some requests := by
      cases hnone : s.requests with
      | none => rw [hnone] at hr; cases hr
      | some requests => exact ⟨requests, rfl⟩
    simp only [processRedemption, readRequests, hrequests, orAbort, Except.ok_bind,
      Except.bind_eq_ok, require_eq_ok] at hs'
    obtain ⟨q, hq, -, hpending, -⟩ := hs'
    -- the request that is found is the approved one
    obtain ⟨hid, l₁, l₂, rfl, -⟩ := getRequestById_eq_ok hq
    rw [DistinctIds, hrequests, Option.getD_some] at hs
    rw [hrequests, Option.getD_some] at hr
    rw [List.inj_on_of_nodup_map hs (by simp) hr hid, happroved] at hpending
    cases hpending
  · intro h now r hr happroved _ hcovered
    obtain ⟨snapshot, hsnapshot, hle⟩ := hcovered
    exact absurd (h r hr happroved snapshot hsnapshot) (not_lt.mpr hle)

/-! ## Runs -/

variable {w₀ w : World State} {log : List (Commit State Settlement Unit)}

/-- What becomes processed in a run was approved and its delay has elapsed; approved requests that
the reserves cover can be processed when their delay has elapsed; rejected and processed requests
are final; and the supply falls by the amounts of the requests that become processed. -/
structure Settled (w₀ w : World State) (log : List (Commit State Settlement Unit)) : Prop where
  approved : ∀ c ∈ log, ProcessedFromApproved c
  processable : Processable w.store ∧ ∀ c ∈ log, Processable c.before ∧ Processable c.after
  final : ∀ c ∈ log, Final c
  supply : w.store.totalSupply + (log.map fun c => becameProcessed c.before c.after).sum =
    w₀.store.totalSupply

theorem settle_of_exec (h : settlements.exec now c.call s = .ok ((), s')) :
    settle now s c.call = .ok s' := by
  simp only [settlements, Except.bind_eq_ok] at h
  obtain ⟨s₁, hs₁, h⟩ := h
  rw [hs₁, (Prod.mk.inj (Except.ok.inj h)).2]

/-- In every run the supply falls by the amounts of the requests that become processed. -/
theorem supply_of_run (hrun : settlements.Run w₀ w log) :
    w.store.totalSupply + (log.map fun c => becameProcessed c.before c.after).sum =
      w₀.store.totalSupply := by
  refine hrun.invariant_log (I := fun _ s log =>
    s.totalSupply + (log.map fun c => becameProcessed c.before c.after).sum =
      w₀.store.totalSupply) rfl (fun _ _ _ _ _ h => h) fun t k r s s' log ih he => ?_
  have hstep := supply_of_settle (settle_of_exec (c := ⟨t, k, r, s, s'⟩) he)
  rw [List.map_append, List.map_singleton, List.sum_append, List.sum_singleton]
  dsimp only at hstep ⊢
  omega

/-- From a list with distinct ids, a run settles requests as it should exactly when it processes
none, and the reserves cover no approved request in any of its states. -/
theorem settled_iff (hids : DistinctIds w₀.store) (hrun : settlements.Run w₀ w log) :
    Settled w₀ w log ↔ (∀ c ∈ log, ¬ c.call.Processes) ∧
      Uncovered w.store ∧ ∀ c ∈ log, Uncovered c.before ∧ Uncovered c.after := by
  have hkeep : ∀ t k r s s', DistinctIds s → settlements.exec t k s = .ok (r, s') →
      DistinctIds s' := fun t k r s s' hs he =>
    distinctIds_of_settle hs (settle_of_exec (c := ⟨t, k, r, s, s'⟩) he)
  have hlog := hrun.invariant_of_mem hkeep hids
  have hexec : ∀ c ∈ log, settle c.time c.before c.call = .ok c.after := fun c hc =>
    settle_of_exec (hrun.exec_of_mem c hc)
  have hprocessable : (Processable w.store ∧ ∀ c ∈ log, Processable c.before ∧
      Processable c.after) ↔ Uncovered w.store ∧ ∀ c ∈ log, Uncovered c.before ∧
      Uncovered c.after :=
    and_congr (processable_iff (hrun.invariant hkeep hids)) (forall₂_congr fun c hc =>
      and_congr (processable_iff (hlog c hc).1) (processable_iff (hlog c hc).2))
  have happroved : (∀ c ∈ log, ProcessedFromApproved c) ↔ ∀ c ∈ log, ¬ c.call.Processes :=
    forall₂_congr fun c hc => processedFromApproved_iff (hexec c hc)
  rw [← hprocessable, ← happroved]
  exact ⟨fun h => ⟨h.approved, h.processable⟩, fun h =>
    ⟨h.1, h.2, fun c hc => final_of_settle (hexec c hc), supply_of_run hrun⟩⟩

/-- Two pending requests, and reserves that cover both. -/
def twoRequests : State := { State.empty with
  totalSupply := 30
  assets := some [⟨.usd, 100, ⟨7⟩, 0, []⟩]
  currentSnapshot := some ⟨0, 100, 30, 33333, [⟨.usd, 100, ⟨7⟩, 0, []⟩]⟩
  requests := some [⟨⟨1⟩, 10, 1, .pending, none⟩, ⟨⟨2⟩, 20, 2, .pending, none⟩]
  queue := some ⟨[1, 2], 30, 0⟩ }

theorem settled_iff_sample :
    Settled ⟨3, twoRequests⟩ (settlements.play ⟨3, twoRequests⟩ [(4, .reject 1 "no")]).1
        (settlements.play ⟨3, twoRequests⟩ [(4, .reject 1 "no")]).2 ↔
      (∀ c ∈ (settlements.play ⟨3, twoRequests⟩ [(4, .reject 1 "no")]).2, ¬ c.call.Processes) ∧
        Uncovered (settlements.play ⟨3, twoRequests⟩ [(4, .reject 1 "no")]).1.store ∧
        ∀ c ∈ (settlements.play ⟨3, twoRequests⟩ [(4, .reject 1 "no")]).2,
          Uncovered c.before ∧ Uncovered c.after :=
  settled_iff (by unfold DistinctIds; decide) (Contract.run_play _ _ _ (by decide))

/-- The first request is processed without an approval, and the second one is approved and cannot be
processed after its delay. -/
def unapprovedCalls : List (ℕ × Settlement) := [(86401, .process 1), (86402, .approve 2)]

theorem processed_unapproved :
    ∃ w log, settlements.Run ⟨3, twoRequests⟩ w log ∧ (∃ c ∈ log, ¬ ProcessedFromApproved c) ∧
      ¬ Processable w.store ∧ ¬ Settled ⟨3, twoRequests⟩ w log := by
  obtain ⟨c, hc⟩ : ∃ c, (settlements.play ⟨3, twoRequests⟩ unapprovedCalls).2[0]? = some c :=
    ⟨_, rfl⟩
  have hunapproved : ¬ ProcessedFromApproved c := by
    obtain rfl := Option.some.inj hc
    intro h
    exact absurd (h 0 _ _ rfl rfl (by decide) rfl).1 (by decide)
  refine ⟨_, _, Contract.run_play _ _ unapprovedCalls (by decide),
    ⟨c, List.mem_of_getElem? hc, hunapproved⟩, fun h => ?_, fun h =>
      hunapproved (h.approved c (List.mem_of_getElem? hc))⟩
  obtain ⟨s', hs'⟩ := h 86402 ⟨⟨2⟩, 20, 2, .approved, none⟩ (by decide) rfl (by decide)
    ⟨_, rfl, by decide⟩
  cases hs'

end Stellara.Reserve
