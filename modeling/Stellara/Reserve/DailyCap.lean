import Stellara.Reserve.Settlements

/-!
# The daily cap

A request is accepted when the processed requests of the day leave room for it. Requests of the day
that are pending, approved or rejected are skipped, and with a delay of a day no request is
processed on its own day. So the cap holds as long as nothing is skipped when a request is accepted,
and more exactly as long as the skipped amounts do not change what the check of the scan says.

## Main definitions

* `dayTotal`, `skippedTotal`: the amount of all requests of a day, and of those that the scan skips
* `acceptedTotal`: the amount of the requests that a run accepts
* `NoneSkipped`: the scan skips nothing of the day when an amount is requested
* `Fits`: a request that passes the check passes it with the skipped requests as well

## Main results

* `requested_of_exec`: what a call adds to the requests of its day
* `fits_of_noneSkipped`: a request fits when nothing is skipped
* `daily_cap_iff`: when the requests accepted in a day are within the daily maximum
-/

namespace Stellara.Reserve

variable {s s' : State} {now day id amount : ℕ} {requester : Address}
  {requests : List RedemptionRequest}

/-! ## The requests of a day -/

/-- The amount of the requests of a day and later that have a property. -/
def amountSince (day : ℕ) (P : RedemptionStatus → Prop) [DecidablePred P]
    (requests : List RedemptionRequest) : ℕ :=
  ((requests.filter fun r => day * 86400 ≤ r.requestTime ∧ P r.status).map
    RedemptionRequest.amount).sum

/-- The amount of all requests since the start of a day. -/
def dayTotal (day : ℕ) (requests : List RedemptionRequest) : ℕ :=
  amountSince day (fun _ => True) requests

/-- The amount of the requests that the daily total skips. -/
def skippedTotal (day : ℕ) (requests : List RedemptionRequest) : ℕ :=
  amountSince day (fun status => status ≠ .processed) requests

section AmountSince

variable {P : RedemptionStatus → Prop} [DecidablePred P]

theorem amountSince_append (l₁ l₂ : List RedemptionRequest) :
    amountSince day P (l₁ ++ l₂) = amountSince day P l₁ + amountSince day P l₂ := by
  rw [amountSince, List.filter_append, List.map_append, List.sum_append]
  rfl

theorem amountSince_cons (r : RedemptionRequest) (l : List RedemptionRequest) :
    amountSince day P (r :: l) =
      (if day * 86400 ≤ r.requestTime ∧ P r.status then r.amount else 0) + amountSince day P l := by
  by_cases h : day * 86400 ≤ r.requestTime ∧ P r.status
  · rw [if_pos h, amountSince, List.filter_cons_of_pos (by simpa using h), List.map_cons,
      List.sum_cons]
    rfl
  · rw [if_neg h, amountSince, List.filter_cons_of_neg (by simpa using h), zero_add]
    rfl

end AmountSince

/-- The scan starts with the day of the call. -/
theorem dailyTotal_eq (hday : now / 86400 = day) :
    dailyTotal now requests = amountSince day (fun status => status = .processed) requests := by
  have hstart : now - now % 86400 = day * 86400 := by omega
  rw [dailyTotal, hstart]
  rfl

/-- The requests of a day are those that the scan counts and those that it skips. -/
theorem dayTotal_eq (hday : now / 86400 = day) :
    dayTotal day requests = dailyTotal now requests + skippedTotal day requests := by
  rw [dailyTotal_eq hday]
  induction requests with
  | nil => rfl
  | cons r requests ih =>
    rw [dayTotal, skippedTotal] at ih ⊢
    simp only [amountSince_cons, ih]
    by_cases hsince : day * 86400 ≤ r.requestTime <;> by_cases hstatus : r.status = .processed <;>
      simp [hsince, hstatus] <;> omega

/-! ## Calls -/

/-- A request that is accepted is appended, and the processed requests of the day leave room for
it. -/
theorem requestRedemption_eq_ok (h : requestRedemption now requester amount s = .ok (id, s')) :
    0 < amount ∧ s'.config = s.config ∧ ∃ requests, s.requests = some requests ∧
      s'.requests = some (requests ++ [⟨requester, amount, now, .pending, none⟩]) ∧
      dailyTotal now requests + amount ≤ (getRedemptionConfig s).maxDailyRedemption := by
  simp only [requestRedemption, getDailyRedemptionTotal, getTotalReserves, readRequests, addToQueue,
    Except.bind_eq_ok, orAbort_eq_ok, require_eq_ok, exists_const, IntFormat.checkedNat_eq_ok] at h
  obtain ⟨hminimum, -, -, _, ⟨requests, hrequests, -, rfl⟩, _, ⟨-, rfl⟩, hdaily, _, -, -, s₁,
    ⟨_, -, h₁⟩, h⟩ := h
  obtain rfl := Except.ok.inj h₁
  obtain ⟨-, rfl⟩ := Prod.mk.inj (Except.ok.inj h)
  refine ⟨lt_of_lt_of_le (by decide) hminimum, rfl, requests, hrequests, ?_, hdaily⟩
  rw [show (publish _ _).requests = some (s.requests.getD [] ++ [_]) from rfl, hrequests,
    Option.getD_some]

variable {c : Commit State Call (Option ℕ)}

/-- A call of a day that keeps the configuration. -/
structure OfDay (day : ℕ) (c : Commit State Call (Option ℕ)) : Prop where
  time : c.time / 86400 = day
  keeps : newConfig? c.call = none

instance : Decidable (OfDay day c) :=
  decidable_of_iff (c.time / 86400 = day ∧ newConfig? c.call = none)
    ⟨fun h => ⟨h.1, h.2⟩, fun h => ⟨h.1, h.2⟩⟩

/-- A settlement keeps the amount and the time of every request. -/
theorem dayTotal_of_settle {settlement : Settlement} (h : settle now s settlement = .ok s') :
    dayTotal day (s'.requests.getD []) = dayTotal day (s.requests.getD []) := by
  obtain ⟨l₁, r, l₂, time, hrequests, -, hafter, -⟩ := settle_eq_ok h
  rw [hrequests, hafter, Option.getD_some, Option.getD_some]
  simp only [dayTotal, amountSince_append, amountSince_cons, and_true]

/-- The amount that a call adds to the requests. -/
def requested (call : Call) : ℕ := (amount? call).getD 0

/-- A call adds what it requests to the requests of its day. -/
theorem requested_of_exec (hc : OfDay day c)
    (he : contract.exec c.time c.call c.before = .ok (c.result, c.after)) :
    getRedemptionConfig c.after = getRedemptionConfig c.before ∧
      dayTotal day (c.after.requests.getD []) =
        dayTotal day (c.before.requests.getD []) + requested c.call := by
  obtain ⟨time, call, result, s, s'⟩ := c
  obtain ⟨hday, hkeeps⟩ := hc
  cases execute_effect he with
  | other hamount hrequests hconfig =>
    dsimp only at hamount hrequests hconfig ⊢
    rw [getRedemptionConfig, hconfig hkeeps, hrequests, requested, hamount]
    exact ⟨rfl, rfl⟩
  | request hrequest =>
    obtain ⟨-, hconfig, requests, hrequests, hafter, -⟩ := requestRedemption_eq_ok hrequest
    dsimp only at hconfig hrequests hafter hday ⊢
    -- the new request is of the day
    have hsince : day * 86400 ≤ time := hday ▸ Nat.div_mul_le_self _ _
    rw [getRedemptionConfig, hconfig, hafter, hrequests, Option.getD_some, Option.getD_some, dayTotal,
      amountSince_append, amountSince_cons, if_pos ⟨hsince, trivial⟩]
    exact ⟨rfl, rfl⟩
  | settle hsettle =>
    obtain ⟨_, _, _, _, -, -, -, -, hconfig, -⟩ := settle_eq_ok hsettle
    dsimp only at hconfig ⊢
    rw [getRedemptionConfig, hconfig]
    exact ⟨rfl, dayTotal_of_settle hsettle⟩

/-! ## Runs -/

/-- When an amount is requested, the scan of the daily total skips no request of the day. -/
def NoneSkipped (day : ℕ) (c : Commit State Call (Option ℕ)) : Prop :=
  ∀ amount, amount? c.call = some amount → skippedTotal day (c.before.requests.getD []) = 0

/-- A requested amount that passes the check of the daily total would pass it as well if the scan
skipped no request of the day. -/
def Fits (day : ℕ) (c : Commit State Call (Option ℕ)) : Prop :=
  ∀ amount, amount? c.call = some amount →
    dailyTotal c.time (c.before.requests.getD []) + amount ≤
      (getRedemptionConfig c.before).maxDailyRedemption →
    dailyTotal c.time (c.before.requests.getD []) + skippedTotal day (c.before.requests.getD []) +
      amount ≤ (getRedemptionConfig c.before).maxDailyRedemption

/-- A call that requests an amount requests one above zero, and the processed requests of the day
leave room for it. -/
theorem daily_of_exec {amount : ℕ}
    (he : contract.exec c.time c.call c.before = .ok (c.result, c.after))
    (hamount : amount? c.call = some amount) : 0 < amount ∧
      dailyTotal c.time (c.before.requests.getD []) + amount ≤
        (getRedemptionConfig c.before).maxDailyRedemption := by
  obtain ⟨time, call, result, s, s'⟩ := c
  cases execute_effect he with
  | other hnone _ _ =>
    rw [hnone] at hamount
    cases hamount
  | request hrequest =>
    obtain rfl := Option.some.inj hamount
    obtain ⟨hpos, -, requests, hrequests, -, hdaily⟩ := requestRedemption_eq_ok hrequest
    dsimp only at hrequests hdaily ⊢
    rw [hrequests, Option.getD_some]
    exact ⟨hpos, hdaily⟩
  | settle _ => cases hamount

/-- A request fits when nothing is skipped. -/
theorem fits_of_noneSkipped (h : NoneSkipped day c) : Fits day c := by
  intro amount hamount hdaily
  rwa [h amount hamount, add_zero]

/-- The amounts that a run accepts. -/
def acceptedTotal (log : List (Commit State Call (Option ℕ))) : ℕ :=
  (log.map fun c => requested c.call).sum

variable {w₀ w : World State} {log : List (Commit State Call (Option ℕ))}

/-- What a run of a day has accepted: the requests of the day, and whether they are within the
maximum. -/
structure Tallied (day : ℕ) (s₀ s : State) (log : List (Commit State Call (Option ℕ))) : Prop where
  config : getRedemptionConfig s = getRedemptionConfig s₀
  total : dayTotal day (s.requests.getD []) = dayTotal day (s₀.requests.getD []) + acceptedTotal log
  capped : (acceptedTotal log = 0 ∨ dayTotal day (s₀.requests.getD []) + acceptedTotal log ≤
    (getRedemptionConfig s₀).maxDailyRedemption) ↔ ∀ c ∈ log, Fits day c

theorem acceptedTotal_concat : acceptedTotal (log ++ [c]) = acceptedTotal log + requested c.call := by
  rw [acceptedTotal, List.map_append, List.sum_append, List.map_singleton, List.sum_singleton]
  rfl

/-- A commit of the day is within the maximum exactly when it fits. -/
theorem Tallied.commit {s₀ : State} (h : Tallied day s₀ c.before log) (hc : OfDay day c)
    (he : contract.exec c.time c.call c.before = .ok (c.result, c.after)) :
    Tallied day s₀ c.after (log ++ [c]) := by
  obtain ⟨hconfig, htotal⟩ := requested_of_exec hc he
  refine ⟨hconfig.trans h.config, by rw [htotal, h.total, acceptedTotal_concat, add_assoc], ?_⟩
  rw [List.forall_mem_append, List.forall_mem_singleton, ← h.capped, acceptedTotal_concat]
  cases hamount : amount? c.call with
  | none =>
    have hfits : Fits day c := by
      intro amount h'
      rw [hamount] at h'
      cases h'
    simp [requested, hamount, hfits]
  | some amount =>
    obtain ⟨hpos, hdaily⟩ := daily_of_exec he hamount
    -- the request has passed the check, so it fits when the maximum leaves room for all of the day
    have hfits : Fits day c ↔ dayTotal day (s₀.requests.getD []) + acceptedTotal log + amount ≤
        (getRedemptionConfig s₀).maxDailyRedemption := by
      rw [← h.total, ← h.config, dayTotal_eq hc.time, Fits, hamount]
      simp [hdaily]
    rw [hfits, requested, hamount, Option.getD_some]
    omega

/-- With the requests of the day before it, a run accepts at most the daily maximum, or nothing,
exactly when its requests fit. -/
theorem tallied_of_run (hrun : contract.Run w₀ w log) (hlog : ∀ c ∈ log, OfDay day c) :
    Tallied day w₀.store w.store log := by
  refine hrun.invariant_log (I := fun _ s log =>
    (∀ c ∈ log, OfDay day c) → Tallied day w₀.store s log)
    (fun _ => ⟨rfl, rfl, by simp [acceptedTotal]⟩) (fun _ _ _ _ _ h => h) ?_ hlog
  intro t call result s s' log ih he hlog
  rw [List.forall_mem_append, List.forall_mem_singleton] at hlog
  exact Tallied.commit (c := ⟨t, call, result, s, s'⟩) (ih hlog.1) hlog.2 he

/-- The requests that a run of a day accepts are within the daily maximum when nothing of the day is
skipped before any of them, and also when the skipped requests do not change what the check says of
any of them. In a run from a state without requests of the day they are within it only then. -/
theorem daily_cap_iff (hrun : contract.Run w₀ w log) (hlog : ∀ c ∈ log, OfDay day c) :
    ((∀ c ∈ log, NoneSkipped day c) →
        acceptedTotal log ≤ (getRedemptionConfig w₀.store).maxDailyRedemption) ∧
      ((∀ c ∈ log, Fits day c) →
        acceptedTotal log ≤ (getRedemptionConfig w₀.store).maxDailyRedemption) ∧
      (dayTotal day (w₀.store.requests.getD []) = 0 →
        acceptedTotal log ≤ (getRedemptionConfig w₀.store).maxDailyRedemption →
        ∀ c ∈ log, Fits day c) := by
  obtain ⟨-, -, hcapped⟩ := tallied_of_run hrun hlog
  have hle : (∀ c ∈ log, Fits day c) →
      acceptedTotal log ≤ (getRedemptionConfig w₀.store).maxDailyRedemption := by
    intro hfits
    rcases hcapped.mpr hfits with hnone | hle
    · -- nothing was accepted
      rw [hnone]
      exact Nat.zero_le _
    · exact (Nat.le_add_left _ _).trans hle
  refine ⟨?_, hle, ?_⟩
  · intro hskipped
    exact hle fun c hc => fits_of_noneSkipped (hskipped c hc)
  · intro hfresh hle
    exact hcapped.mp (.inr (by rwa [hfresh, zero_add]))

/-- A stored list without requests, and reserves of a hundred times the least amount. -/
def openState : State := { State.empty with
  assets := some [⟨.usd, 100000000000000, ⟨7⟩, 0, []⟩]
  currentSnapshot := some ⟨0, 100000000000000, 0, 10000, [⟨.usd, 100000000000000, ⟨7⟩, 0, []⟩]⟩
  requests := some [] }

/-- Two requests of a day, each of 6 of the 10 trillions that may be redeemed in a day; the first
one is approved between them. -/
def doubleCalls : List (ℕ × Call) :=
  [(100, .request ⟨1⟩ 6000000000000), (200, .settle (.approve 100)),
    (300, .request ⟨2⟩ 6000000000000)]

theorem doubleCalls_ofDay : ∀ c ∈ (contract.play ⟨0, openState⟩ doubleCalls).2, OfDay 0 c := by
  decide

theorem daily_cap_iff_sample :
    ((∀ c ∈ (contract.play ⟨0, openState⟩ doubleCalls).2, NoneSkipped 0 c) →
        acceptedTotal (contract.play ⟨0, openState⟩ doubleCalls).2 ≤
          (getRedemptionConfig openState).maxDailyRedemption) ∧
      ((∀ c ∈ (contract.play ⟨0, openState⟩ doubleCalls).2, Fits 0 c) →
        acceptedTotal (contract.play ⟨0, openState⟩ doubleCalls).2 ≤
          (getRedemptionConfig openState).maxDailyRedemption) ∧
      (dayTotal 0 (openState.requests.getD []) = 0 →
        acceptedTotal (contract.play ⟨0, openState⟩ doubleCalls).2 ≤
          (getRedemptionConfig openState).maxDailyRedemption →
        ∀ c ∈ (contract.play ⟨0, openState⟩ doubleCalls).2, Fits 0 c) :=
  daily_cap_iff (Contract.run_play _ _ doubleCalls (by decide)) doubleCalls_ofDay

/-- Both requests are accepted, and together they are above the maximum. -/
theorem exceeded_cap :
    ∃ w log, contract.Run ⟨0, openState⟩ w log ∧ (∀ c ∈ log, OfDay 0 c) ∧
      (getRedemptionConfig openState).maxDailyRedemption = 10000000000000 ∧
      acceptedTotal log = 12000000000000 :=
  ⟨_, _, Contract.run_play _ _ doubleCalls (by decide), doubleCalls_ofDay, by decide, by decide⟩

end Stellara.Reserve
