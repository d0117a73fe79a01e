import Mathlib.Data.List.Nodup
import Stellara.Reserve.Redemption

/-!
# Requests for redemption

The list of requests is only stored by a request, which reads it first. So an initialised contract
takes no request, and it serves its holders only while no amount is within its limits. The ids that
it issues lead to their requests because it issues none.

## Main definitions

* `WithinLimits`: the amounts that may be redeemed
* `Serves`: every request within the limits succeeds
* `Identified`: the id of a request leads to it later
* `Closed`: no amount is within the limits

## Main results

* `serves_iff`: a contract without a stored list serves exactly when it is closed
* `redeemable_iff`: the same in all states of a run, beside the ids
-/

namespace Stellara.Reserve

variable {s s' : State} {now id : ℕ}

/-! ## Ids -/

/-- The place of the request that the calls with an id read and write: the first one with this
id. -/
def position? (s : State) (id : ℕ) : Option ℕ :=
  (s.requests.getD []).findIdx? fun request => getRequestId request = id

/-! ## Limits -/

/-- The amounts that may be redeemed: not below the minimum and the threshold, not above what is
left of the daily maximum nor above the reserves, and nothing during an emergency. -/
structure WithinLimits (now : ℕ) (s : State) (amount : ℕ) : Prop where
  active : (getRedemptionConfig s).emergencyPause = false
  minimum : minimumRedemption ≤ amount
  threshold : (getRedemptionConfig s).largeHolderThreshold ≤ amount
  daily : dailyTotal now (s.requests.getD []) + amount ≤ (getRedemptionConfig s).maxDailyRedemption
  reserves : ∃ snapshot ∈ s.currentSnapshot, amount ≤ snapshot.totalReserves

/-- Every request of an amount within the limits succeeds. -/
def Serves (s : State) : Prop :=
  ∀ now requester amount, WithinLimits now s amount →
    ∃ p, requestRedemption now requester amount s = .ok p

/-- Redemptions are paused, or the reserves or the daily maximum are below the least amount. -/
def Closed (s : State) : Prop :=
  (getRedemptionConfig s).emergencyPause = true ∨ ∀ snapshot ∈ s.currentSnapshot,
    min (getRedemptionConfig s).maxDailyRedemption snapshot.totalReserves <
      max minimumRedemption (getRedemptionConfig s).largeHolderThreshold

/-- Without a stored list there is no daily total, and no request succeeds. -/
theorem requestRedemption_ne_ok (h : s.requests = none) {requester : Address} {amount : ℕ}
    {p : ℕ × State} : requestRedemption now requester amount s ≠ .ok p := by
  intro he
  simp only [requestRedemption, getDailyRedemptionTotal, readRequests, h, orAbort,
    Except.error_bind, Except.bind_eq_ok, reduceCtorEq, exists_false, and_false] at he

/-- A contract without a stored list serves exactly when no amount is within its limits. -/
theorem serves_iff (h : s.requests = none) : Serves s ↔ Closed s := by
  constructor
  · intro hserves
    by_contra hopen
    simp only [Closed, not_or, Bool.not_eq_true, not_forall, not_lt] at hopen
    obtain ⟨hactive, snapshot, hsnapshot, hle⟩ := hopen
    -- the least amount is within the limits
    have hwithin : WithinLimits 0 s
        (max minimumRedemption (getRedemptionConfig s).largeHolderThreshold) := by
      refine ⟨hactive, le_max_left _ _, le_max_right _ _, ?_, snapshot, hsnapshot,
        hle.trans (min_le_right _ _)⟩
      rw [h, Option.getD_none, dailyTotal, List.filter_nil, List.map_nil, List.sum_nil, zero_add]
      exact hle.trans (min_le_left _ _)
    obtain ⟨p, hp⟩ := hserves 0 ⟨0⟩ _ hwithin
    exact requestRedemption_ne_ok h hp
  · rintro hclosed now requester amount ⟨hactive, hminimum, hthreshold, hdaily, snapshot, hsnapshot,
      hreserves⟩
    rcases hclosed with hpaused | hfew
    · rw [hpaused] at hactive
      cases hactive
    · have hlt := hfew snapshot hsnapshot
      have hle := le_min ((Nat.le_add_left _ _).trans hdaily) hreserves
      exact absurd (hlt.trans_le (max_le hminimum hthreshold)) (not_lt.mpr hle)

/-! ## Runs -/

variable {w : World State} {log : List (Commit State Call (Option ℕ))} {time₀ : ℕ}
  {stablecoin : Address}

/-- The ids that a run issued, in order. -/
def issuedOf (log : List (Commit State Call (Option ℕ))) : List ℕ := log.filterMap Commit.result

/-- The id of a committed request leads to that request in every later state. -/
def Identified (w : World State) (log : List (Commit State Call (Option ℕ))) : Prop :=
  ∀ l₁ c l₂ id, log = l₁ ++ c :: l₂ → c.result = some id →
    ∀ s, s = w.store ∨ (∃ c' ∈ c :: l₂, s = c'.after) →
      position? s id = some (c.before.requests.getD []).length

/-- Every request within the limits succeeds in the states of the run, ids identify their requests,
and two requests never share one. -/
structure Redeemable (w : World State) (log : List (Commit State Call (Option ℕ))) : Prop where
  serves : Serves w.store ∧ ∀ c ∈ log, Serves c.before ∧ Serves c.after
  identified : Identified w log
  distinct : (issuedOf log).Nodup

/-- A contract without a stored list takes no request and settles none, and stores no list. -/
theorem execute_of_none (h : s.requests = none) {call : Call} {result : Option ℕ}
    (he : execute now s call = .ok (result, s')) : result = none ∧ s'.requests = none := by
  cases execute_effect he with
  | other _ hrequests _ => exact ⟨rfl, hrequests.trans h⟩
  | request hrequest => exact absurd hrequest (requestRedemption_ne_ok h)
  | @settle settlement hsettle =>
    cases settlement <;>
      simp [settle, approveRedemption, rejectRedemption, processRedemption, readRequests, h,
        orAbort] at hsettle

/-- After every run of an initialised contract there is no stored list, and nothing was issued. -/
theorem requests_of_run (hrun : contract.Run ⟨time₀, init time₀ stablecoin .empty⟩ w log) :
    (w.store.requests = none ∧ ∀ c ∈ log, c.before.requests = none ∧ c.after.requests = none) ∧
      ∀ c ∈ log, c.result = none := by
  have hkeep : ∀ t k r s s', s.requests = none → contract.exec t k s = .ok (r, s') →
      s'.requests = none := fun t k r s s' hs he => (execute_of_none hs he).2
  have hlog := hrun.invariant_of_mem hkeep rfl
  exact ⟨⟨hrun.invariant hkeep rfl, hlog⟩, fun c hc =>
    (execute_of_none (hlog c hc).1 (hrun.exec_of_mem c hc)).1⟩

/-- A run of an initialised contract serves its holders exactly when it is closed in every state. -/
theorem redeemable_iff (hrun : contract.Run ⟨time₀, init time₀ stablecoin .empty⟩ w log) :
    Redeemable w log ↔ Closed w.store ∧ ∀ c ∈ log, Closed c.before ∧ Closed c.after := by
  obtain ⟨⟨hend, hlog⟩, hresult⟩ := requests_of_run hrun
  have hserves : (Serves w.store ∧ ∀ c ∈ log, Serves c.before ∧ Serves c.after) ↔
      Closed w.store ∧ ∀ c ∈ log, Closed c.before ∧ Closed c.after :=
    and_congr (serves_iff hend) (forall₂_congr fun c hc =>
      and_congr (serves_iff (hlog c hc).1) (serves_iff (hlog c hc).2))
  rw [← hserves]
  refine ⟨Redeemable.serves, fun h => ⟨h, fun l₁ c l₂ id hsplit hid => ?_, ?_⟩⟩
  · -- nothing was issued
    rw [hresult c (by rw [hsplit]; simp)] at hid
    cases hid
  · rw [issuedOf, List.filterMap_eq_nil_iff.mpr hresult]
    exact List.nodup_nil

/-- Reserves of ten times the least amount. -/
def fundedCalls : List (ℕ × Call) := [(1, .addAsset .usd 10000000000000 ⟨7⟩ [])]

theorem redeemable_iff_sample :
    Redeemable (contract.play ⟨0, init 0 ⟨9⟩ .empty⟩ fundedCalls).1
        (contract.play ⟨0, init 0 ⟨9⟩ .empty⟩ fundedCalls).2 ↔
      Closed (contract.play ⟨0, init 0 ⟨9⟩ .empty⟩ fundedCalls).1.store ∧
        ∀ c ∈ (contract.play ⟨0, init 0 ⟨9⟩ .empty⟩ fundedCalls).2,
          Closed c.before ∧ Closed c.after :=
  redeemable_iff (Contract.run_play _ _ fundedCalls (by decide))

/-- A request of the least amount fails, with ten times as much in the reserves. -/
theorem refused_request :
    ∃ w log, contract.Run ⟨0, init 0 ⟨9⟩ .empty⟩ w log ∧
      WithinLimits 1 w.store 1000000000000 ∧
      requestRedemption 1 ⟨3⟩ 1000000000000 w.store = .error (.error .redemptionAmountTooSmall) ∧
      ¬ Redeemable w log := by
  have hwithin : WithinLimits 1 (contract.play ⟨0, init 0 ⟨9⟩ .empty⟩ fundedCalls).1.store
      1000000000000 := ⟨rfl, by decide, by decide, by decide, _, rfl, by decide⟩
  have hrefused : requestRedemption 1 ⟨3⟩ 1000000000000
      (contract.play ⟨0, init 0 ⟨9⟩ .empty⟩ fundedCalls).1.store =
        .error (.error .redemptionAmountTooSmall) := rfl
  refine ⟨_, _, Contract.run_play _ _ fundedCalls (by decide), hwithin, hrefused, fun h => ?_⟩
  obtain ⟨p, hp⟩ := h.serves.1 1 ⟨3⟩ _ hwithin
  rw [hrefused] at hp
  cases hp

end Stellara.Reserve
