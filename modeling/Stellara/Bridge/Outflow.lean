import Mathlib.Algebra.BigOperators.Group.List.Basic
import Stellara.Bridge.Effects

/-!
# The outflow limit

A rate limit counts the deposits of its asset in a window, which starts at `set_rate_limit` and
again at the first deposit after its end. The bridge does not look at the sign of an amount: a
negative one is accepted, and it takes usage back that other deposits have made. Where no deposit of
a limited asset is negative the usage is the outflow of the window, and the limit holds.

## Main definitions

* `windowAmounts`: the amounts deposited in the current window of an asset
* `outflow`: the sum of the positive ones
* `Respected`: a deposit keeps to the limit and takes no usage back
* `NonNegative`: the amount of a deposit of a limited asset is not negative

## Main results

* `tracked_commit`: a deposit that is not negative keeps the usage equal to the outflow
* `outflow_iff`: the deposits of a run respect the limits exactly when none of them is negative
* `negative_deposit`: two deposits of 100 each under a limit of 100
-/

namespace Stellara.Bridge

variable {Hash Signature : Type} {sha256 : List UInt8 → Hash} {clock : ℕ → ℕ}

/-! ## Windows -/

/-- The amounts of a window after one more commit. -/
def nextWindow (clock : ℕ → ℕ) (asset : Address) (amounts : List ℤ)
    (c : Commit (State Hash) (Call Signature) (Option Hash)) : List ℤ :=
  match c.call with
  | .deposit _ asset' amount _ _ =>
    if asset' ≠ asset then amounts else
      match c.before.rateLimits.lookup asset with
      -- the first deposit at or after the end of a window starts the next one
      | some rl => if rl.lastUpdate + rl.window ≤ clock c.time then [amount] else amounts ++ [amount]
      | none => amounts
  | .setRateLimit asset' _ _ => if asset' = asset then [] else amounts
  | _ => amounts

/-- The amounts that a run deposited in the current window of an asset. -/
def windowAmounts (clock : ℕ → ℕ) (asset : Address)
    (log : List (Commit (State Hash) (Call Signature) (Option Hash))) : List ℤ :=
  log.foldl (nextWindow clock asset) []

/-- The sum of the positive amounts. -/
def outflow (amounts : List ℤ) : ℤ := (amounts.filter fun amount => 0 < amount).sum

theorem outflow_append {amounts : List ℤ} {amount : ℤ} (h : 0 ≤ amount) :
    outflow (amounts ++ [amount]) = outflow amounts + amount := by
  unfold outflow
  rw [List.filter_append, List.sum_append]
  rcases h.eq_or_lt with rfl | hpos
  · rfl
  · rw [List.filter_singleton, decide_eq_true hpos, cond_true, List.sum_singleton]

variable {log past : List (Commit (State Hash) (Call Signature) (Option Hash))}
  {c : Commit (State Hash) (Call Signature) (Option Hash)} {w : World (State Hash)} {sequence₀ : ℕ}

theorem windowAmounts_append (asset : Address) : windowAmounts clock asset (log ++ [c]) =
    nextWindow clock asset (windowAmounts clock asset log) c := by
  rw [windowAmounts, List.foldl_append]
  rfl

/-! ## Limits -/

/-- A deposit of an asset with a rate limit keeps the outflow of the window to the limit, and
reduces the usage neither of this window nor of another asset. -/
def Respected (clock : ℕ → ℕ) (past : List (Commit (State Hash) (Call Signature) (Option Hash)))
    (c : Commit (State Hash) (Call Signature) (Option Hash)) : Prop :=
  ∀ src asset amount destChain recipient rl, c.call = .deposit src asset amount destChain recipient →
    c.before.rateLimits.lookup asset = some rl →
    outflow (windowAmounts clock asset (past ++ [c])) ≤ rl.limit ∧
      (∃ rl', c.after.rateLimits.lookup asset = some rl' ∧
        (started (clock c.time) rl).currentUsage ≤ rl'.currentUsage) ∧
      ∀ asset', asset' ≠ asset →
        c.after.rateLimits.lookup asset' = c.before.rateLimits.lookup asset'

/-- A deposit of an asset with a rate limit is not negative. -/
def NonNegative (c : Commit (State Hash) (Call Signature) (Option Hash)) : Prop :=
  ∀ src asset amount destChain recipient, c.call = .deposit src asset amount destChain recipient →
    c.before.rateLimits.lookup asset ≠ none → 0 ≤ amount

/-- The stored usages are the outflows of the windows. -/
def Tracked (clock : ℕ → ℕ) (s : State Hash)
    (log : List (Commit (State Hash) (Call Signature) (Option Hash))) : Prop :=
  ∀ asset rl, s.rateLimits.lookup asset = some rl →
    rl.currentUsage = outflow (windowAmounts clock asset log)

/-- What a deposit of an asset with a rate limit writes. -/
theorem lookup_of_deposit {src asset recipient : Address} {amount : ℤ} {destChain : ℕ} {rl : RateLimit}
    (h : (contract sha256 Signature clock).exec c.time c.call c.before = .ok (c.result, c.after))
    (hcall : c.call = .deposit src asset amount destChain recipient)
    (hrl : c.before.rateLimits.lookup asset = some rl) :
    (started (clock c.time) rl).currentUsage + amount ≤ rl.limit ∧
      c.after.rateLimits = c.before.rateLimits.insert asset (counted (clock c.time) amount rl) := by
  have hexec : execute sha256 ⟨c.time, clock c.time⟩ c.before c.call = .ok (c.result, c.after) := h
  rw [hcall] at hexec
  obtain ⟨-, hcounted⟩ := (execute_effect hexec).of_deposit
  generalize c.after.rateLimits = limits at hcounted ⊢
  cases hcounted with
  | unlimited hnone =>
    rw [hnone] at hrl
    cases hrl
  | limited hsome hle =>
    obtain rfl := Option.some.inj (hsome.symm.trans hrl)
    exact ⟨hle, rfl⟩

/-- The window of a deposit and its usage start anew together. -/
theorem outflow_deposit {src asset recipient : Address} {amount : ℤ} {destChain : ℕ} {rl : RateLimit}
    (htracked : Tracked clock c.before log)
    (hcall : c.call = .deposit src asset amount destChain recipient)
    (hrl : c.before.rateLimits.lookup asset = some rl) (hamount : 0 ≤ amount) :
    outflow (windowAmounts clock asset (log ++ [c])) =
      (started (clock c.time) rl).currentUsage + amount := by
  rw [windowAmounts_append]
  simp only [nextWindow, hcall, hrl, ne_eq, not_true_eq_false, if_false, started]
  split
  · -- the first deposit of a window
    have hfirst : outflow ([] ++ [amount]) = outflow [] + amount := outflow_append hamount
    exact hfirst
  · rw [outflow_append hamount, htracked asset rl hrl]

/-- A commit that deposits nothing negative keeps the usages equal to the outflows. -/
theorem tracked_commit (htracked : Tracked clock c.before log) (hc : NonNegative c)
    (h : (contract sha256 Signature clock).exec c.time c.call c.before = .ok (c.result, c.after)) :
    Tracked clock c.after (log ++ [c]) := by
  intro asset rl hrl
  obtain ⟨t, call, r, s, s'⟩ := c
  change execute sha256 ⟨t, clock t⟩ s call = .ok (r, s') at h
  cases execute_effect h with
  | administered hcall =>
    rw [windowAmounts_append]
    cases call <;> first | exact htracked asset rl hrl | cases hcall
  | withdrew _ =>
    rw [windowAmounts_append]
    exact htracked asset rl hrl
  | @limited asset' limit window =>
    rw [windowAmounts_append]
    -- a new limit starts a window, without usage
    simp only [Store.lookup_insert_ite] at hrl
    simp only [nextWindow]
    split at hrl
    · rename_i heq
      obtain rfl := Option.some.inj hrl
      rw [if_pos heq.symm]
      rfl
    · rename_i hne
      rw [if_neg (Ne.symm hne)]
      exact htracked asset rl hrl
  | @deposited src asset' recipient amount destChain id limits hid hcounted =>
    by_cases hasset : asset' = asset
    · subst hasset
      cases hcounted with
      | unlimited hnone =>
        simp only [hnone] at hrl
        cases hrl
      | @limited rl₀ hsome hle =>
        simp only [Store.lookup_insert_ite, if_true] at hrl
        obtain rfl := Option.some.inj hrl
        exact (outflow_deposit htracked rfl hsome
          (hc _ _ _ _ _ rfl (by simp [hsome]))).symm
    · -- the window of another asset goes on
      rw [windowAmounts_append]
      simp only [nextWindow, ne_eq, hasset, not_false_eq_true, if_true]
      refine htracked asset rl ?_
      cases hcounted with
      | unlimited _ => exact hrl
      | limited _ _ =>
        simp only [Store.lookup_insert_ite] at hrl
        rwa [if_neg (Ne.symm hasset)] at hrl

/-- Beside right usages, a deposit respects the limits exactly when it is not negative. -/
theorem respected_iff (htracked : Tracked clock c.before log)
    (h : (contract sha256 Signature clock).exec c.time c.call c.before = .ok (c.result, c.after)) :
    Respected clock log c ↔ NonNegative c := by
  constructor
  · intro hkept src asset amount destChain recipient hcall hlimit
    obtain ⟨rl, hrl⟩ := Option.ne_none_iff_exists'.mp hlimit
    obtain ⟨-, ⟨rl', hrl', husage⟩, -⟩ := hkept _ _ _ _ _ rl hcall hrl
    obtain ⟨-, hafter⟩ := lookup_of_deposit h hcall hrl
    -- the usage grows by the amount, so it does not fall only when the amount is not negative
    simp only [hafter, Store.lookup_insert_ite, if_true] at hrl'
    obtain rfl := Option.some.inj hrl'
    exact nonneg_of_le_add_right husage
  · intro hc src asset amount destChain recipient rl hcall hrl
    have hamount := hc _ _ _ _ _ hcall (by simp [hrl])
    obtain ⟨hle, hafter⟩ := lookup_of_deposit h hcall hrl
    refine ⟨?_, ⟨counted (clock c.time) amount rl, ?_, ?_⟩, fun asset' hne => ?_⟩
    · rwa [outflow_deposit htracked hcall hrl hamount]
    · rw [hafter, Store.lookup_insert_ite, if_pos rfl]
    · exact Int.le_add_of_nonneg_right hamount
    · rw [hafter, Store.lookup_insert_ite, if_neg hne]

/-! ## Runs -/

/-- In every run all deposits respect the limits exactly when no deposit of a limited asset is
negative. -/
theorem outflow_iff (hrun : (contract sha256 Signature clock).Run ⟨sequence₀, .empty⟩ w log) :
    (∀ past c, past ++ [c] <+: log → Respected clock past c) ↔ ∀ c ∈ log, NonNegative c := by
  refine hrun.log_iff
    (S := fun s log => (∀ past c, past ++ [c] <+: log → Respected clock past c) → Tracked clock s log)
    (I := fun _ log => ∀ past c, past ++ [c] <+: log → Respected clock past c)
    ⟨fun _ asset rl hrl => by simp [State.empty] at hrl, by simp⟩ ?_
  intro c log htracked he
  rw [List.forall_prefix_concat]
  refine ⟨fun hall => ?_, ?_⟩
  · have hbefore := htracked hall.1
    exact tracked_commit hbefore ((respected_iff hbefore he).mp hall.2) he
  · exact and_congr_right fun hall => respected_iff (htracked hall) he

/-- An asset with the limit 100 in a window of 1000, from which 100 is deposited, -100 and 100
again. -/
def negativeCalls : List (ℕ × Call ℕ) :=
  [(1, .init ⟨5⟩ ⟨6⟩ 2 1), (2, .setRateLimit ⟨4⟩ 100 1000), (3, .deposit ⟨7⟩ ⟨4⟩ 100 2 ⟨8⟩),
    (4, .deposit ⟨7⟩ ⟨4⟩ (-100) 2 ⟨8⟩), (5, .deposit ⟨7⟩ ⟨4⟩ 100 2 ⟨8⟩)]

theorem outflow_iff_sample :
    (∀ past c, past ++ [c] <+: ((contract id ℕ id).play ⟨0, .empty⟩ negativeCalls).2 →
        Respected id past c) ↔
      ∀ c ∈ ((contract id ℕ id).play ⟨0, .empty⟩ negativeCalls).2, NonNegative c :=
  outflow_iff (Contract.run_play _ _ negativeCalls (by decide))

/-- The three deposits are accepted, and the outflow of the window is twice its limit. -/
theorem negative_deposit :
    ∃ (w : World (State (List UInt8))) (log : List (Commit _ (Call ℕ) (Option (List UInt8)))),
      (contract id ℕ id).Run ⟨0, .empty⟩ w log ∧
        w.store.rateLimits.lookup ⟨4⟩ = some ⟨100, 1000, 100, 2⟩ ∧
        outflow (windowAmounts id ⟨4⟩ log) = 200 ∧
        ¬ ∀ past c, past ++ [c] <+: log → Respected id past c := by
  refine ⟨_, _, Contract.run_play _ _ negativeCalls (by decide), by decide, by decide, fun h => ?_⟩
  have hlast := h _ (((contract id ℕ id).play ⟨0, .empty⟩ negativeCalls).2.getLast (by decide))
    ⟨[], by rw [List.append_nil, List.dropLast_append_getLast]⟩
  exact absurd (hlast _ _ _ _ _ _ rfl rfl).1 (by decide)

end Stellara.Bridge
