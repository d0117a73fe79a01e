import Stellara.Trading.Guards
import Stellara.Trading.Upgradeable

/-!
# The rate limiter

A call that trades on the book is counted for its trader and for everybody, under the index of its
window: its time divided by the window length in force. The counters under an index `k` therefore
hold every call that had the index `k` when it was made. As long as the window length stays the
same these are the calls of the `k`-th interval; after it was changed they are those together with
stale calls, which were made outside the interval under another window length.

## Main definitions

* `InInterval W k t`: the time `t` is in the `k`-th interval of length `W`
* `callsIn`, `staleIn`, `usage`: how many calls were made in an interval, how many outside it under
  its index, and how many under its index
* `InForce cfg k log`: a configuration is in force throughout an interval
* `WithinLimits`, `NeverRefused`: what the limiter is for
* `RoomBesideStale`: the stale calls of an interval leave room for a trader under the limits

## Main results

* `metered_of_run`: the counters hold the calls by their index
* `WithinLimits.execute`: no call exceeds the limits of an interval
* `rate_limits_iff`: the limiter is right after a run exactly when the stale calls leave room
-/

namespace Stellara.UpgradeableTrading

open Trading (RateLimitConfig RateLimits TradeError)

abbrev Log (τ : Type) := List (Commit (State τ) Call Result)

/-! ## Intervals -/

/-- The time is in the `k`-th interval of length `W`. -/
def InInterval (W k t : ℕ) : Prop := k * W ≤ t ∧ t < (k + 1) * W

instance (W k t : ℕ) : Decidable (InInterval W k t) := inferInstanceAs (Decidable (_ ∧ _))

/-- The intervals of a length are numbered by the quotient of their times. -/
theorem inInterval_iff {W k t : ℕ} (hW : 0 < W) : InInterval W k t ↔ t / W = k := by
  rw [InInterval, ← Nat.le_div_iff_mul_le hW, ← Nat.div_lt_iff_lt_mul hW]
  omega

theorem InInterval.length_pos {W k t : ℕ} (h : InInterval W k t) : 0 < W :=
  Nat.pos_of_mul_pos_left (Nat.zero_lt_of_lt h.2)

/-! ## Calls that are counted -/

/-- The trader that a call is counted for. -/
def Call.trader? : Call → Option Address
  | .trading c => c.trader?
  | _ => none

/-- The call is counted for a trader of the group `who`. -/
def Call.isBy (who : Address → Bool) (call : Call) : Bool := call.trader?.any who

def everyone : Address → Bool := fun _ => true

def only (trader : Address) : Address → Bool := fun a => a = trader

variable {τ : Type}

def State.limits (s : State τ) : RateLimits := s.trading.limits

/-- The index of the window that a call was made in, by the window length in force then. -/
def windowOf (c : Commit (State τ) Call Result) : ℕ :=
  c.time / c.before.limits.readConfig.windowSecs

/-- How many calls were made in an interval. -/
def callsIn (who : Address → Bool) (W k : ℕ) (log : Log τ) : ℕ :=
  log.countP fun c => c.call.isBy who ∧ InInterval W k c.time

/-- How many calls were made under the index of an interval. -/
def usage (who : Address → Bool) (k : ℕ) (log : Log τ) : ℕ :=
  log.countP fun c => c.call.isBy who ∧ windowOf c = k

/-- How many calls were made under the index of an interval, but outside it. -/
def staleIn (who : Address → Bool) (W k : ℕ) (log : Log τ) : ℕ :=
  log.countP fun c => c.call.isBy who ∧ windowOf c = k ∧ ¬ InInterval W k c.time

/-- The configuration is in force throughout the `k`-th of its intervals. -/
def InForce (cfg : RateLimitConfig) (k : ℕ) (log : Log τ) : Prop :=
  ∀ c ∈ log, InInterval cfg.windowSecs k c.time →
    c.before.limits.readConfig = cfg ∧ c.after.limits.readConfig = cfg

/-- The limit that applies to a trader. -/
def userLimitOf (l : RateLimits) (trader : Address) : ℕ :=
  if l.isPremiumUser trader then l.readConfig.premiumUserLimit else l.readConfig.userLimit

/-! ## What the limiter is for -/

/-- No interval of a configuration that is in force throughout it has more calls than the global
limit, nor more calls of a trader than the limits that apply to the trader in it. -/
def WithinLimits (log : Log τ) : Prop :=
  ∀ cfg k, InForce cfg k log →
    callsIn everyone cfg.windowSecs k log ≤ cfg.globalLimit ∧
      ∀ trader limit, (∀ c ∈ log, c.call.isBy (only trader) = true →
          InInterval cfg.windowSecs k c.time → userLimitOf c.before.limits trader ≤ limit) →
        callsIn (only trader) cfg.windowSecs k log ≤ limit

/-- The limiter refuses a call. -/
def RefusedForRate (x : Outcome TradeError RateLimits) : Prop :=
  x = .error (.error .rateLimitExceeded) ∨ x = .error (.error .globalRateLimitExceeded) ∨
    x = .error (.error .invalidRateLimitConfig)

/-- The trader is under both limits in the interval of the time `t`, if the configuration stays in
force throughout it. -/
structure UnderLimits (s : State τ) (log : Log τ) (t k : ℕ) (trader : Address) : Prop where
  interval : InInterval s.limits.readConfig.windowSecs k t
  inForce : InForce s.limits.readConfig k log
  user : callsIn (only trader) s.limits.readConfig.windowSecs k log < userLimitOf s.limits trader
  global : callsIn everyone s.limits.readConfig.windowSecs k log < s.limits.readConfig.globalLimit

/-- From now on a trader under both limits is never refused. -/
def NeverRefused (w : World (State τ)) (log : Log τ) : Prop :=
  ∀ t k trader, w.now ≤ t → UnderLimits w.store log t k trader →
    ¬ RefusedForRate (w.store.limits.checkAndConsume t trader)

/-- A trader under both limits stays so when the stale calls of the interval are added. -/
def RoomBesideStale (w : World (State τ)) (log : Log τ) : Prop :=
  ∀ t k trader, w.now ≤ t → UnderLimits w.store log t k trader →
    let cfg := w.store.limits.readConfig
    callsIn (only trader) cfg.windowSecs k log + staleIn (only trader) cfg.windowSecs k log <
        userLimitOf w.store.limits trader ∧
      callsIn everyone cfg.windowSecs k log + staleIn everyone cfg.windowSecs k log <
        cfg.globalLimit

/-! ## Counting -/

section Counting

variable {who : Address → Bool} {W k : ℕ} {log : Log τ} {c : Commit (State τ) Call Result}
  {cfg : RateLimitConfig}

theorem callsIn_append : callsIn who W k (log ++ [c]) =
    callsIn who W k log + if c.call.isBy who ∧ InInterval W k c.time then 1 else 0 := by
  rw [callsIn, List.countP_append, List.countP_singleton]
  simp only [decide_eq_true_eq]
  rfl

theorem usage_append : usage who k (log ++ [c]) =
    usage who k log + if c.call.isBy who ∧ windowOf c = k then 1 else 0 := by
  rw [usage, List.countP_append, List.countP_singleton]
  simp only [decide_eq_true_eq]
  rfl

/-- The calls under the index of an interval are those made in it and the stale ones, if its
configuration is in force throughout it. -/
theorem usage_eq (hforce : InForce cfg k log) :
    usage who k log = callsIn who cfg.windowSecs k log + staleIn who cfg.windowSecs k log := by
  induction log with
  | nil => rfl
  | cons c log ih =>
    have ih := ih fun c' hc' => hforce c' (List.mem_cons_of_mem c hc')
    -- in the interval the index of a call is that of the interval
    have hindex : InInterval cfg.windowSecs k c.time → windowOf c = k := by
      intro hin
      rw [windowOf, (hforce c List.mem_cons_self hin).1]
      exact (inInterval_iff hin.length_pos).mp hin
    unfold usage callsIn staleIn at *
    simp only [List.countP_cons, decide_eq_true_eq, ih]
    by_cases hin : InInterval cfg.windowSecs k c.time
    · simp only [hin, hindex hin, not_true_eq_false, and_false, and_true, if_false]
      omega
    · simp only [hin, not_false_eq_true, and_false, and_true, if_false]
      omega

theorem callsIn_le_usage (hforce : InForce cfg k log) :
    callsIn who cfg.windowSecs k log ≤ usage who k log :=
  (usage_eq hforce).symm ▸ Nat.le_add_right _ _

theorem InForce.of_append (h : InForce cfg k (log ++ [c])) : InForce cfg k log :=
  fun c' hc' => h c' (List.mem_append_left _ hc')

/-- A call that is counted for nobody leaves every count. -/
theorem isBy_of_trader_none {call : Call} (h : call.trader? = none) : call.isBy who = false := by
  rw [Call.isBy, h, Option.any_none]

theorem isBy_of_trader {call : Call} {trader : Address} (h : call.trader? = some trader) :
    call.isBy who = who trader := by
  rw [Call.isBy, h, Option.any_some]

/-- Calls that were made under one window length are not stale for it. -/
theorem staleIn_eq_zero (hW : 0 < W)
    (h : ∀ c ∈ log, c.call.trader? ≠ none → c.before.limits.readConfig.windowSecs = W) :
    staleIn who W k log = 0 := by
  refine List.countP_eq_zero.mpr fun c hc => ?_
  simp only [decide_eq_true_eq, not_and, not_not]
  intro hby hindex
  have htrader : c.call.trader? ≠ none := fun hnone => by
    rw [isBy_of_trader_none hnone] at hby
    cases hby
  rw [windowOf, h c hc htrader] at hindex
  exact (inInterval_iff hW).mpr hindex

end Counting

/-! ## The limiter -/

section Limiter

variable {now : ℕ} {trader : Address} {l l' : RateLimits}

/-- The limits after a call of the trader was counted in a window. -/
def consumed (l : RateLimits) (trader : Address) (window : ℕ) : RateLimits :=
  { l with
    userUsage := l.userUsage.insert (trader, window) (l.getUserWindowUsage trader window + 1)
    globalUsage := l.globalUsage.insert window (l.getGlobalWindowUsage window + 1) }

/-- A call that passes is under both limits by the counters of its window, which then count it. -/
theorem checkAndConsume_eq_ok (h : l.checkAndConsume now trader = .ok l') :
    l.getUserWindowUsage trader (now / l.readConfig.windowSecs) < userLimitOf l trader ∧
      l.getGlobalWindowUsage (now / l.readConfig.windowSecs) < l.readConfig.globalLimit ∧
      l' = consumed l trader (now / l.readConfig.windowSecs) := by
  simp only [RateLimits.checkAndConsume, Except.bind_eq_ok, require_eq_ok, exists_const,
    IntFormat.checkedNat_eq_ok] at h
  obtain ⟨-, huser, hglobal, _, ⟨-, rfl⟩, _, ⟨-, rfl⟩, h⟩ := h
  exact ⟨huser, hglobal, (Except.ok.inj h).symm⟩

/-- A call is refused when one of the counters of its window is not below its limit. -/
theorem refusedForRate_iff (hpos : RateLimitsPositive l.readConfig) :
    RefusedForRate (l.checkAndConsume now trader) ↔
      ¬ (l.getUserWindowUsage trader (now / l.readConfig.windowSecs) < userLimitOf l trader ∧
        l.getGlobalWindowUsage (now / l.readConfig.windowSecs) < l.readConfig.globalLimit) := by
  have hvalid : ¬ (l.readConfig.windowSecs = 0 ∨ l.readConfig.userLimit = 0 ∨
      l.readConfig.globalLimit = 0 ∨ l.readConfig.premiumUserLimit = 0) := hpos.not_zero
  simp only [RefusedForRate, RateLimits.checkAndConsume, Except.bind_eq_error,
    require_eq_error, require_eq_ok, IntFormat.checkedNat_eq_error, Fault.error.injEq, reduceCtorEq,
    and_false, and_true, false_or, or_false, exists_const]
  simp only [hvalid, not_false_eq_true, not_true_eq_false, true_and, or_false]
  unfold userLimitOf
  tauto

end Limiter

/-! ## Runs -/

/-- The counters hold the calls by their index, and the configuration has no zero. -/
structure Metered (s : State τ) (log : Log τ) : Prop where
  user : ∀ trader k, s.limits.getUserWindowUsage trader k = usage (only trader) k log
  global : ∀ k, s.limits.getGlobalWindowUsage k = usage everyone k log
  positive : RateLimitsPositive s.limits.readConfig

section Runs

variable {s s' : State τ} {log : Log τ} {now : ℕ} {call : Call} {r : Result}

/-- The commit of a call. -/
abbrev committed (now : ℕ) (call : Call) (r : Result) (s s' : State τ) :
    Commit (State τ) Call Result := ⟨now, call, r, s, s'⟩

theorem metered_empty (tokens : τ) : Metered (State.empty tokens) [] := by
  have hpos : RateLimitsPositive ⟨1, 4294967295, 4294967295, 4294967295⟩ := by
    constructor <;> decide
  exact ⟨fun _ _ => rfl, fun _ => rfl, hpos⟩

/-- A call that is counted for nobody leaves the counters. -/
theorem Metered.uncounted (h : Metered s log) (htrader : call.trader? = none)
    (huser : s'.limits.userUsage = s.limits.userUsage)
    (hglobal : s'.limits.globalUsage = s.limits.globalUsage)
    (hcfg : s'.limits.cfg = s.limits.cfg ∨
      ∃ cfg, s'.limits.cfg = some cfg ∧ RateLimitsPositive cfg) :
    Metered s' (log ++ [committed now call r s s']) := by
  refine ⟨fun trader k => ?_, fun k => ?_, ?_⟩
  · rw [RateLimits.getUserWindowUsage, huser, usage_append, isBy_of_trader_none htrader,
      if_neg (by simp), add_zero]
    exact h.user trader k
  · rw [RateLimits.getGlobalWindowUsage, hglobal, usage_append, isBy_of_trader_none htrader,
      if_neg (by simp), add_zero]
    exact h.global k
  · rw [RateLimits.readConfig]
    rcases hcfg with hcfg | ⟨cfg, hcfg, hpos⟩
    · rw [hcfg]
      exact h.positive
    · rw [hcfg]
      exact hpos

/-- A call that is counted for a trader adds one to both counters of its window. -/
theorem Metered.counted (h : Metered s log) {trader : Address} (htrader : call.trader? = some trader)
    (hlimits : s'.limits = consumed s.limits trader (now / s.limits.readConfig.windowSecs)) :
    Metered s' (log ++ [committed now call r s s']) := by
  refine ⟨fun trader' k => ?_, fun k => ?_, ?_⟩
  · rw [usage_append, isBy_of_trader htrader, ← h.user trader' k, hlimits]
    simp only [consumed, RateLimits.getUserWindowUsage, Store.lookup_insert_ite, windowOf, only,
      Prod.mk.injEq, decide_eq_true_eq]
    by_cases hkey : trader' = trader ∧ k = now / s.limits.readConfig.windowSecs
    · obtain ⟨rfl, rfl⟩ := hkey
      simp
    · rw [if_neg hkey, if_neg fun h => hkey ⟨h.1.symm, h.2.symm⟩, add_zero]
  · rw [usage_append, isBy_of_trader htrader, ← h.global k, hlimits]
    simp only [consumed, RateLimits.getGlobalWindowUsage, Store.lookup_insert_ite, windowOf,
      everyone, true_and]
    by_cases hkey : k = now / s.limits.readConfig.windowSecs
    · subst hkey
      simp
    · rw [if_neg hkey, if_neg (Ne.symm hkey), add_zero]
  · rw [hlimits]
    exact h.positive

variable [TokenClient τ Address Address]

/-- A committed call that is counted for a trader was below both limits by the counters. -/
theorem execute_counted {trader : Address} (he : execute now s call = .ok (r, s'))
    (htrader : call.trader? = some trader) :
    s.limits.getUserWindowUsage trader (now / s.limits.readConfig.windowSecs) <
        userLimitOf s.limits trader ∧
      s.limits.getGlobalWindowUsage (now / s.limits.readConfig.windowSecs) <
        s.limits.readConfig.globalLimit ∧
      s'.limits = consumed s.limits trader (now / s.limits.readConfig.windowSecs) := by
  cases call with
  | trading c =>
    simp only [execute, Except.bind_eq_ok, lift_eq_ok] at he
    obtain ⟨⟨result, trading⟩, hexec, he⟩ := he
    obtain ⟨-, rfl⟩ := Prod.mk.inj (Except.ok.inj he)
    obtain ⟨s₁, hguard, hs₁⟩ := Trading.execute_trader hexec htrader
    obtain ⟨-, -, limits, hconsume, rfl⟩ := Trading.ensureTradeable_iff.mp hguard
    obtain ⟨huser, hglobal, rfl⟩ := checkAndConsume_eq_ok hconsume
    exact ⟨huser, hglobal, hs₁⟩
  | _ => cases htrader

/-- Every committed call keeps the counters. -/
theorem Metered.execute (h : Metered s log) (he : execute now s call = .ok (r, s')) :
    Metered s' (log ++ [committed now call r s s']) := by
  rcases execute_cases he with ⟨_, _, _, cbConfig, rfl, hinit, -⟩ | ⟨c, _, rfl, hexec, -⟩ |
    ⟨hother, hadmin⟩
  · simp only [Trading.init, Except.bind_eq_ok, require_eq_ok, exists_const] at hinit
    have hs' := Except.ok.inj hinit.2
    refine h.uncounted rfl ?_ ?_ (.inr ⟨⟨60, 5, 100, 20⟩, ?_, ?_⟩)
    · rw [State.limits, ← hs']
      rfl
    · rw [State.limits, ← hs']
      rfl
    · rw [State.limits, ← hs']
    · constructor <;> decide
  · cases htrader : c.trader? with
    | none =>
      have hlimits : s'.limits = s.limits := (Trading.execute_no_trader hexec htrader).2
      exact h.uncounted htrader (by rw [hlimits]) (by rw [hlimits]) (.inl (by rw [hlimits]))
    | some trader => exact h.counted htrader (execute_counted he htrader).2.2
  · obtain ⟨cfg, premiumUsers, breaker, htrading⟩ := hadmin.trading
    have htrader : call.trader? = none := by
      cases call with
      | trading c => exact absurd rfl (hother c)
      | _ => rfl
    exact h.uncounted htrader (by rw [State.limits, htrading]; rfl)
      (by rw [State.limits, htrading]; rfl) hadmin.cfg

/-- Every committed call keeps within the limits. -/
theorem WithinLimits.execute (h : WithinLimits log) (hm : Metered s log)
    (he : execute now s call = .ok (r, s')) :
    WithinLimits (log ++ [committed now call r s s']) := by
  intro cfg k hforce
  obtain ⟨hglobal, huser⟩ := h cfg k hforce.of_append
  by_cases hcount : call.trader? ≠ none ∧ InInterval cfg.windowSecs k now
  · obtain ⟨hsome, hin⟩ := hcount
    obtain ⟨trader, htrader⟩ := Option.ne_none_iff_exists'.mp hsome
    obtain ⟨hcfg, -⟩ := hforce (committed now call r s s') (by simp) hin
    have hcfg : s.limits.readConfig = cfg := hcfg
    obtain ⟨hbelow, hbelow', -⟩ := execute_counted he htrader
    -- the calls of the interval so far are among those that the counters hold
    rw [hcfg, (inInterval_iff hin.length_pos).mp hin, hm.user] at hbelow
    rw [hcfg, (inInterval_iff hin.length_pos).mp hin, hm.global] at hbelow'
    have hle : callsIn everyone cfg.windowSecs k log ≤ usage everyone k log :=
      callsIn_le_usage hforce.of_append
    have hle' : callsIn (only trader) cfg.windowSecs k log ≤ usage (only trader) k log :=
      callsIn_le_usage hforce.of_append
    refine ⟨?_, fun trader' limit hlimit => ?_⟩
    · rw [callsIn_append]
      split <;> omega
    · have hold := huser trader' limit fun c hc => hlimit c (List.mem_append_left _ hc)
      rw [callsIn_append, isBy_of_trader htrader]
      split <;> rename_i hby
      · obtain rfl : trader = trader' := of_decide_eq_true hby.1
        have := hlimit (committed now call r s s') (by simp) (by simp [isBy_of_trader htrader, only])
          hin
        have : userLimitOf s.limits trader ≤ limit := this
        omega
      · omega
  · -- the call is not counted in this interval
    have hnot : ∀ who, ¬ (call.isBy who = true ∧ InInterval cfg.windowSecs k now) := by
      rintro who ⟨hby, hin⟩
      refine hcount ⟨fun hnone => ?_, hin⟩
      rw [isBy_of_trader_none hnone] at hby
      cases hby
    refine ⟨?_, fun trader limit hlimit => ?_⟩
    · rw [callsIn_append, if_neg (hnot everyone)]
      exact hglobal
    · rw [callsIn_append, if_neg (hnot (only trader))]
      exact huser trader limit fun c hc => hlimit c (List.mem_append_left _ hc)

end Runs

section Results

variable [TokenClient τ Address Address] {now : ℕ} {tokens : τ} {w : World (State τ)} {log : Log τ}

/-- The counters hold the calls by their index after every run, and no interval has more calls than
the limits allow. -/
theorem metered_of_run (h : (contract τ).Run ⟨now, .empty tokens⟩ w log) :
    Metered w.store log ∧ WithinLimits log := by
  refine h.invariant_log (I := fun _ s log => Metered s log ∧ WithinLimits log)
    ⟨metered_empty tokens, fun _ _ _ => ⟨Nat.zero_le _, fun _ _ _ => Nat.zero_le _⟩⟩
    (fun _ _ _ _ _ hs => hs) ?_
  rintro t k r s s' log ⟨hm, hlimits⟩ he
  exact ⟨hm.execute he, hlimits.execute hm he⟩

/-- **The rate limiter** after every run: no interval of a configuration has more calls than its
limits allow, and no trader under the limits is refused, exactly when the stale calls of the
interval leave room for such a trader. -/
theorem rate_limits_iff (h : (contract τ).Run ⟨now, .empty tokens⟩ w log) :
    WithinLimits log ∧ NeverRefused w log ↔ RoomBesideStale w log := by
  obtain ⟨hm, hlimits⟩ := metered_of_run h
  rw [and_iff_right hlimits]
  refine forall₅_congr fun t k trader hnow hunder => ?_
  -- the counters of the window hold the calls of the interval and the stale ones
  rw [refusedForRate_iff hm.positive, not_not,
    (inInterval_iff hunder.interval.length_pos).mp hunder.interval, hm.user, hm.global,
    usage_eq hunder.inForce, usage_eq hunder.inForce]

omit [TokenClient τ Address Address] in
/-- Where all calls were made under the window length in force there are no stale calls. -/
theorem roomBesideStale_of_windowSecs (h : ∀ c ∈ log, c.call.trader? ≠ none →
      c.before.limits.readConfig.windowSecs = w.store.limits.readConfig.windowSecs) :
    RoomBesideStale w log := by
  intro t k trader _ hunder
  have hstale : ∀ who, staleIn who w.store.limits.readConfig.windowSecs k log = 0 :=
    fun who => staleIn_eq_zero hunder.interval.length_pos h
  simp only [hstale, add_zero]
  exact ⟨hunder.user, hunder.global⟩

end Results

/-- A trade of the trader 7. -/
def sampleTrade (t : ℕ) : ℕ × Call := (t, .trading (.trade ⟨7⟩ "XLM" 5 3 true ⟨9⟩ 0 ⟨8⟩))

/-- The administrator lowers the limits between two trades, and keeps the window length. -/
def sampleLimits : List (ℕ × Call) :=
  [(0, .init ⟨1⟩ [⟨2⟩] ⟨3⟩ ⟨1000, 100, 3600⟩), sampleTrade 70, (75, .setRateLimitConfig ⟨1⟩ 60 2 50 4),
    (80, .setPremiumUser ⟨1⟩ ⟨7⟩ true), sampleTrade 130]

theorem rate_limits_iff_sample :
    NeverRefused ((contract _).play emptyWorld sampleLimits).1
      ((contract _).play emptyWorld sampleLimits).2 := by
  have hiff := rate_limits_iff (Contract.run_play _ emptyWorld sampleLimits (by decide))
  refine (hiff.mpr (roomBesideStale_of_windowSecs ?_)).2
  decide

/-- Five trades in the interval [600, 660), which has the index 10 when windows have the length 60,
and a change to the length 100. -/
def sampleStale : List (ℕ × Call) :=
  [(0, .init ⟨1⟩ [⟨2⟩] ⟨3⟩ ⟨1000, 100, 3600⟩), sampleTrade 600, sampleTrade 610, sampleTrade 620,
    sampleTrade 630, sampleTrade 640, (700, .setRateLimitConfig ⟨1⟩ 100 5 100 20)]

/-- In the interval [1000, 1100), which has the index 10 now, the trader is refused at once. -/
theorem refused_for_stale_calls :
    ¬ ∀ w log, (contract (Balances Address Address)).Run emptyWorld w log →
      WithinLimits log ∧ NeverRefused w log := by
  intro hall
  obtain ⟨-, hnever⟩ := hall _ _ (Contract.run_play _ emptyWorld sampleStale (by decide))
  refine hnever 1000 10 ⟨7⟩ (by decide) ⟨by decide, ?_, by decide, by decide⟩ (.inl rfl)
  -- no call was made in the interval
  intro c hc hin
  have hnone : ∀ c ∈ ((contract (Balances Address Address)).play emptyWorld sampleStale).2,
      ¬ InInterval 100 10 c.time := by decide
  exact absurd hin (hnone c hc)

end Stellara.UpgradeableTrading
