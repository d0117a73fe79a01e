import Stellara.Trading.Ledger

/-!
# The circuit breaker of the trading contract

Three entry points produce trades, and only one of them reports its activity to the circuit
breaker: `trade` does, a batch and a limit order that is matched do not. The breaker covers
the trades of a run when no trade is produced by the other two, and then no trade follows
once a threshold is reached. A single batch is enough to break both.

## Main definitions

* `producesTrade`, `activity`: the commits that produce trades, and those of the current period
* `Covered`: the breaker has counted the activity, and stops it at the thresholds
* `Reported`: the commits whose trades the breaker gets to know of

## Main results

* `reported_covered`: the breaker covers every run of reported commits
* `batch_not_covered`: it does not cover a run with a batch
-/

namespace Stellara.Trading

variable {τ : Type}

/-- The commit produced at least one trade. -/
def producesTrade (c : Commit (State τ) Call Result) : Prop :=
  c.before.ledger.tradeCount < c.after.ledger.tradeCount

instance (c : Commit (State τ) Call Result) : Decidable (producesTrade c) :=
  inferInstanceAs (Decidable (_ < _))

/-- The commits from `start` on that produced trades. -/
def activity (start : ℕ) (log : List (Commit (State τ) Call Result)) :
    List (Commit (State τ) Call Result) :=
  log.filter fun c => start ≤ c.time ∧ producesTrade c

/-- The volume that a commit added to the statistics. -/
def volumeOf (c : Commit (State τ) Call Result) : ℤ :=
  c.after.ledger.stats.totalVolume - c.before.ledger.stats.totalVolume

/-- The volume of the commits from `start` on that produced trades. -/
def activityVolume (start : ℕ) (log : List (Commit (State τ) Call Result)) : ℤ :=
  ((activity start log).map volumeOf).sum

/-- The start of the current period. -/
def periodStart (s : State τ) : ℕ := (CircuitBreaker.getState s.breaker).currentPeriodStart

section Activity

variable {start : ℕ} {log : List (Commit (State τ) Call Result)} {c : Commit (State τ) Call Result}

/-- A commit that produces no trade is no activity. -/
theorem activity_append_quiet (h : ¬ producesTrade c) :
    activity start (log ++ [c]) = activity start log := by
  simp [activity, h]

theorem activity_append (ht : start ≤ c.time) (h : producesTrade c) :
    activity start (log ++ [c]) = activity start log ++ [c] := by
  simp [activity, ht, h]

/-- When every trade is older than `start`, there is no activity. -/
theorem activity_eq_nil (h : ∀ c ∈ log, producesTrade c → c.time < start) :
    activity start log = [] := by
  refine List.filter_eq_nil_iff.mpr fun c hc => ?_
  rw [decide_eq_true_iff]
  rintro ⟨ht, hp⟩
  have := h c hc hp
  omega

theorem activity_mono {start' : ℕ} (hle : start ≤ start') (h : activity start log = []) :
    activity start' log = [] := by
  refine List.filter_eq_nil_iff.mpr fun c hc => ?_
  have hnone := List.filter_eq_nil_iff.mp h c hc
  rw [decide_eq_true_iff] at hnone ⊢
  exact fun ⟨ht, hp⟩ => hnone ⟨hle.trans ht, hp⟩

end Activity

variable [TokenClient τ Address Address]

/-- The breaker has counted the activity of the current period, and once the activity reaches
a threshold no later commit produces a trade. -/
structure Covered (config : CircuitBreakerConfig) (w : World (State τ))
    (log : List (Commit (State τ) Call Result)) : Prop where
  volume : activityVolume (periodStart w.store) log ≤
    (CircuitBreaker.getState w.store.breaker).currentPeriodVolume
  txCount : (activity (periodStart w.store) log).length ≤
    (CircuitBreaker.getState w.store.breaker).currentPeriodTxCount
  tripped : activity (periodStart w.store) log ≠ [] →
    CircuitBreaker.triggered config (activityVolume (periodStart w.store) log)
      (activity (periodStart w.store) log).length →
    ∀ w' log', (contract τ).Run w w' log' → ∀ c ∈ log', ¬ producesTrade c

omit [TokenClient τ Address Address] in
/-- A commit whose trades the breaker gets to know of: a batch without orders, a limit order
that no listed order can fill, or a trade, unless it starts the period anew at a time that
the period has already counted a trade at. -/
def Reported (config : CircuitBreakerConfig) (c : Commit (State τ) Call Result) : Prop :=
  match c.call with
  | .trade .. =>
    0 < config.periodDuration ∨ periodStart c.before < c.time ∨
      (CircuitBreaker.getState c.before.breaker).currentPeriodTxCount = 0
  | .batchTrade _ orders _ _ _ => orders = []
  | .createLimitOrder trader pair isBuy price amount tif =>
    let order := placed c.time (c.before.book.orderCount + 1) trader pair isBuy price amount tif
    ∀ id ∈ oppositeBook c.before.book order, ∀ maker, c.before.book.readOrder id = some maker →
      ¬ fillable order maker
  | .cancelOrder _ _ => True

/-! ## Stopped contracts -/

variable {now : ℕ} {s s' : State τ} {config : CircuitBreakerConfig}

/-- While the contract is fully paused, no call produces a trade or changes the breaker. -/
theorem execute_of_full {call : Call} {r : Result}
    (hfull : (CircuitBreaker.getState s.breaker).pauseLevel = .full)
    (h : execute now s call = .ok (r, s')) : s'.ledger = s.ledger ∧ s'.breaker = s.breaker := by
  cases execute_cases h with
  | trade h₁ => exact absurd hfull (trade_eq_ok h₁).2.1
  | batchTrade h₁ =>
    -- a batch without orders passes, but changes nothing
    rcases batchTrade_eq_ok h₁ with ⟨-, rfl⟩ | ⟨-, -, hlevel, -⟩
    · exact ⟨rfl, rfl⟩
    · exact absurd hfull hlevel
  | createLimitOrder h₁ => exact absurd hfull (createLimitOrder_eq_ok h₁).2.2.1
  | cancelOrder h₁ =>
    obtain ⟨order, -, -, -, rfl⟩ := cancelOrder_eq_ok h₁
    exact ⟨rfl, rfl⟩

/-- No commit of a fully paused contract produces a trade. -/
theorem run_of_full {w w' : World (State τ)} {log : List (Commit (State τ) Call Result)}
    (hfull : (CircuitBreaker.getState w.store.breaker).pauseLevel = .full)
    (h : (contract τ).Run w w' log) : ∀ c ∈ log, ¬ producesTrade c := by
  intro c hc
  -- every state of the run is fully paused
  have hbefore := (h.invariant_of_mem
    (I := fun s => (CircuitBreaker.getState s.breaker).pauseLevel = .full)
    (fun t k r s s' hs he => by rw [(execute_of_full hs he).2]; exact hs) hfull c hc).1
  have hledger := (execute_of_full hbefore (h.exec_of_mem c hc)).1
  unfold producesTrade
  rw [hledger]
  exact lt_irrefl _

/-! ## Covered runs -/

omit [TokenClient τ Address Address] in
/-- An order that no listed order can fill is matched with nothing. -/
theorem matchLimitOrder_of_not_fillable {incoming incoming' : LimitOrder}
    (hnone : ∀ id ∈ oppositeBook s.book incoming, ∀ maker, s.book.readOrder id = some maker →
      ¬ fillable incoming maker)
    (h : matchLimitOrder now s incoming = .ok (s', incoming')) : s' = s := by
  obtain ⟨⟨hs, -⟩, -⟩ := matchLimitOrder_induction
    (I := fun s₁ incoming₁ => s₁ = s ∧ incoming₁ = incoming)
    (fun s₁ incoming₁ makerId maker p hI _ hmem hread hf _ => by
      obtain ⟨rfl, rfl⟩ := hI
      exact absurd hf (hnone makerId hmem maker hread)) ⟨rfl, rfl⟩ h
  exact hs

omit [TokenClient τ Address Address] in
/-- A limit order that no listed order can fill leaves the ledger and the breaker alone. -/
theorem createLimitOrder_of_not_fillable {trader : Address} {pair : Symbol} {isBuy : Bool}
    {price amount : ℤ} {tif : TimeInForce} {id : ℕ} (hs : s.book.Sound)
    (hnone : ∀ id ∈ oppositeBook s.book
        (placed now (s.book.orderCount + 1) trader pair isBuy price amount tif),
      ∀ maker, s.book.readOrder id = some maker →
        ¬ fillable (placed now (s.book.orderCount + 1) trader pair isBuy price amount tif) maker)
    (h : createLimitOrder now trader pair isBuy price amount tif s = .ok (id, s')) :
    s'.ledger = s.ledger ∧ s'.breaker = s.breaker := by
  obtain ⟨rfl, -, -, limits, s₁, order, book, hm, -, rfl⟩ := createLimitOrder_eq_ok h
  have hsame := matchLimitOrder_of_not_fillable (fun id hid maker hread => ?_) hm
  · subst hsame
    exact ⟨rfl, rfl⟩
  · -- the placed order is fresh, so the listed orders read as before
    have hread' : (s.book.writeOrder
        (placed now (s.book.orderCount + 1) trader pair isBuy price amount tif)).readOrder id =
        some maker := hread
    rw [BookStorage.readOrder_writeOrder, if_neg] at hread'
    · exact hnone id hid maker hread'
    · rintro rfl
      obtain ⟨-, o, ho, -⟩ := (hs.consistent.mem_iff _ _ _).mp hid
      have hle : s.book.orderCount + 1 ≤ s.book.orderCount := hs.consistent.id_le _ o ho
      omega

/-- The breaker has counted exactly the activity of the current period, and is tripped when
the count reached a threshold. -/
structure Counted (config : CircuitBreakerConfig) (now : ℕ) (s : State τ)
    (log : List (Commit (State τ) Call Result)) : Prop where
  sound : s.book.Sound
  config_eq : s.breaker.config = some config
  start_le : periodStart s ≤ now
  recent : ∀ c ∈ log, producesTrade c → c.time ≤ periodStart s ∨
    c.time < periodStart s + config.periodDuration
  volume : (CircuitBreaker.getState s.breaker).currentPeriodVolume =
    activityVolume (periodStart s) log
  txCount : (CircuitBreaker.getState s.breaker).currentPeriodTxCount =
    (activity (periodStart s) log).length
  tripped : (CircuitBreaker.getState s.breaker).pauseLevel ≠ .full →
    (CircuitBreaker.getState s.breaker).pauseLevel = .none ∧
    (activity (periodStart s) log = [] ∨ ¬ CircuitBreaker.triggered config
      (CircuitBreaker.getState s.breaker).currentPeriodVolume
      (CircuitBreaker.getState s.breaker).currentPeriodTxCount)

omit [TokenClient τ Address Address] in
/-- A commit that leaves the ledger and the breaker alone. -/
theorem Counted.quiet {log : List (Commit (State τ) Call Result)} {call : Call} {r : Result}
    (h : Counted config now s log) (hs' : s'.book.Sound) (hledger : s'.ledger = s.ledger)
    (hbreaker : s'.breaker = s.breaker) :
    Counted config now s' (log ++ [⟨now, call, r, s, s'⟩]) := by
  -- the ledger counts the trades
  have hquiet : ¬ producesTrade (⟨now, call, r, s, s'⟩ : Commit (State τ) Call Result) := by
    unfold producesTrade
    simp only [hledger]
    exact lt_irrefl _
  have hstart : periodStart s' = periodStart s := by rw [periodStart, hbreaker, periodStart]
  refine ⟨hs', ?_, ?_, fun c hc hp => ?_, ?_, ?_, ?_⟩
  · rw [hbreaker]
    exact h.config_eq
  · rw [hstart]
    exact h.start_le
  · rw [hstart]
    rcases List.mem_append.mp hc with hc | hc
    · exact h.recent c hc hp
    · rw [List.mem_singleton.mp hc] at hp
      exact absurd hp hquiet
  · rw [activityVolume, hstart, hbreaker, activity_append_quiet hquiet]
    exact h.volume
  · rw [hstart, hbreaker, activity_append_quiet hquiet]
    exact h.txCount
  · rw [hstart, hbreaker, activity_append_quiet hquiet]
    exact h.tripped

omit [TokenClient τ Address Address] in
/-- When a period that was counted starts anew, nothing was traded since. -/
theorem Counted.activity_now {log : List (Commit (State τ) Call Result)}
    (h : Counted config now s log) (hdone : periodStart s + config.periodDuration ≤ now)
    (hfresh : 0 < config.periodDuration ∨ periodStart s < now ∨
      (CircuitBreaker.getState s.breaker).currentPeriodTxCount = 0) :
    activity now log = [] := by
  by_cases hnew : periodStart s < now ∨ 0 < config.periodDuration
  · -- every trade is of the period that has passed
    refine activity_eq_nil fun c hc hp => ?_
    rcases h.recent c hc hp with hc | hc <;> omega
  · -- the period restarts at its own start, and has counted nothing yet
    have hzero : (CircuitBreaker.getState s.breaker).currentPeriodTxCount = 0 := by omega
    rw [h.txCount, List.length_eq_zero_iff] at hzero
    exact activity_mono h.start_le hzero

/-- The counters of a breaker hold the activity since the start of its period, and the period
has not passed. -/
structure Tallied (config : CircuitBreakerConfig) (now : ℕ) (state : CircuitBreakerState)
    (log : List (Commit (State τ) Call Result)) : Prop where
  start_le : state.currentPeriodStart ≤ now
  recent : ∀ c ∈ log, producesTrade c → c.time ≤ state.currentPeriodStart ∨
    c.time < state.currentPeriodStart + config.periodDuration
  now_lt : now ≤ state.currentPeriodStart ∨
    now < state.currentPeriodStart + config.periodDuration
  volume : state.currentPeriodVolume = activityVolume state.currentPeriodStart log
  txCount : state.currentPeriodTxCount = (activity state.currentPeriodStart log).length

omit [TokenClient τ Address Address] in
/-- A period that has passed is reset, and then the counters are right again. -/
theorem Counted.tallied {log : List (Commit (State τ) Call Result)}
    (h : Counted config now s log)
    (hfresh : 0 < config.periodDuration ∨ periodStart s < now ∨
      (CircuitBreaker.getState s.breaker).currentPeriodTxCount = 0) :
    Tallied config now (CircuitBreaker.resetPeriod now config (CircuitBreaker.getState s.breaker))
      log := by
  unfold CircuitBreaker.resetPeriod
  split <;> rename_i hdone
  · -- the period is reset, and starts now
    have hnone := h.activity_now hdone hfresh
    refine ⟨le_rfl, fun c hc hp => ?_, .inl le_rfl, ?_, ?_⟩
    · show c.time ≤ now ∨ c.time < now + config.periodDuration
      have hle := h.start_le
      rcases h.recent c hc hp with hc | hc <;> omega
    · rw [activityVolume, hnone]
      rfl
    · rw [hnone]
      rfl
  · -- the period goes on
    exact ⟨h.start_le, h.recent, .inr (by omega), h.volume, h.txCount⟩

omit [TokenClient τ Address Address] in
/-- A commit that reports its volume and adds it to the statistics. -/
theorem Counted.track {log : List (Commit (State τ) Call Result)} {call : Call} {r : Result}
    {volume : ℤ} (h : Counted config now s log) (hs' : s'.book.Sound)
    (hfull : (CircuitBreaker.getState s.breaker).pauseLevel ≠ .full)
    (hcount : s'.ledger.tradeCount = s.ledger.tradeCount + 1)
    (hvolume : s'.ledger.stats.totalVolume = s.ledger.stats.totalVolume + volume)
    (htrack : (CircuitBreaker.trackActivity now volume s.breaker : Outcome TradeError _) =
      .ok s'.breaker)
    (hfresh : 0 < config.periodDuration ∨ periodStart s < now ∨
      (CircuitBreaker.getState s.breaker).currentPeriodTxCount = 0) :
    Counted config now s' (log ++ [⟨now, call, r, s, s'⟩]) := by
  obtain ⟨config', hconfig', hbreaker⟩ := CircuitBreaker.trackActivity_eq_ok htrack
  obtain rfl : config = config' := Option.some.inj (h.config_eq.symm.trans hconfig')
  have hprod : producesTrade (⟨now, call, r, s, s'⟩ : Commit (State τ) Call Result) := by
    unfold producesTrade
    simp only [hcount]
    exact Nat.lt_succ_self _
  have hvol : volumeOf (⟨now, call, r, s, s'⟩ : Commit (State τ) Call Result) = volume := by
    simp only [volumeOf, hvolume]
    omega
  have hstate : CircuitBreaker.getState s'.breaker =
      CircuitBreaker.tracked now volume config (CircuitBreaker.getState s.breaker) := by
    rw [hbreaker]
    rfl
  -- the counters are right before the new volume is added
  have htally := h.tallied hfresh
  have hstart : periodStart s' = (CircuitBreaker.resetPeriod now config
      (CircuitBreaker.getState s.breaker)).currentPeriodStart := by
    rw [periodStart, hstate, CircuitBreaker.tracked_currentPeriodStart]
  have happend : activity (periodStart s') (log ++ [⟨now, call, r, s, s'⟩]) =
      activity (periodStart s') log ++ [⟨now, call, r, s, s'⟩] :=
    activity_append (hstart ▸ htally.start_le) hprod
  refine ⟨hs', ?_, ?_, fun c hc hp => ?_, ?_, ?_, fun hlevel' => ?_⟩
  · rw [hbreaker]
    exact h.config_eq
  · rw [hstart]
    exact htally.start_le
  · rw [hstart]
    rcases List.mem_append.mp hc with hc | hc
    · exact htally.recent c hc hp
    · rw [List.mem_singleton.mp hc]
      exact htally.now_lt
  · -- the new commit is in the period, and adds its volume
    rw [hstate, CircuitBreaker.tracked_currentPeriodVolume, htally.volume, activityVolume,
      activityVolume, happend, hstart, List.map_append, List.sum_append]
    simp [hvol]
  · rw [hstate, CircuitBreaker.tracked_currentPeriodTxCount, htally.txCount, happend, hstart,
      List.length_append]
    rfl
  · -- the level was none, so the breaker is tripped unless no threshold is reached
    obtain ⟨hlevel, -⟩ := h.tripped hfull
    rw [hstate] at hlevel' ⊢
    rw [CircuitBreaker.tracked_pauseLevel] at hlevel' ⊢
    split at hlevel' <;> rename_i htrig
    · exact absurd rfl hlevel'
    · rw [if_neg htrig]
      exact ⟨hlevel, .inr fun ht => htrig ⟨hlevel, ht⟩⟩

/-- A reported commit keeps the count exact. -/
theorem Counted.execute {log : List (Commit (State τ) Call Result)} {call : Call} {r : Result}
    (h : Counted config now s log) (he : execute now s call = .ok (r, s'))
    (hr : Reported config (⟨now, call, r, s, s'⟩ : Commit (State τ) Call Result)) :
    Counted config now s' (log ++ [⟨now, call, r, s, s'⟩]) := by
  have hsound : s'.book.Sound := execute_sound h.sound he
  cases execute_cases he with
  | trade h₁ =>
    obtain ⟨-, hfull, limits, breaker, tokens, htrack, rfl⟩ := trade_eq_ok h₁
    exact h.track hsound hfull rfl rfl htrack hr
  | batchTrade h₁ =>
    rcases batchTrade_eq_ok h₁ with ⟨-, rfl⟩ | ⟨hne, -⟩
    · exact h.quiet hsound rfl rfl
    · -- orders of a batch are traded without a report
      exact absurd hr hne
  | createLimitOrder h₁ =>
    obtain ⟨hledger, hbreaker⟩ := createLimitOrder_of_not_fillable h.sound hr h₁
    exact h.quiet hsound hledger hbreaker
  | cancelOrder h₁ =>
    obtain ⟨order, -, -, -, rfl⟩ := cancelOrder_eq_ok h₁
    exact h.quiet hsound rfl rfl

omit [TokenClient τ Address Address] in
theorem init_counted {t₀ : ℕ} {tokens : τ} (h : init t₀ config (State.empty tokens) = .ok s) :
    Counted config t₀ s [] := by
  have hsound := init_sound h
  obtain rfl := Except.ok.inj ((init_empty config tokens).symm.trans h)
  exact ⟨hsound, rfl, le_rfl, by simp, rfl, rfl, fun _ => ⟨rfl, .inl rfl⟩⟩

/-- After a run of reported commits the count is exact. -/
theorem run_counted {t₀ : ℕ} {tokens : τ} {w : World (State τ)}
    {log : List (Commit (State τ) Call Result)}
    (hinit : init t₀ config (State.empty tokens) = .ok s)
    (h : (contract τ).Run ⟨t₀, s⟩ w log) (hr : ∀ c ∈ log, Reported config c) :
    Counted config w.now w.store log := by
  refine h.invariant_log (I := fun t s log => (∀ c ∈ log, Reported config c) → Counted config t s log)
    (fun _ => init_counted hinit) (fun t t' s log htt hI hr => ?_)
    (fun t k r s s' log hI he hr => ?_) hr
  · have hc := hI hr
    exact { hc with start_le := hc.start_le.trans htt }
  · exact (hI fun c hc => hr c (List.mem_append_left _ hc)).execute he (hr _ (by simp))

/-- The breaker covers every run of reported commits: it has counted the activity of the
current period, and nothing is traded any more once the activity reaches a threshold. -/
theorem reported_covered {t₀ : ℕ} {tokens : τ} {w : World (State τ)}
    {log : List (Commit (State τ) Call Result)}
    (hinit : init t₀ config (State.empty tokens) = .ok s)
    (h : (contract τ).Run ⟨t₀, s⟩ w log) (hr : ∀ c ∈ log, Reported config c) :
    Covered config w log := by
  have hc := run_counted hinit h hr
  refine ⟨hc.volume.ge, hc.txCount.ge, fun hne htrig w' log' h' => run_of_full ?_ h'⟩
  -- a breaker that is not tripped has counted nothing, or reached no threshold
  by_contra hlevel
  rcases (hc.tripped hlevel).2 with hnil | hno
  · exact hne hnil
  · rw [hc.volume, hc.txCount] at hno
    exact hno htrig

/-- Two trades in one period. -/
def sampleTrades : List (ℕ × Call) :=
  [(10, .trade ⟨1⟩ "XLM" 5 3 true ⟨9⟩ 0 ⟨8⟩), (20, .trade ⟨2⟩ "XLM" 7 3 false ⟨9⟩ 0 ⟨8⟩)]

theorem reported_covered_sample :
    Covered ⟨1000000, 1000, 3600⟩ ((contract _).play sampleWorld sampleTrades).1
      ((contract _).play sampleWorld sampleTrades).2 := by
  refine reported_covered (s := sampleWorld.store) (init_empty _ _)
    (Contract.run_play _ sampleWorld sampleTrades (by decide)) fun c hc => ?_
  have hmem := Contract.call_mem_of_mem_play _ hc
  simp only [sampleTrades, List.map_cons, List.map_nil, List.mem_cons, List.not_mem_nil,
    or_false] at hmem
  unfold Reported
  rcases hmem with hmem | hmem <;> rw [hmem] <;> exact .inl (by decide)

/-- A single batch. -/
def sampleBatch : List (ℕ × Call) := [(10, .batchTrade ⟨1⟩ [("XLM", 5, 3, true)] ⟨9⟩ 0 ⟨8⟩)]

/-- The breaker does not cover a run with a batch: it has counted nothing. -/
theorem batch_not_covered :
    ∃ (w : World (State (Balances Address Address))) (log : _),
      (contract _).Run sampleWorld w log ∧ ¬ Covered ⟨1000000, 1000, 3600⟩ w log := by
  refine ⟨_, _, Contract.run_play _ sampleWorld sampleBatch (by decide), fun h => ?_⟩
  exact absurd h.txCount (by decide)

end Stellara.Trading
