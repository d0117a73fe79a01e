import Stellara.Trading.Guards
import Stellara.Trading.Ledger
import Stellara.Trading.RateLimits

/-!
# The recent trades

A request for the recent trades reads a window of ids that ends at the trade counter. Its width is
the requested number, bounded by a constant and by the counter, but the counter is cut to 32 bits
first. So the window is right exactly when the counter fits, or what is left of it is not below the
width, and the id at which the window starts fits as well.

## Main definitions

* `getRecentTrades`: the recent trades
* `LastTrades k s trades`: the last `k` trades of a state, in the order of their ids
* `WindowFits count n`: the width and the start of the window are not cut

## Main results

* `accounted_of_run`: the ledger holds a history after every run of the upgradeable contract
* `getRecentTrades_iff`: when the recent trades are the last ones, in a ledger that holds a history
* `recent_trades_iff`: the same after every run
-/

namespace Stellara.Trading

/-- Maximum number of trades in an answer. -/
def maxRecentTrades : ℕ := 100

variable {τ : Type}

/-- Get recent trades. -/
def getRecentTrades (count : ℕ) (s : State τ) : Outcome TradeError (List Trade) := do
  let tradeCount := s.ledger.tradeCount
  let limit := min (min count maxRecentTrades) (IntFormat.u32.wrap tradeCount).toNat
  let startId ← if limit < tradeCount then
    IntFormat.u64.checkedNat .overflow (tradeCount - limit + 1) else .ok 1
  .ok ((List.range' startId (tradeCount + 1 - startId)).filterMap fun id =>
    s.ledger.trades.lookup id)

/-- The last `k` trades, in the order of their ids. -/
structure LastTrades (k : ℕ) (s : State τ) (trades : List Trade) : Prop where
  ids : trades.map Trade.id = List.range' (s.ledger.tradeCount + 1 - k) k
  stored : ∀ t ∈ trades, s.ledger.trades.lookup t.id = some t

/-- The counter `n` is not cut below the width of the window, and the start of the window fits. -/
def WindowFits (count n : ℕ) : Prop :=
  n < 2 ^ 32 ∨
    min count maxRecentTrades ≤ n % 2 ^ 32 ∧ n - min count maxRecentTrades + 1 < 2 ^ 64

instance (count n : ℕ) : Decidable (WindowFits count n) := inferInstanceAs (Decidable (_ ∨ _))

/-! ## The window -/

theorem u32_wrap_toNat (n : ℕ) : (IntFormat.u32.wrap n).toNat = n % 2 ^ 32 := by
  have hwrap : IntFormat.u32.wrap n = 0 + ((n : ℤ) - 0) % (4294967295 - 0 + 1) := rfl
  rw [hwrap]
  omega

theorem le_u64_iff {n : ℕ} : (n : ℤ) ≤ IntFormat.u64.hi ↔ n < 2 ^ 64 := by
  have hhi : IntFormat.u64.hi = 18446744073709551615 := rfl
  omega

/-- The width of the window of a counter. -/
def windowWidth (count n : ℕ) : ℕ := min (min count maxRecentTrades) (n % 2 ^ 32)

theorem windowWidth_le (count n : ℕ) : windowWidth count n ≤ n :=
  (min_le_right _ _).trans (Nat.mod_le n _)

/-- The answer is read from the window, unless its start does not fit. -/
theorem getRecentTrades_eq_ok {count n : ℕ} {s : State τ} {trades : List Trade}
    (hn : s.ledger.tradeCount = n) :
    getRecentTrades count s = .ok trades ↔
      (windowWidth count n < n → n - windowWidth count n + 1 < 2 ^ 64) ∧
        trades = (List.range' (n + 1 - windowWidth count n) (windowWidth count n)).filterMap
          fun id => s.ledger.trades.lookup id := by
  have hle := windowWidth_le count n
  have hwindow : getRecentTrades count s = (if windowWidth count n < n then
      IntFormat.u64.checkedNat .overflow (n - windowWidth count n + 1) else .ok 1) >>=
        fun startId => .ok ((List.range' startId (n + 1 - startId)).filterMap fun id =>
          s.ledger.trades.lookup id) := by
    rw [getRecentTrades, hn, u32_wrap_toNat, windowWidth]
    split <;> rfl
  rw [hwindow]
  by_cases hlt : windowWidth count n < n
  · have hstart : n - windowWidth count n + 1 = n + 1 - windowWidth count n := by omega
    have hwidth : n + 1 - (n + 1 - windowWidth count n) = windowWidth count n := by omega
    rw [if_pos hlt, Except.bind_eq_ok, hstart]
    simp only [IntFormat.checkedNat_eq_ok, le_u64_iff]
    constructor
    · rintro ⟨_, ⟨hfits, rfl⟩, h⟩
      rw [hwidth] at h
      exact ⟨fun _ => hfits, (Except.ok.inj h).symm⟩
    · rintro ⟨hfits, rfl⟩
      refine ⟨_, ⟨hfits hlt, rfl⟩, ?_⟩
      rw [hwidth]
  · -- the window holds all trades
    have hall : windowWidth count n = n := by omega
    rw [if_neg hlt, hall, Except.ok_bind, Nat.add_sub_cancel_left, Nat.add_sub_cancel]
    simp [eq_comm]

/-- All trades of a window below the counter are stored under their ids. -/
theorem TradeLedger.Holds.window {l : TradeLedger} {ts : List Trade} (h : l.Holds ts) (start k : ℕ)
    (hpos : 1 ≤ start) (hend : start + k ≤ l.tradeCount + 1) :
    ((List.range' start k).filterMap fun id => l.trades.lookup id).map Trade.id =
        List.range' start k ∧
      ∀ t ∈ (List.range' start k).filterMap fun id => l.trades.lookup id,
        l.trades.lookup t.id = some t := by
  refine ⟨?_, fun t ht => ?_⟩
  · induction k generalizing start with
    | zero => rfl
    | succ k ih =>
      have hsome : (l.trades.lookup start).isSome := by
        rw [h.numbers.isSome_iff, ← h.tradeCount]
        omega
      obtain ⟨t, ht⟩ := Option.isSome_iff_exists.mp hsome
      simp only [List.range'_succ, List.filterMap_cons, ht, List.map_cons]
      rw [h.id_eq start t ht, ih (start + 1) (by omega) (by omega)]
  · obtain ⟨id, -, hid⟩ := List.mem_filterMap.mp ht
    rwa [h.id_eq id t hid]

/-- The recent trades of a ledger are the last ones exactly when their window fits. -/
theorem getRecentTrades_iff {s : State τ} {ts : List Trade} (h : s.ledger.Holds ts) (count : ℕ) :
    (∃ trades, getRecentTrades count s = .ok trades ∧
      LastTrades (min (min count maxRecentTrades) s.ledger.tradeCount) s trades) ↔
        WindowFits count s.ledger.tradeCount := by
  generalize hn : s.ledger.tradeCount = n
  have hle := windowWidth_le count n
  obtain ⟨hids, hstored⟩ := h.window (n + 1 - windowWidth count n) (windowWidth count n)
    (by omega) (by omega)
  have hmax : min count maxRecentTrades ≤ 100 := min_le_right _ _
  simp only [getRecentTrades_eq_ok hn]
  constructor
  · rintro ⟨trades, ⟨hfits, rfl⟩, hlast⟩
    -- the width is the number of trades that are asked for
    have hlength := congrArg List.length (hids.symm.trans hlast.ids)
    rw [List.length_range', List.length_range', windowWidth] at hlength
    rw [windowWidth] at hfits
    unfold WindowFits
    omega
  · intro hfits
    have hwidth : windowWidth count n = min (min count maxRecentTrades) n := by
      unfold WindowFits at hfits
      unfold windowWidth
      omega
    refine ⟨_, ⟨fun hlt => ?_, rfl⟩, ?_, hstored⟩
    · unfold WindowFits at hfits
      unfold windowWidth at hlt ⊢
      omega
    · rw [hids, hn, hwidth]

/-! ## The history in the upgradeable contract -/

/-- A history is one of the book, the ledger and the events alone. -/
theorem Accounted.of_eq {s s' : State τ} {history : List Record} (h : Accounted s history)
    (hbook : s'.book = s.book) (hledger : s'.ledger = s.ledger) (hevents : s'.events = s.events) :
    Accounted s' history := by
  refine ⟨?_, ?_, ?_⟩
  · rw [hbook]
    exact h.sound
  · rw [hledger, hevents]
    exact h.chronicle
  · rw [hbook, hevents]
    exact h.filled

/-- Matching does not initialize the contract. -/
theorem matchLimitOrder_initialized {now : ℕ} {s s' : State τ} {incoming incoming' : LimitOrder}
    (h : matchLimitOrder now s incoming = .ok (s', incoming')) :
    s'.initialized = s.initialized := by
  refine (matchLimitOrder_induction (I := fun s₁ _ => s₁.initialized = s.initialized) ?_ rfl h).1
  intro s₁ incoming makerId maker p hsame _ _ _ _ hfill
  rw [executeFill_eq_ok hfill]
  exact hsame

/-- A call of the book does not initialize the contract. -/
theorem execute_initialized [TokenClient τ Address Address] {now : ℕ} {s s' : State τ} {call : Call}
    {r : Result} (h : execute now s call = .ok (r, s')) : s'.initialized = s.initialized := by
  cases execute_cases h with
  | trade htrade =>
    obtain ⟨-, -, limits, breaker, tokens, -, rfl⟩ := trade_eq_ok htrade
    rfl
  | batchTrade hbatch =>
    rcases batchTrade_eq_ok hbatch with ⟨-, rfl⟩ | ⟨-, -, -, limits, tokens, fee, rfl⟩
    · rfl
    · rfl
  | createLimitOrder hcreate =>
    obtain ⟨-, -, -, limits, s₁, order, book, hmatch, -, rfl⟩ := createLimitOrder_eq_ok hcreate
    have hsame := matchLimitOrder_initialized hmatch
    exact hsame
  | cancelOrder hcancel =>
    obtain ⟨order, -, -, -, rfl⟩ := cancelOrder_eq_ok hcancel
    rfl

/-- Before the contract is initialized its book and its ledger are empty. -/
def BlankUntilInit (s : State τ) : Prop :=
  s.initialized = false → s.book = .empty ∧ s.ledger = ⟨∅, 0, ⟨0, 0⟩⟩

/-- Before the contract is initialized no call of the book changes anything. -/
theorem execute_of_not_initialized [TokenClient τ Address Address] {now : ℕ} {s s' : State τ}
    {call : Call} {r : Result} (hblank : BlankUntilInit s) (hinit : s.initialized = false)
    (h : execute now s call = .ok (r, s')) : s' = s := by
  cases htrader : call.trader? with
  | some trader =>
    -- the guards turn the call away
    obtain ⟨s₁, hguard, -⟩ := execute_trader h htrader
    obtain ⟨-, htrue, -⟩ := ensureTradeable_eq_ok hguard
    rw [hinit] at htrue
    cases htrue
  | none =>
    cases execute_cases h with
    | trade htrade => cases htrader
    | batchTrade hbatch =>
      rcases batchTrade_eq_ok hbatch with ⟨-, rfl⟩ | ⟨hne, -⟩
      · rfl
      · simp [Call.trader?, hne] at htrader
    | createLimitOrder hcreate => cases htrader
    | cancelOrder hcancel =>
      -- there is no order to cancel
      obtain ⟨order, hread, -⟩ := cancelOrder_eq_ok hcancel
      rw [(hblank hinit).1] at hread
      cases hread

end Stellara.Trading

namespace Stellara.UpgradeableTrading

open Trading (Accounted BlankUntilInit LastTrades WindowFits getRecentTrades maxRecentTrades)

variable {τ : Type} [TokenClient τ Address Address] {now : ℕ} {tokens : τ} {w : World (State τ)}
  {log : List (Commit (State τ) Call Result)}

/-- The ledger holds a history after every run. -/
theorem accounted_of_run (h : (contract τ).Run ⟨now, .empty tokens⟩ w log) :
    ∃ history, Accounted w.store.trading history := by
  have hstart : Accounted (State.empty tokens).trading [] :=
    (Trading.init_accounted (show Trading.init now ⟨0, 0, 0⟩ (Trading.State.empty tokens) =
      .ok _ from Trading.init_empty _ tokens)).of_eq rfl rfl rfl
  refine (h.invariant
    (I := fun s => BlankUntilInit s.trading ∧ ∃ history, Accounted s.trading history)
    ?_ ⟨fun _ => ⟨rfl, rfl⟩, [], hstart⟩).2
  rintro t call r s s' ⟨hblank, history, hs⟩ he
  rcases execute_cases he with ⟨_, _, _, cbConfig, rfl, hinit, -⟩ | ⟨c, _, rfl, hexec, -⟩ |
    ⟨-, hadmin⟩
  · -- the counters that are reset are zero already
    simp only [Trading.init, Except.bind_eq_ok, require_eq_ok, exists_const] at hinit
    obtain ⟨hfalse, hinit⟩ := hinit
    obtain ⟨hbook, hledger⟩ := hblank hfalse
    rw [← Except.ok.inj hinit]
    refine ⟨fun hfalse => (by cases hfalse), history, hs.of_eq ?_ ?_ rfl⟩
    · rw [hbook]
      rfl
    · rw [hledger]
  · refine ⟨fun hfalse => ?_, ?_⟩
    · rw [Trading.execute_initialized hexec] at hfalse
      rw [Trading.execute_of_not_initialized hblank hfalse hexec]
      exact hblank hfalse
    · obtain ⟨new, hnew⟩ := Trading.execute_chronicle hs hexec
      exact ⟨_, hnew⟩
  · obtain ⟨cfg, premiumUsers, breaker, htrading⟩ := hadmin.trading
    rw [htrading]
    exact ⟨hblank, history, hs.of_eq rfl rfl rfl⟩

/-- **Recent trades** after every run: they are the last ones, as many as were asked for within the
bound, exactly when their window fits. -/
theorem recent_trades_iff (h : (contract τ).Run ⟨now, .empty tokens⟩ w log) (count : ℕ) :
    (∃ trades, getRecentTrades count w.store.trading = .ok trades ∧
      LastTrades (min (min count maxRecentTrades) w.store.trading.ledger.tradeCount) w.store.trading
        trades) ↔
      WindowFits count w.store.trading.ledger.tradeCount := by
  obtain ⟨history, hs⟩ := accounted_of_run h
  exact Trading.getRecentTrades_iff hs.chronicle.holds count

theorem recent_trades_iff_sample :
    (∃ trades, getRecentTrades 1 ((contract _).play emptyWorld sampleLimits).1.store.trading =
        .ok trades ∧
      LastTrades (min (min 1 maxRecentTrades)
          ((contract _).play emptyWorld sampleLimits).1.store.trading.ledger.tradeCount)
        ((contract _).play emptyWorld sampleLimits).1.store.trading trades) ↔
      WindowFits 1 ((contract _).play emptyWorld sampleLimits).1.store.trading.ledger.tradeCount :=
  recent_trades_iff (Contract.run_play _ emptyWorld sampleLimits (by decide)) 1

/-! ## A counter of 33 bits -/

/-- A batch with one trade of the trader 7. -/
def singleTrade : Call := .trading (.batchTrade ⟨7⟩ [("XLM", 1, 1, true)] ⟨9⟩ 0 ⟨8⟩)

/-- The contract after one trade in each of `k` minutes. -/
structure TradedEveryMinute (k : ℕ) (w : World (State (Balances Address Address))) : Prop where
  now : w.now = 60 * k
  initialized : w.store.trading.initialized = true
  unpaused : ¬ Trading.TradePaused w.store.trading.breaker
  cfg : w.store.limits.cfg = some ⟨60, 5, 100, 20⟩
  user : ∀ window, k < window → w.store.limits.getUserWindowUsage ⟨7⟩ window = 0
  global : ∀ window, k < window → w.store.limits.getGlobalWindowUsage window = 0
  tradeCount : w.store.trading.ledger.tradeCount = k
  stats : w.store.trading.ledger.stats = ⟨k, k⟩

omit [TokenClient τ Address Address] in
/-- The first call of a window is within the limits. -/
theorem checkAndConsume_of_unused {l : Trading.RateLimits} (trader : Address) (now : ℕ)
    (hcfg : l.cfg = some ⟨60, 5, 100, 20⟩) (huser : l.getUserWindowUsage trader (now / 60) = 0)
    (hglobal : l.getGlobalWindowUsage (now / 60) = 0) :
    l.checkAndConsume now trader = .ok (consumed l trader (now / 60)) := by
  have hread : l.readConfig = ⟨60, 5, 100, 20⟩ := by rw [Trading.RateLimits.readConfig, hcfg]; rfl
  have hlimit : 0 < if l.isPremiumUser trader = true then 20 else 5 := by split <;> decide
  simp only [Trading.RateLimits.checkAndConsume, hread, huser, hglobal, consumed]
  simp [require, hlimit, IntFormat.checkedNat, IntFormat.u32]

omit [TokenClient τ Address Address] in
/-- A buy is recorded when the counters and the volume after it fit. -/
theorem recordTrade_of_fits (now : ℕ) (s : Trading.State τ) (trader : Address) (pair : Symbol)
    (price : ℤ) {amount : ℤ} (hcount : s.ledger.tradeCount + 1 < 2 ^ 64)
    (htotal : s.ledger.stats.totalTrades + 1 < 2 ^ 64)
    (hvolume : IntFormat.i128.Mem (s.ledger.stats.totalVolume + amount)) :
    Trading.recordTrade now trader pair amount price true s = .ok (s.ledger.tradeCount + 1,
      { s with
        ledger := s.ledger.append (s.ledger.nextTrade now trader pair amount price true) amount
        events := s.events ++
          [(s.ledger.nextTrade now trader pair amount price true).executed true] }) := by
  simp only [Trading.recordTrade, Trading.toSigned, if_true, IntFormat.checkedNat,
    if_pos (Trading.le_u64_iff.mpr hcount), if_pos (Trading.le_u64_iff.mpr htotal),
    IntFormat.checked_of_mem hvolume]
  rfl

/-- A batch of one trade and no fee is committed when its trade is recorded. -/
theorem batchTrade_single (feeToken feeRecipient : Address) {s s₁ s₂ : Trading.State τ}
    {trader : Address}
    {pair : Symbol} {amount price : ℤ} {isBuy : Bool} {id : ℕ}
    (hguard : Trading.ensureTradeable now trader s = .ok s₁) (hpos : 0 < amount)
    (hrecord : Trading.recordTrade now trader pair amount price isBuy s₁ = .ok (id, s₂)) :
    Trading.batchTrade now trader [(pair, amount, price, isBuy)] feeToken 0 feeRecipient s =
      .ok ([id], s₂.publish (.feeCollected ⟨id, trader, 0, feeRecipient, feeToken, now⟩)) := by
  have hfee : Trading.collectFee feeToken trader feeRecipient 0 s₁ = .ok s₁ := rfl
  have hfees : IntFormat.i128.checked (.overflow : Fault Trading.TradeError)
      (0 * ([(pair, amount, price, isBuy)].length : ℤ)) = .ok 0 := by
    rw [zero_mul]
    exact IntFormat.checked_zero
  have hpositive : ∀ o ∈ [(pair, amount, price, isBuy)], 0 < o.2.1 := by simpa using hpos
  rw [Trading.batchTrade, Trading.executeTradeBatch, if_neg (List.cons_ne_nil _ _), hguard,
    require, if_pos hpositive, hfees]
  simp only [Except.ok_bind, hfee, Trading.recordTrades, hrecord]
  rfl

/-- A trade in the next minute is committed. -/
theorem TradedEveryMinute.next {k : ℕ} {w : World (State (Balances Address Address))}
    (h : TradedEveryMinute k w) (hk : k < 2 ^ 32) :
    ∃ w' log', (contract _).Run w w' log' ∧ TradedEveryMinute (k + 1) w' := by
  have hwindow : 60 * (k + 1) / 60 = k + 1 := by omega
  have hconsume : w.store.limits.checkAndConsume (60 * (k + 1)) ⟨7⟩ =
      .ok (consumed w.store.limits ⟨7⟩ (k + 1)) := by
    have hunused := checkAndConsume_of_unused ⟨7⟩ (60 * (k + 1)) h.cfg
    rw [hwindow] at hunused
    exact hunused (h.user (k + 1) (by omega)) (h.global (k + 1) (by omega))
  have hguard := Trading.ensureTradeable_iff.mpr
    ⟨h.initialized, h.unpaused, _, hconsume, rfl⟩
  have hvolume : IntFormat.i128.Mem (w.store.trading.ledger.stats.totalVolume + 1) := by
    rw [h.stats]
    refine ⟨IntFormat.i128.lo_nonpos.trans (Int.add_nonneg (Int.natCast_nonneg k) (by decide)), ?_⟩
    have hhi : (2 ^ 32 : ℤ) ≤ IntFormat.i128.hi := by decide
    have hlt : (k : ℤ) < 2 ^ 32 := by exact_mod_cast hk
    exact (Int.add_one_le_of_lt hlt).trans hhi
  have hrecord := recordTrade_of_fits (60 * (k + 1))
    { w.store.trading with limits := consumed w.store.limits ⟨7⟩ (k + 1) } ⟨7⟩ "XLM" 1
    (by rw [h.tradeCount]; omega)
    (by rw [h.stats]; exact (Nat.succ_le_of_lt hk).trans_lt (by decide)) hvolume
  have hbatch := batchTrade_single ⟨9⟩ ⟨8⟩ hguard (by decide) hrecord
  have hexec : ∃ r s', (contract _).exec (60 * (k + 1)) singleTrade w.store = .ok (r, s') ∧
      s'.trading.initialized = w.store.trading.initialized ∧
      s'.trading.breaker = w.store.trading.breaker ∧
      s'.limits = consumed w.store.limits ⟨7⟩ (k + 1) ∧
      s'.trading.ledger.tradeCount = w.store.trading.ledger.tradeCount + 1 ∧
      s'.trading.ledger.stats = ⟨w.store.trading.ledger.stats.totalTrades + 1,
        w.store.trading.ledger.stats.totalVolume + 1⟩ := by
    simp only [contract, singleTrade, execute, Trading.execute, hbatch]
    exact ⟨_, _, rfl, rfl, rfl, rfl, rfl, rfl⟩
  obtain ⟨r, s', hexec, hinit, hbreaker, hlimits, hcount, hstats⟩ := hexec
  refine ⟨⟨60 * (k + 1), s'⟩, _, .commit .start (by rw [h.now]; omega) hexec, rfl, ?_, ?_, ?_, ?_,
    ?_, ?_, ?_⟩
  · exact hinit.trans h.initialized
  · rw [hbreaker]
    exact h.unpaused
  · rw [hlimits]
    exact h.cfg
  · intro window hlt
    rw [hlimits]
    simp only [consumed, Trading.RateLimits.getUserWindowUsage, Store.lookup_insert_ite,
      Prod.mk.injEq]
    rw [if_neg fun heq => absurd heq.2 (by omega)]
    exact h.user window (by omega)
  · intro window hlt
    rw [hlimits]
    simp only [consumed, Trading.RateLimits.getGlobalWindowUsage, Store.lookup_insert_ite]
    rw [if_neg (by omega)]
    exact h.global window (by omega)
  · rw [hcount, h.tradeCount]
  · rw [hstats, h.stats]
    rfl

/-- Every count up to 2³² is reached. -/
theorem exists_tradedEveryMinute {k : ℕ} (hk : k ≤ 2 ^ 32) :
    ∃ w log, (contract _).Run emptyWorld w log ∧ TradedEveryMinute k w := by
  induction k with
  | zero =>
    refine ⟨_, _, Contract.run_play _ emptyWorld
      [(0, .init ⟨1⟩ [⟨2⟩] ⟨3⟩ ⟨1000, 100, 3600⟩)] (by decide), ?_⟩
    exact ⟨rfl, rfl, by decide, rfl, fun _ _ => rfl, fun _ _ => rfl, rfl, rfl⟩
  | succ k ih =>
    obtain ⟨w, log, hrun, hw⟩ := ih (by omega)
    obtain ⟨w', log', hnext, hw'⟩ := hw.next (by omega)
    exact ⟨w', log ++ log', hrun.append hnext, hw'⟩

/-- After 2³² trades the answer to a request for five is empty. -/
theorem recent_trades_empty :
    ∃ w log, (contract (Balances Address Address)).Run emptyWorld w log ∧
      w.store.trading.ledger.tradeCount = 2 ^ 32 ∧ getRecentTrades 5 w.store.trading = .ok [] ∧
      ¬ ∃ trades, getRecentTrades 5 w.store.trading = .ok trades ∧
        LastTrades (min (min 5 maxRecentTrades) w.store.trading.ledger.tradeCount)
          w.store.trading trades := by
  obtain ⟨w, log, hrun, hw⟩ := exists_tradedEveryMinute le_rfl
  have hempty : getRecentTrades 5 w.store.trading = .ok [] :=
    (Trading.getRecentTrades_eq_ok hw.tradeCount).mpr ⟨fun _ => by decide, rfl⟩
  refine ⟨w, log, hrun, hw.tradeCount, hempty, ?_⟩
  rintro ⟨trades, htrades, hlast⟩
  obtain rfl := Except.ok.inj (htrades.symm.trans hempty)
  have hids := hlast.ids
  rw [hw.tradeCount] at hids
  exact absurd hids (by decide)

end Stellara.UpgradeableTrading
