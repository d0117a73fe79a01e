import Stellara.Trading.Guards
import Stellara.Trading.Upgradeable

/-!
# What a pause covers

Trading is paused as a whole or by the name of the function, and the guards then refuse every
call that trades on the book. Two calls come past them: a private trade, which has guards of its
own and none for the pause, and an empty batch, which returns before it meets a guard and records
nothing.

## Main definitions

* `Call.recordsTrades`: the entry points that record trades
* `PauseCovers`: while trading is paused these entry points fail, and no trade is recorded
* `Call.escapesPause`: the calls that pass no guard for the pause

## Main results

* `pause_covers_iff`: a pause covers a run exactly when no such call is executed in it
-/

namespace Stellara.UpgradeableTrading

open Trading (TradePaused)

/-- The entry points that record a trade or a private trade. -/
def Call.recordsTrades : Call → Bool
  | .trading (.trade ..) => true
  | .trading (.batchTrade ..) => true
  | .trading (.createLimitOrder ..) => true
  | .executePrivateTrade .. => true
  | _ => false

/-- A private trade, or a batch without orders. -/
def Call.escapesPause : Call → Bool
  | .trading (.batchTrade _ orders ..) => orders = []
  | .executePrivateTrade .. => true
  | _ => false

variable {τ : Type}

/-- While trading is paused no trade and no private trade is recorded, and every call that would
record one fails. -/
def PauseCovers (log : List (Commit (State τ) Call Result)) : Prop :=
  ∀ c ∈ log, TradePaused c.before.trading.breaker →
    c.after.trading.ledger.trades = c.before.trading.ledger.trades ∧
      c.after.privateTrades.trades = c.before.privateTrades.trades ∧ c.call.recordsTrades = false

variable [TokenClient τ Address Address] {now : ℕ} {s s' : State τ} {call : Call} {r : Result}

/-- A call that is executed while trading is paused records nothing, unless it passes no guard. -/
theorem execute_of_paused (hpaused : TradePaused s.trading.breaker)
    (h : execute now s call = .ok (r, s')) (hcall : call.escapesPause = false) :
    s'.trading.ledger.trades = s.trading.ledger.trades ∧
      s'.privateTrades.trades = s.privateTrades.trades ∧ call.recordsTrades = false := by
  rcases execute_cases h with ⟨_, _, _, cbConfig, rfl, hinit, hprivate⟩ | ⟨c, _, rfl, hexec, hs'⟩ |
    ⟨hother, hadmin⟩
  · simp only [Trading.init, Except.bind_eq_ok, require_eq_ok, exists_const] at hinit
    rw [← Except.ok.inj hinit.2, hprivate]
    exact ⟨rfl, rfl, rfl⟩
  · have hnone : c.trader? = none := by
      by_contra hsome
      obtain ⟨trader, htrader⟩ := Option.ne_none_iff_exists'.mp hsome
      obtain ⟨s₁, hguard, -⟩ := Trading.execute_trader hexec htrader
      -- the guards of the trader would refuse the call
      exact (Trading.ensureTradeable_iff.mp hguard).2.1 hpaused
    obtain ⟨hledger, -⟩ := Trading.execute_no_trader hexec hnone
    refine ⟨congrArg _ hledger, by rw [hs'], ?_⟩
    cases c with
    | batchTrade trader orders feeToken feePerTrade feeRecipient =>
      -- only an empty batch has no trader, and that one is excluded
      have hnil : orders = [] := by simpa [Trading.Call.trader?] using hnone
      have hne : orders ≠ [] := by simpa [Call.escapesPause] using hcall
      exact absurd hnil hne
    | cancelOrder trader orderId => rfl
    | _ => cases hnone
  · obtain ⟨cfg, premiumUsers, breaker, htrading⟩ := hadmin.trading
    have hprivate : call.isPrivateTrade = false := by
      cases call <;> simp_all [Call.escapesPause, Call.isPrivateTrade]
    refine ⟨by rw [htrading], hadmin.trades hprivate, ?_⟩
    cases call with
    | trading c => exact absurd rfl (hother c)
    | executePrivateTrade => cases hprivate
    | _ => rfl

/-- **What a pause covers**: while trading is paused nothing is recorded and everything that would
record fails, exactly when no private trade and no empty batch is executed meanwhile. -/
theorem pause_covers_iff {w₀ w : World (State τ)} {log : List (Commit (State τ) Call Result)}
    (h : (contract τ).Run w₀ w log) :
    PauseCovers log ↔
      ∀ c ∈ log, TradePaused c.before.trading.breaker → c.call.escapesPause = false := by
  constructor
  · intro hcovers c hc hpaused
    obtain ⟨-, -, hfails⟩ := hcovers c hc hpaused
    -- what passes no guard is one of the entry points that record trades
    unfold Call.escapesPause
    split
    · cases hcall : c.call with
      | trading call => simp_all [Call.recordsTrades]
      | _ => simp_all
    · simp_all [Call.recordsTrades]
    · rfl
  · intro hescapes c hc hpaused
    exact execute_of_paused hpaused (h.exec_of_mem c hc) (hescapes c hc hpaused)

/-- The administrator 1 initializes the contract. -/
def sampleInit : ℕ × Call := (0, .init ⟨1⟩ [⟨2⟩] ⟨3⟩ ⟨1000, 10, 3600⟩)

/-- A trade before a pause, one during it, and one after it. -/
def samplePause : List (ℕ × Call) :=
  [sampleInit, (1, .trading (.trade ⟨7⟩ "XLM" 5 3 true ⟨9⟩ 0 ⟨8⟩)), (2, .pauseFunction ⟨1⟩ "trade"),
    (3, .trading (.trade ⟨7⟩ "XLM" 5 3 true ⟨9⟩ 0 ⟨8⟩)), (4, .unpause ⟨1⟩),
    (5, .trading (.trade ⟨7⟩ "XLM" 5 3 true ⟨9⟩ 0 ⟨8⟩))]

theorem pause_covers_iff_sample : PauseCovers ((contract _).play emptyWorld samplePause).2 := by
  refine (pause_covers_iff (Contract.run_play _ emptyWorld samplePause (by decide))).mpr ?_
  intro c hc _
  have hcalls : ∀ call ∈ samplePause.map Prod.snd, call.escapesPause = false := by decide
  exact hcalls c.call (Contract.call_mem_of_mem_play _ hc)

/-- A private trade while the contract is fully paused. -/
def samplePrivate : List (ℕ × Call) :=
  [sampleInit, (1, .submitSolvencyProof ⟨7⟩ 11 12 13 14), (2, .pause ⟨1⟩),
    (3, .executePrivateTrade ⟨7⟩ "XLM" 3 true 21 22 11)]

/-- A private trade is recorded while the contract is fully paused. -/
theorem private_trade_while_paused :
    ¬ ∀ w log, (contract (Balances Address Address)).Run emptyWorld w log → PauseCovers log := by
  intro hall
  have hcovers := hall _ _ (Contract.run_play _ emptyWorld samplePrivate (by decide))
  have hmem : ∃ c, ((contract _).play emptyWorld samplePrivate).2[3]? = some c ∧
      TradePaused c.before.trading.breaker ∧ c.call.recordsTrades = true :=
    ⟨_, rfl, by decide, rfl⟩
  obtain ⟨c, hc, hpaused, hrecords⟩ := hmem
  obtain ⟨-, -, hfails⟩ := hcovers c (List.mem_of_getElem? hc) hpaused
  rw [hrecords] at hfails
  cases hfails

end Stellara.UpgradeableTrading
