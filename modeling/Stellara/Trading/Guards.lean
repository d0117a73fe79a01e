import Stellara.Trading.EntryPoints

/-!
# The guards of the calls that trade

Every call that records trades passes the same guards first: it is counted against the rate limit
of its trader, and trading must not be paused. An empty batch records nothing and passes none.

## Main definitions

* `TradePaused`: trading is paused
* `Call.trader?`: the trader of a call that records trades

## Main results

* `ensureTradeable_iff`: what passes the guards
* `execute_trader`: a call that records trades has passed the guards of its trader
* `execute_no_trader`: the other calls record no trade and are not counted
-/

namespace Stellara.Trading

/-- Trading is paused: the contract as a whole, or the function that trades. -/
def TradePaused (b : CircuitBreaker.Storage) : Prop :=
  (CircuitBreaker.getState b).pauseLevel = .full ∨
    (CircuitBreaker.getState b).pauseLevel = .partialPause ∧
      CircuitBreaker.isFunctionPaused b "trade" = true

instance (b : CircuitBreaker.Storage) : Decidable (TradePaused b) :=
  inferInstanceAs (Decidable (_ ∨ _))

/-- The trader of a call that records trades: of a single trade, of a batch that is not empty, or
of a limit order. -/
def Call.trader? : Call → Option Address
  | .trade trader .. => some trader
  | .batchTrade trader orders .. => if orders = [] then none else some trader
  | .createLimitOrder trader .. => some trader
  | .cancelOrder .. => none

variable {τ : Type} {now : ℕ} {trader : Address} {s s' : State τ}

theorem requireTradeNotPaused_eq_ok {u : Unit} :
    requireTradeNotPaused s "trade" = .ok u ↔ ¬ TradePaused s.breaker := by
  simp only [requireTradeNotPaused, Except.bind_eq_ok, require_eq_ok, exists_const, TradePaused,
    not_or, ne_eq]

/-- The guards let a call pass when the contract is initialized, the call is within the limits, and
trading is not paused. -/
theorem ensureTradeable_iff : ensureTradeable now trader s = .ok s' ↔
    s.initialized = true ∧ ¬ TradePaused s.breaker ∧
      ∃ limits, s.limits.checkAndConsume now trader = .ok limits ∧
        s' = { s with limits := limits } := by
  simp only [ensureTradeable, requireInitialized, checkAndConsumeTradeRateLimit,
    Except.bind_eq_ok, require_eq_ok, exists_const]
  constructor
  · rintro ⟨hinit, s₁, ⟨limits, hlimits, hs₁⟩, u, hpaused, hs'⟩
    obtain rfl := Except.ok.inj hs₁
    obtain rfl := Except.ok.inj hs'
    exact ⟨hinit, requireTradeNotPaused_eq_ok.mp hpaused, limits, hlimits, rfl⟩
  · rintro ⟨hinit, hpaused, limits, hlimits, rfl⟩
    exact ⟨hinit, _, ⟨limits, hlimits, rfl⟩, (), requireTradeNotPaused_eq_ok.mpr hpaused, rfl⟩

/-- Matching changes neither the limits nor the breaker. -/
theorem matchLimitOrder_limits {incoming incoming' : LimitOrder}
    (h : matchLimitOrder now s incoming = .ok (s', incoming')) : s'.limits = s.limits := by
  refine (matchLimitOrder_induction (I := fun s₁ _ => s₁.limits = s.limits) ?_ rfl h).1
  intro s₁ incoming makerId maker p hlimits _ _ _ _ hfill
  rw [executeFill_eq_ok hfill]
  exact hlimits

variable [TokenClient τ Address Address] {call : Call} {r : Result}

/-- A call that records trades has passed the guards of its trader, and leaves the limits as the
guards did. -/
theorem execute_trader (h : execute now s call = .ok (r, s')) (hcall : call.trader? = some trader) :
    ∃ s₁, ensureTradeable now trader s = .ok s₁ ∧ s'.limits = s₁.limits := by
  cases call with
  | trade trader' pair amount price isBuy feeToken feeAmount feeRecipient =>
    obtain rfl : trader' = trader := Option.some.inj hcall
    simp only [execute, trade, Except.bind_eq_ok, require_eq_ok, exists_const] at h
    obtain ⟨⟨id, s₅⟩, ⟨-, -, s₁, hguard, breaker, -, s₂, hfee, ⟨id', s₃⟩, hrecord, h₅⟩, h⟩ := h
    obtain ⟨tokens, rfl⟩ := collectFee_eq_ok hfee
    obtain ⟨rfl, rfl⟩ := recordTrade_eq_ok hrecord
    obtain ⟨-, rfl⟩ := Prod.mk.inj (Except.ok.inj h₅)
    obtain ⟨-, rfl⟩ := Prod.mk.inj (Except.ok.inj h)
    exact ⟨s₁, hguard, rfl⟩
  | batchTrade trader' orders feeToken feePerTrade feeRecipient =>
    simp only [Call.trader?, Option.ite_none_left_eq_some, Option.some_inj] at hcall
    obtain ⟨hne, rfl⟩ := hcall
    simp only [execute, batchTrade, executeTradeBatch, if_neg hne, validateBatchSize,
      Except.bind_eq_ok, require_eq_ok, exists_const] at h
    obtain ⟨⟨ids, s₄⟩, ⟨-, -, s₁, hguard, total, -, s₂, hfee, ⟨ids', s₃⟩, hrecord, h₄⟩, h⟩ := h
    obtain ⟨tokens, rfl⟩ := collectFee_eq_ok hfee
    obtain rfl := recordTrades_eq_ok hrecord
    obtain ⟨-, rfl⟩ := Prod.mk.inj (Except.ok.inj h₄)
    obtain ⟨-, rfl⟩ := Prod.mk.inj (Except.ok.inj h)
    exact ⟨s₁, hguard, rfl⟩
  | createLimitOrder trader' pair isBuy price amount tif =>
    obtain rfl : trader' = trader := Option.some.inj hcall
    simp only [execute, createLimitOrder, Except.bind_eq_ok, require_eq_ok, exists_const] at h
    obtain ⟨⟨id, s₄⟩, ⟨s₁, hguard, -, -, ⟨id', book⟩, -, u, -, ⟨s₂, order⟩, hmatch, book', -, h₄⟩,
      h⟩ := h
    obtain ⟨-, rfl⟩ := Prod.mk.inj (Except.ok.inj h₄)
    obtain ⟨-, rfl⟩ := Prod.mk.inj (Except.ok.inj h)
    have hlimits := matchLimitOrder_limits hmatch
    exact ⟨s₁, hguard, hlimits⟩
  | cancelOrder trader' orderId => cases hcall

/-- The other calls, a cancellation and an empty batch, record no trade and are not counted. -/
theorem execute_no_trader (h : execute now s call = .ok (r, s')) (hcall : call.trader? = none) :
    s'.ledger = s.ledger ∧ s'.limits = s.limits := by
  cases call with
  | trade trader pair amount price isBuy feeToken feeAmount feeRecipient => cases hcall
  | batchTrade trader orders feeToken feePerTrade feeRecipient =>
    obtain rfl : orders = [] := by simpa [Call.trader?] using hcall
    obtain ⟨-, rfl⟩ := Prod.mk.inj (Except.ok.inj h)
    exact ⟨rfl, rfl⟩
  | createLimitOrder trader pair isBuy price amount tif => cases hcall
  | cancelOrder trader orderId =>
    simp only [execute, Except.bind_eq_ok] at h
    obtain ⟨s₁, hcancel, h⟩ := h
    obtain ⟨-, rfl⟩ := Prod.mk.inj (Except.ok.inj h)
    obtain ⟨order, -, -, -, rfl⟩ := cancelOrder_eq_ok hcancel
    exact ⟨rfl, rfl⟩

end Stellara.Trading
