import Stellara.Trading.Matching

/-!
# What the entry points leave

For each entry point of the trading contract, the state that a successful call leaves, in
terms of the state before it. Everything that is proved about runs is proved from these
descriptions.

## Main definitions

* `State.started`: the contract right after `init`
* `ledgerAfterTrades`, `tradeEvents`: the ledger and the events of a batch
* `placed`: the limit order that `createLimitOrder` stores
* `Executed`: the entry point that a call has gone through

## Main results

* `trade_eq_ok`, `batchTrade_eq_ok`, `createLimitOrder_eq_ok`, `cancelOrder_eq_ok`
* `execute_cases`: a call has gone through its entry point
-/

namespace Stellara.Trading

variable {τ : Type} [TokenClient τ Address Address] {now : ℕ} {trader : Address} {pair : Symbol}
  {amount price : ℤ} {isBuy : Bool} {feeToken feeRecipient : Address} {s s' : State τ} {id : ℕ}

omit [TokenClient τ Address Address] in
/-- The contract right after `init`. -/
def State.started (now : ℕ) (config : CircuitBreakerConfig) (tokens : τ) : State τ :=
  { State.empty tokens with
    initialized := true
    limits := { (State.empty tokens).limits with cfg := some ⟨60, 5, 100, 20⟩ }
    breaker := CircuitBreaker.init now config .empty }

omit [TokenClient τ Address Address] in
theorem init_empty (config : CircuitBreakerConfig) (tokens : τ) :
    init now config (State.empty tokens) = .ok (State.started now config tokens) := rfl

theorem collectFee_eq_ok {feeAmount : ℤ}
    (h : collectFee feeToken trader feeRecipient feeAmount s = .ok s') :
    ∃ tokens, s' = { s with tokens := tokens } := by
  simp only [collectFee, Except.bind_eq_ok] at h
  obtain ⟨tokens, -, h⟩ := h
  exact ⟨tokens, (Except.ok.inj h).symm⟩

/-- A trade reports its volume to the breaker and records one trade. -/
theorem trade_eq_ok {feeAmount : ℤ}
    (h : trade now trader pair amount price isBuy feeToken feeAmount feeRecipient s =
      .ok (id, s')) :
    0 < amount ∧ (CircuitBreaker.getState s.breaker).pauseLevel ≠ .full ∧
      ∃ limits breaker tokens,
        (CircuitBreaker.trackActivity now amount s.breaker : Outcome TradeError _) = .ok breaker ∧
        s' = { s with
          limits := limits
          breaker := breaker
          tokens := tokens
          ledger := s.ledger.append (s.ledger.nextTrade now trader pair amount price isBuy) amount
          events := s.events ++
            [(s.ledger.nextTrade now trader pair amount price isBuy).executed isBuy,
              .feeCollected ⟨id, trader, feeAmount, feeRecipient, feeToken, now⟩] } := by
  simp only [trade, Except.bind_eq_ok, require_eq_ok, exists_const] at h
  obtain ⟨hamount, -, s₁, h₁, breaker, hb, s₂, h₂, ⟨id', s₃⟩, h₃, h⟩ := h
  obtain ⟨⟨limits, rfl⟩, -, hp⟩ := ensureTradeable_eq_ok h₁
  obtain ⟨tokens, rfl⟩ := collectFee_eq_ok h₂
  obtain ⟨rfl, rfl⟩ := recordTrade_eq_ok h₃
  obtain ⟨rfl, rfl⟩ := Prod.mk.inj (Except.ok.inj h)
  exact ⟨hamount, hp, limits, breaker, tokens, hb, by simp [State.publish]⟩

/-! ## Batches -/

/-- The ledger after the trades of a batch. -/
def ledgerAfterTrades (now : ℕ) (trader : Address) :
    List (Symbol × ℤ × ℤ × Bool) → TradeLedger → TradeLedger
  | [], l => l
  | (pair, amount, price, isBuy) :: orders, l =>
    ledgerAfterTrades now trader orders
      (l.append (l.nextTrade now trader pair amount price isBuy) amount)

/-- The events of the trades of a batch. -/
def tradeEvents (now : ℕ) (trader : Address) :
    List (Symbol × ℤ × ℤ × Bool) → TradeLedger → List Event
  | [], _ => []
  | (pair, amount, price, isBuy) :: orders, l =>
    let t := l.nextTrade now trader pair amount price isBuy
    t.executed isBuy :: tradeEvents now trader orders (l.append t amount)

omit [TokenClient τ Address Address] in
theorem recordTrades_eq_ok {orders : List (Symbol × ℤ × ℤ × Bool)} {ids : List ℕ}
    (h : recordTrades now trader orders s = .ok (ids, s')) :
    s' = { s with
      ledger := ledgerAfterTrades now trader orders s.ledger
      events := s.events ++ tradeEvents now trader orders s.ledger } := by
  induction orders generalizing s ids with
  | nil =>
    obtain ⟨-, rfl⟩ := Prod.mk.inj (Except.ok.inj h)
    simp [ledgerAfterTrades, tradeEvents]
  | cons o orders ih =>
    obtain ⟨pair, amount, price, isBuy⟩ := o
    simp only [recordTrades, Except.bind_eq_ok] at h
    obtain ⟨⟨id, s₁⟩, h₁, ⟨ids', s₂⟩, h₂, h⟩ := h
    obtain ⟨-, rfl⟩ := recordTrade_eq_ok h₁
    obtain ⟨-, rfl⟩ := Prod.mk.inj (Except.ok.inj h)
    rw [ih h₂]
    simp [ledgerAfterTrades, tradeEvents]

/-- A batch that is not empty records its trades in order. -/
theorem batchTrade_eq_ok {orders : List (Symbol × ℤ × ℤ × Bool)} {feePerTrade : ℤ} {ids : List ℕ}
    (h : batchTrade now trader orders feeToken feePerTrade feeRecipient s = .ok (ids, s')) :
    (orders = [] ∧ s' = s) ∨
    (orders ≠ [] ∧ (∀ o ∈ orders, 0 < o.2.1) ∧
      (CircuitBreaker.getState s.breaker).pauseLevel ≠ .full ∧
      ∃ limits tokens fee, s' = { s with
        limits := limits
        tokens := tokens
        ledger := ledgerAfterTrades now trader orders s.ledger
        events := s.events ++ tradeEvents now trader orders s.ledger ++ [.feeCollected fee] }) := by
  unfold batchTrade executeTradeBatch at h
  split at h
  · obtain ⟨-, rfl⟩ := Prod.mk.inj (Except.ok.inj h)
    exact .inl ⟨‹_›, rfl⟩
  · simp only [validateBatchSize, Except.bind_eq_ok, require_eq_ok, exists_const] at h
    obtain ⟨-, hpos, s₁, h₁, total, -, s₂, h₂, ⟨ids', s₃⟩, h₃, h⟩ := h
    obtain ⟨⟨limits, rfl⟩, -, hp⟩ := ensureTradeable_eq_ok h₁
    obtain ⟨tokens, rfl⟩ := collectFee_eq_ok h₂
    obtain rfl := recordTrades_eq_ok h₃
    obtain ⟨-, rfl⟩ := Prod.mk.inj (Except.ok.inj h)
    exact .inr ⟨‹_›, hpos, hp, limits, tokens, _, rfl⟩

/-! ## Orders -/

omit [TokenClient τ Address Address]

/-- The limit order that is stored before it is matched. -/
def placed (now id : ℕ) (trader : Address) (pair : Symbol) (isBuy : Bool) (price amount : ℤ)
    (tif : TimeInForce) : LimitOrder :=
  { id := id, owner := trader, pair := pair, side := if isBuy then .buy else .sell
    price := price, amount := amount, remaining := amount, status := .opened, tif := tif
    timestamp := now }

/-- The state in which a placed order is matched. -/
def State.place (s : State τ) (limits : RateLimits) (o : LimitOrder) : State τ :=
  { s with
    limits := limits
    book := ({ s.book with orderCount := o.id } : BookStorage).writeOrder o
    events := s.events ++
      [.orderCreated ⟨o.id, o.owner, o.pair, o.isBuy, o.price, o.amount, o.tif, o.timestamp⟩] }

/-- A limit order is placed under the next id, matched and settled. -/
theorem createLimitOrder_eq_ok {tif : TimeInForce}
    (h : createLimitOrder now trader pair isBuy price amount tif s = .ok (id, s')) :
    id = s.book.orderCount + 1 ∧ 0 < amount ∧
      (CircuitBreaker.getState s.breaker).pauseLevel ≠ .full ∧
      ∃ limits s₁ order book,
        matchLimitOrder now (s.place limits (placed now id trader pair isBuy price amount tif))
          (placed now id trader pair isBuy price amount tif) = .ok (s₁, order) ∧
        settleOrder order (s₁.book.writeOrder order) = .ok book ∧ s' = { s₁ with book := book } := by
  simp only [createLimitOrder, Except.bind_eq_ok, require_eq_ok, exists_const,
    BookStorage.nextOrderId, IntFormat.checkedNat_eq_ok] at h
  obtain ⟨s₁, h₁, hamount, -, ⟨id', b⟩, ⟨_, ⟨-, rfl⟩, hid⟩, -, -, ⟨s₂, order⟩, h₂, book, h₃, h⟩ := h
  obtain ⟨⟨limits, rfl⟩, -, hp⟩ := ensureTradeable_eq_ok h₁
  obtain ⟨rfl, rfl⟩ := Prod.mk.inj (Except.ok.inj hid)
  obtain ⟨rfl, rfl⟩ := Prod.mk.inj (Except.ok.inj h)
  refine ⟨rfl, hamount, hp, limits, s₂, order, book, ?_, h₃, rfl⟩
  rw [← h₂]
  cases isBuy <;> rfl

/-- A cancelled order was open and its trader's own. -/
theorem cancelOrder_eq_ok (h : cancelOrder now trader id s = .ok s') :
    ∃ order, s.book.readOrder id = some order ∧ order.owner = trader ∧ order.isOpen ∧
      s' = { s with
        book := (s.book.writeOrder { order with status := .cancelled }).removeOrderFromBook
          order.pair order.isBuy order.id
        events := s.events ++ [.orderCancelled ⟨id, trader, now⟩] } := by
  simp only [cancelOrder, requireInitialized, Except.bind_eq_ok, require_eq_ok, exists_const,
    orAbort_eq_ok] at h
  obtain ⟨-, order, ho, howner, hopen, h⟩ := h
  exact ⟨order, ho, howner, hopen, (Except.ok.inj h).symm⟩

/-! ## Calls -/

/-- The entry point that a call has gone through, with its result. -/
inductive Executed [TokenClient τ Address Address] (now : ℕ) (s : State τ) :
    Call → Result → State τ → Prop
  | trade {trader : Address} {pair : Symbol} {amount price : ℤ} {isBuy : Bool} {feeToken : Address}
      {feeAmount : ℤ} {feeRecipient : Address} {id : ℕ} {s' : State τ} :
      trade now trader pair amount price isBuy feeToken feeAmount feeRecipient s = .ok (id, s') →
      Executed now s (.trade trader pair amount price isBuy feeToken feeAmount feeRecipient)
        (.tradeId id) s'
  | batchTrade {trader : Address} {orders : List (Symbol × ℤ × ℤ × Bool)} {feeToken : Address}
      {feePerTrade : ℤ} {feeRecipient : Address} {ids : List ℕ} {s' : State τ} :
      batchTrade now trader orders feeToken feePerTrade feeRecipient s = .ok (ids, s') →
      Executed now s (.batchTrade trader orders feeToken feePerTrade feeRecipient) (.tradeIds ids) s'
  | createLimitOrder {trader : Address} {pair : Symbol} {isBuy : Bool} {price amount : ℤ}
      {tif : TimeInForce} {id : ℕ} {s' : State τ} :
      createLimitOrder now trader pair isBuy price amount tif s = .ok (id, s') →
      Executed now s (.createLimitOrder trader pair isBuy price amount tif) (.orderId id) s'
  | cancelOrder {trader : Address} {orderId : ℕ} {s' : State τ} :
      cancelOrder now trader orderId s = .ok s' → Executed now s (.cancelOrder trader orderId) .unit s'

theorem execute_cases [TokenClient τ Address Address] {call : Call} {r : Result}
    (h : execute now s call = .ok (r, s')) : Executed now s call r s' := by
  cases call with
  | trade =>
    simp only [execute, Except.bind_eq_ok] at h
    obtain ⟨⟨id, s₁⟩, h₁, h⟩ := h
    obtain ⟨rfl, rfl⟩ := Prod.mk.inj (Except.ok.inj h)
    exact .trade h₁
  | batchTrade =>
    simp only [execute, Except.bind_eq_ok] at h
    obtain ⟨⟨ids, s₁⟩, h₁, h⟩ := h
    obtain ⟨rfl, rfl⟩ := Prod.mk.inj (Except.ok.inj h)
    exact .batchTrade h₁
  | createLimitOrder =>
    simp only [execute, Except.bind_eq_ok] at h
    obtain ⟨⟨id, s₁⟩, h₁, h⟩ := h
    obtain ⟨rfl, rfl⟩ := Prod.mk.inj (Except.ok.inj h)
    exact .createLimitOrder h₁
  | cancelOrder =>
    simp only [execute, Except.bind_eq_ok] at h
    obtain ⟨s₁, h₁, h⟩ := h
    obtain ⟨rfl, rfl⟩ := Prod.mk.inj (Except.ok.inj h)
    exact .cancelOrder h₁

end Stellara.Trading
