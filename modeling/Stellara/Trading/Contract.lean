import Stellara.Shared.CircuitBreaker
import Stellara.Shared.Fees
import Stellara.Trading.Book

/-!
# The trading contract

The entry points of the trading contract that produce trades or change orders: a single
trade, a batch of trades, a limit order that is matched against the book, and the
cancellation of an order. Every one of them returns the state it leaves; the host discards
that state when the call aborts.

## Main definitions

* `State`: the storage of the contract, its published events and the token contracts
* `recordTrade`, `matchLimitOrder`: the two helpers that produce trades
* `init`, `trade`, `batchTrade`, `createLimitOrder`, `cancelOrder`: the entry points
* `contract`: the trading contract as a transactional contract

## Main results

* `recordTrade_eq_ok`: what a recorded trade leaves
* `ensureTradeable_eq_ok`: what the guards let pass, and what they leave
-/

namespace Stellara.Trading

/-! ## Storage -/

/-- A trade; the signed amount is positive for a buy and negative for a sell. -/
structure Trade where
  id : ℕ
  trader : Address
  pair : Symbol
  signedAmount : ℤ
  price : ℤ
  timestamp : ℕ
deriving DecidableEq, Repr

structure TradeStats where
  totalTrades : ℕ
  totalVolume : ℤ
deriving DecidableEq, Repr

structure RateLimitConfig where
  windowSecs : ℕ
  userLimit : ℕ
  globalLimit : ℕ
  premiumUserLimit : ℕ
deriving DecidableEq, Repr

structure TradeExecuted where
  tradeId : ℕ
  trader : Address
  pair : Symbol
  signedAmount : ℤ
  price : ℤ
  timestamp : ℕ
  isBuy : Bool
deriving DecidableEq, Repr

structure FeeCollected where
  tradeId : ℕ
  trader : Address
  feeAmount : ℤ
  feeRecipient : Address
  feeToken : Address
  timestamp : ℕ
deriving DecidableEq, Repr

structure OrderCreated where
  orderId : ℕ
  owner : Address
  pair : Symbol
  isBuy : Bool
  price : ℤ
  amount : ℤ
  tif : TimeInForce
  timestamp : ℕ
deriving DecidableEq, Repr

structure OrderCancelled where
  orderId : ℕ
  owner : Address
  timestamp : ℕ
deriving DecidableEq, Repr

structure OrderMatched where
  makerOrderId : ℕ
  takerOrderId : ℕ
  pair : Symbol
  amount : ℤ
  price : ℤ
  timestamp : ℕ
deriving DecidableEq, Repr

/-- The events that the contract publishes. -/
inductive Event where
  | trade (e : TradeExecuted)
  | feeCollected (e : FeeCollected)
  | orderCreated (e : OrderCreated)
  | orderCancelled (e : OrderCancelled)
  | orderMatched (e : OrderMatched)
deriving DecidableEq, Repr

/-- The entries `trade`, `t_cnt` and `stats`. -/
structure TradeLedger where
  trades : Store ℕ Trade
  tradeCount : ℕ
  stats : TradeStats

/-- The entries `rl_cfg`, `prem`, `rlu` and `rlg`. -/
structure RateLimits where
  cfg : Option RateLimitConfig
  premiumUsers : Store Address Bool
  userUsage : Store (Address × ℕ) ℕ
  globalUsage : Store ℕ ℕ

/-- The storage of the contract, the events it published and the token contracts. -/
structure State (τ : Type) where
  initialized : Bool
  ledger : TradeLedger
  limits : RateLimits
  book : BookStorage
  breaker : CircuitBreaker.Storage
  tokens : τ
  events : List Event

/-- Maximum number of orders executed atomically in one batch. -/
def maxBatchSize : ℕ := 25

variable {τ : Type}

/-- The contract before `init`. -/
def State.empty (tokens : τ) : State τ where
  initialized := false
  ledger := ⟨∅, 0, ⟨0, 0⟩⟩
  limits := ⟨none, ∅, ∅, ∅⟩
  book := .empty
  breaker := .empty
  tokens := tokens
  events := []

def State.publish (s : State τ) (e : Event) : State τ := { s with events := s.events ++ [e] }

/-- Initialize the contract. -/
def init (now : ℕ) (cbConfig : CircuitBreakerConfig) (s : State τ) :
    Outcome TradeError (State τ) := do
  require (s.initialized = false) (.error .unauthorized)
  .ok { s with
    initialized := true
    ledger := { s.ledger with stats := ⟨0, 0⟩, tradeCount := 0 }
    book := { s.book with orderCount := 0 }
    limits := { s.limits with cfg := some ⟨60, 5, 100, 20⟩, premiumUsers := ∅ }
    breaker := CircuitBreaker.init now cbConfig s.breaker }

/-! ## Guards -/

def requireInitialized (s : State τ) : Outcome TradeError Unit :=
  require (s.initialized = true) (.error .notInitialized)

def requireTradeNotPaused (s : State τ) (funcName : Symbol) : Outcome TradeError Unit := do
  let state := CircuitBreaker.getState s.breaker
  require (state.pauseLevel ≠ .full) (.error .contractPaused)
  require (¬ (state.pauseLevel = .partialPause ∧
    CircuitBreaker.isFunctionPaused s.breaker funcName = true)) (.error .contractPaused)

namespace RateLimits

/-- The stored configuration, or one that never refuses. -/
def readConfig (l : RateLimits) : RateLimitConfig :=
  l.cfg.getD ⟨1, 4294967295, 4294967295, 4294967295⟩

def isPremiumUser (l : RateLimits) (user : Address) : Bool := (l.premiumUsers.lookup user).getD false

def getUserWindowUsage (l : RateLimits) (trader : Address) (window : ℕ) : ℕ :=
  (l.userUsage.lookup (trader, window)).getD 0

def getGlobalWindowUsage (l : RateLimits) (window : ℕ) : ℕ := (l.globalUsage.lookup window).getD 0

/-- Count one call of `trader` in the current window, unless a limit is reached. -/
def checkAndConsume (now : ℕ) (trader : Address) (l : RateLimits) :
    Outcome TradeError RateLimits := do
  let cfg := l.readConfig
  require (¬ (cfg.windowSecs = 0 ∨ cfg.userLimit = 0 ∨ cfg.globalLimit = 0 ∨
    cfg.premiumUserLimit = 0)) (.error .invalidRateLimitConfig)
  let window := now / cfg.windowSecs
  let allowedUserLimit := if l.isPremiumUser trader then cfg.premiumUserLimit else cfg.userLimit
  let currentUser := l.getUserWindowUsage trader window
  require (currentUser < allowedUserLimit) (.error .rateLimitExceeded)
  let currentGlobal := l.getGlobalWindowUsage window
  require (currentGlobal < cfg.globalLimit) (.error .globalRateLimitExceeded)
  let user ← IntFormat.u32.checkedNat .overflow (currentUser + 1)
  let global ← IntFormat.u32.checkedNat .overflow (currentGlobal + 1)
  .ok { l with
    userUsage := l.userUsage.insert (trader, window) user
    globalUsage := l.globalUsage.insert window global }

end RateLimits

def checkAndConsumeTradeRateLimit (now : ℕ) (trader : Address) (s : State τ) :
    Outcome TradeError (State τ) := do
  let limits ← s.limits.checkAndConsume now trader
  .ok { s with limits := limits }

/-- The guards of every operation that trades. -/
def ensureTradeable (now : ℕ) (trader : Address) (s : State τ) : Outcome TradeError (State τ) := do
  requireInitialized s
  let s ← checkAndConsumeTradeRateLimit now trader s
  requireTradeNotPaused s "trade"
  .ok s

def validateBatchSize (len : ℕ) : Outcome TradeError Unit :=
  require (len ≤ maxBatchSize) (.error .batchTooLarge)

/-- A successful guard consumes a part of the rate limit and nothing else. -/
theorem ensureTradeable_eq_ok {now : ℕ} {trader : Address} {s s' : State τ}
    (h : ensureTradeable now trader s = .ok s') :
    (∃ limits, s' = { s with limits := limits }) ∧ s.initialized = true ∧
      (CircuitBreaker.getState s.breaker).pauseLevel ≠ .full := by
  simp only [ensureTradeable, requireInitialized, checkAndConsumeTradeRateLimit,
    requireTradeNotPaused, Except.bind_eq_ok, require_eq_ok, exists_const] at h
  obtain ⟨hi, s₁, ⟨limits, -, h₁⟩, ⟨hp, -⟩, h⟩ := h
  obtain rfl := Except.ok.inj h₁
  obtain rfl := Except.ok.inj h
  exact ⟨⟨limits, rfl⟩, hi, hp⟩

/-! ## Recording trades -/

/-- The amount with the sign of its direction. -/
def toSigned (amount : ℤ) (isBuy : Bool) : Outcome TradeError ℤ :=
  if isBuy then .ok amount else IntFormat.i128.checked .overflow (-amount)

theorem toSigned_eq_ok {amount signed : ℤ} {isBuy : Bool} (h : toSigned amount isBuy = .ok signed) :
    signed = if isBuy then amount else -amount := by
  cases isBuy with
  | true => simpa [toSigned, eq_comm] using h
  | false => exact (IntFormat.checked_eq_ok.mp h).2

/-- Store one trade and count it. -/
def recordTrade (now : ℕ) (trader : Address) (pair : Symbol) (amount price : ℤ) (isBuy : Bool)
    (s : State τ) : Outcome TradeError (ℕ × State τ) := do
  let signedAmount ← toSigned amount isBuy
  let tradeId ← IntFormat.u64.checkedNat .overflow (s.ledger.tradeCount + 1)
  let trade : Trade := ⟨tradeId, trader, pair, signedAmount, price, now⟩
  let totalTrades ← IntFormat.u64.checkedNat .overflow (s.ledger.stats.totalTrades + 1)
  let totalVolume ← IntFormat.i128.checked .overflow (s.ledger.stats.totalVolume + amount)
  let ledger : TradeLedger :=
    ⟨s.ledger.trades.insert tradeId trade, tradeId, ⟨totalTrades, totalVolume⟩⟩
  let s := { s with ledger := ledger }
  .ok (tradeId, s.publish (.trade ⟨tradeId, trader, pair, signedAmount, price, now, isBuy⟩))

/-- The next trade of a ledger, of `amount` in the direction `isBuy`. -/
def TradeLedger.nextTrade (l : TradeLedger) (now : ℕ) (trader : Address) (pair : Symbol)
    (amount price : ℤ) (isBuy : Bool) : Trade :=
  ⟨l.tradeCount + 1, trader, pair, if isBuy then amount else -amount, price, now⟩

/-- The ledger after `trade` of the volume `amount` was recorded. -/
def TradeLedger.append (l : TradeLedger) (trade : Trade) (amount : ℤ) : TradeLedger :=
  ⟨l.trades.insert (l.tradeCount + 1) trade, l.tradeCount + 1,
    ⟨l.stats.totalTrades + 1, l.stats.totalVolume + amount⟩⟩

/-- The event of a recorded trade. -/
def Trade.executed (trade : Trade) (isBuy : Bool) : Event :=
  .trade ⟨trade.id, trade.trader, trade.pair, trade.signedAmount, trade.price, trade.timestamp,
    isBuy⟩

/-- What a recorded trade leaves: the ledger with the next trade, and its event. -/
theorem recordTrade_eq_ok {now : ℕ} {trader : Address} {pair : Symbol} {amount price : ℤ}
    {isBuy : Bool} {s s' : State τ} {id : ℕ}
    (h : recordTrade now trader pair amount price isBuy s = .ok (id, s')) :
    id = s.ledger.tradeCount + 1 ∧
      s' = { s with
        ledger := s.ledger.append (s.ledger.nextTrade now trader pair amount price isBuy) amount
        events := s.events ++
          [(s.ledger.nextTrade now trader pair amount price isBuy).executed isBuy] } := by
  simp only [recordTrade, Except.bind_eq_ok, IntFormat.checkedNat_eq_ok,
    IntFormat.checked_eq_ok] at h
  obtain ⟨signed, hs, _, ⟨-, rfl⟩, _, ⟨-, rfl⟩, _, ⟨-, rfl⟩, h⟩ := h
  obtain rfl := toSigned_eq_ok hs
  obtain ⟨rfl, rfl⟩ := Prod.mk.inj (Except.ok.inj h)
  exact ⟨rfl, rfl⟩

/-! ## The matching loop -/

/-- The quantity that two orders exchange. -/
def fillAmount (incoming maker : LimitOrder) : ℤ :=
  if incoming.remaining < maker.remaining then incoming.remaining else maker.remaining

/-- One fill of `incoming` by `maker`: both orders, the two trades and the match event. -/
def executeFill (now : ℕ) (incoming maker : LimitOrder) (s : State τ) :
    Outcome TradeError (State τ × LimitOrder) := do
  let quantity := fillAmount incoming maker
  let incoming' := incoming.fill quantity
  let s := { s with book := s.book.fillMaker incoming.pair incoming.oppositeIsBuy maker quantity }
  let (_, s) ← recordTrade now incoming.owner incoming.pair quantity maker.price incoming.isBuy s
  let (_, s) ← recordTrade now maker.owner maker.pair quantity maker.price maker.isBuy s
  .ok (s.publish (.orderMatched ⟨maker.id, incoming.id, incoming.pair, quantity, maker.price, now⟩),
    incoming')

/-- One round of the matching loop. -/
def matchStep (now : ℕ) (p : State τ × LimitOrder) :
    Outcome TradeError (Round (State τ × LimitOrder)) :=
  let s := p.1
  let incoming := p.2
  if incoming.remaining ≤ 0 then .ok (.stop p)
  else
    let oppositeIds := s.book.readOrderBook incoming.pair incoming.oppositeIsBuy
    match s.book.pickBestMatchIndex incoming oppositeIds with
    | none => .ok (.stop p)
    | some bestIdx =>
      match oppositeIds[bestIdx]? with
      | none => .error (.panic "called `Option::unwrap()` on a `None` value")
      | some makerId =>
        let dropped :=
          { s with
            book := s.book.removeOrderFromBook incoming.pair incoming.oppositeIsBuy makerId }
        match s.book.readOrder makerId with
        | none => .ok (.next (dropped, incoming))
        | some maker =>
          if ¬ fillable incoming maker then .ok (.next (dropped, incoming))
          else do
            let p' ← executeFill now incoming maker s
            .ok (.next p')

/-- The opposite list of an incoming order. -/
def oppositeBook (b : BookStorage) (incoming : LimitOrder) : List ℕ :=
  b.readOrderBook incoming.pair incoming.oppositeIsBuy

/-- Match an incoming order against the book. Every round but the last takes an order off the
opposite list or fills the incoming one, which bounds the number of rounds. -/
def matchLimitOrder (now : ℕ) (s : State τ) (incoming : LimitOrder) :
    Outcome TradeError (State τ × LimitOrder) := do
  let r ← loop (matchStep now) ((oppositeBook s.book incoming).length + 2) (s, incoming)
  orAbort .diverges r

/-! ## Entry points -/

section Fees

variable [TokenClient τ Address Address]

def collectFee (feeToken trader feeRecipient : Address) (amount : ℤ) (s : State τ) :
    Outcome TradeError (State τ) := do
  let tokens ← FeeManager.mapErr (fun _ => TradeError.insufficientBalance)
    (FeeManager.collectFee s.tokens feeToken trader feeRecipient amount)
  .ok { s with tokens := tokens }

/-- Execute a trade with fee collection. -/
def trade (now : ℕ) (trader : Address) (pair : Symbol) (amount price : ℤ) (isBuy : Bool)
    (feeToken : Address) (feeAmount : ℤ) (feeRecipient : Address) (s : State τ) :
    Outcome TradeError (ℕ × State τ) := do
  require (0 < amount) (.error .invalidAmount)
  require (0 < price) (.error .invalidPrice)
  let s ← ensureTradeable now trader s
  let breaker ← CircuitBreaker.trackActivity now amount s.breaker
  let s := { s with breaker := breaker }
  let s ← collectFee feeToken trader feeRecipient feeAmount s
  let (tradeId, s) ← recordTrade now trader pair amount price isBuy s
  .ok (tradeId, s.publish
    (.feeCollected ⟨tradeId, trader, feeAmount, feeRecipient, feeToken, now⟩))

/-- Record the trades of a batch in order. -/
def recordTrades (now : ℕ) (trader : Address) : List (Symbol × ℤ × ℤ × Bool) → State τ →
    Outcome TradeError (List ℕ × State τ)
  | [], s => .ok ([], s)
  | (pair, amount, price, isBuy) :: orders, s => do
    let (tradeId, s) ← recordTrade now trader pair amount price isBuy s
    let (tradeIds, s) ← recordTrades now trader orders s
    .ok (tradeId :: tradeIds, s)

def executeTradeBatch (now : ℕ) (trader : Address) (orders : List (Symbol × ℤ × ℤ × Bool))
    (feeToken : Address) (feePerTrade : ℤ) (feeRecipient : Address) (s : State τ) :
    Outcome TradeError (List ℕ × State τ) :=
  if orders = [] then .ok ([], s)
  else do
    validateBatchSize orders.length
    require (∀ o ∈ orders, 0 < o.2.1) (.error .invalidAmount)
    let s ← ensureTradeable now trader s
    let totalFees ← IntFormat.i128.checked .overflow (feePerTrade * orders.length)
    let s ← collectFee feeToken trader feeRecipient totalFees s
    let (tradeIds, s) ← recordTrades now trader orders s
    .ok (tradeIds, s.publish
      (.feeCollected ⟨tradeIds.headD 0, trader, totalFees, feeRecipient, feeToken, now⟩))

/-- Execute multiple trades atomically with a single fee transfer. -/
def batchTrade (now : ℕ) (trader : Address) (orders : List (Symbol × ℤ × ℤ × Bool))
    (feeToken : Address) (feePerTrade : ℤ) (feeRecipient : Address) (s : State τ) :
    Outcome TradeError (List ℕ × State τ) :=
  executeTradeBatch now trader orders feeToken feePerTrade feeRecipient s

end Fees

/-- What becomes of a limit order after it was matched, by its time in force. -/
def settleOrder (order : LimitOrder) (b : BookStorage) : Outcome TradeError BookStorage :=
  match order.tif with
  | .gtc =>
    if 0 < order.remaining then .ok (b.pushOrderToBook order.pair order.isBuy order.id) else .ok b
  | .ioc =>
    if 0 < order.remaining then .ok (b.writeOrder { order with status := .cancelled }) else .ok b
  | .fok => if 0 < order.remaining then .error (.error .orderWouldNotFullyFill) else .ok b

/-- The check of a fill-or-kill order before it is matched. -/
def checkFullyFillable (order : LimitOrder) (b : BookStorage) : Outcome TradeError Unit :=
  if order.tif = .fok then do
    let available ← b.availableFillForOrder order
    require (order.amount ≤ available) (.error .orderWouldNotFullyFill)
  else .ok ()

/-- Create a limit order and match it against the book. -/
def createLimitOrder (now : ℕ) (trader : Address) (pair : Symbol) (isBuy : Bool)
    (price amount : ℤ) (tif : TimeInForce) (s : State τ) : Outcome TradeError (ℕ × State τ) := do
  let s ← ensureTradeable now trader s
  require (0 < amount) (.error .invalidAmount)
  require (0 < price) (.error .invalidPrice)
  let (orderId, book) ← s.book.nextOrderId
  let order : LimitOrder :=
    { id := orderId, owner := trader, pair := pair, side := if isBuy then .buy else .sell
      price := price, amount := amount, remaining := amount, status := .opened, tif := tif
      timestamp := now }
  checkFullyFillable order book
  let s := { s with book := book.writeOrder order }
  let s := s.publish (.orderCreated ⟨orderId, trader, pair, isBuy, price, amount, tif, now⟩)
  let (s, order) ← matchLimitOrder now s order
  let book ← settleOrder order (s.book.writeOrder order)
  .ok (orderId, { s with book := book })

/-- Cancel an open order of the trader. -/
def cancelOrder (now : ℕ) (trader : Address) (orderId : ℕ) (s : State τ) :
    Outcome TradeError (State τ) := do
  requireInitialized s
  let order ← orAbort (.error .orderNotFound) (s.book.readOrder orderId)
  require (order.owner = trader) (.error .unauthorized)
  require order.isOpen (.error .orderNotCancelable)
  let book := s.book.writeOrder { order with status := .cancelled }
  let s := { s with book := book.removeOrderFromBook order.pair order.isBuy order.id }
  .ok (s.publish (.orderCancelled ⟨orderId, trader, now⟩))

/-! ## The contract -/

/-- The calls that trade or change orders. -/
inductive Call where
  | trade (trader : Address) (pair : Symbol) (amount price : ℤ) (isBuy : Bool)
      (feeToken : Address) (feeAmount : ℤ) (feeRecipient : Address)
  | batchTrade (trader : Address) (orders : List (Symbol × ℤ × ℤ × Bool)) (feeToken : Address)
      (feePerTrade : ℤ) (feeRecipient : Address)
  | createLimitOrder (trader : Address) (pair : Symbol) (isBuy : Bool) (price amount : ℤ)
      (tif : TimeInForce)
  | cancelOrder (trader : Address) (orderId : ℕ)
deriving DecidableEq, Repr

/-- What a call returns: a trade id, the ids of a batch, an order id or nothing. -/
inductive Result where
  | tradeId (id : ℕ)
  | tradeIds (ids : List ℕ)
  | orderId (id : ℕ)
  | unit
deriving DecidableEq, Repr

/-- Execute a call. -/
def execute [TokenClient τ Address Address] (now : ℕ) (s : State τ) :
    Call → Outcome TradeError (Result × State τ)
  | .trade trader pair amount price isBuy feeToken feeAmount feeRecipient => do
    let (id, s) ← trade now trader pair amount price isBuy feeToken feeAmount feeRecipient s
    .ok (.tradeId id, s)
  | .batchTrade trader orders feeToken feePerTrade feeRecipient => do
    let (ids, s) ← batchTrade now trader orders feeToken feePerTrade feeRecipient s
    .ok (.tradeIds ids, s)
  | .createLimitOrder trader pair isBuy price amount tif => do
    let (id, s) ← createLimitOrder now trader pair isBuy price amount tif s
    .ok (.orderId id, s)
  | .cancelOrder trader orderId => do
    let s ← cancelOrder now trader orderId s
    .ok (.unit, s)

/-- The trading contract. -/
def contract (τ : Type) [TokenClient τ Address Address] :
    Contract (State τ) Call Result (Fault TradeError) where
  exec now call s := execute now s call

end Stellara.Trading
