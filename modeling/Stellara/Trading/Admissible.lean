import Stellara.Trading.Upgradeable

/-!
# What is admissible as a trade

A single trade and a limit order are refused unless the amount and the price are positive. A batch
is checked for its amounts only, so an order without a positive price is recorded in a batch that
the single trade would have refused.

## Main definitions

* `Trade.Admissible`, `TradeLedger.Admissible`: the price is positive and the amount is not zero
* `Accepted`: an order that a single trade does not refuse
* `BatchesAgree`: no batch is executed with an order that a single trade refuses

## Main results

* `trade_of_not_accepted`: what a single trade refuses
* `execute_priced`, `execute_admissible`: what a call on the book keeps, when its orders have prices
* `admissible_iff`: all trades of a run are admissible exactly when all orders of its batches have
  positive prices
-/

namespace Stellara.Trading

/-! ## Admissible trades -/

/-- The price is positive, and something is traded. -/
structure Trade.Admissible (t : Trade) : Prop where
  price_pos : 0 < t.price
  signedAmount_ne : t.signedAmount ≠ 0

/-- All trades of the ledger are admissible. -/
def TradeLedger.Admissible (l : TradeLedger) : Prop :=
  ∀ id t, l.trades.lookup id = some t → t.Admissible

/-- All orders of the book have positive prices. -/
def BookStorage.Priced (b : BookStorage) : Prop := ∀ id o, b.readOrder id = some o → 0 < o.price

/-- An order of a batch that a single trade accepts. -/
def Accepted (o : Symbol × ℤ × ℤ × Bool) : Prop := 0 < o.2.1 ∧ 0 < o.2.2.1

instance (o : Symbol × ℤ × ℤ × Bool) : Decidable (Accepted o) := inferInstanceAs (Decidable (_ ∧ _))

/-- The orders of a batch. -/
def Call.orders : Call → List (Symbol × ℤ × ℤ × Bool)
  | .batchTrade _ orders .. => orders
  | _ => []

section Ledger

variable {l : TradeLedger} {now : ℕ} {trader : Address} {pair : Symbol} {amount price : ℤ}
  {isBuy : Bool}

theorem nextTrade_admissible (hamount : amount ≠ 0) (hprice : 0 < price) :
    (l.nextTrade now trader pair amount price isBuy).Admissible := by
  refine ⟨hprice, ?_⟩
  cases isBuy with
  | true => exact hamount
  | false => exact neg_ne_zero.mpr hamount

/-- The next trade is recorded beside the others. -/
theorem TradeLedger.Admissible.append (h : l.Admissible) (hamount : amount ≠ 0)
    (hprice : 0 < price) :
    (l.append (l.nextTrade now trader pair amount price isBuy) amount).Admissible := by
  intro id t ht
  rcases Store.eq_or_lookup_of_insert ht with ⟨-, rfl⟩ | ⟨-, ht⟩
  · exact nextTrade_admissible hamount hprice
  · exact h id t ht

/-- A fill records two trades at the price of the maker. -/
theorem TradeLedger.Admissible.fill {incoming maker : LimitOrder} (h : l.Admissible)
    (hrem : 0 < incoming.remaining) (hf : fillable incoming maker) (hprice : 0 < maker.price) :
    (ledgerAfterFill now incoming maker l).Admissible := by
  have hq : fillAmount incoming maker ≠ 0 := (fillAmount_pos hrem hf.2.1).ne'
  exact (h.append hq hprice).append hq hprice

/-- Recording a batch leaves the earlier trades. -/
theorem lookup_ledgerAfterTrades {orders : List (Symbol × ℤ × ℤ × Bool)} {id : ℕ}
    (hid : id ≤ l.tradeCount) :
    (ledgerAfterTrades now trader orders l).trades.lookup id = l.trades.lookup id := by
  induction orders generalizing l with
  | nil => rfl
  | cons o orders ih =>
    obtain ⟨pair, amount, price, isBuy⟩ := o
    rw [ledgerAfterTrades, ih (hid.trans (Nat.le_succ _)), TradeLedger.append,
      Store.lookup_insert_ite, if_neg (by omega)]

/-- A batch keeps the ledger admissible exactly when all its orders have prices. -/
theorem ledgerAfterTrades_admissible {orders : List (Symbol × ℤ × ℤ × Bool)} (h : l.Admissible)
    (hpos : ∀ o ∈ orders, 0 < o.2.1) :
    (ledgerAfterTrades now trader orders l).Admissible ↔ ∀ o ∈ orders, 0 < o.2.2.1 := by
  induction orders generalizing l with
  | nil => simpa [ledgerAfterTrades] using h
  | cons o orders ih =>
    obtain ⟨pair, amount, price, isBuy⟩ := o
    have hamount : 0 < amount := hpos (pair, amount, price, isBuy) List.mem_cons_self
    have hrest : ∀ o ∈ orders, 0 < o.2.1 := fun o ho => hpos o (List.mem_cons_of_mem _ ho)
    rw [ledgerAfterTrades, List.forall_mem_cons]
    constructor
    · intro hall
      -- the first trade stays in the ledger, so its price is positive
      have hfirst := hall _ _ ((lookup_ledgerAfterTrades (le_refl (l.tradeCount + 1))).trans
        (AList.lookup_insert _))
      exact ⟨hfirst.price_pos, (ih (h.append hamount.ne' hfirst.price_pos) hrest).mp hall⟩
    · rintro ⟨hprice, hprices⟩
      exact (ih (h.append hamount.ne' hprice) hrest).mpr hprices

end Ledger

/-! ## The book -/

section Book

variable {b : BookStorage} {o : LimitOrder}

theorem BookStorage.Priced.writeOrder (h : b.Priced) (ho : 0 < o.price) :
    (b.writeOrder o).Priced := by
  intro id o' ho'
  rw [BookStorage.readOrder_writeOrder] at ho'
  split at ho'
  · obtain rfl := Option.some.inj ho'
    exact ho
  · exact h id o' ho'

theorem BookStorage.Priced.fillMaker {pair : Symbol} {isBuy : Bool} {quantity : ℤ} (h : b.Priced)
    (ho : 0 < o.price) : (b.fillMaker pair isBuy o quantity).Priced := by
  intro id o' ho'
  rw [BookStorage.readOrder_fillMaker] at ho'
  split at ho'
  · obtain rfl := Option.some.inj ho'
    exact ho
  · exact h id o' ho'

theorem settleOrder_priced {b' : BookStorage} (h : b.Priced) (ho : 0 < o.price)
    (hs : settleOrder o b = .ok b') : b'.Priced := by
  unfold settleOrder at hs
  split at hs <;> split at hs
  · obtain rfl := Except.ok.inj hs
    exact h
  · obtain rfl := Except.ok.inj hs
    exact h
  · obtain rfl := Except.ok.inj hs
    exact h.writeOrder ho
  · obtain rfl := Except.ok.inj hs
    exact h
  · cases hs
  · obtain rfl := Except.ok.inj hs
    exact h

end Book

/-! ## Calls on the book -/

section Calls

variable {τ : Type} {now : ℕ} {trader : Address} {s s' : State τ} {call : Call} {r : Result}

/-- Matching an order with a positive price keeps the prices of the book, and the ledger. -/
theorem matchLimitOrder_priced {incoming incoming' : LimitOrder} (h : s.book.Priced)
    (hprice : 0 < incoming.price) (hm : matchLimitOrder now s incoming = .ok (s', incoming')) :
    s'.book.Priced ∧ 0 < incoming'.price ∧ (s.ledger.Admissible → s'.ledger.Admissible) := by
  refine (matchLimitOrder_induction (I := fun s₁ incoming => s₁.book.Priced ∧ 0 < incoming.price ∧
    (s.ledger.Admissible → s₁.ledger.Admissible)) ?_ ⟨h, hprice, id⟩ hm).1
  rintro s₁ incoming makerId maker p ⟨hs, hprice, hledger⟩ hrem - hread hf hfill
  have hmaker : 0 < maker.price := hs _ _ hread
  rw [executeFill_eq_ok hfill]
  exact ⟨hs.fillMaker hmaker, hprice, fun hs₀ => (hledger hs₀).fill hrem hf hmaker⟩

theorem createLimitOrder_priced {pair : Symbol} {isBuy : Bool} {price amount : ℤ}
    {tif : TimeInForce} {id : ℕ} (h : s.book.Priced)
    (he : createLimitOrder now trader pair isBuy price amount tif s = .ok (id, s')) :
    s'.book.Priced ∧ (s.ledger.Admissible → s'.ledger.Admissible) := by
  have hprice : 0 < price := by
    simp only [Trading.createLimitOrder, Except.bind_eq_ok, require_eq_ok, exists_const] at he
    obtain ⟨-, -, -, hprice, -⟩ := he
    exact hprice
  obtain ⟨-, -, -, limits, s₁, order, book, hm, hsettle, rfl⟩ := createLimitOrder_eq_ok he
  -- the order is placed, matched and settled at its price
  have hbook : ({ s.book with orderCount := id } : BookStorage).Priced := h
  have hplaced : (s.place limits (placed now id trader pair isBuy price amount tif)).book.Priced :=
    hbook.writeOrder hprice
  obtain ⟨hmatched, horder, hledger⟩ := matchLimitOrder_priced hplaced hprice hm
  exact ⟨settleOrder_priced (hmatched.writeOrder horder) horder hsettle, hledger⟩

theorem cancelOrder_priced {id : ℕ} (h : s.book.Priced)
    (he : cancelOrder now trader id s = .ok s') : s'.book.Priced ∧ s'.ledger = s.ledger := by
  obtain ⟨order, hread, -, -, rfl⟩ := cancelOrder_eq_ok he
  have hprice : 0 < order.price := h _ _ hread
  have hwritten : (s.book.writeOrder { order with status := .cancelled }).Priced :=
    h.writeOrder hprice
  exact ⟨hwritten, rfl⟩

variable [TokenClient τ Address Address]

variable (now trader s) in
/-- A single trade refuses an order that is not accepted. -/
theorem trade_of_not_accepted {pair : Symbol} {amount price : ℤ} {isBuy : Bool}
    (h : ¬ Accepted (pair, amount, price, isBuy)) (feeToken : Address) (feeAmount : ℤ)
    (feeRecipient : Address) :
    trade now trader pair amount price isBuy feeToken feeAmount feeRecipient s =
        .error (.error .invalidAmount) ∨
      trade now trader pair amount price isBuy feeToken feeAmount feeRecipient s =
        .error (.error .invalidPrice) := by
  unfold trade
  by_cases hamount : 0 < amount
  · have hprice : ¬ 0 < price := fun hprice => h ⟨hamount, hprice⟩
    exact .inr (by simp [require, hamount, hprice])
  · exact .inl (by simp [require, hamount])

/-- A call on the book keeps the prices of the book. It keeps the ledger admissible exactly when
the orders of a batch have prices. -/
theorem execute_priced (h : s.book.Priced) (he : execute now s call = .ok (r, s')) :
    s'.book.Priced ∧ (∀ o ∈ call.orders, 0 < o.2.1) ∧
      (s.ledger.Admissible → (s'.ledger.Admissible ↔ ∀ o ∈ call.orders, 0 < o.2.2.1)) := by
  cases execute_cases he with
  | @trade trader pair amount price isBuy feeToken feeAmount feeRecipient id _ htrade =>
    have haccepted : Accepted (pair, amount, price, isBuy) := by
      by_contra hnot
      have hfails := trade_of_not_accepted now trader s hnot feeToken feeAmount feeRecipient
      rcases hfails with hfails | hfails <;> rw [hfails] at htrade <;> cases htrade
    obtain ⟨-, -, limits, breaker, tokens, -, rfl⟩ := trade_eq_ok htrade
    refine ⟨h, by simp [Call.orders], fun hledger => iff_of_true ?_ (by simp [Call.orders])⟩
    exact hledger.append haccepted.1.ne' haccepted.2
  | batchTrade hbatch =>
    rcases batchTrade_eq_ok hbatch with ⟨rfl, rfl⟩ | ⟨-, hpos, -, limits, tokens, fee, rfl⟩
    · exact ⟨h, by simp [Call.orders], fun hledger => iff_of_true hledger (by simp [Call.orders])⟩
    · exact ⟨h, hpos, fun hledger => ledgerAfterTrades_admissible hledger hpos⟩
  | createLimitOrder hcreate =>
    obtain ⟨hpriced, hledger⟩ := createLimitOrder_priced h hcreate
    exact ⟨hpriced, by simp [Call.orders], fun hs =>
      iff_of_true (hledger hs) (by simp [Call.orders])⟩
  | cancelOrder hcancel =>
    obtain ⟨hpriced, hledger⟩ := cancelOrder_priced h hcancel
    rw [hledger]
    exact ⟨hpriced, by simp [Call.orders], fun hs => iff_of_true hs (by simp [Call.orders])⟩

end Calls

end Stellara.Trading

namespace Stellara.UpgradeableTrading

open Trading (Accepted)

/-! ## Runs -/

/-- The orders of a batch. -/
def Call.orders : Call → List (Symbol × ℤ × ℤ × Bool)
  | .trading c => c.orders
  | _ => []

variable {τ : Type}

/-- No batch is executed with an order that a single trade refuses. -/
def BatchesAgree (log : List (Commit (State τ) Call Result)) : Prop :=
  ∀ c ∈ log, ∀ o ∈ c.call.orders, Accepted o

/-- All trades in the storage are admissible. -/
def TradesAdmissible (s : State τ) : Prop := s.trading.ledger.Admissible

variable [TokenClient τ Address Address] {now : ℕ} {tokens : τ} {s s' : State τ} {call : Call}
  {r : Result}

theorem execute_admissible (h : s.trading.book.Priced) (he : execute now s call = .ok (r, s')) :
    s'.trading.book.Priced ∧ (∀ o ∈ call.orders, 0 < o.2.1) ∧
      (TradesAdmissible s → (TradesAdmissible s' ↔ ∀ o ∈ call.orders, 0 < o.2.2.1)) := by
  rcases execute_cases he with ⟨_, _, _, cbConfig, rfl, hinit, -⟩ | ⟨c, _, rfl, hexec, -⟩ |
    ⟨hother, hadmin⟩
  · simp only [Trading.init, Except.bind_eq_ok, require_eq_ok, exists_const] at hinit
    unfold TradesAdmissible
    rw [← Except.ok.inj hinit.2]
    exact ⟨h, by simp [Call.orders], fun hs => iff_of_true hs (by simp [Call.orders])⟩
  · exact Trading.execute_priced h hexec
  · obtain ⟨cfg, premiumUsers, breaker, htrading⟩ := hadmin.trading
    have horders : call.orders = [] := by
      cases call with
      | trading c => exact absurd rfl (hother c)
      | _ => rfl
    unfold TradesAdmissible
    rw [htrading, horders]
    exact ⟨h, by simp, fun hs => iff_of_true hs (by simp)⟩

/-- **What is admissible**: the trades are admissible throughout a run, and batches and single
trades agree on what they refuse, exactly when all orders of all batches have positive prices. -/
theorem admissible_iff {w : World (State τ)} {log : List (Commit (State τ) Call Result)}
    (h : (contract τ).Run ⟨now, .empty tokens⟩ w log) :
    (TradesAdmissible w.store ∧ ∀ c ∈ log, TradesAdmissible c.before ∧ TradesAdmissible c.after) ∧
        BatchesAgree log ↔
      ∀ c ∈ log, ∀ o ∈ c.call.orders, 0 < o.2.2.1 := by
  have hpriced : (State.empty tokens).trading.book.Priced := fun _ _ ho => by cases ho
  have hadmissible : TradesAdmissible (State.empty tokens) := fun _ _ ht => by cases ht
  have hamounts : ∀ c ∈ log, ∀ o ∈ c.call.orders, 0 < o.2.1 := fun c hc =>
    (execute_admissible (h.invariant_of_mem (I := fun s => s.trading.book.Priced)
      (fun _ _ _ _ _ hs he => (execute_admissible hs he).1) hpriced c hc).1
      (h.exec_of_mem c hc)).2.1
  rw [h.invariant_iff (S := fun s => s.trading.book.Priced)
    (fun _ _ _ _ _ hs he => (execute_admissible hs he).1)
    (fun c hs hI he => (execute_admissible hs he).2.2 hI) hpriced hadmissible]
  -- the amounts of a batch are checked, and then the batches agree as well
  exact and_iff_left_of_imp fun hprices c hc o ho => ⟨hamounts c hc o ho, hprices c hc o ho⟩

/-- A batch and a limit order with positive prices. -/
def sampleBatch : List (ℕ × Call) :=
  [(0, .init ⟨1⟩ [⟨2⟩] ⟨3⟩ ⟨1000, 10, 3600⟩),
    (1, .trading (.batchTrade ⟨7⟩ [("XLM", 5, 3, true), ("BTC", 2, 9, false)] ⟨9⟩ 0 ⟨8⟩)),
    (2, .trading (.createLimitOrder ⟨7⟩ "XLM" true 3 4 .gtc))]

theorem admissible_iff_sample :
    TradesAdmissible ((contract _).play emptyWorld sampleBatch).1.store := by
  refine ((admissible_iff (Contract.run_play _ emptyWorld sampleBatch (by decide))).mpr
    fun c hc => ?_).1.1
  have hcalls : ∀ call ∈ sampleBatch.map Prod.snd, ∀ o ∈ call.orders, 0 < o.2.2.1 := by decide
  exact hcalls c.call (Contract.call_mem_of_mem_play _ hc)

/-- A batch with an order at the price −1, which a single trade would refuse. -/
def sampleUnpriced : List (ℕ × Call) :=
  [(0, .init ⟨1⟩ [⟨2⟩] ⟨3⟩ ⟨1000, 10, 3600⟩),
    (1, .trading (.batchTrade ⟨7⟩ [("XLM", 5, -1, true)] ⟨9⟩ 0 ⟨8⟩))]

/-- A trade at a negative price is recorded. -/
theorem negative_price_recorded :
    ¬ ∀ w log, (contract (Balances Address Address)).Run emptyWorld w log →
      (TradesAdmissible w.store ∧
        ∀ c ∈ log, TradesAdmissible c.before ∧ TradesAdmissible c.after) ∧ BatchesAgree log := by
  intro hall
  obtain ⟨⟨hadmissible, -⟩, -⟩ :=
    hall _ _ (Contract.run_play _ emptyWorld sampleUnpriced (by decide))
  have hstored : ((contract _).play emptyWorld sampleUnpriced).1.store.trading.ledger.trades.lookup
      1 = some ⟨1, ⟨7⟩, "XLM", 5, -1, 1⟩ := by decide
  exact absurd (hadmissible 1 _ hstored).price_pos (by decide)

end Stellara.UpgradeableTrading
