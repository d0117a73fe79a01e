import Mathlib.Algebra.Order.Group.Int
import Mathlib.Algebra.Order.Group.Abs
import Stellara.Trading.BookInvariant

/-!
# The trade ledger

The ledger of trades is an append-only history of records: a single trade, or the two trades
of a match. The storage of the contract, which keeps the trades under their ids together with
a counter and running totals, holds such a history, and every call appends to it. The matches
of the history also account for every order: what was matched is what is no longer remaining.

## Main definitions

* `Record`, `Record.Balanced`: an entry of the history, and the agreement of the two sides of
  a match
* `Chronicle l events history`: the ledger `l` and the events hold the history
* `traded events id`: what the order `id` traded in its matches
* `Filled b events pending`: the matches account for the stored orders

## Main results

* `execute_chronicle`: every call appends to the history
* `ledger_sound`: the ledger in every reachable state
-/

namespace Stellara.Trading

/-! ## The history -/

/-- An entry of the history: a trade on its own, or the trades of the taker and the maker of
a match. -/
inductive Record where
  | single (t : Trade)
  | matched (taker maker : Trade) (m : OrderMatched)

namespace Record

/-- The trades of a record, in the order of their ids. -/
def trades : Record → List Trade
  | single t => [t]
  | matched taker maker _ => [taker, maker]

/-- The match of a record. -/
def matched? : Record → Option OrderMatched
  | single _ => none
  | matched _ _ m => some m

/-- The two trades of a match have its pair and price, and opposite amounts of its size. -/
def Balanced : Record → Prop
  | single _ => True
  | matched taker maker m =>
    (taker.pair = m.pair ∧ maker.pair = m.pair) ∧ (taker.price = m.price ∧ maker.price = m.price) ∧
      taker.signedAmount = -maker.signedAmount ∧ |taker.signedAmount| = m.amount

end Record

/-- The trades of a history, in the order of their ids. -/
def tradesOf (history : List Record) : List Trade := history.flatMap Record.trades

@[simp] theorem tradesOf_append (h h' : List Record) :
    tradesOf (h ++ h') = tradesOf h ++ tradesOf h' := List.flatMap_append

/-- The match that an event reports. -/
def Event.matched? : Event → Option OrderMatched
  | .orderMatched m => some m
  | _ => none

/-- The matches that are reported, in order. -/
def matchesOf (events : List Event) : List OrderMatched := events.filterMap Event.matched?

@[simp] theorem matchesOf_append (es es' : List Event) :
    matchesOf (es ++ es') = matchesOf es ++ matchesOf es' := List.filterMap_append

/-- A history of matches holds two trades for each of them. -/
theorem length_tradesOf {history : List Record} (h : ∀ r ∈ history, r.matched?.isSome) :
    (tradesOf history).length = 2 * (history.filterMap Record.matched?).length := by
  induction history with
  | nil => rfl
  | cons r history ih =>
    have ih := ih fun r' hr' => h r' (List.mem_cons_of_mem r hr')
    cases r with
    | single t => exact absurd (h (.single t) List.mem_cons_self) (by simp [Record.matched?])
    | matched taker maker m =>
      show (tradesOf history).length + 2 = 2 * ((history.filterMap Record.matched?).length + 1)
      omega

/-- The ledger holds the trades `ts`. -/
structure TradeLedger.Holds (l : TradeLedger) (ts : List Trade) : Prop where
  numbers : Store.Numbers l.trades ts
  id_eq : ∀ id t, l.trades.lookup id = some t → t.id = id
  tradeCount : l.tradeCount = ts.length
  totalTrades : l.stats.totalTrades = ts.length
  totalVolume : l.stats.totalVolume = Store.total (fun _ t => |t.signedAmount|) l.trades

/-- The ledger holds the trades of the history, and the events report its matches. -/
structure Chronicle (l : TradeLedger) (events : List Event) (history : List Record) : Prop where
  holds : l.Holds (tradesOf history)
  matches_eq : matchesOf events = history.filterMap Record.matched?
  balanced : ∀ r ∈ history, r.Balanced

section Steps

variable {l : TradeLedger} {ts : List Trade} {events : List Event} {history : List Record} {now : ℕ}
  {trader : Address} {pair : Symbol} {amount price : ℤ} {isBuy : Bool}

theorem abs_signed (h : 0 < amount) : |if isBuy then amount else -amount| = amount := by
  cases isBuy with
  | true => exact abs_of_pos h
  | false =>
    rw [if_neg (by simp), abs_neg]
    exact abs_of_pos h

variable (now trader pair price isBuy) in
/-- The next trade is appended. -/
theorem TradeLedger.Holds.append (h : l.Holds ts) (hpos : 0 < amount) :
    (l.append (l.nextTrade now trader pair amount price isBuy) amount).Holds
      (ts ++ [l.nextTrade now trader pair amount price isBuy]) := by
  -- the next id is free, so the sum of the volumes gains one term
  have hnew : l.trades.lookup (l.tradeCount + 1) = none := by
    rw [h.tradeCount]
    exact h.numbers.lookup_next
  constructor
  · unfold TradeLedger.append
    rw [h.tradeCount]
    exact h.numbers.insert _
  · intro id t ht
    simp only [TradeLedger.append, Store.lookup_insert_ite] at ht
    split at ht
    · obtain rfl := Option.some.inj ht
      exact Eq.symm ‹_›
    · exact h.id_eq id t ht
  · simp [TradeLedger.append, h.tradeCount]
  · simp [TradeLedger.append, h.totalTrades]
  · simp only [TradeLedger.append]
    rw [Store.total_insert_new hnew, h.totalVolume, TradeLedger.nextTrade, abs_signed hpos, add_comm]

/-- An event that reports no match leaves the history alone. -/
theorem Chronicle.publish (h : Chronicle l events history) {e : Event} (he : e.matched? = none) :
    Chronicle l (events ++ [e]) history := by
  refine ⟨h.holds, ?_, h.balanced⟩
  rw [matchesOf_append, h.matches_eq]
  simp [matchesOf, he]

variable (now trader pair price isBuy) in
/-- A single trade. -/
theorem Chronicle.single (h : Chronicle l events history) (hpos : 0 < amount) :
    Chronicle (l.append (l.nextTrade now trader pair amount price isBuy) amount)
      (events ++ [(l.nextTrade now trader pair amount price isBuy).executed isBuy])
      (history ++ [.single (l.nextTrade now trader pair amount price isBuy)]) := by
  constructor
  · rw [tradesOf_append]
    exact h.holds.append now trader pair price isBuy hpos
  · rw [matchesOf_append, h.matches_eq, List.filterMap_append]
    rfl
  · intro r hr
    rcases List.mem_append.mp hr with hr | hr
    · exact h.balanced r hr
    · rw [List.mem_singleton.mp hr]
      trivial

variable (now trader) in
/-- The trades of a batch, one after another. -/
theorem Chronicle.batch {orders : List (Symbol × ℤ × ℤ × Bool)} (h : Chronicle l events history)
    (hpos : ∀ o ∈ orders, 0 < o.2.1) :
    ∃ new, Chronicle (ledgerAfterTrades now trader orders l)
      (events ++ tradeEvents now trader orders l) (history ++ new) := by
  induction orders generalizing l events history with
  | nil => exact ⟨[], by simpa [ledgerAfterTrades, tradeEvents] using h⟩
  | cons o orders ih =>
    obtain ⟨pair, amount, price, isBuy⟩ := o
    -- the first order, and by induction the others
    have hone := h.single now trader pair price isBuy
      (hpos (pair, amount, price, isBuy) List.mem_cons_self)
    obtain ⟨new, hnew⟩ := ih hone fun o ho => hpos o (by simp [ho])
    exact ⟨.single (l.nextTrade now trader pair amount price isBuy) :: new, by
      simpa [ledgerAfterTrades, tradeEvents] using hnew⟩

theorem orderMatches.pair_eq {incoming maker : LimitOrder} (h : orderMatches incoming maker) :
    incoming.pair = maker.pair := h.1

theorem orderMatches.isBuy_eq {incoming maker : LimitOrder} (h : orderMatches incoming maker) :
    maker.isBuy = !incoming.isBuy := by
  have h := h.2
  cases hi : incoming.side <;> cases hm : maker.side <;> simp_all [LimitOrder.isBuy]

/-- The record of a fill. -/
def fillRecord (now : ℕ) (incoming maker : LimitOrder) (l : TradeLedger) : Record :=
  let quantity := fillAmount incoming maker
  let t := l.nextTrade now incoming.owner incoming.pair quantity maker.price incoming.isBuy
  .matched t ((l.append t quantity).nextTrade now maker.owner maker.pair quantity maker.price
    maker.isBuy) ⟨maker.id, incoming.id, incoming.pair, quantity, maker.price, now⟩

/-- A fill records the two trades of a match. -/
theorem Chronicle.fill {incoming maker : LimitOrder} (h : Chronicle l events history)
    (hrem : 0 < incoming.remaining) (hf : fillable incoming maker) :
    Chronicle (ledgerAfterFill now incoming maker l) (events ++ fillEvents now incoming maker l)
      (history ++ [fillRecord now incoming maker l]) := by
  have hq : 0 < fillAmount incoming maker := fillAmount_pos hrem hf.2.1
  constructor
  · have htwo := (h.holds.append now incoming.owner incoming.pair maker.price incoming.isBuy
      hq).append now maker.owner maker.pair maker.price maker.isBuy hq
    rw [List.append_assoc] at htwo
    rw [tradesOf_append]
    exact htwo
  · rw [matchesOf_append, h.matches_eq, List.filterMap_append]
    rfl
  · intro r hr
    rcases List.mem_append.mp hr with hr | hr
    · exact h.balanced r hr
    · rw [List.mem_singleton.mp hr]
      refine ⟨⟨rfl, hf.2.2.pair_eq.symm⟩, ⟨rfl, rfl⟩, ?_, abs_signed hq⟩
      -- the two orders are on opposite sides
      simp only [TradeLedger.nextTrade, hf.2.2.isBuy_eq]
      cases incoming.isBuy <;> simp

end Steps

/-! ## What an order traded -/

/-- What the order `id` traded in a match, as its taker or its maker. -/
def OrderMatched.quantityFor (m : OrderMatched) (id : ℕ) : ℤ :=
  (if m.takerOrderId = id then m.amount else 0) + (if m.makerOrderId = id then m.amount else 0)

/-- What the order `id` traded in all its matches. -/
def traded (events : List Event) (id : ℕ) : ℤ :=
  ((matchesOf events).map fun m => m.quantityFor id).sum

@[simp] theorem traded_append (es es' : List Event) (id : ℕ) :
    traded (es ++ es') id = traded es id + traded es' id := by
  simp [traded]

theorem traded_eq_zero {es : List Event} (h : matchesOf es = []) (id : ℕ) : traded es id = 0 := by
  simp [traded, h]

theorem matchesOf_singleton {e : Event} (he : e.matched? = none) : matchesOf [e] = [] := by
  simp [matchesOf, he]

theorem matchesOf_tradeEvents (now : ℕ) (trader : Address) (orders : List (Symbol × ℤ × ℤ × Bool))
    (l : TradeLedger) : matchesOf (tradeEvents now trader orders l) = [] := by
  induction orders generalizing l with
  | nil => rfl
  | cons o orders ih => exact ih _

theorem matchesOf_fillEvents (now : ℕ) (incoming maker : LimitOrder) (l : TradeLedger) :
    matchesOf (fillEvents now incoming maker l) =
      [⟨maker.id, incoming.id, incoming.pair, fillAmount incoming maker, maker.price, now⟩] := rfl

theorem traded_fillEvents (now : ℕ) (incoming maker : LimitOrder) (l : TradeLedger) (id : ℕ) :
    traded (fillEvents now incoming maker l) id =
      (if incoming.id = id then fillAmount incoming maker else 0) +
        (if maker.id = id then fillAmount incoming maker else 0) := by
  simp [traded, matchesOf_fillEvents, OrderMatched.quantityFor]

/-- The matches account for what the stored orders outside `pending` no longer have
remaining, and mention no order that does not exist yet. -/
structure Filled (b : BookStorage) (events : List Event) (pending : Set ℕ) : Prop where
  stored : ∀ id o, b.readOrder id = some o → id ∉ pending → traded events id = o.amount - o.remaining
  fresh : ∀ id, b.orderCount < id → traded events id = 0

theorem Filled.publish {b : BookStorage} {events new : List Event} {pending : Set ℕ}
    (h : Filled b events pending) (hnew : matchesOf new = []) :
    Filled b (events ++ new) pending := by
  refine ⟨fun id o ho hp => ?_, fun id hid => ?_⟩
  · rw [traded_append, h.stored id o ho hp, traded_eq_zero hnew, add_zero]
  · rw [traded_append, h.fresh id hid, traded_eq_zero hnew, add_zero]

/-- The matching of `incoming`, with what it traded so far. -/
structure FilledMatching (b : BookStorage) (events : List Event) (incoming : LimitOrder) : Prop
    where
  isMatching : Matching b incoming
  filled : Filled b events {incoming.id}
  incoming_eq : traded events incoming.id = incoming.amount - incoming.remaining

/-- A fill accounts for both orders. -/
theorem FilledMatching.fill {b : BookStorage} {events : List Event} {incoming maker : LimitOrder}
    (h : FilledMatching b events incoming) (hrem : 0 < incoming.remaining) {makerId : ℕ}
    (hmem : makerId ∈ oppositeBook b incoming) (hread : b.readOrder makerId = some maker)
    (hf : fillable incoming maker) (now : ℕ) (l : TradeLedger) :
    FilledMatching (b.fillMaker incoming.pair incoming.oppositeIsBuy maker (fillAmount incoming maker))
      (events ++ fillEvents now incoming maker l)
      (incoming.fill (fillAmount incoming maker)) := by
  obtain rfl : maker.id = makerId := h.isMatching.consistent.id_eq _ _ hread
  -- the maker is listed and the incoming order is not, so they differ
  have hne : maker.id ≠ incoming.id := fun he =>
    (h.isMatching.consistent.rests_of_mem hmem hread).1 he
  have hmaker : maker.id ≤ b.orderCount := h.isMatching.consistent.id_le _ _ hread
  have hincoming : incoming.id ≤ b.orderCount := h.isMatching.id_le
  refine ⟨h.isMatching.fill hrem hmem hread hf, ⟨fun id o ho hp => ?_, fun id hid => ?_⟩, ?_⟩
  · rw [BookStorage.readOrder_fillMaker] at ho
    rw [traded_append, traded_fillEvents, if_neg (fun he => hp he.symm), zero_add]
    split at ho
    · rename_i he
      obtain rfl := Option.some.inj ho
      rw [if_pos he.symm, he, h.filled.stored _ maker hread hne]
      simp only [LimitOrder.fill_amount, LimitOrder.fill_remaining]
      omega
    · rename_i he
      rw [if_neg (Ne.symm he), add_zero]
      exact h.filled.stored id o ho hp
  · -- an order that does not exist yet is neither of the two
    rw [BookStorage.orderCount_fillMaker] at hid
    rw [traded_append, traded_fillEvents, h.filled.fresh id hid, if_neg (by omega),
      if_neg (by omega)]
    rfl
  · rw [LimitOrder.fill_id, traded_append, traded_fillEvents, if_pos rfl, if_neg hne, h.incoming_eq]
    simp only [LimitOrder.fill_amount, LimitOrder.fill_remaining]
    omega

/-- A placed order has traded nothing. -/
theorem FilledMatching.place {b : BookStorage} {events : List Event} {o : LimitOrder}
    (hs : b.Sound) (h : Filled b events ∅) (hid : o.id = b.orderCount + 1) (hpos : 0 < o.amount)
    (hrem : o.remaining = o.amount) (ho : o.status = .opened) {e : Event} (he : e.matched? = none) :
    FilledMatching (({ b with orderCount := o.id } : BookStorage).writeOrder o) (events ++ [e]) o := by
  have hp := h.publish (matchesOf_singleton he)
  refine ⟨hs.place hid hpos hrem ho, ⟨fun id q hq hne => ?_, fun id hlt => ?_⟩, ?_⟩
  · have hne' : id ≠ o.id := hne
    rw [BookStorage.readOrder_writeOrder, if_neg hne'] at hq
    exact hp.stored id q hq fun hmem => hmem
  · rw [BookStorage.orderCount_writeOrder] at hlt
    have hlt' : o.id < id := hlt
    exact hp.fresh id (by omega)
  · -- the id is fresh, so no match mentions it
    rw [hp.fresh o.id (by omega), hrem, sub_self]

/-- Settling an order stores it with the amount that is left, and no other order. -/
theorem settleOrder_readOrder {b b' : BookStorage} {order : LimitOrder}
    (h : settleOrder order (b.writeOrder order) = .ok b') :
    b'.orderCount = b.orderCount ∧ ∀ id o, b'.readOrder id = some o →
      (id = order.id ∧ o.amount = order.amount ∧ o.remaining = order.remaining) ∨
      (id ≠ order.id ∧ b.readOrder id = some o) := by
  -- whatever is stored under the id of the order, if it keeps the two amounts
  have hone : ∀ o', o'.id = order.id → o'.amount = order.amount → o'.remaining = order.remaining →
      ∀ id o, (if id = o'.id then some o' else b.readOrder id) = some o →
        (id = order.id ∧ o.amount = order.amount ∧ o.remaining = order.remaining) ∨
        (id ≠ order.id ∧ b.readOrder id = some o) := by
    intro o' hid hamount hrem id o ho
    rw [hid] at ho
    split at ho
    · obtain rfl := Option.some.inj ho
      exact .inl ⟨‹_›, hamount, hrem⟩
    · exact .inr ⟨‹_›, ho⟩
  have hsame : ∀ id o, (b.writeOrder order).readOrder id = some o →
      (id = order.id ∧ o.amount = order.amount ∧ o.remaining = order.remaining) ∨
      (id ≠ order.id ∧ b.readOrder id = some o) := fun id o ho => by
    rw [BookStorage.readOrder_writeOrder] at ho
    exact hone order rfl rfl rfl id o ho
  unfold settleOrder at h
  split at h <;> split at h
  · obtain rfl := Except.ok.inj h
    exact ⟨rfl, hsame⟩
  · obtain rfl := Except.ok.inj h
    exact ⟨rfl, hsame⟩
  · obtain rfl := Except.ok.inj h
    refine ⟨rfl, fun id o ho => ?_⟩
    rw [BookStorage.readOrder_writeOrder, BookStorage.readOrder_writeOrder] at ho
    -- the order is stored twice, the second time as cancelled
    refine hone { order with status := .cancelled } rfl rfl rfl id o ?_
    split at ho
    · rw [if_pos ‹_›]
      exact ho
    · rename_i hne
      rw [if_neg hne]
      exact ho
  · obtain rfl := Except.ok.inj h
    exact ⟨rfl, hsame⟩
  · -- fill or kill with something left fails
    cases h
  · obtain rfl := Except.ok.inj h
    exact ⟨rfl, hsame⟩

/-- Settling accounts for the incoming order again. -/
theorem FilledMatching.settle {b b' : BookStorage} {events : List Event} {order : LimitOrder}
    (h : FilledMatching b events order)
    (hs : settleOrder order (b.writeOrder order) = .ok b') : Filled b' events ∅ := by
  obtain ⟨hcount, hread⟩ := settleOrder_readOrder hs
  refine ⟨fun id o ho _ => ?_, fun id hid => ?_⟩
  · rcases hread id o ho with ⟨rfl, hamount, hrem⟩ | ⟨hne, ho⟩
    · rw [h.incoming_eq, hamount, hrem]
    · exact h.filled.stored id o ho hne
  · rw [hcount] at hid
    exact h.filled.fresh id hid

/-! ## Runs -/

variable {τ : Type}

/-- The book is sound, the history holds, and the matches account for the orders. -/
structure Accounted (s : State τ) (history : List Record) : Prop where
  sound : s.book.Sound
  chronicle : Chronicle s.ledger s.events history
  filled : Filled s.book s.events ∅

variable {now : ℕ} {s s' : State τ} {history : List Record}

/-- A limit order appends matches only. -/
theorem createLimitOrder_accounted {trader : Address} {pair : Symbol} {isBuy : Bool}
    {price amount : ℤ} {tif : TimeInForce} {id : ℕ} (hs : Accounted s history)
    (h : createLimitOrder now trader pair isBuy price amount tif s = .ok (id, s')) :
    ∃ new, Accounted s' (history ++ new) ∧ ∀ r ∈ new, r.matched?.isSome := by
  have hsound := createLimitOrder_sound hs.sound h
  obtain ⟨rfl, hamount, -, limits, s₁, order, book, hm, hset, rfl⟩ := createLimitOrder_eq_ok h
  let o := placed now (s.book.orderCount + 1) trader pair isBuy price amount tif
  have hplaced : FilledMatching (s.place limits o).book (s.place limits o).events o :=
    .place hs.sound hs.filled rfl hamount rfl rfl rfl
  have hchron : Chronicle (s.place limits o).ledger (s.place limits o).events history :=
    hs.chronicle.publish rfl
  -- by induction on the matching, one record for each fill
  obtain ⟨⟨hmatch, new, hnew, hall⟩, -⟩ := matchLimitOrder_induction
    (I := fun s incoming => FilledMatching s.book s.events incoming ∧
      ∃ new, Chronicle s.ledger s.events (history ++ new) ∧ ∀ r ∈ new, r.matched?.isSome)
    (fun s incoming makerId maker p hI hrem hmem hread hf he => by
      obtain ⟨hI, new, hnew, hall⟩ := hI
      obtain rfl := executeFill_eq_ok he
      refine ⟨hI.fill hrem hmem hread hf now s.ledger,
        new ++ [fillRecord now incoming maker s.ledger], ?_, fun r hr => ?_⟩
      · rw [← List.append_assoc]
        exact hnew.fill hrem hf
      · rcases List.mem_append.mp hr with hr | hr
        · exact hall r hr
        · rw [List.mem_singleton.mp hr]
          rfl)
    ⟨hplaced, [], by rwa [List.append_nil], by simp⟩ hm
  exact ⟨new, ⟨hsound, hnew, hmatch.settle hset⟩, hall⟩

theorem cancelOrder_accounted {trader : Address} {id : ℕ} (hs : Accounted s history)
    (h : cancelOrder now trader id s = .ok s') : Accounted s' history := by
  have hsound := cancelOrder_sound hs.sound h
  obtain ⟨order, hread, -, -, rfl⟩ := cancelOrder_eq_ok h
  obtain rfl : order.id = id := hs.sound.consistent.id_eq _ _ hread
  have hfilled := hs.filled.publish
    (matchesOf_singleton (e := .orderCancelled ⟨order.id, trader, now⟩) rfl)
  refine ⟨hsound, hs.chronicle.publish rfl, fun id o ho hp => ?_, hfilled.fresh⟩
  simp only [BookStorage.readOrder_removeOrderFromBook, BookStorage.readOrder_writeOrder] at ho
  split at ho
  · -- the cancelled order keeps its amounts
    rename_i he
    obtain rfl := Option.some.inj ho
    rw [he]
    exact hfilled.stored _ order hread fun hmem => hmem
  · exact hfilled.stored id o ho hp

variable [TokenClient τ Address Address]

/-- Every call appends to the history. -/
theorem execute_chronicle {call : Call} {r : Result} (hs : Accounted s history)
    (h : execute now s call = .ok (r, s')) : ∃ new, Accounted s' (history ++ new) := by
  cases execute_cases h with
  | @trade trader pair amount price isBuy feeToken feeAmount feeRecipient id _ h₁ =>
    obtain ⟨hpos, -, limits, breaker, tokens, -, rfl⟩ := trade_eq_ok h₁
    refine ⟨[.single (s.ledger.nextTrade now trader pair amount price isBuy)], hs.sound, ?_,
      hs.filled.publish rfl⟩
    have htrade := (hs.chronicle.single now trader pair price isBuy hpos).publish
      (e := .feeCollected ⟨id, trader, feeAmount, feeRecipient, feeToken, now⟩) rfl
    rwa [List.append_assoc] at htrade
  | @batchTrade trader orders _ _ _ _ _ h₁ =>
    rcases batchTrade_eq_ok h₁ with ⟨-, rfl⟩ | ⟨-, hpos, -, limits, tokens, fee, rfl⟩
    · exact ⟨[], by rwa [List.append_nil]⟩
    · obtain ⟨new, hnew⟩ := hs.chronicle.batch now trader hpos
      exact ⟨new, hs.sound, hnew.publish rfl,
        (hs.filled.publish (matchesOf_tradeEvents now trader orders s.ledger)).publish
          (matchesOf_singleton rfl)⟩
  | createLimitOrder h₁ =>
    obtain ⟨new, hnew, -⟩ := createLimitOrder_accounted hs h₁
    exact ⟨new, hnew⟩
  | cancelOrder h₁ =>
    exact ⟨[], by rw [List.append_nil]; exact cancelOrder_accounted hs h₁⟩

/-- Every run appends to the history it starts with. -/
theorem run_chronicle {w w' : World (State τ)} {log : List (Commit (State τ) Call Result)}
    (h : (contract τ).Run w w' log) (hs : Accounted w.store history) :
    ∃ new, Accounted w'.store (history ++ new) := by
  refine h.invariant (I := fun s => ∃ new, Accounted s (history ++ new))
    (fun t k r s s' ⟨new, hnew⟩ he => ?_) ⟨[], by rwa [List.append_nil]⟩
  obtain ⟨new', hnew'⟩ := execute_chronicle hnew he
  exact ⟨new ++ new', by rwa [← List.append_assoc]⟩

omit [TokenClient τ Address Address] in
theorem init_accounted {config : CircuitBreakerConfig} {tokens : τ}
    (h : init now config (State.empty tokens) = .ok s) : Accounted s [] := by
  have hsound := init_sound h
  obtain rfl := Except.ok.inj ((init_empty config tokens).symm.trans h)
  refine ⟨hsound, ⟨⟨Store.numbers_empty, ?_, rfl, rfl, rfl⟩, rfl, by simp⟩, ?_, fun _ _ => rfl⟩
  · intro id t ht
    cases ht
  · intro id o ho
    cases ho

/-- A limit order adds two trades for each of its matches. -/
theorem createLimitOrder_tradeCount {trader : Address} {pair : Symbol} {isBuy : Bool}
    {price amount : ℤ} {tif : TimeInForce} {r : Result} (hs : Accounted s history)
    (h : execute now s (.createLimitOrder trader pair isBuy price amount tif) = .ok (r, s')) :
    ∃ ms, matchesOf s'.events = matchesOf s.events ++ ms ∧
      s'.ledger.tradeCount = s.ledger.tradeCount + 2 * ms.length := by
  cases execute_cases h with
  | createLimitOrder h₁ =>
    obtain ⟨new, hnew, hall⟩ := createLimitOrder_accounted hs h₁
    refine ⟨new.filterMap Record.matched?, ?_, ?_⟩
    · rw [hnew.chronicle.matches_eq, List.filterMap_append, hs.chronicle.matches_eq]
    · rw [hnew.chronicle.holds.tradeCount, hs.chronicle.holds.tradeCount, tradesOf_append,
        List.length_append, length_tradesOf hall]

/-- The ledger in every reachable state. The stored trades have the ids from 1 to the
counter, the totals count them and sum their volumes, and no later call changes them. They
are the trades of a history whose matches are the reported ones, each match with two
consecutive trades of its pair and price and of opposite amounts; a limit order adds no other
trades. The matches of an order sum to what it no longer has remaining. -/
theorem ledger_sound {t₀ : ℕ} {config : CircuitBreakerConfig} {tokens : τ} {w : World (State τ)}
    {log : List (Commit (State τ) Call Result)}
    (hinit : init t₀ config (State.empty tokens) = .ok s)
    (h : (contract τ).Run ⟨t₀, s⟩ w log) :
    (∀ id, (w.store.ledger.trades.lookup id).isSome ↔ 1 ≤ id ∧ id ≤ w.store.ledger.tradeCount) ∧
    (∀ id t, w.store.ledger.trades.lookup id = some t → t.id = id) ∧
    w.store.ledger.stats.totalTrades = w.store.ledger.tradeCount ∧
    w.store.ledger.stats.totalVolume =
      Store.total (fun _ t => |t.signedAmount|) w.store.ledger.trades ∧
    (∀ w' log', (contract τ).Run w w' log' → ∀ id t, w.store.ledger.trades.lookup id = some t →
      w'.store.ledger.trades.lookup id = some t) ∧
    (∃ history : List Record,
      (∀ i, w.store.ledger.trades.lookup (i + 1) = (tradesOf history)[i]?) ∧
      matchesOf w.store.events = history.filterMap Record.matched? ∧
      ∀ r ∈ history, r.Balanced) ∧
    (∀ c ∈ log, ∀ trader pair isBuy price amount tif,
      c.call = .createLimitOrder trader pair isBuy price amount tif →
      ∃ ms, matchesOf c.after.events = matchesOf c.before.events ++ ms ∧
        c.after.ledger.tradeCount = c.before.ledger.tradeCount + 2 * ms.length) ∧
    (∀ id o, w.store.book.readOrder id = some o →
      traded w.store.events id = o.amount - o.remaining) := by
  obtain ⟨history, hs⟩ := run_chronicle h (init_accounted hinit)
  have hholds := hs.chronicle.holds
  refine ⟨fun id => ?_, hholds.id_eq, hholds.totalTrades.trans hholds.tradeCount.symm,
    hholds.totalVolume, fun w' log' h' id t ht => ?_,
    ⟨_, hholds.numbers.lookup_succ, hs.chronicle.matches_eq, hs.chronicle.balanced⟩,
    fun c hc trader pair isBuy price amount tif hcall => ?_,
    fun id o ho => hs.filled.stored id o ho fun hmem => hmem⟩
  · rw [hholds.numbers.isSome_iff, hholds.tradeCount]
  · -- the history only grows, so stored trades stay
    obtain ⟨new, hs'⟩ := run_chronicle h' hs
    have hnumbers := hs'.chronicle.holds.numbers
    rw [tradesOf_append] at hnumbers
    exact hholds.numbers.lookup_append hnumbers ht
  · obtain ⟨⟨history, hbefore⟩, -⟩ := h.invariant_of_mem (I := fun s => ∃ history, Accounted s history)
      (fun t k r s s' ⟨history, hs⟩ he => by
        obtain ⟨new, hnew⟩ := execute_chronicle hs he
        exact ⟨_, hnew⟩) ⟨[], init_accounted hinit⟩ c hc
    have hexec := h.exec_of_mem c hc
    rw [hcall] at hexec
    exact createLimitOrder_tradeCount hbefore hexec

theorem ledger_sound_sample :
    traded ((contract _).play sampleWorld sampleOrders).1.store.events 1 = 10 - 6 :=
  (ledger_sound (s := sampleWorld.store) (init_empty _ _)
    (Contract.run_play _ sampleWorld sampleOrders (by decide))).2.2.2.2.2.2.2 1
    ⟨1, ⟨1⟩, "XLM", .sell, 5, 10, 6, .partiallyFilled, .gtc, 10⟩ (by decide)

end Stellara.Trading
