import Stellara.Trading.Queue

/-!
# Price-time priority

The stored timestamps and the lists follow the creation of the orders in every reachable state. So
the queue of an incoming order, which is sorted by best price and then by age, is sorted by best
price and then by creation.

## Main definitions

* `BookStorage.Chronological`: lists and timestamps follow the creation of the orders
* `BookStorage.Represented`: the representation invariant of the book
* `PriceTimePriority`: what is required of the fills of an order

## Main results

* `represented_of_run`: every reachable book is represented
* `price_time_priority`: every order, on every represented book
-/

namespace Stellara.Trading

variable {b b' : BookStorage} {incoming maker taker : LimitOrder} {makerId : ℕ} {τ : Type} {now : ℕ}

/-! ## The order of creation -/

/-- The lists are in the order in which the orders were created, and so are the timestamps. -/
structure BookStorage.Chronological (b : BookStorage) : Prop where
  sorted : ∀ pair isBuy, (b.readOrderBook pair isBuy).Pairwise (· < ·)
  timestamp_le : ∀ id id' o o', id ≤ id' → b.readOrder id = some o → b.readOrder id' = some o' →
    o.timestamp ≤ o'.timestamp

/-- The representation invariant of the book. -/
structure BookStorage.Represented (b : BookStorage) : Prop where
  consistent : Consistent b ∅
  chronological : b.Chronological

/-- Of two orders the first has a better price for `incoming`, or the same and was created before.
-/
def Before (incoming first second : LimitOrder) : Prop :=
  (match incoming.side with
    | .buy => first.price < second.price
    | .sell => second.price < first.price) ∨
    (first.price = second.price ∧ first.id < second.id)

theorem Before.trans {o₁ o₂ o₃ : LimitOrder} (h : Before incoming o₁ o₂)
    (h' : Before incoming o₂ o₃) : Before incoming o₁ o₃ := by
  unfold Before at *
  cases hside : incoming.side
  · simp only [hside] at *
    omega
  · simp only [hside] at *
    omega

/-- The queue is sorted by best price and then by creation. -/
theorem BookStorage.Represented.queue_pairwise (h : b.Represented) (incoming : LimitOrder) :
    (queue b incoming).Pairwise (Before incoming) := by
  apply pairwise_insertionSort_of_listed (p := Before incoming) fun _ _ _ => Before.trans
  rw [crossing, List.pairwise_filterMap]
  refine (h.chronological.sorted _ _).imp fun {id id'} hlt o ho o' ho' => ?_
  have hread := (BookStorage.live_eq_some.mp ho).1
  have hread' := (BookStorage.live_eq_some.mp ho').1
  have htime := h.chronological.timestamp_le id id' o o' hlt.le hread hread'
  obtain rfl := h.consistent.id_eq _ _ hread
  obtain rfl := h.consistent.id_eq _ _ hread'
  -- the first is listed first, so that it is not younger
  unfold Precedes Before
  cases hside : incoming.side
  · simp only
    omega
  · simp only
    omega

/-- Every order of `b'` is stored in `b` with its timestamp, and its lists are parts of those of
`b`. -/
structure Follows (b b' : BookStorage) : Prop where
  stored : ∀ id o', b'.readOrder id = some o' →
    ∃ o, b.readOrder id = some o ∧ o.timestamp = o'.timestamp
  sublist : ∀ pair isBuy, (b'.readOrderBook pair isBuy).Sublist (b.readOrderBook pair isBuy)

namespace Follows

theorem refl (b : BookStorage) : Follows b b where
  stored _ o ho := ⟨o, ho, rfl⟩
  sublist _ _ := List.Sublist.refl _

variable {b₁ b₂ : BookStorage} {o q : LimitOrder} {pair : Symbol} {isBuy : Bool}

/-- An order is stored under an id that has one with its timestamp. -/
theorem writeOrder (h : Follows b₁ b₂) (ho : b₁.readOrder o.id = some q)
    (htime : q.timestamp = o.timestamp) : Follows b₁ (b₂.writeOrder o) where
  stored id o' ho' := by
    rw [BookStorage.readOrder_writeOrder] at ho'
    split at ho'
    · rename_i hid
      obtain rfl := Option.some.inj ho'
      exact ⟨q, by rw [hid, ho], htime⟩
    · exact h.stored id o' ho'
  sublist := h.sublist

theorem removeOrderFromBook (h : Follows b₁ b₂) (id : ℕ) :
    Follows b₁ (b₂.removeOrderFromBook pair isBuy id) where
  stored := h.stored
  sublist pair' isBuy' := by
    rw [BookStorage.readOrderBook_removeOrderFromBook]
    split
    · rename_i heq
      obtain ⟨rfl, rfl⟩ := Prod.mk.inj heq
      exact List.filter_sublist.trans (h.sublist _ _)
    · exact h.sublist _ _

theorem fillMaker (h : Follows b₁ b₂) (ho : b₂.readOrder o.id = some o) (quantity : ℤ) :
    Follows b₁ (b₂.fillMaker pair isBuy o quantity) := by
  obtain ⟨q, hq, htime⟩ := h.stored _ _ ho
  have hwrite := h.writeOrder (o := o.fill quantity) hq htime
  unfold BookStorage.fillMaker
  dsimp only
  split
  · exact hwrite.removeOrderFromBook _
  · exact hwrite

theorem chronological (h : Follows b₁ b₂) (hb : b₁.Chronological) : b₂.Chronological where
  sorted pair isBuy := (hb.sorted pair isBuy).sublist (h.sublist pair isBuy)
  timestamp_le id id' o o' hle ho ho' := by
    obtain ⟨q, hq, htime⟩ := h.stored id o ho
    obtain ⟨q', hq', htime'⟩ := h.stored id' o' ho'
    rw [← htime, ← htime']
    exact hb.timestamp_le id id' q q' hle hq hq'

end Follows

/-- The matching of an order leaves a book that follows, and the terms of the order. -/
theorem matchLimitOrder_follows {s s' : State τ} {order : LimitOrder} (hkey : KeyedById s.book)
    (h : matchLimitOrder now s taker = .ok (s', order)) : Follows s.book s'.book ∧
      order.id = taker.id ∧ order.timestamp = taker.timestamp := by
  obtain ⟨⟨-, hfollows, hterms⟩, -⟩ := matchLimitOrder_induction
    (I := fun s' incoming => KeyedById s'.book ∧ Follows s.book s'.book ∧
      incoming.id = taker.id ∧ incoming.timestamp = taker.timestamp)
    (fun s' incoming makerId maker p hI hrem hmem hread hf he => by
      obtain ⟨hkeyed, hfollows, hterms⟩ := hI
      obtain rfl := executeFill_eq_ok he
      obtain rfl : maker.id = makerId := hkeyed _ _ hread
      exact ⟨hkeyed.fillMaker, hfollows.fillMaker hread _, hterms⟩) ⟨hkey, .refl _, rfl, rfl⟩ h
  exact ⟨hfollows, hterms⟩

/-! ## Runs -/

/-- The book follows the creation of its orders, up to now. -/
structure Dated (now : ℕ) (b : BookStorage) : Prop where
  chronological : b.Chronological
  timestamp_le : ∀ id o, b.readOrder id = some o → o.timestamp ≤ now

theorem Dated.mono {now' : ℕ} (h : Dated now b) (hle : now ≤ now') : Dated now' b :=
  ⟨h.chronological, fun id o ho => (h.timestamp_le id o ho).trans hle⟩

theorem Dated.of_follows (h : Dated now b) (hf : Follows b b') : Dated now b' where
  chronological := hf.chronological h.chronological
  timestamp_le id o' ho' := by
    obtain ⟨o, ho, htime⟩ := hf.stored id o' ho'
    rw [← htime]
    exact h.timestamp_le id o ho

/-- A fresh order is stored now. -/
theorem Dated.create {o : LimitOrder} (h : Dated now b) (hb : Consistent b ∅)
    (hid : o.id = b.orderCount + 1) (htime : o.timestamp = now) :
    Dated now (({ b with orderCount := o.id } : BookStorage).writeOrder o) := by
  have hread : ∀ id q, (({ b with orderCount := o.id } : BookStorage).writeOrder o).readOrder id =
      some q → id = o.id ∧ q = o ∨ id ≤ b.orderCount ∧ b.readOrder id = some q := by
    intro id q hq
    rw [BookStorage.readOrder_writeOrder] at hq
    split at hq
    · exact .inl ⟨‹_›, (Option.some.inj hq).symm⟩
    · exact .inr ⟨hb.id_le id q hq, hq⟩
  refine ⟨⟨h.chronological.sorted, fun id id' q q' hle hq hq' => ?_⟩, fun id q hq => ?_⟩
  · -- the fresh order is the youngest, and has the greatest id
    rcases hread id q hq with ⟨rfl, rfl⟩ | ⟨hold, hstored⟩
    · rcases hread id' q' hq' with ⟨-, rfl⟩ | ⟨hold', -⟩
      · exact le_rfl
      · omega
    · rcases hread id' q' hq' with ⟨-, rfl⟩ | ⟨-, hstored'⟩
      · rw [htime]
        exact h.timestamp_le id q hstored
      · exact h.chronological.timestamp_le id id' q q' hle hstored hstored'
  · rcases hread id q hq with ⟨-, rfl⟩ | ⟨-, hstored⟩
    · exact htime.le
    · exact h.timestamp_le id q hstored

/-- The youngest order goes to the end of its list. -/
theorem Dated.push {pair : Symbol} {isBuy : Bool} {id : ℕ} (h : Dated now b)
    (hlast : ∀ id' ∈ b.readOrderBook pair isBuy, id' < id) :
    Dated now (b.pushOrderToBook pair isBuy id) := by
  refine ⟨⟨fun pair' isBuy' => ?_, h.chronological.timestamp_le⟩, h.timestamp_le⟩
  rw [BookStorage.readOrderBook_pushOrderToBook]
  split
  · rw [List.pairwise_append]
    refine ⟨h.chronological.sorted pair isBuy, List.pairwise_singleton _ _, fun id' hid' id'' hid'' => ?_⟩
    rw [List.mem_singleton.mp hid'']
    exact hlast id' hid'
  · exact h.chronological.sorted pair' isBuy'

/-- What is left of the book when an order was matched and settled. -/
theorem createLimitOrder_dated {s s' : State τ} {trader : Address} {pair : Symbol} {isBuy : Bool}
    {price amount : ℤ} {tif : TimeInForce} {id : ℕ} (hs : Consistent s.book ∅)
    (hd : Dated now s.book)
    (h : createLimitOrder now trader pair isBuy price amount tif s = .ok (id, s')) :
    Dated now s'.book := by
  obtain ⟨rfl, hamount, -, limits, s₁, order, book, hmatch, hset, rfl⟩ := createLimitOrder_eq_ok h
  generalize htaker : placed now (s.book.orderCount + 1) trader pair isBuy price amount tif = taker
    at hmatch
  have hid : taker.id = s.book.orderCount + 1 := by rw [← htaker]; rfl
  have htime : taker.timestamp = now := by rw [← htaker]; rfl
  have hpos : 0 < taker.amount := by rw [← htaker]; exact hamount
  have hplaced : Dated now (s.place limits taker).book := hd.create hs hid htime
  have hkey : KeyedById (s.place limits taker).book := (hs.create hid hpos).id_eq
  obtain ⟨hfollows, hterms⟩ := matchLimitOrder_follows hkey hmatch
  have hself : (s.place limits taker).book.readOrder taker.id = some taker := by
    unfold State.place
    rw [BookStorage.readOrder_writeOrder, if_pos rfl]
  have hstored : Follows (s.place limits taker).book (s₁.book.writeOrder order) :=
    hfollows.writeOrder (by rw [hterms.1]; exact hself) hterms.2.symm
  rcases settleOrder_cases hset with rfl | rfl | rfl
  · exact hplaced.of_follows hstored
  · -- the ids of the list were given out before
    refine (hplaced.of_follows hstored).push fun id' hid' => ?_
    obtain ⟨-, o, ho, -⟩ := (hs.mem_iff _ _ id').mp ((hstored.sublist _ _).subset hid')
    have hle := hs.id_le id' o ho
    omega
  · exact hplaced.of_follows (hstored.writeOrder (by rw [hterms.1]; exact hself) hterms.2.symm)

variable [TokenClient τ Address Address]

/-- Every call keeps the book dated. -/
theorem execute_dated {s s' : State τ} {call : Call} {r : Result} (hs : s.book.Sound)
    (hd : Dated now s.book) (h : execute now s call = .ok (r, s')) : Dated now s'.book := by
  cases execute_cases h with
  | trade h₁ =>
    obtain ⟨-, -, limits, breaker, tokens, -, rfl⟩ := trade_eq_ok h₁
    exact hd
  | batchTrade h₁ =>
    rcases batchTrade_eq_ok h₁ with ⟨-, rfl⟩ | ⟨-, -, -, limits, tokens, fee, rfl⟩
    · exact hd
    · exact hd
  | createLimitOrder h₁ => exact createLimitOrder_dated hs.consistent hd h₁
  | cancelOrder h₁ =>
    obtain ⟨order, hread, -, -, rfl⟩ := cancelOrder_eq_ok h₁
    obtain rfl := hs.consistent.id_eq _ _ hread
    have hwrite : Follows s.book (s.book.writeOrder { order with status := .cancelled }) :=
      (Follows.refl _).writeOrder hread rfl
    exact hd.of_follows (hwrite.removeOrderFromBook _)

/-- Every reachable book is represented. -/
theorem represented_of_run {s : State τ} {t₀ : ℕ} {config : CircuitBreakerConfig} {tokens : τ}
    {w : World (State τ)} {log : List (Commit (State τ) Call Result)}
    (hinit : init t₀ config (State.empty tokens) = .ok s)
    (h : (contract τ).Run ⟨t₀, s⟩ w log) : w.store.book.Represented := by
  have hall : w.store.book.Sound ∧ Dated w.now w.store.book := by
    refine h.invariant_log (I := fun t s _ => s.book.Sound ∧ Dated t s.book) ?_ ?_
      (fun t call r s s' log hs he => ⟨execute_sound hs.1 he, execute_dated hs.1 hs.2 he⟩)
    swap
    · intro t t' s log hle hs
      exact ⟨hs.1, hs.2.mono hle⟩
    obtain rfl := Except.ok.inj ((init_empty config tokens).symm.trans hinit)
    refine ⟨BookStorage.sound_empty, ⟨fun _ _ => List.Pairwise.nil, ?_⟩, ?_⟩
    · intro id id' o o' hle ho
      cases ho
    · intro id o ho
      cases ho
  exact ⟨hall.1.consistent, hall.2.chronological⟩

/-! ## Fills -/

/-- What is required of the fills of `taker` between two states. -/
structure PriceTimePriority (now : ℕ) (taker : LimitOrder) (s s' : State τ)
    (sorted : List LimitOrder) (fills : List Fill) : Prop where
  /-- The live crossing orders of the other side, sorted by best price and then by creation. -/
  perm : sorted.Perm (crossing s.book taker)
  pairwise : sorted.Pairwise (Before taker)
  front : fills.map Prod.fst <+: sorted
  /-- The price of the maker is not worse than the limit of the taker. -/
  price : ∀ f ∈ fills, match taker.side with
    | .buy => f.1.price ≤ taker.price
    | .sell => taker.price ≤ f.1.price
  quantity : ∀ f ∈ fills, 0 < f.2 ∧ f.2 ≤ f.1.remaining
  filled : ∀ f ∈ fills.dropLast, f.2 = f.1.remaining
  total : totalFilled fills = min taker.amount (sorted.map LimitOrder.remaining).sum
  /-- The trades and the events are those of the fills, at the prices of the makers. -/
  ledger : s'.ledger = recordFills now taker fills s.ledger
  events : s'.events = s.events ++ .orderCreated ⟨taker.id, taker.owner, taker.pair, taker.isBuy,
    taker.price, taker.amount, taker.tif, taker.timestamp⟩ :: publishedFills now taker fills s.ledger
  makers : ∀ f ∈ fills, s'.book.readOrder f.1.id = some (f.1.fill f.2)
  rest : ∃ status, s'.book.readOrder taker.id =
    some { taker with remaining := taker.amount - totalFilled fills, status := status }

omit [TokenClient τ Address Address] in
/-- An order on a represented book is filled with price-time priority. -/
theorem createLimitOrder_priority {s s' : State τ} {trader : Address} {pair : Symbol} {isBuy : Bool}
    {price amount : ℤ} {tif : TimeInForce} {id : ℕ} (hbook : s.book.Represented)
    (h : createLimitOrder now trader pair isBuy price amount tif s = .ok (id, s')) :
    PriceTimePriority now (placed now id trader pair isBuy price amount tif) s s'
      (queue s.book (placed now id trader pair isBuy price amount tif))
      (fillsOf s.book (placed now id trader pair isBuy price amount tif)) := by
  obtain ⟨rfl, hamount, -, limits, s₁, order, book, hmatch, hset, rfl⟩ := createLimitOrder_eq_ok h
  have hrem : (placed now (s.book.orderCount + 1) trader pair isBuy price amount tif).remaining =
      (placed now (s.book.orderCount + 1) trader pair isBuy price amount tif).amount := rfl
  have hid : (placed now (s.book.orderCount + 1) trader pair isBuy price amount tif).id =
      s.book.orderCount + 1 := rfl
  have hpos : 0 < (placed now (s.book.orderCount + 1) trader pair isBuy price amount tif).amount :=
    hamount
  generalize placed now (s.book.orderCount + 1) trader pair isBuy price amount tif = taker
    at hmatch hrem hid hpos
  have hprogress := matchLimitOrder_place hbook.consistent hid hpos hmatch
  obtain ⟨status, horder⟩ := hprogress.incoming_eq
  obtain ⟨hothers, status', hself⟩ := readOrder_settleOrder hset
  have horderId : order.id = taker.id := by rw [horder]
  -- the orders of the queue are live, cross the taker and are listed before it
  have hqueue : ∀ o ∈ queue s.book taker, fillable taker o ∧ o.id ≠ taker.id := by
    intro o ho
    obtain ⟨id, hmem, hread, hfill⟩ := mem_crossing.mp (mem_queue.mp ho)
    have hle := hbook.consistent.id_le _ _ hread
    obtain rfl := hbook.consistent.id_eq _ _ hread
    exact ⟨hfill, by omega⟩
  have hlive : ∀ o ∈ queue s.book taker, 0 < o.remaining := fun o ho => (hqueue o ho).1.2.1
  have hserve := serve_mem taker.remaining hlive
  constructor
  · exact List.perm_insertionSort _ _
  · exact hbook.queue_pairwise taker
  · exact serve_prefix
  · intro f hf
    have hmatches := (hqueue f.1 (hserve f hf).1).1.2.2.2
    cases hside : taker.side
    · cases hmaker : f.1.side
      · simp [hside, hmaker] at hmatches
      · simpa [hside, hmaker] using hmatches
    · cases hmaker : f.1.side
      · simpa [hside, hmaker] using hmatches
      · simp [hside, hmaker] at hmatches
  · exact fun f hf => (hserve f hf).2
  · exact serve_dropLast
  · rw [totalFilled_fillsOf (by omega), hrem]
  · exact hprogress.ledger
  · rw [hprogress.events]
    simp [State.place]
  · intro f hf
    rw [hothers]
    · exact (hprogress.makers f hf).1
    · rw [horderId]
      exact (hqueue f.1 (hserve f hf).1).2
  · refine ⟨status', ?_⟩
    rw [← horderId, hself, horder, hrem]

/-- Every reachable book is represented. On a represented book the matching loop ends, and an
accepted order is filled with price-time priority. -/
theorem price_time_priority {s : State τ} (hbook : s.book.Represented) {trader : Address}
    {pair : Symbol} {isBuy : Bool} {price amount : ℤ} {tif : TimeInForce} :
    (∀ t₀ config tokens (s₀ : State τ) w log, init t₀ config (State.empty tokens) = .ok s₀ →
      (contract τ).Run ⟨t₀, s₀⟩ w log → w.store.book.Represented) ∧
    createLimitOrder now trader pair isBuy price amount tif s ≠ .error .diverges ∧
    ∀ id s', createLimitOrder now trader pair isBuy price amount tif s = .ok (id, s') →
      ∃ sorted fills, PriceTimePriority now (placed now id trader pair isBuy price amount tif) s s'
        sorted fills := by
  refine ⟨fun t₀ config tokens s₀ w log hinit hrun => represented_of_run hinit hrun, ?_,
    fun id s' h => ⟨_, _, createLimitOrder_priority hbook h⟩⟩
  exact createLimitOrder_ne_diverges hbook.consistent

theorem price_time_priority_sample :
    createLimitOrder 40 ⟨3⟩ "XLM" true 6 2 .gtc
        ((contract _).play sampleWorld sampleOrders).1.store ≠ .error .diverges ∧
      ∀ id s', createLimitOrder 40 ⟨3⟩ "XLM" true 6 2 .gtc
          ((contract _).play sampleWorld sampleOrders).1.store = .ok (id, s') →
        ∃ sorted fills, PriceTimePriority 40 (placed 40 id ⟨3⟩ "XLM" true 6 2 .gtc)
          ((contract _).play sampleWorld sampleOrders).1.store s' sorted fills :=
  (price_time_priority (represented_of_run (s := sampleWorld.store) (init_empty _ _)
    (Contract.run_play _ sampleWorld sampleOrders (by decide)))).2

end Stellara.Trading
