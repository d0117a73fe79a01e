import Stellara.Trading.Queue

/-!
# Fill or kill

A fill-or-kill order is checked before it is matched: a scan of the other side sums up what the live
crossing orders have, and stops when this is enough. The matching loop fills the order from the same
orders, best price first. Both scans agree, so that the check after the match never refuses an
order.

## Main definitions

* `Admitted`: an order passes the checks at the entry
* `offered`: what the live crossing orders have

## Main results

* `createLimitOrder_of_admitted`: an admitted order is checked, matched and settled
* `fill_or_kill`: every admitted order in every run, unless an addition overflows
-/

namespace Stellara.Trading

variable {τ : Type} {now : ℕ} {s s₁ s' : State τ} {trader : Address} {pair : Symbol} {isBuy : Bool}
  {price amount : ℤ} {tif : TimeInForce} {b : BookStorage} {taker order : LimitOrder}
  {limits : RateLimits}

/-- The order passes the checks at the entry: the contract is initialized, the rate limits are not
reached, trading is not paused, and amount and price are positive. -/
structure Admitted (now : ℕ) (trader : Address) (price amount : ℤ) (s : State τ) : Prop where
  tradeable : ∃ s', ensureTradeable now trader s = .ok s'
  amount_pos : 0 < amount
  price_pos : 0 < price

/-- What the live orders on the other side have that cross `taker`. -/
def offered (b : BookStorage) (taker : LimitOrder) : ℤ :=
  ((crossing b taker).map LimitOrder.remaining).sum

/-- The next id overflows, or is counted. -/
theorem BookStorage.nextOrderId_eq (b : BookStorage) : b.nextOrderId =
    if ((b.orderCount + 1 : ℕ) : ℤ) ≤ IntFormat.u64.hi then
      .ok (b.orderCount + 1, { b with orderCount := b.orderCount + 1 })
    else .error .overflow := by
  unfold nextOrderId IntFormat.checkedNat
  split <;> rfl

/-- After the checks at the entry, an order gets the next id and is checked, matched and settled. -/
theorem createLimitOrder_of_admitted (h : Admitted now trader price amount s)
    (hno : createLimitOrder now trader pair isBuy price amount tif s ≠ .error .overflow) :
    ∃ limits, createLimitOrder now trader pair isBuy price amount tif s = (do
      checkFullyFillable (placed now (s.book.orderCount + 1) trader pair isBuy price amount tif)
        { s.book with orderCount := s.book.orderCount + 1 }
      let (s₁, order) ← matchLimitOrder now
        (s.place limits (placed now (s.book.orderCount + 1) trader pair isBuy price amount tif))
        (placed now (s.book.orderCount + 1) trader pair isBuy price amount tif)
      let book ← settleOrder order (s₁.book.writeOrder order)
      .ok (s.book.orderCount + 1, { s₁ with book := book })) := by
  obtain ⟨s₁, h₁⟩ := h.tradeable
  obtain ⟨⟨limits, rfl⟩, -⟩ := ensureTradeable_eq_ok h₁
  refine ⟨limits, ?_⟩
  have hnext := BookStorage.nextOrderId_eq s.book
  rw [createLimitOrder, h₁, Except.ok_bind, require, if_pos h.amount_pos, Except.ok_bind, require,
    if_pos h.price_pos, Except.ok_bind] at hno ⊢
  split at hnext
  · rw [hnext, Except.ok_bind]
    cases isBuy
    · rfl
    · rfl
  · -- the id overflows
    rw [hnext] at hno
    exact absurd rfl hno

/-- The check agrees with what is offered, unless it overflows. -/
theorem checkFullyFillable_fok (htif : taker.tif = .fok) (hrem : taker.remaining = taker.amount)
    (hno : checkFullyFillable taker b ≠ .error .overflow) :
    (taker.amount ≤ offered b taker ∧ checkFullyFillable taker b = .ok ()) ∨
      (offered b taker < taker.amount ∧
        checkFullyFillable taker b = .error (.error .orderWouldNotFullyFill)) := by
  rw [checkFullyFillable, if_pos htif] at hno ⊢
  cases havailable : b.availableFillForOrder taker with
  | error fault =>
    -- the scan only fails when it overflows
    rw [havailable, Except.error_bind] at hno
    have hfault : fault ≠ .overflow := fun heq => hno (by rw [heq])
    exact absurd havailable (BookStorage.sumAvailable_ne_error hfault)
  | ok available =>
    have henough : taker.amount ≤ available ↔ taker.amount ≤ offered b taker := by
      have hiff := BookStorage.le_sumAvailable_iff havailable
      rwa [hrem, zero_add] at hiff
    rw [Except.ok_bind, require]
    by_cases hle : taker.amount ≤ available
    · exact .inl ⟨henough.mp hle, if_pos hle⟩
    · exact .inr ⟨not_le.mp (mt henough.mpr hle), if_neg hle⟩

/-- What the matching leaves of a placed order is what is not offered. -/
theorem remaining_of_match (hs : Consistent s.book ∅) (hid : taker.id = s.book.orderCount + 1)
    (hpos : 0 < taker.amount) (hrem : taker.remaining = taker.amount)
    (h : matchLimitOrder now (s.place limits taker) taker = .ok (s₁, order)) :
    order.remaining = taker.amount - min taker.amount (offered s.book taker) := by
  obtain ⟨status, rfl⟩ := (matchLimitOrder_place hs hid hpos h).incoming_eq
  have hsum : ((queue s.book taker).map LimitOrder.remaining).sum = offered s.book taker :=
    ((List.perm_insertionSort _ _).map LimitOrder.remaining).sum_eq
  show taker.remaining - totalFilled (fillsOf s.book taker) = _
  rw [totalFilled_fillsOf (by omega), hsum, hrem]

/-- An order that passes the check before the match passes the one after it. -/
theorem settleOrder_of_check (hs : Consistent s.book ∅) (hid : taker.id = s.book.orderCount + 1)
    (hpos : 0 < taker.amount) (hrem : taker.remaining = taker.amount) (htif : taker.tif = .fok)
    (hcheck : checkFullyFillable taker { s.book with orderCount := s.book.orderCount + 1 } = .ok ())
    (h : matchLimitOrder now (s.place limits taker) taker = .ok (s₁, order)) :
    order.remaining = 0 ∧ settleOrder order b = .ok b := by
  have henough : taker.amount ≤ offered s.book taker := by
    rcases checkFullyFillable_fok htif hrem (by rw [hcheck]; simp) with ⟨hle, -⟩ | ⟨-, hrefuse⟩
    · exact hle
    · rw [hcheck] at hrefuse
      cases hrefuse
  have hleft := remaining_of_match hs hid hpos hrem h
  rw [min_eq_left henough, sub_self] at hleft
  have horder : order.tif = .fok := by
    obtain ⟨status, rfl⟩ := (matchLimitOrder_place hs hid hpos h).incoming_eq
    exact htif
  refine ⟨hleft, ?_⟩
  simp only [settleOrder, horder]
  exact if_neg (by omega)

/-- An admitted fill-or-kill order is filled or refused, unless an addition overflows. -/
theorem createLimitOrder_fok (hs : s.book.Sound) (h : Admitted now trader price amount s)
    (hno : createLimitOrder now trader pair isBuy price amount .fok s ≠ .error .overflow) :
    (amount ≤ offered s.book (placed now (s.book.orderCount + 1) trader pair isBuy price amount .fok) ∧
      ∃ s' o, createLimitOrder now trader pair isBuy price amount .fok s =
          .ok (s.book.orderCount + 1, s') ∧
        s'.book.readOrder (s.book.orderCount + 1) = some o ∧ o.status = .filled ∧ o.remaining = 0) ∨
      (offered s.book (placed now (s.book.orderCount + 1) trader pair isBuy price amount .fok) <
          amount ∧
        createLimitOrder now trader pair isBuy price amount .fok s =
          .error (.error .orderWouldNotFullyFill)) := by
  obtain ⟨limits, hcreate⟩ := createLimitOrder_of_admitted h hno
  have hid : (placed now (s.book.orderCount + 1) trader pair isBuy price amount .fok).id =
      s.book.orderCount + 1 := rfl
  have hamount : (placed now (s.book.orderCount + 1) trader pair isBuy price amount .fok).amount =
      amount := rfl
  have hrem : (placed now (s.book.orderCount + 1) trader pair isBuy price amount .fok).remaining =
      (placed now (s.book.orderCount + 1) trader pair isBuy price amount .fok).amount := rfl
  have htif : (placed now (s.book.orderCount + 1) trader pair isBuy price amount .fok).tif = .fok := rfl
  have hopen : (placed now (s.book.orderCount + 1) trader pair isBuy price amount .fok).status =
      .opened := rfl
  rw [hcreate] at hno ⊢
  generalize placed now (s.book.orderCount + 1) trader pair isBuy price amount .fok = taker at *
  have hpos : 0 < taker.amount := by
    rw [hamount]
    exact h.amount_pos
  have hcheck : checkFullyFillable taker { s.book with orderCount := s.book.orderCount + 1 } ≠
      .error .overflow := by
    intro heq
    rw [heq] at hno
    exact hno rfl
  rcases checkFullyFillable_fok htif hrem hcheck with ⟨henough, hpass⟩ | ⟨hless, hrefuse⟩
  · rw [hamount] at henough
    rw [hpass, Except.ok_bind] at hno ⊢
    cases hmatch : matchLimitOrder now (s.place limits taker) taker with
    | error fault =>
      -- the matching loop only fails when it overflows
      rw [hmatch, Except.error_bind] at hno
      have hfault : fault ≠ .overflow := fun heq => hno (by rw [heq])
      exact absurd hmatch (matchLimitOrder_ne_error hfault (hs.consistent.create hid hpos).id_eq)
    | ok p =>
      obtain ⟨s₁, order⟩ := p
      obtain ⟨hleft, hsettle⟩ := settleOrder_of_check (b := s₁.book.writeOrder order) hs.consistent
        hid hpos hrem htif hpass hmatch
      have hfilled := (matchLimitOrder_matching hs hid hpos hrem hopen hmatch).1.wellFormed.filled
      have horder : order.id = s.book.orderCount + 1 := by
        obtain ⟨status, rfl⟩ := (matchLimitOrder_place hs.consistent hid hpos hmatch).incoming_eq
        exact hid
      refine .inl ⟨henough, { s₁ with book := s₁.book.writeOrder order }, order, ?_, ?_,
        hfilled.mpr hleft, hleft⟩
      · simp only [Except.ok_bind, hsettle]
      · rw [BookStorage.readOrder_writeOrder, if_pos horder.symm]
  · rw [hamount] at hless
    exact .inr ⟨hless, by rw [hrefuse]; rfl⟩

/-- In every run an admitted fill-or-kill order, for which no addition overflows, succeeds exactly
when the live crossing orders have enough. Then it ends filled; otherwise it is refused, and the
state is left as it is. The check after the match never refuses it. -/
theorem fill_or_kill [TokenClient τ Address Address] {t₀ : ℕ} {config : CircuitBreakerConfig}
    {tokens : τ} {w : World (State τ)} {log : List (Commit (State τ) Call Result)}
    (hinit : init t₀ config (State.empty tokens) = .ok s)
    (hrun : (contract τ).Run ⟨t₀, s⟩ w log) (hadmitted : Admitted now trader price amount w.store)
    (hno : createLimitOrder now trader pair isBuy price amount .fok w.store ≠ .error .overflow) :
    ((∃ r, createLimitOrder now trader pair isBuy price amount .fok w.store = .ok r) ↔
      amount ≤ offered w.store.book
        (placed now (w.store.book.orderCount + 1) trader pair isBuy price amount .fok)) ∧
    (∀ id s', createLimitOrder now trader pair isBuy price amount .fok w.store = .ok (id, s') →
      ∃ o, s'.book.readOrder id = some o ∧ o.status = .filled ∧ o.remaining = 0) ∧
    ((¬ ∃ r, createLimitOrder now trader pair isBuy price amount .fok w.store = .ok r) →
      createLimitOrder now trader pair isBuy price amount .fok w.store =
          .error (.error .orderWouldNotFullyFill) ∧
        ((contract τ).play w
          [(now, .createLimitOrder trader pair isBuy price amount .fok)]).1.store = w.store) ∧
    ∀ limits s₁ order,
      checkFullyFillable (placed now (w.store.book.orderCount + 1) trader pair isBuy price amount .fok)
        { w.store.book with orderCount := w.store.book.orderCount + 1 } = .ok () →
      matchLimitOrder now (w.store.place limits
          (placed now (w.store.book.orderCount + 1) trader pair isBuy price amount .fok))
        (placed now (w.store.book.orderCount + 1) trader pair isBuy price amount .fok) =
          .ok (s₁, order) →
      settleOrder order (s₁.book.writeOrder order) = .ok (s₁.book.writeOrder order) := by
  have hs := run_sound hinit hrun
  have hfok := createLimitOrder_fok hs hadmitted hno
  refine ⟨?_, ?_, ?_, ?_⟩
  · rcases hfok with ⟨henough, s', o, hok, -⟩ | ⟨hless, hrefuse⟩
    · exact iff_of_true ⟨_, hok⟩ henough
    · refine iff_of_false ?_ hless.not_ge
      rintro ⟨r, hok⟩
      rw [hrefuse] at hok
      cases hok
  · intro id s' hok
    rcases hfok with ⟨-, s'', o, hok', ho⟩ | ⟨-, hrefuse⟩
    · obtain ⟨rfl, rfl⟩ := Prod.mk.inj (Except.ok.inj (hok.symm.trans hok'))
      exact ⟨o, ho⟩
    · rw [hrefuse] at hok
      cases hok
  · intro hfails
    rcases hfok with ⟨-, s', o, hok, -⟩ | ⟨-, hrefuse⟩
    · exact absurd ⟨_, hok⟩ hfails
    · refine ⟨hrefuse, ?_⟩
      have hexec : (contract τ).exec now (.createLimitOrder trader pair isBuy price amount .fok)
          w.store = .error (.error .orderWouldNotFullyFill) := by
        show execute now w.store (.createLimitOrder trader pair isBuy price amount .fok) = _
        rw [execute, hrefuse]
        rfl
      rw [Contract.play, hexec]
      rfl
  · intro limits s₁ order hcheck hmatch
    exact (settleOrder_of_check hs.consistent rfl hadmitted.amount_pos rfl rfl hcheck hmatch).2

/-- The world after `sampleOrders`, where 6 are on sale at 5. -/
def soldWorld : World (State (Balances Address Address)) :=
  ((contract _).play sampleWorld sampleOrders).1

theorem fill_or_kill_sold :
    (∃ r, createLimitOrder 40 ⟨3⟩ "XLM" true 6 2 .fok soldWorld.store = .ok r) ↔
      2 ≤ offered soldWorld.store.book (placed 40 4 ⟨3⟩ "XLM" true 6 2 .fok) := by
  have hok : createLimitOrder 40 ⟨3⟩ "XLM" true 6 2 .fok soldWorld.store =
      .ok (4, ((contract _).play soldWorld
        [(40, .createLimitOrder ⟨3⟩ "XLM" true 6 2 .fok)]).1.store) := rfl
  have hno : createLimitOrder 40 ⟨3⟩ "XLM" true 6 2 .fok soldWorld.store ≠ .error .overflow := by
    rw [hok]
    simp
  exact (fill_or_kill (s := sampleWorld.store) (init_empty _ _)
    (Contract.run_play _ sampleWorld sampleOrders (by decide))
    ⟨⟨_, rfl⟩, by decide, by decide⟩ hno).1

/-- A sell order of 10 at 5, and five buy orders of another trader within one minute. -/
def hurriedOrders : List (ℕ × Call) :=
  [(10, .createLimitOrder ⟨1⟩ "XLM" false 5 10 .gtc), (10, .createLimitOrder ⟨2⟩ "XLM" true 1 1 .gtc),
    (10, .createLimitOrder ⟨2⟩ "XLM" true 1 1 .gtc), (10, .createLimitOrder ⟨2⟩ "XLM" true 1 1 .gtc),
    (10, .createLimitOrder ⟨2⟩ "XLM" true 1 1 .gtc), (10, .createLimitOrder ⟨2⟩ "XLM" true 1 1 .gtc)]

/-- The world after them. -/
def hurriedWorld : World (State (Balances Address Address)) :=
  ((contract _).play sampleWorld hurriedOrders).1

/-- The sixth order of the trader would be filled, but the rate limit refuses it. -/
theorem refused_by_rate_limit :
    init 0 ⟨1000000, 1000, 3600⟩ (State.empty sampleWorld.store.tokens) = .ok sampleWorld.store ∧
      (∃ log, (contract _).Run sampleWorld hurriedWorld log) ∧
      1 ≤ offered hurriedWorld.store.book (placed 10 7 ⟨2⟩ "XLM" true 5 1 .fok) ∧
      createLimitOrder 10 ⟨2⟩ "XLM" true 5 1 .fok hurriedWorld.store =
        .error (.error .rateLimitExceeded) :=
  ⟨rfl, ⟨_, Contract.run_play _ sampleWorld hurriedOrders (by decide)⟩, by decide, rfl⟩

end Stellara.Trading
