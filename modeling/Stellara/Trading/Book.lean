import Mathlib.Algebra.Order.BigOperators.Group.List
import Stellara.Host.Soroban

/-!
# The limit-order book

The order book of the trading contract: the stored orders, one list of order ids for each
pair and side, and the counter the ids come from. The book is written by three helpers, which
write an order, push an id to a list and remove an id from a list, and is read by the search
for the best resting order that an incoming one can trade with.

## Main definitions

* `LimitOrder`, `BookStorage`: an order, and the entries of the book
* `orderMatches`: whether a resting order is on the other side at an acceptable price
* `Precedes`: whether a resting order is not worse than another one
* `BookStorage.pickBestMatchIndex`: the best matching order of a list
* `BookStorage.availableFillForOrder`: how much of an order the book can fill

## Main results

* `BookStorage.pickBestMatchIndex_best`, `BookStorage.pickBestMatchIndex_none`: what the
  search finds, and what it means that it finds nothing
* `BookStorage.le_sumAvailable_iff`: the check finds enough when all the live orders have enough
-/

namespace Stellara.Trading

inductive OrderSide where
  | buy
  | sell
deriving DecidableEq, Repr

inductive OrderStatus where
  | opened
  | partiallyFilled
  | filled
  | cancelled
deriving DecidableEq, Repr

/-- Good till cancelled, immediate or cancel, fill or kill. -/
inductive TimeInForce where
  | gtc
  | ioc
  | fok
deriving DecidableEq, Repr

structure LimitOrder where
  id : ℕ
  owner : Address
  pair : Symbol
  side : OrderSide
  price : ℤ
  amount : ℤ
  remaining : ℤ
  status : OrderStatus
  tif : TimeInForce
  timestamp : ℕ
deriving DecidableEq, Repr

inductive TradeError where
  | unauthorized
  | invalidAmount
  | contractPaused
  | notInitialized
  | insufficientBalance
  | rateLimitExceeded
  | globalRateLimitExceeded
  | invalidRateLimitConfig
  | batchTooLarge
  | invalidPrice
  | orderNotFound
  | orderNotCancelable
  | orderWouldNotFullyFill
deriving DecidableEq, Repr

namespace LimitOrder

/-- The order is on the buy side. -/
def isBuy (o : LimitOrder) : Bool := o.side = .buy

/-- The list of the other side is the one of the buy orders. -/
def oppositeIsBuy (o : LimitOrder) : Bool := o.side = .sell

/-- The order has not been filled or cancelled. -/
def isOpen (o : LimitOrder) : Prop := o.status = .opened ∨ o.status = .partiallyFilled

instance (o : LimitOrder) : Decidable o.isOpen := inferInstanceAs (Decidable (_ ∨ _))

/-- The order after `quantity` of it was filled. -/
def fill (o : LimitOrder) (quantity : ℤ) : LimitOrder :=
  { o with
    remaining := o.remaining - quantity
    status := if o.remaining - quantity = 0 then .filled else .partiallyFilled }

section Fill

variable (o : LimitOrder) (quantity : ℤ)

@[simp] theorem fill_id : (o.fill quantity).id = o.id := rfl

@[simp] theorem fill_pair : (o.fill quantity).pair = o.pair := rfl

@[simp] theorem fill_side : (o.fill quantity).side = o.side := rfl

@[simp] theorem fill_isBuy : (o.fill quantity).isBuy = o.isBuy := rfl

@[simp] theorem fill_oppositeIsBuy : (o.fill quantity).oppositeIsBuy = o.oppositeIsBuy := rfl

@[simp] theorem fill_price : (o.fill quantity).price = o.price := rfl

@[simp] theorem fill_amount : (o.fill quantity).amount = o.amount := rfl

@[simp] theorem fill_tif : (o.fill quantity).tif = o.tif := rfl

@[simp] theorem fill_remaining : (o.fill quantity).remaining = o.remaining - quantity := rfl

end Fill

end LimitOrder

/-- A resting order of the same pair, on the other side, at an acceptable price. -/
def orderMatches (incoming resting : LimitOrder) : Prop :=
  incoming.pair = resting.pair ∧
    match incoming.side, resting.side with
    | .buy, .sell => resting.price ≤ incoming.price
    | .sell, .buy => incoming.price ≤ resting.price
    | _, _ => False

instance (incoming resting : LimitOrder) : Decidable (orderMatches incoming resting) := by
  unfold orderMatches
  cases incoming.side <;> cases resting.side <;> exact inferInstance

/-- A resting order that can fill a part of `incoming` now. -/
def fillable (incoming resting : LimitOrder) : Prop :=
  resting.isOpen ∧ 0 < resting.remaining ∧ orderMatches incoming resting

instance (incoming resting : LimitOrder) : Decidable (fillable incoming resting) :=
  inferInstanceAs (Decidable (_ ∧ _ ∧ _))

/-- The entries `order`, `obook` and `o_cnt` of the storage. -/
structure BookStorage where
  orders : Store ℕ LimitOrder
  books : Store (Symbol × Bool) (List ℕ)
  orderCount : ℕ

/-- Of two resting orders the first is not worse for `incoming`: it has a better price, or the same
and is not younger. -/
def Precedes (incoming first second : LimitOrder) : Prop :=
  (match incoming.side with
    | .buy => first.price < second.price
    | .sell => second.price < first.price) ∨
    (first.price = second.price ∧ first.timestamp ≤ second.timestamp)

instance (incoming first second : LimitOrder) : Decidable (Precedes incoming first second) := by
  unfold Precedes
  cases incoming.side <;> exact inferInstance

theorem Precedes.refl {incoming : LimitOrder} (o : LimitOrder) : Precedes incoming o o :=
  .inr ⟨rfl, le_rfl⟩

theorem Precedes.trans {incoming o₁ o₂ o₃ : LimitOrder} (h : Precedes incoming o₁ o₂)
    (h' : Precedes incoming o₂ o₃) : Precedes incoming o₁ o₃ := by
  unfold Precedes at *
  cases hside : incoming.side
  · simp only [hside] at *
    omega
  · simp only [hside] at *
    omega

theorem Precedes.of_not {incoming o₁ o₂ : LimitOrder} (h : ¬ Precedes incoming o₁ o₂) :
    Precedes incoming o₂ o₁ := by
  unfold Precedes at *
  cases hside : incoming.side
  · simp only [hside] at *
    omega
  · simp only [hside] at *
    omega

namespace BookStorage

/-- Nothing stored yet. -/
def empty : BookStorage := ⟨∅, ∅, 0⟩

def readOrder (b : BookStorage) (id : ℕ) : Option LimitOrder := b.orders.lookup id

def writeOrder (b : BookStorage) (order : LimitOrder) : BookStorage :=
  { b with orders := b.orders.insert order.id order }

def readOrderBook (b : BookStorage) (pair : Symbol) (isBuy : Bool) : List ℕ :=
  (b.books.lookup (pair, isBuy)).getD []

def writeOrderBook (b : BookStorage) (pair : Symbol) (isBuy : Bool) (ids : List ℕ) : BookStorage :=
  { b with books := b.books.insert (pair, isBuy) ids }

def pushOrderToBook (b : BookStorage) (pair : Symbol) (isBuy : Bool) (orderId : ℕ) : BookStorage :=
  b.writeOrderBook pair isBuy (b.readOrderBook pair isBuy ++ [orderId])

def removeOrderFromBook (b : BookStorage) (pair : Symbol) (isBuy : Bool) (orderId : ℕ) :
    BookStorage :=
  b.writeOrderBook pair isBuy ((b.readOrderBook pair isBuy).filter (· ≠ orderId))

/-- The book after `maker` was filled by `quantity`: a maker that is used up leaves the list. -/
def fillMaker (b : BookStorage) (pair : Symbol) (isBuy : Bool) (maker : LimitOrder)
    (quantity : ℤ) : BookStorage :=
  let maker' := maker.fill quantity
  let b := b.writeOrder maker'
  if maker'.remaining = 0 then b.removeOrderFromBook pair isBuy maker'.id else b

/-- Allocate the next order id. -/
def nextOrderId (b : BookStorage) : Outcome TradeError (ℕ × BookStorage) := do
  let id ← IntFormat.u64.checkedNat .overflow (b.orderCount + 1)
  .ok (id, { b with orderCount := id })

section Access

variable (b : BookStorage) (pair : Symbol) (isBuy : Bool) (orderId id : ℕ) (order : LimitOrder)

@[simp] theorem readOrder_writeOrder :
    (b.writeOrder order).readOrder id = if id = order.id then some order else b.readOrder id :=
  Store.lookup_insert_ite _ _ _ _

@[simp] theorem readOrder_writeOrderBook (ids : List ℕ) :
    (b.writeOrderBook pair isBuy ids).readOrder id = b.readOrder id := rfl

@[simp] theorem readOrder_pushOrderToBook :
    (b.pushOrderToBook pair isBuy orderId).readOrder id = b.readOrder id := rfl

@[simp] theorem readOrder_removeOrderFromBook :
    (b.removeOrderFromBook pair isBuy orderId).readOrder id = b.readOrder id := rfl

@[simp] theorem readOrderBook_writeOrder :
    (b.writeOrder order).readOrderBook pair isBuy = b.readOrderBook pair isBuy := rfl

theorem readOrderBook_writeOrderBook (ids : List ℕ) (pair' : Symbol) (isBuy' : Bool) :
    (b.writeOrderBook pair isBuy ids).readOrderBook pair' isBuy' =
      if (pair', isBuy') = (pair, isBuy) then ids else b.readOrderBook pair' isBuy' := by
  unfold readOrderBook writeOrderBook
  rw [Store.lookup_insert_ite]
  split <;> rfl

theorem readOrderBook_pushOrderToBook (pair' : Symbol) (isBuy' : Bool) :
    (b.pushOrderToBook pair isBuy orderId).readOrderBook pair' isBuy' =
      if (pair', isBuy') = (pair, isBuy) then b.readOrderBook pair isBuy ++ [orderId]
      else b.readOrderBook pair' isBuy' :=
  readOrderBook_writeOrderBook _ _ _ _ _ _

theorem readOrderBook_removeOrderFromBook (pair' : Symbol) (isBuy' : Bool) :
    (b.removeOrderFromBook pair isBuy orderId).readOrderBook pair' isBuy' =
      if (pair', isBuy') = (pair, isBuy) then (b.readOrderBook pair isBuy).filter (· ≠ orderId)
      else b.readOrderBook pair' isBuy' :=
  readOrderBook_writeOrderBook _ _ _ _ _ _

@[simp] theorem readOrder_fillMaker (quantity : ℤ) :
    (b.fillMaker pair isBuy order quantity).readOrder id =
      if id = order.id then some (order.fill quantity) else b.readOrder id := by
  have hwrite := readOrder_writeOrder b id (order.fill quantity)
  unfold fillMaker
  dsimp only
  split <;> exact hwrite

theorem readOrderBook_fillMaker (quantity : ℤ) (pair' : Symbol) (isBuy' : Bool) :
    (b.fillMaker pair isBuy order quantity).readOrderBook pair' isBuy' =
      if order.remaining - quantity = 0 ∧ (pair', isBuy') = (pair, isBuy) then
        (b.readOrderBook pair isBuy).filter (· ≠ order.id)
      else b.readOrderBook pair' isBuy' := by
  simp only [fillMaker, LimitOrder.fill_remaining]
  by_cases h : order.remaining - quantity = 0
  · simp [h, readOrderBook_removeOrderFromBook]
  · simp [h]

@[simp] theorem orderCount_writeOrder : (b.writeOrder order).orderCount = b.orderCount := rfl

@[simp] theorem orderCount_fillMaker (quantity : ℤ) :
    (b.fillMaker pair isBuy order quantity).orderCount = b.orderCount := by
  unfold fillMaker
  dsimp only
  split <;> rfl

@[simp] theorem orderCount_pushOrderToBook :
    (b.pushOrderToBook pair isBuy orderId).orderCount = b.orderCount := rfl

@[simp] theorem orderCount_removeOrderFromBook :
    (b.removeOrderFromBook pair isBuy orderId).orderCount = b.orderCount := rfl

end Access

/-! ## The search for the best match -/

/-- The variables of the search: the best index so far with its price and timestamp. -/
structure Best where
  index : Option ℕ
  price : ℤ
  timestamp : ℕ

/-- Best sell = lowest price, best buy = highest price, then earliest timestamp. -/
def improves (incoming order : LimitOrder) (best : Best) : Prop :=
  best.index = none ∨
    (match incoming.side with
      | .buy => order.price < best.price
      | .sell => best.price < order.price) ∨
    (order.price = best.price ∧ order.timestamp < best.timestamp)

instance (incoming order : LimitOrder) (best : Best) : Decidable (improves incoming order best) := by
  unfold improves
  cases incoming.side <;> exact inferInstance

/-- A found order is replaced by those that it does not precede. -/
theorem improves_iff {incoming order found : LimitOrder} {i : ℕ} :
    improves incoming order ⟨some i, found.price, found.timestamp⟩ ↔
      ¬ Precedes incoming found order := by
  unfold improves Precedes
  cases hside : incoming.side
  · simp only [reduceCtorEq, false_or]
    omega
  · simp only [reduceCtorEq, false_or]
    omega

/-- One round of the search: the order `orderId` at index `i`. -/
def consider (b : BookStorage) (incoming : LimitOrder) (i orderId : ℕ) (best : Best) : Best :=
  match b.readOrder orderId with
  | none => best
  | some order =>
    if fillable incoming order ∧ improves incoming order best then
      ⟨some i, order.price, order.timestamp⟩
    else best

/-- The search over a list whose first entry has index `i`. -/
def search (b : BookStorage) (incoming : LimitOrder) : List ℕ → ℕ → Best → Best
  | [], _, best => best
  | orderId :: ids, i, best => search b incoming ids (i + 1) (b.consider incoming i orderId best)

/-- The index of the best order of `ids` that `incoming` can trade with. -/
def pickBestMatchIndex (b : BookStorage) (incoming : LimitOrder) (ids : List ℕ) : Option ℕ :=
  (b.search incoming ids 0 ⟨none, 0, 0⟩).index

/-- The order `orderId`, if it is stored and can fill a part of `incoming`. -/
def live (b : BookStorage) (incoming : LimitOrder) (orderId : ℕ) : Option LimitOrder :=
  (b.readOrder orderId).filter fun order => fillable incoming order

variable {b : BookStorage} {incoming : LimitOrder}

theorem live_eq_some {orderId : ℕ} {order : LimitOrder} :
    b.live incoming orderId = some order ↔
      b.readOrder orderId = some order ∧ fillable incoming order := by
  simp [live, Option.filter_eq_some_iff]

/-- A round of the search looks at live orders only. -/
theorem consider_eq (i orderId : ℕ) (best : Best) : b.consider incoming i orderId best =
    (b.live incoming orderId).elim best fun order =>
      if improves incoming order best then ⟨some i, order.price, order.timestamp⟩ else best := by
  unfold consider live
  cases b.readOrder orderId with
  | none => rfl
  | some order =>
    by_cases hf : fillable incoming order
    · simp [hf, Option.filter]
    · simp [hf, Option.filter]

/-- What the search knows after the ids `seen`: that none of them is live, or the first of the best.
-/
inductive Found (b : BookStorage) (incoming : LimitOrder) (seen : List ℕ) : Best → Prop
  | none {price : ℤ} {timestamp : ℕ} (hnone : seen.filterMap (b.live incoming) = []) :
      Found b incoming seen ⟨none, price, timestamp⟩
  | some (l₁ l₂ : List ℕ) {id : ℕ} {order : LimitOrder} (hseen : seen = l₁ ++ id :: l₂)
      (hlive : b.live incoming id = some order)
      (hfirst : ∀ o ∈ l₁.filterMap (b.live incoming), ¬ Precedes incoming o order)
      (hbest : ∀ o ∈ (l₁ ++ l₂).filterMap (b.live incoming), Precedes incoming order o) :
      Found b incoming seen ⟨some l₁.length, order.price, order.timestamp⟩

/-- One more id is considered. -/
theorem Found.consider {seen : List ℕ} {best : Best} (h : Found b incoming seen best) (orderId : ℕ) :
    Found b incoming (seen ++ [orderId]) (b.consider incoming seen.length orderId best) := by
  rw [consider_eq]
  cases hlive : b.live incoming orderId with
  | none =>
    cases h with
    | none hnone => exact .none (by simp [hnone, hlive])
    | @some l₁ l₂ id order hseen hl hfirst hbest =>
      refine .some l₁ (l₂ ++ [orderId]) (by rw [hseen, List.append_assoc, List.cons_append]) hl
        hfirst fun o ho => hbest o ?_
      simpa [hlive] using ho
  | some new =>
    cases h with
    | none hnone =>
      rw [Option.elim_some, if_pos (.inl rfl)]
      exact .some seen [] rfl hlive (by simp [hnone]) (by simp [hnone])
    | @some l₁ l₂ id order hseen hl hfirst hbest =>
      rw [Option.elim_some]
      by_cases hold : Precedes incoming order new
      · rw [if_neg (mt improves_iff.mp (not_not.mpr hold))]
        refine .some l₁ (l₂ ++ [orderId]) (by rw [hseen, List.append_assoc, List.cons_append]) hl
          hfirst fun o ho => ?_
        rw [← List.append_assoc, List.filterMap_append, List.mem_append] at ho
        rcases ho with ho | ho
        · exact hbest o ho
        · obtain rfl : o = new := by simpa [hlive] using ho
          exact hold
      · rw [if_pos (improves_iff.mpr hold)]
        -- the new order is better than the best so far, and thus than all that were seen
        have hall : ∀ o ∈ seen.filterMap (b.live incoming), Precedes incoming order o := by
          intro o ho
          rw [hseen, List.filterMap_append, List.filterMap_cons, hl, List.mem_append,
            List.mem_cons] at ho
          rw [List.filterMap_append] at hbest
          rcases ho with ho | rfl | ho
          · exact hbest o (List.mem_append_left _ ho)
          · exact .refl _
          · exact hbest o (List.mem_append_right _ ho)
        refine .some seen [] rfl hlive (fun o ho hprec => hold ((hall o ho).trans hprec))
          fun o ho => ?_
        rw [List.append_nil] at ho
        exact (Precedes.of_not hold).trans (hall o ho)

/-- The search finds the first of the best. -/
theorem Found.search {ids seen : List ℕ} {best : Best} (h : Found b incoming seen best) :
    Found b incoming (seen ++ ids) (b.search incoming ids seen.length best) := by
  induction ids generalizing seen best with
  | nil => simpa [BookStorage.search] using h
  | cons orderId ids ih =>
    have hrest := ih (h.consider orderId)
    rw [List.append_assoc, List.singleton_append, List.length_append, List.length_singleton] at hrest
    exact hrest

/-- What the search returns for a list. -/
theorem found_search (b : BookStorage) (incoming : LimitOrder) (ids : List ℕ) :
    Found b incoming ids (b.search incoming ids 0 ⟨none, 0, 0⟩) := by
  have hnone : Found b incoming [] ⟨none, 0, 0⟩ := .none rfl
  exact hnone.search

/-- The index that the search returns is the one of the first of the best orders. -/
theorem pickBestMatchIndex_best {ids : List ℕ} {i : ℕ}
    (h : b.pickBestMatchIndex incoming ids = some i) :
    ∃ l₁ id l₂ order, ids = l₁ ++ id :: l₂ ∧ l₁.length = i ∧ b.live incoming id = some order ∧
      (∀ o ∈ l₁.filterMap (b.live incoming), ¬ Precedes incoming o order) ∧
      ∀ o ∈ (l₁ ++ l₂).filterMap (b.live incoming), Precedes incoming order o := by
  have hfound := found_search b incoming ids
  unfold pickBestMatchIndex at h
  generalize b.search incoming ids 0 ⟨none, 0, 0⟩ = best at h hfound
  cases hfound with
  | none => cases h
  | some l₁ l₂ hseen hlive hfirst hbest =>
    exact ⟨_, _, _, _, hseen, Option.some.inj h, hlive, hfirst, hbest⟩

/-- When the search returns nothing, no order of the list is fillable. -/
theorem pickBestMatchIndex_none {ids : List ℕ}
    (h : b.pickBestMatchIndex incoming ids = none) :
    ∀ id ∈ ids, ∀ order, b.readOrder id = some order → ¬ fillable incoming order := by
  intro id hid order hr hf
  have hfound := found_search b incoming ids
  unfold pickBestMatchIndex at h
  generalize b.search incoming ids 0 ⟨none, 0, 0⟩ = best at h hfound
  cases hfound with
  | none hnone =>
    have hlive := List.filterMap_eq_nil_iff.mp hnone id hid
    rw [live_eq_some.mpr ⟨hr, hf⟩] at hlive
    cases hlive
  | some => cases h

/-! ## The check of fill-or-kill orders -/

/-- The rounds of the check over the ids that are left, with the total so far. -/
def sumAvailable (b : BookStorage) (incoming : LimitOrder) : List ℕ → ℤ → Outcome TradeError ℤ
  | [], total => .ok total
  | orderId :: ids, total =>
    match b.readOrder orderId with
    | none => sumAvailable b incoming ids total
    | some order =>
      if fillable incoming order then do
        let total ← IntFormat.i128.checked .overflow (total + order.remaining)
        if incoming.remaining ≤ total then .ok total else sumAvailable b incoming ids total
      else sumAvailable b incoming ids total

/-- How much of `incoming` the other side of the book can fill, until it is enough. -/
def availableFillForOrder (b : BookStorage) (incoming : LimitOrder) : Outcome TradeError ℤ :=
  b.sumAvailable incoming (b.readOrderBook incoming.pair incoming.oppositeIsBuy) 0

/-- Only an overflow stops the check. -/
theorem sumAvailable_ne_error {fault : Fault TradeError} (hne : fault ≠ .overflow) {ids : List ℕ}
    {total : ℤ} : b.sumAvailable incoming ids total ≠ .error fault := by
  induction ids generalizing total with
  | nil => simp [sumAvailable]
  | cons orderId ids ih =>
    unfold sumAvailable
    split
    · exact ih
    · split
      · refine Except.bind_ne_error (IntFormat.checked_ne_error hne.symm) fun total' _ => ?_
        split
        · simp
        · exact ih
      · exact ih

/-- The check stops early, but it finds enough exactly when all live orders of the list are enough.
-/
theorem le_sumAvailable_iff {ids : List ℕ} {total available : ℤ}
    (h : b.sumAvailable incoming ids total = .ok available) : incoming.remaining ≤ available ↔
      incoming.remaining ≤
        total + ((ids.filterMap (b.live incoming)).map LimitOrder.remaining).sum := by
  induction ids generalizing total with
  | nil =>
    obtain rfl := Except.ok.inj h
    simp
  | cons orderId ids ih =>
    have hnn : 0 ≤ ((ids.filterMap (b.live incoming)).map LimitOrder.remaining).sum := by
      apply List.sum_nonneg
      simp only [List.mem_map, List.mem_filterMap, live_eq_some]
      rintro _ ⟨o, ⟨id, -, -, hf⟩, rfl⟩
      exact hf.2.1.le
    unfold sumAvailable at h
    split at h
    · rename_i hread
      have hlive : b.live incoming orderId = none := by simp [live, hread]
      rw [List.filterMap_cons, hlive]
      exact ih h
    · rename_i order hread
      split at h
      · rename_i hf
        have hlive : b.live incoming orderId = some order := live_eq_some.mpr ⟨hread, hf⟩
        rw [List.filterMap_cons, hlive, List.map_cons, List.sum_cons, ← add_assoc]
        simp only [Except.bind_eq_ok, IntFormat.checked_eq_ok] at h
        obtain ⟨_, ⟨-, rfl⟩, h⟩ := h
        split at h
        · -- enough is found before the end
          obtain rfl := Except.ok.inj h
          omega
        · exact ih h
      · rename_i hf
        have hlive : b.live incoming orderId = none := by simp [live, hread, hf, Option.filter]
        rw [List.filterMap_cons, hlive]
        exact ih h

end BookStorage

end Stellara.Trading
