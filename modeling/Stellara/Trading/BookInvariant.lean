import Stellara.Trading.EntryPoints

/-!
# The order book stays consistent and uncrossed

The book keeps one fact in three places: the list of a pair and side, the stored orders, and
their statuses. While an incoming order is matched, the stored copy of that order is stale and
it is on no list; `Consistent b pending` therefore says nothing about the orders in `pending`.
Each write of the book is one of four steps, and each step preserves the invariant:

* `Consistent.create`: a fresh order is stored and is pending
* `Consistent.fillMaker`: a resting order is filled, and leaves its list when used up
* `Consistent.retire`: a resting order stops resting and leaves its list
* `Consistent.settle`: the pending order is stored and goes to its list, or does not rest

## Main definitions

* `LimitOrder.Rests`, `LimitOrder.WellFormed`: an order that rests in the book, and the
  agreement of status and remaining amount
* `Consistent`, `Uncrossed`: the two invariants
* `BookStorage.Sound`: the consistency of a book without pending orders

## Main results

* `book_sound`: the book is consistent in every reachable state
* `book_uncrossed`: no resting buy order reaches the price of a resting sell order
-/

namespace Stellara.Trading

namespace LimitOrder

/-- The order rests in the list of `pair` and the side `isBuy`. -/
structure Rests (o : LimitOrder) (pair : Symbol) (isBuy : Bool) : Prop where
  pair_eq : o.pair = pair
  side_eq : o.isBuy = isBuy
  gtc : o.tif = .gtc
  isOpen : o.isOpen
  remaining_pos : 0 < o.remaining

/-- The remaining amount is within the amount and agrees with the status. -/
structure WellFormed (o : LimitOrder) : Prop where
  remaining_nonneg : 0 ≤ o.remaining
  remaining_le : o.remaining ≤ o.amount
  opened : o.status = .opened → o.remaining = o.amount
  partiallyFilled : o.status = .partiallyFilled → 0 < o.remaining ∧ o.remaining < o.amount
  filled : o.status = .filled ↔ o.remaining = 0

variable {o : LimitOrder} {quantity : ℤ} {pair : Symbol} {isBuy : Bool}

/-- A fill by a positive quantity keeps an order well formed. -/
theorem WellFormed.fill (h : o.WellFormed) (hq : 0 < quantity) (hle : quantity ≤ o.remaining) :
    (o.fill quantity).WellFormed := by
  have hrem := h.remaining_le
  constructor
  · simp; omega
  · simp; omega
  · intro hs
    simp only [LimitOrder.fill] at hs
    split at hs <;> cases hs
  · intro hs
    simp only [LimitOrder.fill] at hs ⊢
    split at hs
    · cases hs
    · omega
  · simp only [LimitOrder.fill]
    split <;> simp_all

/-- A well-formed order that is cancelled while it is open stays well formed. -/
theorem WellFormed.cancel (h : o.WellFormed) (hpos : 0 < o.remaining) :
    ({ o with status := .cancelled } : LimitOrder).WellFormed := by
  constructor
  · exact h.remaining_nonneg
  · exact h.remaining_le
  · simp
  · simp
  · simp only [reduceCtorEq, false_iff]; omega

/-- A well-formed open order has something remaining, if it ever had. -/
theorem WellFormed.remaining_pos (h : o.WellFormed) (ho : o.isOpen) (hne : o.amount ≠ 0) :
    0 < o.remaining := by
  rcases ho with ho | ho
  · have := h.opened ho
    have := h.remaining_nonneg
    omega
  · exact (h.partiallyFilled ho).1

/-- Filling a resting order in part leaves it in its list. -/
theorem Rests.fill (h : o.Rests pair isBuy) (hlt : quantity < o.remaining) :
    (o.fill quantity).Rests pair isBuy := by
  have hne : o.remaining - quantity ≠ 0 := by omega
  refine ⟨h.pair_eq, h.side_eq, h.gtc, ?_, ?_⟩
  · simp [LimitOrder.fill, LimitOrder.isOpen, hne]
  · simp; omega

theorem rests_fill_iff (hlt : quantity < o.remaining) (ho : o.isOpen) (hpos : 0 < o.remaining) :
    (o.fill quantity).Rests pair isBuy ↔ o.Rests pair isBuy :=
  ⟨fun h => ⟨h.pair_eq, h.side_eq, h.gtc, ho, hpos⟩, fun h => h.fill hlt⟩

theorem not_rests_cancelled : ¬ ({ o with status := .cancelled } : LimitOrder).Rests pair isBuy :=
  fun h => by rcases h.isOpen with h | h <;> cases h

theorem not_rests_of_remaining (h : o.remaining = 0) : ¬ o.Rests pair isBuy :=
  fun hr => by have := hr.remaining_pos; omega

theorem not_rests_of_tif (h : o.tif ≠ .gtc) : ¬ o.Rests pair isBuy := fun hr => h hr.gtc

end LimitOrder

/-! ## Consistency -/

/-- The lists, the stored orders and their statuses agree, except for the orders in
`pending`, which are on no list. -/
structure Consistent (b : BookStorage) (pending : Set ℕ) : Prop where
  id_eq : ∀ id o, b.readOrder id = some o → o.id = id
  id_le : ∀ id o, b.readOrder id = some o → id ≤ b.orderCount
  nodup : ∀ pair isBuy, (b.readOrderBook pair isBuy).Nodup
  mem_iff : ∀ pair isBuy id, id ∈ b.readOrderBook pair isBuy ↔
    id ∉ pending ∧ ∃ o, b.readOrder id = some o ∧ o.Rests pair isBuy
  amount_pos : ∀ id o, b.readOrder id = some o → 0 < o.amount
  wellFormed : ∀ id o, b.readOrder id = some o → id ∉ pending → o.WellFormed

namespace Consistent

variable {b : BookStorage} {pending : Set ℕ} {o o' : LimitOrder} {pair : Symbol} {isBuy : Bool}

/-- The order with a given id that a list holds. -/
theorem rests_of_mem (h : Consistent b pending) (hid : o.id ∈ b.readOrderBook pair isBuy)
    (ho : b.readOrder o.id = some o) : o.id ∉ pending ∧ o.Rests pair isBuy := by
  obtain ⟨hp, o', ho', hr⟩ := (h.mem_iff pair isBuy o.id).mp hid
  obtain rfl : o = o' := Option.some.inj (ho.symm.trans ho')
  exact ⟨hp, hr⟩

/-- A pending order is on no list. -/
theorem not_mem_of_pending (h : Consistent b pending) {id : ℕ} (hp : id ∈ pending) :
    id ∉ b.readOrderBook pair isBuy :=
  fun hmem => ((h.mem_iff pair isBuy id).mp hmem).1 hp

/-- A write of the book: one order is stored, and only that order may change its lists or
stop being pending. -/
theorem update {b' : BookStorage} {pending' : Set ℕ} (h : Consistent b pending)
    (hread : ∀ id, b'.readOrder id = if id = o.id then some o else b.readOrder id)
    (hcount : b.orderCount ≤ b'.orderCount) (hid : o.id ≤ b'.orderCount)
    (hamount : 0 < o.amount) (hwf : o.id ∉ pending' → o.WellFormed)
    (hpending : ∀ id, id ≠ o.id → (id ∈ pending' ↔ id ∈ pending))
    (hnodup : ∀ pair isBuy, (b'.readOrderBook pair isBuy).Nodup)
    (hothers : ∀ pair isBuy id, id ≠ o.id →
      (id ∈ b'.readOrderBook pair isBuy ↔ id ∈ b.readOrderBook pair isBuy))
    (hmem : ∀ pair isBuy,
      o.id ∈ b'.readOrderBook pair isBuy ↔ o.id ∉ pending' ∧ o.Rests pair isBuy) :
    Consistent b' pending' := by
  have hself : b'.readOrder o.id = some o := by rw [hread, if_pos rfl]
  -- the stored orders of `b'` are `o` and those of `b` under other ids
  have hcases : ∀ id q, b'.readOrder id = some q →
      (id = o.id ∧ q = o) ∨ (id ≠ o.id ∧ b.readOrder id = some q) := by
    intro id q hq
    rw [hread] at hq
    split at hq
    · exact .inl ⟨‹_›, (Option.some.inj hq).symm⟩
    · exact .inr ⟨‹_›, hq⟩
  constructor
  · intro id q hq
    rcases hcases id q hq with ⟨rfl, rfl⟩ | ⟨-, hq⟩
    · rfl
    · exact h.id_eq id q hq
  · intro id q hq
    rcases hcases id q hq with ⟨rfl, -⟩ | ⟨-, hq⟩
    · exact hid
    · exact (h.id_le id q hq).trans hcount
  · exact hnodup
  · intro pair isBuy id
    -- `o` is listed where it rests, and the other ids are listed as before
    by_cases hne : id = o.id
    · subst hne
      rw [hmem pair isBuy, hself]
      simp
    · rw [hothers pair isBuy id hne, h.mem_iff pair isBuy id, hpending id hne, hread id, if_neg hne]
  · intro id q hq
    rcases hcases id q hq with ⟨-, rfl⟩ | ⟨-, hq⟩
    · exact hamount
    · exact h.amount_pos id q hq
  · intro id q hq hp
    rcases hcases id q hq with ⟨rfl, rfl⟩ | ⟨hne, hq⟩
    · exact hwf hp
    · exact h.wellFormed id q hq (mt (hpending id hne).mpr hp)

/-- A fresh order is stored and is pending until it is settled. -/
theorem create (h : Consistent b ∅) (hid : o.id = b.orderCount + 1) (hpos : 0 < o.amount) :
    Consistent (({ b with orderCount := o.id } : BookStorage).writeOrder o) {o.id} := by
  refine h.update (o := o) (fun id => BookStorage.readOrder_writeOrder _ _ _) ?_ le_rfl hpos ?_ ?_
    h.nodup (fun _ _ _ _ => Iff.rfl) ?_
  · show b.orderCount ≤ o.id
    omega
  · exact fun hp => absurd rfl hp
  · exact fun id hne => iff_of_false hne fun hmem => hmem
  · refine fun pair isBuy => iff_of_false (fun hmem => ?_) fun hp => hp.1 rfl
    obtain ⟨-, q, hq, -⟩ := (h.mem_iff pair isBuy o.id).mp hmem
    -- a listed order is stored, and all stored ids are smaller
    have := h.id_le _ q hq
    omega

/-- A stored order is overwritten by one that rests in the same lists. -/
theorem rewrite (h : Consistent b pending) (ho : b.readOrder o.id = some o) (hid : o'.id = o.id)
    (hamount : 0 < o'.amount) (hwf : o'.WellFormed)
    (hrests : ∀ pair isBuy, o'.Rests pair isBuy ↔ o.Rests pair isBuy) :
    Consistent (b.writeOrder o') pending := by
  refine h.update (fun id => BookStorage.readOrder_writeOrder _ _ _) le_rfl ?_ hamount
    (fun _ => hwf) (fun _ _ => Iff.rfl) h.nodup (fun _ _ _ _ => Iff.rfl) fun pair isBuy => ?_
  · rw [hid]
    exact h.id_le _ o ho
  · rw [BookStorage.readOrderBook_writeOrder, h.mem_iff pair isBuy, hid, ho, hrests pair isBuy]
    simp

/-- A resting order is overwritten by one that does not rest, and leaves its list. -/
theorem retire (h : Consistent b pending) (ho : b.readOrder o.id = some o) (hid : o'.id = o.id)
    (hamount : 0 < o'.amount) (hwf : o'.WellFormed)
    (hr : ∀ pair' isBuy', o.Rests pair' isBuy' → (pair', isBuy') = (pair, isBuy))
    (hn : ∀ pair isBuy, ¬ o'.Rests pair isBuy) :
    Consistent ((b.writeOrder o').removeOrderFromBook pair isBuy o'.id) pending := by
  refine h.update (fun id => BookStorage.readOrder_writeOrder _ _ _) le_rfl ?_ hamount
    (fun _ => hwf) (fun _ _ => Iff.rfl) (fun pair' isBuy' => ?_) (fun pair' isBuy' id hne => ?_)
    fun pair' isBuy' => ?_
  · rw [hid]
    exact h.id_le _ o ho
  · rw [BookStorage.readOrderBook_removeOrderFromBook]
    split
    · exact (h.nodup pair isBuy).filter _
    · exact h.nodup pair' isBuy'
  · rw [BookStorage.readOrderBook_removeOrderFromBook]
    split
    · rename_i heq
      obtain ⟨rfl, rfl⟩ := Prod.mk.inj heq
      simp [hne]
    · rfl
  · -- the old order was on no other list, and the new one rests nowhere
    refine iff_of_false (fun hmem => ?_) fun hp => hn pair' isBuy' hp.2
    rw [BookStorage.readOrderBook_removeOrderFromBook] at hmem
    split at hmem
    · simp at hmem
    · rename_i hne
      rw [BookStorage.readOrderBook_writeOrder, hid] at hmem
      exact hne (hr pair' isBuy' (h.rests_of_mem hmem ho).2)

/-- A resting order is filled. -/
theorem fillMaker (h : Consistent b pending) (ho : b.readOrder o.id = some o)
    (hr : o.Rests pair isBuy) (hp : o.id ∉ pending) {quantity : ℤ} (hq : 0 < quantity)
    (hle : quantity ≤ o.remaining) : Consistent (b.fillMaker pair isBuy o quantity) pending := by
  have hwf : (o.fill quantity).WellFormed := (h.wellFormed _ o ho hp).fill hq hle
  have hamount : 0 < (o.fill quantity).amount := h.amount_pos _ o ho
  unfold BookStorage.fillMaker
  dsimp only
  split
  · -- the order is used up, and leaves the list it rests in
    rename_i hz
    refine h.retire ho rfl hamount hwf (fun pair' isBuy' hr' => ?_)
      fun _ _ => LimitOrder.not_rests_of_remaining hz
    rw [← hr.pair_eq, ← hr.side_eq, ← hr'.pair_eq, ← hr'.side_eq]
  · -- a part remains, which rests where the order did
    rename_i hnz
    have hlt : quantity < o.remaining := by
      rw [LimitOrder.fill_remaining] at hnz
      omega
    exact h.rewrite ho rfl hamount hwf fun _ _ =>
      LimitOrder.rests_fill_iff hlt hr.isOpen hr.remaining_pos

/-- The pending order is stored again; it does not rest. -/
theorem settle (h : Consistent b {o.id}) (hid : o.id ≤ b.orderCount) (hamount : 0 < o.amount)
    (hwf : o.WellFormed) (hn : ∀ pair isBuy, ¬ o.Rests pair isBuy) :
    Consistent (b.writeOrder o) ∅ := by
  refine h.update (fun id => BookStorage.readOrder_writeOrder _ _ _) le_rfl hid hamount
    (fun _ => hwf) (fun id hne => ?_) h.nodup (fun _ _ _ _ => Iff.rfl) fun pair isBuy => ?_
  · exact iff_of_false (fun hmem => hmem) hne
  · exact iff_of_false (h.not_mem_of_pending rfl) fun hp => hn pair isBuy hp.2

/-- The pending order is stored again and goes to the list it rests in. -/
theorem settle_rests (h : Consistent b {o.id}) (hid : o.id ≤ b.orderCount) (hamount : 0 < o.amount)
    (hwf : o.WellFormed) (hr : o.Rests pair isBuy) :
    Consistent ((b.writeOrder o).pushOrderToBook pair isBuy o.id) ∅ := by
  refine h.update (fun id => BookStorage.readOrder_writeOrder _ _ _) le_rfl hid hamount
    (fun _ => hwf) (fun id hne => ?_) (fun pair' isBuy' => ?_) (fun pair' isBuy' id hne => ?_)
    fun pair' isBuy' => ?_
  · exact iff_of_false (fun hmem => hmem) hne
  · rw [BookStorage.readOrderBook_pushOrderToBook]
    split
    · rw [List.nodup_append_comm, List.singleton_append, List.nodup_cons]
      exact ⟨h.not_mem_of_pending rfl, h.nodup pair isBuy⟩
    · exact h.nodup pair' isBuy'
  · rw [BookStorage.readOrderBook_pushOrderToBook]
    split
    · rename_i heq
      obtain ⟨rfl, rfl⟩ := Prod.mk.inj heq
      simp [hne]
    · rfl
  · rw [BookStorage.readOrderBook_pushOrderToBook]
    split
    · rename_i heq
      obtain ⟨rfl, rfl⟩ := Prod.mk.inj heq
      exact iff_of_true (by simp) ⟨fun hmem => hmem, hr⟩
    · rename_i hne
      refine iff_of_false (h.not_mem_of_pending rfl) fun hp => hne ?_
      -- an order rests in one list only
      rw [← hr.pair_eq, ← hr.side_eq, ← hp.2.pair_eq, ← hp.2.side_eq]

end Consistent

/-! ## Best prices -/

/-- The stored order `o` is on the list of `pair` and the side `isBuy`. -/
def BookStorage.Listed (b : BookStorage) (pair : Symbol) (isBuy : Bool) (o : LimitOrder) : Prop :=
  o.id ∈ b.readOrderBook pair isBuy ∧ b.readOrder o.id = some o

/-- Every listed buy order is priced below every listed sell order of its pair. -/
def Uncrossed (b : BookStorage) : Prop :=
  ∀ pair buy sell, b.Listed pair true buy → b.Listed pair false sell → buy.price < sell.price

namespace Uncrossed

variable {b b' : BookStorage} {pending : Set ℕ} {o : LimitOrder} {pair : Symbol} {isBuy : Bool}

/-- A book whose listed orders were listed before, at the same prices, stays uncrossed. -/
theorem mono (h : Uncrossed b)
    (hsub : ∀ pair isBuy o', b'.Listed pair isBuy o' →
      ∃ o, b.Listed pair isBuy o ∧ o.price = o'.price) : Uncrossed b' := by
  intro pair buy sell hbuy hsell
  obtain ⟨buy₀, hbuy₀, hb⟩ := hsub pair true buy hbuy
  obtain ⟨sell₀, hsell₀, hs⟩ := hsub pair false sell hsell
  rw [← hb, ← hs]
  exact h pair buy₀ sell₀ hbuy₀ hsell₀

/-- Storing an order that is on no list, or was stored at the same price. -/
theorem writeOrder (h : Uncrossed b)
    (ho : ∀ pair isBuy, o.id ∈ b.readOrderBook pair isBuy →
      ∃ q, b.readOrder o.id = some q ∧ q.id = o.id ∧ q.price = o.price) :
    Uncrossed (b.writeOrder o) := by
  refine h.mono fun pair isBuy o' ⟨hmem, hread⟩ => ?_
  rw [BookStorage.readOrder_writeOrder] at hread
  split at hread
  · obtain rfl := Option.some.inj hread
    -- the new order was listed before, as one at the same price
    obtain ⟨q, hq, hqid, hprice⟩ := ho pair isBuy hmem
    refine ⟨q, ⟨?_, ?_⟩, hprice⟩
    · rw [hqid]
      exact hmem
    · rw [hqid, hq]
  · exact ⟨o', ⟨hmem, hread⟩, rfl⟩

theorem removeOrderFromBook (h : Uncrossed b) (id : ℕ) :
    Uncrossed (b.removeOrderFromBook pair isBuy id) := by
  refine h.mono fun pair' isBuy' o' ⟨hmem, hread⟩ => ⟨o', ⟨?_, hread⟩, rfl⟩
  rw [BookStorage.readOrderBook_removeOrderFromBook] at hmem
  split at hmem
  · rename_i heq
    obtain ⟨rfl, rfl⟩ := Prod.mk.inj heq
    exact (List.mem_filter.mp hmem).1
  · exact hmem

theorem fillMaker (h : Uncrossed b) (ho : b.readOrder o.id = some o) (quantity : ℤ) :
    Uncrossed (b.fillMaker pair isBuy o quantity) := by
  have hwrite : Uncrossed (b.writeOrder (o.fill quantity)) :=
    h.writeOrder fun _ _ _ => ⟨o, ho, rfl, rfl⟩
  unfold BookStorage.fillMaker
  dsimp only
  split
  · exact hwrite.removeOrderFromBook _
  · exact hwrite

/-- An order goes to a list when no order on the other side accepts its price. -/
theorem push (h : Uncrossed b) (hc : Consistent b pending) (hr : o.Rests pair isBuy)
    (ho : b.readOrder o.id = some o)
    (hbest : ∀ id ∈ b.readOrderBook pair o.oppositeIsBuy, ∀ maker, b.readOrder id = some maker →
      ¬ fillable o maker) :
    Uncrossed (b.pushOrderToBook pair isBuy o.id) := by
  -- a listed order of the pushed book was listed before, or is the pushed one
  have hcases : ∀ pair' isBuy' q, (b.pushOrderToBook pair isBuy o.id).Listed pair' isBuy' q →
      b.Listed pair' isBuy' q ∨ (pair' = pair ∧ isBuy' = isBuy ∧ q = o) := by
    rintro pair' isBuy' q ⟨hmem, hread⟩
    rw [BookStorage.readOrder_pushOrderToBook] at hread
    rw [BookStorage.readOrderBook_pushOrderToBook] at hmem
    split at hmem
    · rename_i heq
      obtain ⟨rfl, rfl⟩ := Prod.mk.inj heq
      rcases List.mem_append.mp hmem with hmem | hmem
      · exact .inl ⟨hmem, hread⟩
      · rw [List.mem_singleton.mp hmem] at hread
        exact .inr ⟨rfl, rfl, Option.some.inj (hread.symm.trans ho)⟩
    · exact .inl ⟨hmem, hread⟩
  -- an order of the other side is live, so only its price can be unacceptable
  have hprice : ∀ q, b.Listed pair (!isBuy) q → ¬ orderMatches o q := by
    rintro q ⟨hmem, hread⟩ hm
    have hside : o.oppositeIsBuy = !isBuy := by
      rw [← hr.side_eq]
      cases hs : o.side <;> simp [LimitOrder.oppositeIsBuy, LimitOrder.isBuy, hs]
    have hq := (hc.rests_of_mem hmem hread).2
    exact hbest q.id (by rw [hside]; exact hmem) q hread ⟨hq.isOpen, hq.remaining_pos, hm⟩
  have hsides : ∀ q, b.Listed pair (!isBuy) q → o.pair = q.pair ∧ q.isBuy = !isBuy := by
    rintro q ⟨hmem, hread⟩
    have hq := (hc.rests_of_mem hmem hread).2
    exact ⟨hr.pair_eq.trans hq.pair_eq.symm, hq.side_eq⟩
  have hbuySide : ∀ q : LimitOrder, q.isBuy = true → q.side = .buy := fun q hq => by
    simpa [LimitOrder.isBuy] using hq
  have hsellSide : ∀ q : LimitOrder, q.isBuy = false → q.side = .sell := fun q hq => by
    cases hs : q.side with
    | buy => simp [LimitOrder.isBuy, hs] at hq
    | sell => rfl
  intro pair' buy sell hbuy hsell
  -- both are old, or one of them is the pushed order
  rcases hcases _ _ _ hbuy with hbuy' | ⟨rfl, rfl, rfl⟩
  · rcases hcases _ _ _ hsell with hsell' | ⟨rfl, rfl, rfl⟩
    · exact h pair' buy sell hbuy' hsell'
    · obtain ⟨hp, hs⟩ := hsides buy hbuy'
      have hm := hprice buy hbuy'
      simp only [orderMatches, hp, hbuySide _ hs, hsellSide _ hr.side_eq, true_and, not_le] at hm
      exact hm
  · rcases hcases _ _ _ hsell with hsell' | ⟨-, heq, -⟩
    · obtain ⟨hp, hs⟩ := hsides sell hsell'
      have hm := hprice sell hsell'
      simp only [orderMatches, hp, hbuySide _ hr.side_eq, hsellSide _ hs, true_and, not_le] at hm
      exact hm
    · cases heq

end Uncrossed

/-! ## The matching of one order -/

/-- The book and the incoming order while the order is matched: the order is pending. -/
structure Matching (b : BookStorage) (incoming : LimitOrder) : Prop where
  consistent : Consistent b {incoming.id}
  uncrossed : Uncrossed b
  id_le : incoming.id ≤ b.orderCount
  amount_pos : 0 < incoming.amount
  wellFormed : incoming.WellFormed
  not_cancelled : incoming.status ≠ .cancelled

/-- A book between two calls. -/
structure BookStorage.Sound (b : BookStorage) : Prop where
  consistent : Consistent b ∅
  uncrossed : Uncrossed b

variable {b : BookStorage} {incoming maker : LimitOrder}

theorem BookStorage.sound_empty : BookStorage.empty.Sound := by
  constructor
  · constructor <;> simp [BookStorage.empty, BookStorage.readOrder, BookStorage.readOrderBook]
  · rintro pair buy sell ⟨hmem, -⟩ -
    simp [BookStorage.empty, BookStorage.readOrderBook] at hmem

/-- Placing a fresh order starts its matching. -/
theorem BookStorage.Sound.place (h : b.Sound) {o : LimitOrder} (hid : o.id = b.orderCount + 1)
    (hpos : 0 < o.amount) (hrem : o.remaining = o.amount) (hs : o.status = .opened) :
    Matching (({ b with orderCount := o.id } : BookStorage).writeOrder o) o where
  consistent := h.consistent.create hid hpos
  uncrossed := by
    refine Uncrossed.writeOrder (b := { b with orderCount := o.id }) h.uncrossed
      fun pair isBuy hmem => ?_
    -- a fresh id is on no list
    obtain ⟨-, q, hq, -⟩ := (h.consistent.mem_iff pair isBuy o.id).mp hmem
    have := h.consistent.id_le _ q hq
    omega
  id_le := le_rfl
  amount_pos := hpos
  wellFormed := by
    constructor
    · omega
    · omega
    · exact fun _ => hrem
    · simp [hs]
    · simp [hs]
      omega
  not_cancelled := by simp [hs]

/-- A fill of the incoming order by a listed one. -/
theorem Matching.fill (h : Matching b incoming) (hrem : 0 < incoming.remaining) {makerId : ℕ}
    (hmem : makerId ∈ oppositeBook b incoming) (hread : b.readOrder makerId = some maker)
    (hf : fillable incoming maker) :
    Matching (b.fillMaker incoming.pair incoming.oppositeIsBuy maker (fillAmount incoming maker))
      (incoming.fill (fillAmount incoming maker)) := by
  obtain rfl : maker.id = makerId := h.consistent.id_eq _ _ hread
  obtain ⟨hp, hr⟩ := h.consistent.rests_of_mem hmem hread
  have hq : 0 < fillAmount incoming maker := fillAmount_pos hrem hf.2.1
  constructor
  · exact h.consistent.fillMaker hread hr hp hq (fillAmount_le_maker incoming maker)
  · exact h.uncrossed.fillMaker hread _
  · rw [BookStorage.orderCount_fillMaker]
    exact h.id_le
  · exact h.amount_pos
  · exact h.wellFormed.fill hq (fillAmount_le_incoming incoming maker)
  · simp only [LimitOrder.fill]
    split <;> simp

/-- A matched order is settled when nothing on the other side can fill it any more. -/
theorem Matching.settle (h : Matching b incoming) {b' : BookStorage}
    (hend : incoming.remaining ≤ 0 ∨
      b.pickBestMatchIndex incoming (oppositeBook b incoming) = none)
    (hs : settleOrder incoming (b.writeOrder incoming) = .ok b') : b'.Sound := by
  have hstored : Uncrossed (b.writeOrder incoming) := h.uncrossed.writeOrder fun pair isBuy hmem =>
    absurd hmem (h.consistent.not_mem_of_pending rfl)
  -- an order with nothing left does not rest, and is just stored
  have hnone : ¬ 0 < incoming.remaining → (b.writeOrder incoming).Sound := fun hz => by
    refine ⟨h.consistent.settle h.id_le h.amount_pos h.wellFormed fun _ _ => ?_, hstored⟩
    have := h.wellFormed.remaining_nonneg
    exact LimitOrder.not_rests_of_remaining (by omega)
  unfold settleOrder at hs
  split at hs <;> rename_i htif
  · split at hs <;> rename_i hrem <;> obtain rfl := Except.ok.inj hs
    · -- good till cancelled, with something left: the order goes to its list
      have hopen : incoming.isOpen := by
        have hfilled := h.wellFormed.filled
        have hcancelled := h.not_cancelled
        unfold LimitOrder.isOpen
        cases hst : incoming.status <;> simp_all
      have hr : incoming.Rests incoming.pair incoming.isBuy := ⟨rfl, rfl, htif, hopen, hrem⟩
      refine ⟨h.consistent.settle_rests h.id_le h.amount_pos h.wellFormed hr, ?_⟩
      -- the stored copy of the incoming order is on no list, so the search ended on this book
      have hpick := hend.resolve_left (by omega)
      have hread : ∀ id ∈ b.readOrderBook incoming.pair incoming.oppositeIsBuy,
          (b.writeOrder incoming).readOrder id = b.readOrder id := fun id hmem => by
        rw [BookStorage.readOrder_writeOrder, if_neg]
        rintro rfl
        exact h.consistent.not_mem_of_pending rfl hmem
      have hwritten : Consistent (b.writeOrder incoming) {incoming.id} :=
        h.consistent.update (fun id => BookStorage.readOrder_writeOrder _ _ _) le_rfl h.id_le
          h.amount_pos (fun hp => absurd rfl hp) (fun _ _ => Iff.rfl) h.consistent.nodup
          (fun _ _ _ _ => Iff.rfl) fun _ _ =>
            iff_of_false (h.consistent.not_mem_of_pending rfl) fun hp => hp.1 rfl
      refine hstored.push hwritten hr
        (by rw [BookStorage.readOrder_writeOrder, if_pos rfl]) fun id hmem maker hmaker => ?_
      rw [hread id hmem] at hmaker
      exact BookStorage.pickBestMatchIndex_none hpick id hmem maker hmaker
    · exact hnone hrem
  · split at hs <;> rename_i hrem <;> obtain rfl := Except.ok.inj hs
    · -- immediate or cancel, with something left: the rest is cancelled
      have hn : ∀ pair isBuy, ¬ incoming.Rests pair isBuy := fun _ _ =>
        LimitOrder.not_rests_of_tif (by rw [htif]; simp)
      have hset := h.consistent.settle h.id_le h.amount_pos h.wellFormed hn
      have hself : (b.writeOrder incoming).readOrder incoming.id = some incoming := by
        rw [BookStorage.readOrder_writeOrder, if_pos rfl]
      refine ⟨hset.rewrite hself rfl h.amount_pos (h.wellFormed.cancel hrem) fun pair isBuy => ?_,
        hstored.writeOrder fun _ _ _ => ⟨incoming, hself, rfl, rfl⟩⟩
      exact iff_of_false LimitOrder.not_rests_cancelled (hn pair isBuy)
    · exact hnone hrem
  · split at hs
    · -- fill or kill fails, unless all of it is filled
      cases hs
    · obtain rfl := Except.ok.inj hs
      exact hnone ‹_›

/-! ## Runs -/

variable {τ : Type} [TokenClient τ Address Address] {now : ℕ} {s s' : State τ}

omit [TokenClient τ Address Address] in
/-- The matching of a placed order keeps the invariant with every fill, until no listed order
matches. -/
theorem matchLimitOrder_matching {limits : RateLimits} {taker order : LimitOrder} {s₁ : State τ}
    (hs : s.book.Sound) (hid : taker.id = s.book.orderCount + 1) (hpos : 0 < taker.amount)
    (hrem : taker.remaining = taker.amount) (hopen : taker.status = .opened)
    (h : matchLimitOrder now (s.place limits taker) taker = .ok (s₁, order)) :
    Matching s₁.book order ∧ (order.remaining ≤ 0 ∨
      s₁.book.pickBestMatchIndex order (oppositeBook s₁.book order) = none) := by
  refine matchLimitOrder_induction (I := fun s incoming => Matching s.book incoming)
    (fun s incoming makerId maker p hI hrem hmem hread hf he => ?_) (hs.place hid hpos hrem hopen) h
  obtain rfl := executeFill_eq_ok he
  exact hI.fill hrem hmem hread hf

omit [TokenClient τ Address Address] in
theorem createLimitOrder_sound {trader : Address} {pair : Symbol} {isBuy : Bool} {price amount : ℤ}
    {tif : TimeInForce} {id : ℕ} (hs : s.book.Sound)
    (h : createLimitOrder now trader pair isBuy price amount tif s = .ok (id, s')) :
    s'.book.Sound := by
  obtain ⟨rfl, hamount, -, limits, s₁, order, book, hm, hset, rfl⟩ := createLimitOrder_eq_ok h
  obtain ⟨hmatch, hend⟩ := matchLimitOrder_matching hs rfl hamount rfl rfl hm
  exact hmatch.settle hend hset

omit [TokenClient τ Address Address] in
theorem cancelOrder_sound {trader : Address} {id : ℕ} (hs : s.book.Sound)
    (h : cancelOrder now trader id s = .ok s') : s'.book.Sound := by
  obtain ⟨order, hread, -, hopen, rfl⟩ := cancelOrder_eq_ok h
  obtain rfl : order.id = id := hs.consistent.id_eq _ _ hread
  have hwf := hs.consistent.wellFormed _ _ hread fun hmem => hmem
  have hamount := hs.consistent.amount_pos _ _ hread
  -- an open order has something left, so it rests and leaves its list
  have hpos : 0 < order.remaining := hwf.remaining_pos hopen (by omega)
  constructor
  · refine hs.consistent.retire hread rfl hamount (hwf.cancel hpos) (fun pair isBuy hr => ?_)
      fun _ _ => LimitOrder.not_rests_cancelled
    rw [hr.pair_eq, hr.side_eq]
  · have hwrite : Uncrossed (s.book.writeOrder { order with status := .cancelled }) :=
      hs.uncrossed.writeOrder fun _ _ _ => ⟨order, hread, rfl, rfl⟩
    exact hwrite.removeOrderFromBook _

/-- Every call keeps the book sound. -/
theorem execute_sound {call : Call} {r : Result} (hs : s.book.Sound)
    (h : execute now s call = .ok (r, s')) : s'.book.Sound := by
  cases execute_cases h with
  | trade h₁ =>
    obtain ⟨-, -, limits, breaker, tokens, -, rfl⟩ := trade_eq_ok h₁
    exact hs
  | batchTrade h₁ =>
    rcases batchTrade_eq_ok h₁ with ⟨-, rfl⟩ | ⟨-, -, -, limits, tokens, fee, rfl⟩
    · exact hs
    · exact hs
  | createLimitOrder h₁ => exact createLimitOrder_sound hs h₁
  | cancelOrder h₁ => exact cancelOrder_sound hs h₁

omit [TokenClient τ Address Address] in
theorem init_sound {config : CircuitBreakerConfig} {tokens : τ}
    (h : init now config (State.empty tokens) = .ok s) : s.book.Sound := by
  obtain rfl := Except.ok.inj ((init_empty config tokens).symm.trans h)
  exact BookStorage.sound_empty

theorem run_sound {t₀ : ℕ} {config : CircuitBreakerConfig} {tokens : τ} {w : World (State τ)}
    {log : List (Commit (State τ) Call Result)}
    (hinit : init t₀ config (State.empty tokens) = .ok s)
    (h : (contract τ).Run ⟨t₀, s⟩ w log) : w.store.book.Sound :=
  h.invariant (I := fun s => s.book.Sound) (fun _ _ _ _ _ hs he => execute_sound hs he)
    (init_sound hinit)

/-- In every reachable state each list has no duplicates and holds exactly the resting orders
of its pair and side, and the status of every order agrees with its remaining amount. -/
theorem book_sound {t₀ : ℕ} {config : CircuitBreakerConfig} {tokens : τ} {w : World (State τ)}
    {log : List (Commit (State τ) Call Result)}
    (hinit : init t₀ config (State.empty tokens) = .ok s)
    (h : (contract τ).Run ⟨t₀, s⟩ w log) :
    (∀ pair isBuy, (w.store.book.readOrderBook pair isBuy).Nodup) ∧
    (∀ pair isBuy id, id ∈ w.store.book.readOrderBook pair isBuy ↔
      ∃ o, w.store.book.readOrder id = some o ∧ o.Rests pair isBuy) ∧
    (∀ id o, w.store.book.readOrder id = some o → o.id = id ∧ o.WellFormed) := by
  have hc := (run_sound hinit h).consistent
  refine ⟨hc.nodup, fun pair isBuy id => ?_, fun id o ho => ?_⟩
  · rw [hc.mem_iff pair isBuy id]
    exact and_iff_right fun hmem => hmem
  · exact ⟨hc.id_eq id o ho, hc.wellFormed id o ho fun hmem => hmem⟩

/-- A sell order of 10 at 5, a buy order that fills 4 of it, and one that rests at 4. -/
def sampleOrders : List (ℕ × Call) :=
  [(10, .createLimitOrder ⟨1⟩ "XLM" false 5 10 .gtc), (20, .createLimitOrder ⟨2⟩ "XLM" true 6 4 .gtc),
    (30, .createLimitOrder ⟨2⟩ "XLM" true 4 3 .gtc)]

/-- The ledger before `sampleOrders`. -/
def sampleWorld : World (State (Balances Address Address)) :=
  ⟨0, State.started 0 ⟨1000000, 1000, 3600⟩ Balances.zero⟩

/-- The book after `sampleOrders`. -/
def sampleBook : BookStorage := ((contract _).play sampleWorld sampleOrders).1.store.book

theorem book_sound_sample :
    sampleBook.readOrderBook "XLM" true = [3] ∧ (sampleBook.readOrderBook "XLM" true).Nodup :=
  ⟨by decide, (book_sound (s := sampleWorld.store) (init_empty _ _)
    (Contract.run_play _ sampleWorld sampleOrders (by decide))).1 _ _⟩

/-- In no reachable state does a live resting buy order reach the price of a live resting sell
order of its pair. -/
theorem book_uncrossed {t₀ : ℕ} {config : CircuitBreakerConfig} {tokens : τ} {w : World (State τ)}
    {log : List (Commit (State τ) Call Result)}
    (hinit : init t₀ config (State.empty tokens) = .ok s)
    (h : (contract τ).Run ⟨t₀, s⟩ w log) {pair : Symbol} {buyId sellId : ℕ} {buy sell : LimitOrder}
    (hbuy : w.store.book.readOrder buyId = some buy) (hbr : buy.Rests pair true)
    (hsell : w.store.book.readOrder sellId = some sell) (hsr : sell.Rests pair false) :
    buy.price < sell.price := by
  have hs := run_sound hinit h
  have hlisted : ∀ id o isBuy, w.store.book.readOrder id = some o → o.Rests pair isBuy →
      w.store.book.Listed pair isBuy o := by
    intro id o isBuy ho hr
    obtain rfl : o.id = id := hs.consistent.id_eq id o ho
    exact ⟨(hs.consistent.mem_iff pair isBuy o.id).mpr ⟨fun hmem => hmem, o, ho, hr⟩, ho⟩
  exact hs.uncrossed pair buy sell (hlisted _ _ _ hbuy hbr) (hlisted _ _ _ hsell hsr)

theorem book_uncrossed_sample :
    ∃ buy sell, sampleBook.readOrder 3 = some buy ∧ sampleBook.readOrder 1 = some sell ∧
      buy.price < sell.price := by
  have hbuy : sampleBook.readOrder 3 =
      some ⟨3, ⟨2⟩, "XLM", .buy, 4, 3, 3, .opened, .gtc, 30⟩ := by decide
  have hsell : sampleBook.readOrder 1 =
      some ⟨1, ⟨1⟩, "XLM", .sell, 5, 10, 6, .partiallyFilled, .gtc, 10⟩ := by decide
  refine ⟨_, _, hbuy, hsell, ?_⟩
  exact book_uncrossed (s := sampleWorld.store)
    (init_empty _ _) (Contract.run_play _ sampleWorld sampleOrders (by decide)) hbuy
    ⟨rfl, rfl, rfl, .inl rfl, by decide⟩ hsell ⟨rfl, rfl, rfl, .inr rfl, by decide⟩

end Stellara.Trading
