import Stellara.Lib.Serving
import Stellara.Trading.BookInvariant

/-!
# The queue of an incoming order

An incoming order is served from the queue of the live orders on the other side that cross it,
sorted by best price and then by age. The matching loop never sorts: every round searches the list
again for the first of the best orders, which heads the queue, and its fill leaves the rest of the
queue.

## Main definitions

* `crossing`, `queue`: the live orders that cross an incoming one, as listed and as sorted
* `fillsOf`: how the queue serves an incoming order
* `recordFills`, `publishedFills`: the trades and the events of fills
* `Progress`: what the rounds of the matching loop have done

## Main results

* `fillsOf_fill`: a round of the matching loop is the first fill of the queue
* `matchLimitOrder_fillsOf`: the matching loop fills as the queue serves
* `matchLimitOrder_place`: a placed order is filled as the queue of the book serves it
-/

namespace Stellara.Trading

/-! ## The queue -/

/-- The live orders of the other side that cross `incoming`, as they are listed. -/
def crossing (b : BookStorage) (incoming : LimitOrder) : List LimitOrder :=
  (oppositeBook b incoming).filterMap (b.live incoming)

/-- The same, sorted by best price and then by age. -/
def queue (b : BookStorage) (incoming : LimitOrder) : List LimitOrder :=
  (crossing b incoming).insertionSort (Precedes incoming)

/-- A maker, and how much of it is filled. -/
abbrev Fill := LimitOrder × ℤ

/-- How the queue serves an incoming order. -/
def fillsOf (b : BookStorage) (incoming : LimitOrder) : List Fill :=
  serve LimitOrder.remaining incoming.remaining (queue b incoming)

variable {b b' : BookStorage} {incoming maker taker : LimitOrder} {makerId : ℕ}

theorem mem_crossing {o : LimitOrder} : o ∈ crossing b incoming ↔
    ∃ id ∈ oppositeBook b incoming, b.readOrder id = some o ∧ fillable incoming o := by
  simp only [crossing, List.mem_filterMap, BookStorage.live_eq_some]

theorem mem_queue {o : LimitOrder} : o ∈ queue b incoming ↔ o ∈ crossing b incoming :=
  List.mem_insertionSort _

theorem fillAmount_eq_min (incoming maker : LimitOrder) :
    fillAmount incoming maker = min incoming.remaining maker.remaining := by
  unfold fillAmount
  split <;> omega

/-- The order that the search picks heads the queue. -/
theorem Picks.queue_eq (h : Picks b incoming makerId maker) :
    ∃ l₁ l₂, oppositeBook b incoming = l₁ ++ makerId :: l₂ ∧
      queue b incoming =
        maker :: ((l₁ ++ l₂).filterMap (b.live incoming)).insertionSort (Precedes incoming) := by
  obtain ⟨hlist, hlive, hfirst, hbest⟩ := h
  refine ⟨_, _, hlist, ?_⟩
  rw [List.filterMap_append] at hbest ⊢
  rw [queue, crossing, hlist, List.filterMap_append, List.filterMap_cons, hlive]
  exact insertionSort_split hfirst hbest

/-- A fill leaves the other orders of the list as they were. -/
theorem live_fillMaker {quantity quantity' : ℤ} {isBuy : Bool} {id : ℕ} (hne : id ≠ maker.id) :
    (b.fillMaker incoming.pair isBuy maker quantity).live (incoming.fill quantity') id =
      b.live incoming id := by
  unfold BookStorage.live
  rw [BookStorage.readOrder_fillMaker, if_neg hne]
  rfl

/-- A maker that is used up leaves the list, and the others stay. -/
theorem oppositeBook_fillMaker {l₁ l₂ : List ℕ} (hlist : oppositeBook b incoming = l₁ ++ maker.id :: l₂)
    (hnot : maker.id ∉ l₁ ++ l₂) (hq : fillAmount incoming maker = maker.remaining) :
    oppositeBook (b.fillMaker incoming.pair incoming.oppositeIsBuy maker (fillAmount incoming maker))
      (incoming.fill (fillAmount incoming maker)) = l₁ ++ l₂ := by
  unfold oppositeBook at hlist ⊢
  rw [LimitOrder.fill_pair, LimitOrder.fill_oppositeIsBuy, BookStorage.readOrderBook_fillMaker,
    if_pos ⟨by omega, rfl⟩, hlist, List.filter_append, List.filter_cons_of_neg (by simp),
    ← List.filter_append, List.filter_eq_self]
  intro id hid
  have hne : id ≠ maker.id := fun heq => hnot (heq ▸ hid)
  simpa using hne

/-- A round of the matching loop is the first fill of the queue, and the rest of the queue serves
what is left of the incoming order. -/
theorem fillsOf_fill (hkey : KeyedById b) (hnodup : (oppositeBook b incoming).Nodup)
    (hrem : 0 < incoming.remaining) (h : Picks b incoming makerId maker) :
    fillsOf b incoming = (maker, fillAmount incoming maker) ::
      fillsOf (b.fillMaker incoming.pair incoming.oppositeIsBuy maker (fillAmount incoming maker))
        (incoming.fill (fillAmount incoming maker)) := by
  obtain rfl : maker.id = makerId := hkey _ _ h.readOrder
  obtain ⟨l₁, l₂, hlist, hqueue⟩ := h.queue_eq
  rw [fillsOf, hqueue, serve_cons hrem, ← fillAmount_eq_min, fillsOf, LimitOrder.fill_remaining]
  rcases fillAmount_eq_or incoming maker with hq | hq
  · -- nothing is left of the incoming order
    rw [hq, sub_self, serve_of_nonpos le_rfl, serve_of_nonpos le_rfl]
  · -- the maker is used up, and leaves the list
    rw [hlist, List.nodup_middle, List.nodup_cons] at hnodup
    have hlive : (l₁ ++ l₂).filterMap ((b.fillMaker incoming.pair incoming.oppositeIsBuy maker
        (fillAmount incoming maker)).live (incoming.fill (fillAmount incoming maker))) =
        (l₁ ++ l₂).filterMap (b.live incoming) := by
      apply List.filterMap_congr
      intro id hid
      exact live_fillMaker fun heq => hnodup.1 (heq ▸ hid)
    rw [queue, crossing, oppositeBook_fillMaker hlist hnodup.1 hq, hlive]
    rfl

/-- Without a pick nothing serves. -/
theorem fillsOf_eq_nil (h : incoming.remaining ≤ 0 ∨
    b.pickBestMatchIndex incoming (oppositeBook b incoming) = none) : fillsOf b incoming = [] := by
  rcases h with hrem | hpick
  · exact serve_of_nonpos hrem
  · have hnone : crossing b incoming = [] := by
      rw [crossing, List.filterMap_eq_nil_iff]
      intro id hid
      cases hlive : b.live incoming id with
      | none => rfl
      | some order =>
        obtain ⟨hread, hfill⟩ := BookStorage.live_eq_some.mp hlive
        exact absurd hfill (BookStorage.pickBestMatchIndex_none hpick id hid order hread)
    rw [fillsOf, queue, hnone]
    rfl

/-! ## The matching loop -/

/-- The ledger after both trades of a fill, at the price of the maker. -/
def recordFill (now : ℕ) (taker : LimitOrder) (l : TradeLedger) (f : Fill) : TradeLedger :=
  let taken := l.append (l.nextTrade now taker.owner taker.pair f.2 f.1.price taker.isBuy) f.2
  taken.append (taken.nextTrade now f.1.owner f.1.pair f.2 f.1.price f.1.isBuy) f.2

/-- The ledger after fills. -/
def recordFills (now : ℕ) (taker : LimitOrder) (fills : List Fill) (l : TradeLedger) : TradeLedger :=
  fills.foldl (recordFill now taker) l

/-- The events of a fill, at the price of the maker. -/
def publishedFill (now : ℕ) (taker : LimitOrder) (l : TradeLedger) (f : Fill) : List Event :=
  let t := l.nextTrade now taker.owner taker.pair f.2 f.1.price taker.isBuy
  let taken := l.append t f.2
  [t.executed taker.isBuy,
    (taken.nextTrade now f.1.owner f.1.pair f.2 f.1.price f.1.isBuy).executed f.1.isBuy,
    .orderMatched ⟨f.1.id, taker.id, taker.pair, f.2, f.1.price, now⟩]

/-- The events of fills. -/
def publishedFills (now : ℕ) (taker : LimitOrder) : List Fill → TradeLedger → List Event
  | [], _ => []
  | f :: fills, l => publishedFill now taker l f ++ publishedFills now taker fills (recordFill now taker l f)

/-- The sum of what is filled. -/
def totalFilled (fills : List Fill) : ℤ := (fills.map Prod.snd).sum

/-- The orders of the queue fill the incoming order, or all that they have is filled. -/
theorem totalFilled_fillsOf (hrem : 0 ≤ incoming.remaining) : totalFilled (fillsOf b incoming) =
    min incoming.remaining ((queue b incoming).map LimitOrder.remaining).sum := by
  refine serve_sum hrem fun o ho => ?_
  obtain ⟨-, -, -, hfill⟩ := mem_crossing.mp (mem_queue.mp ho)
  exact hfill.2.1.le

section Fills

variable {now : ℕ} {fills : List Fill} {l : TradeLedger} {f : Fill}

@[simp] theorem totalFilled_concat : totalFilled (fills ++ [f]) = totalFilled fills + f.2 := by
  simp [totalFilled]

theorem recordFills_concat : recordFills now taker (fills ++ [f]) l =
    recordFill now taker (recordFills now taker fills l) f := by
  simp [recordFills]

theorem publishedFills_concat : publishedFills now taker (fills ++ [f]) l =
    publishedFills now taker fills l ++ publishedFill now taker (recordFills now taker fills l) f := by
  induction fills generalizing l with
  | nil => simp [publishedFills, recordFills]
  | cons g fills ih =>
    rw [List.cons_append, publishedFills, ih, publishedFills, List.append_assoc]
    rfl

end Fills

variable {τ : Type} {now : ℕ}

/-- What the rounds of the matching loop have done for `taker`: the first fills of the queue. -/
structure Progress (now : ℕ) (taker : LimitOrder) (s₀ s : State τ) (incoming : LimitOrder)
    (done : List Fill) : Prop where
  fills : done ++ fillsOf s.book incoming = fillsOf s₀.book taker
  incoming_eq : ∃ status,
    incoming = { taker with remaining := taker.remaining - totalFilled done, status := status }
  ledger : s.ledger = recordFills now taker done s₀.ledger
  events : s.events = s₀.events ++ publishedFills now taker done s₀.ledger
  makers : ∀ f ∈ done, s.book.readOrder f.1.id = some (f.1.fill f.2) ∧
    (f.1.id ∈ oppositeBook s.book incoming → incoming.remaining ≤ 0)
  keyed : KeyedById s.book
  nodup : (oppositeBook s.book incoming).Nodup

/-- A fill shortens the list of the other side, or leaves it. -/
theorem oppositeBook_fillMaker_sublist {quantity quantity' : ℤ} :
    (oppositeBook (b.fillMaker incoming.pair incoming.oppositeIsBuy maker quantity)
      (incoming.fill quantity')).Sublist (oppositeBook b incoming) := by
  unfold oppositeBook
  rw [LimitOrder.fill_pair, LimitOrder.fill_oppositeIsBuy, BookStorage.readOrderBook_fillMaker]
  split
  · exact List.filter_sublist
  · exact List.Sublist.refl _

/-- A maker that is filled leaves the list, or the incoming order is used up. -/
theorem not_mem_fillMaker (h : maker.id ∈ oppositeBook
    (b.fillMaker incoming.pair incoming.oppositeIsBuy maker (fillAmount incoming maker))
    (incoming.fill (fillAmount incoming maker))) : fillAmount incoming maker = incoming.remaining := by
  rcases fillAmount_eq_or incoming maker with hq | hq
  · exact hq
  · unfold oppositeBook at h
    rw [LimitOrder.fill_pair, LimitOrder.fill_oppositeIsBuy, BookStorage.readOrderBook_fillMaker,
      if_pos ⟨by omega, rfl⟩] at h
    simp at h

/-- A round of the matching loop makes the next fill. -/
theorem Progress.fill {s₀ s : State τ} {done : List Fill} {p : State τ × LimitOrder}
    (h : Progress now taker s₀ s incoming done) (hrem : 0 < incoming.remaining)
    (hpicks : Picks s.book incoming makerId maker) (he : executeFill now incoming maker s = .ok p) :
    Progress now taker s₀ p.1 p.2 (done ++ [(maker, fillAmount incoming maker)]) := by
  obtain rfl : maker.id = makerId := h.keyed _ _ hpicks.readOrder
  obtain rfl := executeFill_eq_ok he
  obtain ⟨status, hincoming⟩ := h.incoming_eq
  constructor
  · rw [← h.fills, fillsOf_fill h.keyed h.nodup hrem hpicks, List.append_assoc]
    rfl
  · refine ⟨(incoming.fill (fillAmount incoming maker)).status, ?_⟩
    subst hincoming
    rw [totalFilled_concat, ← sub_sub]
    rfl
  · rw [recordFills_concat, ← h.ledger, hincoming]
    rfl
  · rw [publishedFills_concat, ← h.ledger, ← List.append_assoc, ← h.events, hincoming]
    rfl
  · intro f hf
    have hread := BookStorage.readOrder_fillMaker s.book incoming.pair incoming.oppositeIsBuy f.1.id
      maker (fillAmount incoming maker)
    rcases List.mem_append.mp hf with hf | hf
    · -- the makers before are used up, as something was left of the incoming order
      obtain ⟨hstored, hlisted⟩ := h.makers f hf
      have hunlisted : f.1.id ∉ oppositeBook s.book incoming := fun hmem => by
        have hnone := hlisted hmem
        omega
      have hne : f.1.id ≠ maker.id := fun heq => hunlisted (heq ▸ hpicks.mem)
      refine ⟨by rw [hread, if_neg hne, hstored], fun hmem => ?_⟩
      exact absurd (oppositeBook_fillMaker_sublist.subset hmem) hunlisted
    · obtain rfl := List.mem_singleton.mp hf
      refine ⟨by rw [hread, if_pos rfl], fun hmem => ?_⟩
      rw [LimitOrder.fill_remaining, not_mem_fillMaker hmem, sub_self]
  · exact h.keyed.fillMaker
  · exact h.nodup.sublist oppositeBook_fillMaker_sublist

/-- The matching loop fills the incoming order as the queue serves it. -/
theorem matchLimitOrder_fillsOf {s s' : State τ} {order : LimitOrder} (hkey : KeyedById s.book)
    (hnodup : (oppositeBook s.book taker).Nodup)
    (h : matchLimitOrder now s taker = .ok (s', order)) :
    Progress now taker s s' order (fillsOf s.book taker) := by
  have hstart : ∃ done, Progress now taker s s taker done :=
    ⟨[], rfl, ⟨taker.status, by simp [totalFilled]⟩, rfl, by simp [publishedFills], by simp, hkey,
      hnodup⟩
  obtain ⟨⟨done, hdone⟩, hend⟩ := matchLimitOrder_picks
    (I := fun s' incoming => ∃ done, Progress now taker s s' incoming done)
    (fun s' incoming makerId maker p hI hrem hpicks he => by
      obtain ⟨done, hdone⟩ := hI
      exact ⟨_, hdone.fill hrem hpicks he⟩) hstart h
  have hall := hdone.fills
  rw [fillsOf_eq_nil hend, List.append_nil] at hall
  rw [← hall]
  exact hdone

/-! ## Placed orders -/

/-- A matched order is left as it is, goes to its list or is cancelled. -/
theorem settleOrder_cases {order : LimitOrder} (h : settleOrder order b = .ok b') :
    b' = b ∨ b' = b.pushOrderToBook order.pair order.isBuy order.id ∨
      b' = b.writeOrder { order with status := .cancelled } := by
  unfold settleOrder at h
  cases htif : order.tif with
  | gtc =>
    simp only [htif] at h
    split at h
    · exact .inr (.inl (Except.ok.inj h).symm)
    · exact .inl (Except.ok.inj h).symm
  | ioc =>
    simp only [htif] at h
    split at h
    · exact .inr (.inr (Except.ok.inj h).symm)
    · exact .inl (Except.ok.inj h).symm
  | fok =>
    simp only [htif] at h
    split at h
    · cases h
    · exact .inl (Except.ok.inj h).symm

/-- A settled order is stored with what is left of it, and the others are stored as before. -/
theorem readOrder_settleOrder {order : LimitOrder}
    (h : settleOrder order (b.writeOrder order) = .ok b') :
    (∀ id, id ≠ order.id → b'.readOrder id = b.readOrder id) ∧
      ∃ status, b'.readOrder order.id = some { order with status := status } := by
  rcases settleOrder_cases h with rfl | rfl | rfl
  · constructor
    · intro id hne
      rw [BookStorage.readOrder_writeOrder, if_neg hne]
    · exact ⟨order.status, by rw [BookStorage.readOrder_writeOrder, if_pos rfl]⟩
  · constructor
    · intro id hne
      rw [BookStorage.readOrder_pushOrderToBook, BookStorage.readOrder_writeOrder, if_neg hne]
    · exact ⟨order.status, by
        rw [BookStorage.readOrder_pushOrderToBook, BookStorage.readOrder_writeOrder, if_pos rfl]⟩
  · constructor
    · intro id hne
      rw [BookStorage.readOrder_writeOrder, if_neg hne, BookStorage.readOrder_writeOrder, if_neg hne]
    · exact ⟨.cancelled, by rw [BookStorage.readOrder_writeOrder, if_pos rfl]⟩

section Place

variable {s s' : State τ} {limits : RateLimits}

/-- The orders that cross a placed order are the ones that crossed it before. -/
theorem queue_place (hs : Consistent s.book ∅) (hid : taker.id = s.book.orderCount + 1) :
    queue (s.place limits taker).book taker = queue s.book taker := by
  have hlive : (oppositeBook s.book taker).filterMap ((s.place limits taker).book.live taker) =
      (oppositeBook s.book taker).filterMap (s.book.live taker) := by
    apply List.filterMap_congr
    intro id hmem
    obtain ⟨-, o, ho, -⟩ := (hs.mem_iff _ _ id).mp hmem
    have hle := hs.id_le id o ho
    unfold BookStorage.live State.place
    rw [BookStorage.readOrder_writeOrder, if_neg (by omega)]
    rfl
  rw [queue, queue, crossing, crossing, ← hlive]
  rfl

/-- An order is filled as the queue of the book serves it. -/
theorem matchLimitOrder_place {order : LimitOrder} (hs : Consistent s.book ∅)
    (hid : taker.id = s.book.orderCount + 1) (hpos : 0 < taker.amount)
    (h : matchLimitOrder now (s.place limits taker) taker = .ok (s', order)) :
    Progress now taker (s.place limits taker) s' order (fillsOf s.book taker) := by
  have hplaced := hs.create hid hpos
  have hkey : KeyedById (s.place limits taker).book := hplaced.id_eq
  have hprogress := matchLimitOrder_fillsOf hkey (hplaced.nodup _ _) h
  rwa [fillsOf, queue_place hs hid] at hprogress

/-! ## Faults -/

/-- The guards refuse an order or overflow. -/
theorem ensureTradeable_ne_diverges {trader : Address} :
    ensureTradeable now trader s ≠ .error .diverges := by
  refine Except.bind_ne_error (require_ne_error (by simp)) fun _ _ =>
    Except.bind_ne_error (Except.bind_ne_error ?_ fun _ _ => by simp) fun _ _ =>
      Except.bind_ne_error ?_ fun _ _ => by simp
  · exact Except.bind_ne_error (require_ne_error (by simp)) fun _ _ =>
      Except.bind_ne_error (require_ne_error (by simp)) fun _ _ =>
        Except.bind_ne_error (require_ne_error (by simp)) fun _ _ =>
          Except.bind_ne_error (IntFormat.checkedNat_ne_error (by simp)) fun _ _ =>
            Except.bind_ne_error (IntFormat.checkedNat_ne_error (by simp)) fun _ _ => by simp
  · exact Except.bind_ne_error (require_ne_error (by simp)) fun _ _ => require_ne_error (by simp)

/-- The check before the match refuses an order or overflows. -/
theorem checkFullyFillable_ne_error {fault : Fault TradeError} (hne : fault ≠ .overflow)
    (hrefuse : fault ≠ .error .orderWouldNotFullyFill) : checkFullyFillable taker b ≠ .error fault := by
  unfold checkFullyFillable
  split
  · exact Except.bind_ne_error (BookStorage.sumAvailable_ne_error hne) fun _ _ =>
      require_ne_error hrefuse.symm
  · simp

/-- What becomes of a matched order is decided, or it is refused. -/
theorem settleOrder_ne_error {fault : Fault TradeError} {order : LimitOrder}
    (hrefuse : fault ≠ .error .orderWouldNotFullyFill) : settleOrder order b ≠ .error fault := by
  unfold settleOrder
  split
  · split <;> simp
  · split <;> simp
  · split
    · simpa using hrefuse.symm
    · simp

/-- On a consistent book the matching of a new order ends. -/
theorem createLimitOrder_ne_diverges (hs : Consistent s.book ∅) {trader : Address} {pair : Symbol}
    {isBuy : Bool} {price amount : ℤ} {tif : TimeInForce} :
    createLimitOrder now trader pair isBuy price amount tif s ≠ .error .diverges := by
  refine Except.bind_ne_error ensureTradeable_ne_diverges fun s₁ h₁ =>
    Except.bind_ne_error (require_ne_error (by simp)) fun _ hamount =>
      Except.bind_ne_error (require_ne_error (by simp)) fun _ _ =>
        Except.bind_ne_error ?_ fun p hp =>
          Except.bind_ne_error (checkFullyFillable_ne_error (by simp) (by simp)) fun _ _ =>
            Except.bind_ne_error ?_ fun q _ =>
              Except.bind_ne_error (settleOrder_ne_error (by simp)) fun _ _ => by simp
  · exact Except.bind_ne_error (IntFormat.checkedNat_ne_error (by simp)) fun _ _ => by simp
  · -- the placed book is consistent but for the new order
    obtain ⟨⟨limits, rfl⟩, -⟩ := ensureTradeable_eq_ok h₁
    obtain ⟨id, book⟩ := p
    simp only [BookStorage.nextOrderId, Except.bind_eq_ok, IntFormat.checkedNat_eq_ok] at hp
    obtain ⟨_, ⟨-, rfl⟩, hp⟩ := hp
    obtain ⟨rfl, rfl⟩ := Prod.mk.inj (Except.ok.inj hp)
    have hpos := (require_eq_ok.mp hamount)
    exact matchLimitOrder_ne_error (by simp)
      (hs.create (o := placed now (s.book.orderCount + 1) trader pair isBuy price amount tif) rfl
        hpos).id_eq

end Place

end Stellara.Trading
