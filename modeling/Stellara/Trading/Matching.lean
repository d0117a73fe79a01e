import Stellara.Trading.Contract

/-!
# The matching loop

A round of the matching loop either stops, or fills the incoming order with the best order of
the opposite list; the two branches that drop a stale id are never taken, because the search
only returns orders that pass the checks repeated after it. What every fill preserves
therefore holds after the loop, which ends with nothing left to match.

## Main results

* `executeFill_eq_ok`: what a fill leaves
* `matchStep_eq_ok`: a round stops or fills
* `matchLimitOrder_picks`, `matchLimitOrder_induction`: the induction rules of the matching loop
* `matchLimitOrder_ne_error`: the matching loop ends
-/

namespace Stellara.Trading

variable {τ : Type} {now : ℕ}

theorem fillAmount_le_incoming (incoming maker : LimitOrder) :
    fillAmount incoming maker ≤ incoming.remaining := by
  unfold fillAmount; split <;> omega

theorem fillAmount_le_maker (incoming maker : LimitOrder) :
    fillAmount incoming maker ≤ maker.remaining := by
  unfold fillAmount; split <;> omega

theorem fillAmount_pos {incoming maker : LimitOrder} (hi : 0 < incoming.remaining)
    (hm : 0 < maker.remaining) : 0 < fillAmount incoming maker := by
  unfold fillAmount; split <;> omega

/-- A fill uses up one of the two orders. -/
theorem fillAmount_eq_or (incoming maker : LimitOrder) :
    fillAmount incoming maker = incoming.remaining ∨ fillAmount incoming maker = maker.remaining := by
  unfold fillAmount; split <;> simp

/-- The ledger after both trades of a fill. -/
def ledgerAfterFill (now : ℕ) (incoming maker : LimitOrder) (l : TradeLedger) : TradeLedger :=
  let quantity := fillAmount incoming maker
  let taken := l.append (l.nextTrade now incoming.owner incoming.pair quantity maker.price
    incoming.isBuy) quantity
  taken.append (taken.nextTrade now maker.owner maker.pair quantity maker.price maker.isBuy) quantity

/-- The events of a fill: the trade of the taker, the trade of the maker, and their match. -/
def fillEvents (now : ℕ) (incoming maker : LimitOrder) (l : TradeLedger) : List Event :=
  let quantity := fillAmount incoming maker
  let t := l.nextTrade now incoming.owner incoming.pair quantity maker.price incoming.isBuy
  let taken := l.append t quantity
  [t.executed incoming.isBuy,
    (taken.nextTrade now maker.owner maker.pair quantity maker.price maker.isBuy).executed
      maker.isBuy,
    .orderMatched ⟨maker.id, incoming.id, incoming.pair, quantity, maker.price, now⟩]

/-- What a fill leaves. -/
theorem executeFill_eq_ok {incoming maker : LimitOrder} {s : State τ} {p : State τ × LimitOrder}
    (h : executeFill now incoming maker s = .ok p) :
    p = ({ s with
        book := s.book.fillMaker incoming.pair incoming.oppositeIsBuy maker
          (fillAmount incoming maker)
        ledger := ledgerAfterFill now incoming maker s.ledger
        events := s.events ++ fillEvents now incoming maker s.ledger },
      incoming.fill (fillAmount incoming maker)) := by
  simp only [executeFill, Except.bind_eq_ok] at h
  obtain ⟨⟨id₁, s₁⟩, h₁, ⟨id₂, s₂⟩, h₂, h⟩ := h
  obtain ⟨-, rfl⟩ := recordTrade_eq_ok h₁
  obtain ⟨-, rfl⟩ := recordTrade_eq_ok h₂
  obtain rfl := Except.ok.inj h
  simp [State.publish, ledgerAfterFill, fillEvents]

/-- The best order of the opposite list: no other order is better, and none before it is as good. -/
inductive Picks (b : BookStorage) (incoming : LimitOrder) (makerId : ℕ) (maker : LimitOrder) : Prop
  | intro {l₁ l₂ : List ℕ} (hlist : oppositeBook b incoming = l₁ ++ makerId :: l₂)
      (hlive : b.live incoming makerId = some maker)
      (hfirst : ∀ o ∈ l₁.filterMap (b.live incoming), ¬ Precedes incoming o maker)
      (hbest : ∀ o ∈ (l₁ ++ l₂).filterMap (b.live incoming), Precedes incoming maker o)

namespace Picks

variable {b : BookStorage} {incoming maker : LimitOrder} {makerId : ℕ}

theorem mem (h : Picks b incoming makerId maker) : makerId ∈ oppositeBook b incoming := by
  obtain ⟨hlist, -, -, -⟩ := h
  rw [hlist]
  exact List.mem_append_right _ List.mem_cons_self

theorem readOrder (h : Picks b incoming makerId maker) : b.readOrder makerId = some maker := by
  obtain ⟨-, hlive, -, -⟩ := h
  exact (BookStorage.live_eq_some.mp hlive).1

theorem fillable (h : Picks b incoming makerId maker) : fillable incoming maker := by
  obtain ⟨-, hlive, -, -⟩ := h
  exact (BookStorage.live_eq_some.mp hlive).2

end Picks

/-- The rounds of the matching loop that find an order fill it. -/
theorem matchStep_cases (now : ℕ) (s : State τ) (incoming : LimitOrder) :
    (matchStep now (s, incoming) = .ok (.stop (s, incoming)) ∧ (incoming.remaining ≤ 0 ∨
      s.book.pickBestMatchIndex incoming (oppositeBook s.book incoming) = none)) ∨
    ∃ makerId maker, 0 < incoming.remaining ∧ Picks s.book incoming makerId maker ∧
      matchStep now (s, incoming) = (do
        let p ← executeFill now incoming maker s
        .ok (.next p)) := by
  by_cases hrem : incoming.remaining ≤ 0
  · exact .inl ⟨by simp [matchStep, hrem], .inl hrem⟩
  · cases hpick : s.book.pickBestMatchIndex incoming (oppositeBook s.book incoming) with
    | none =>
      refine .inl ⟨?_, .inr rfl⟩
      unfold oppositeBook at hpick
      simp [matchStep, hrem, hpick]
    | some i =>
      -- the search only returns orders that pass the checks made again below
      obtain ⟨l₁, makerId, l₂, maker, hlist, rfl, hlive, hfirst, hbest⟩ :=
        BookStorage.pickBestMatchIndex_best hpick
      obtain ⟨hread, hfill⟩ := BookStorage.live_eq_some.mp hlive
      refine .inr ⟨makerId, maker, not_le.mp hrem, ⟨hlist, hlive, hfirst, hbest⟩, ?_⟩
      have hid : (oppositeBook s.book incoming)[l₁.length]? = some makerId := by
        rw [hlist, List.getElem?_append_right le_rfl, Nat.sub_self]
        rfl
      unfold oppositeBook at hpick hid
      simp [matchStep, hrem, hpick, hid, hread, hfill]

/-- A round of the matching loop. -/
theorem matchStep_eq_ok {s : State τ} {incoming : LimitOrder} {f : Round (State τ × LimitOrder)}
    (h : matchStep now (s, incoming) = .ok f) :
    (f = .stop (s, incoming) ∧ (incoming.remaining ≤ 0 ∨
      s.book.pickBestMatchIndex incoming (oppositeBook s.book incoming) = none)) ∨
    (∃ makerId maker p, f = .next p ∧ 0 < incoming.remaining ∧ Picks s.book incoming makerId maker ∧
      executeFill now incoming maker s = .ok p) := by
  rcases matchStep_cases now s incoming with
    ⟨hstop, hend⟩ | ⟨makerId, maker, hrem, hpicks, hstep⟩
  · exact .inl ⟨Except.ok.inj (h.symm.trans hstop), hend⟩
  · rw [hstep, Except.bind_eq_ok] at h
    obtain ⟨p, hp, h⟩ := h
    exact .inr ⟨makerId, maker, p, (Except.ok.inj h).symm, hrem, hpicks, hp⟩

/-- The induction rule of the matching loop: what every fill by a best order preserves holds after
the loop, and then nothing is left to match. -/
theorem matchLimitOrder_picks {I : State τ → LimitOrder → Prop}
    (hfill : ∀ s incoming makerId maker p, I s incoming → 0 < incoming.remaining →
      Picks s.book incoming makerId maker → executeFill now incoming maker s = .ok p → I p.1 p.2)
    {s s' : State τ} {incoming incoming' : LimitOrder} (hI : I s incoming)
    (h : matchLimitOrder now s incoming = .ok (s', incoming')) :
    I s' incoming' ∧ (incoming'.remaining ≤ 0 ∨
      s'.book.pickBestMatchIndex incoming' (oppositeBook s'.book incoming') = none) := by
  simp only [matchLimitOrder, Except.bind_eq_ok, orAbort_eq_ok] at h
  obtain ⟨r, h, rfl⟩ := h
  refine loop_invariant (I := fun p => I p.1 p.2)
    (Q := fun p => I p.1 p.2 ∧ (p.2.remaining ≤ 0 ∨
      p.1.book.pickBestMatchIndex p.2 (oppositeBook p.1.book p.2) = none)) ?_ ?_ _ _ _ hI h
  · rintro ⟨s, incoming⟩ p hp hstep
    rcases matchStep_eq_ok hstep with ⟨hf, -⟩ | ⟨makerId, maker, q, hf, hrem, hpicks, he⟩
    · cases hf
    · obtain rfl := Round.next.inj hf
      exact hfill s incoming makerId maker p hp hrem hpicks he
  · rintro ⟨s, incoming⟩ p hp hstep
    rcases matchStep_eq_ok hstep with ⟨hf, hend⟩ | ⟨makerId, maker, q, hf, -⟩
    · obtain rfl := Round.stop.inj hf
      exact ⟨hp, hend⟩
    · cases hf

/-- The same for what the fills by any listed orders preserve. -/
theorem matchLimitOrder_induction {I : State τ → LimitOrder → Prop}
    (hfill : ∀ s incoming makerId maker p, I s incoming → 0 < incoming.remaining →
      makerId ∈ oppositeBook s.book incoming → s.book.readOrder makerId = some maker →
      fillable incoming maker →
      executeFill now incoming maker s = .ok p → I p.1 p.2)
    {s s' : State τ} {incoming incoming' : LimitOrder} (hI : I s incoming)
    (h : matchLimitOrder now s incoming = .ok (s', incoming')) :
    I s' incoming' ∧ (incoming'.remaining ≤ 0 ∨
      s'.book.pickBestMatchIndex incoming' (oppositeBook s'.book incoming') = none) :=
  matchLimitOrder_picks (fun s incoming makerId maker p hs hrem hpicks he =>
    hfill s incoming makerId maker p hs hrem hpicks.mem hpicks.readOrder hpicks.fillable he) hI h

/-! ## Termination -/

theorem recordTrade_ne_error {fault : Fault TradeError} (hne : fault ≠ .overflow) {trader : Address}
    {pair : Symbol} {amount price : ℤ} {isBuy : Bool} {s : State τ} :
    recordTrade now trader pair amount price isBuy s ≠ .error fault := by
  refine Except.bind_ne_error ?_ fun _ _ => Except.bind_ne_error ?_ fun _ _ =>
    Except.bind_ne_error ?_ fun _ _ => Except.bind_ne_error ?_ fun _ _ => by simp
  · cases isBuy with
    | true => simp [toSigned]
    | false => exact IntFormat.checked_ne_error hne.symm
  · exact IntFormat.checkedNat_ne_error hne.symm
  · exact IntFormat.checkedNat_ne_error hne.symm
  · exact IntFormat.checked_ne_error hne.symm

/-- A round of the matching loop only fails when the records of a fill overflow. -/
theorem matchStep_ne_error {fault : Fault TradeError} (hne : fault ≠ .overflow)
    {p : State τ × LimitOrder} : matchStep now p ≠ .error fault := by
  obtain ⟨s, incoming⟩ := p
  rcases matchStep_cases now s incoming with ⟨hstop, -⟩ | ⟨makerId, maker, -, -, hstep⟩
  · rw [hstop]
    simp
  · rw [hstep]
    refine Except.bind_ne_error ?_ fun _ _ => by simp
    exact Except.bind_ne_error (recordTrade_ne_error hne) fun _ _ =>
      Except.bind_ne_error (recordTrade_ne_error hne) fun _ _ => by simp

/-- Every stored order is stored under its own id. -/
def KeyedById (b : BookStorage) : Prop := ∀ id o, b.readOrder id = some o → o.id = id

theorem KeyedById.fillMaker {b : BookStorage} (h : KeyedById b) {pair : Symbol} {isBuy : Bool}
    {maker : LimitOrder} {quantity : ℤ} : KeyedById (b.fillMaker pair isBuy maker quantity) := by
  intro id o ho
  rw [BookStorage.readOrder_fillMaker] at ho
  split at ho
  · obtain rfl := Option.some.inj ho
    exact Eq.symm ‹_›
  · exact h id o ho

/-- The rounds that are left at most: one for each opposite order, and one that uses up the
incoming order. -/
def roundsLeft (b : BookStorage) (incoming : LimitOrder) : ℕ :=
  (oppositeBook b incoming).length + if 0 < incoming.remaining then 1 else 0

theorem roundsLeft_fill {b : BookStorage} {incoming maker : LimitOrder}
    (hrem : 0 < incoming.remaining) (hmem : maker.id ∈ oppositeBook b incoming) :
    roundsLeft (b.fillMaker incoming.pair incoming.oppositeIsBuy maker (fillAmount incoming maker))
      (incoming.fill (fillAmount incoming maker)) < roundsLeft b incoming := by
  have hlt : ((b.readOrderBook incoming.pair incoming.oppositeIsBuy).filter (· ≠ maker.id)).length <
      (b.readOrderBook incoming.pair incoming.oppositeIsBuy).length :=
    List.length_filter_lt_length_iff_exists.mpr ⟨maker.id, hmem, by simp⟩
  simp only [roundsLeft, oppositeBook, BookStorage.readOrderBook_fillMaker, LimitOrder.fill_pair,
    LimitOrder.fill_oppositeIsBuy, LimitOrder.fill_remaining, if_pos hrem, and_true]
  rcases fillAmount_eq_or incoming maker with hq | hq
  · -- the incoming order is used up, and the list does not grow
    simp only [hq, sub_self, lt_irrefl, if_false]
    split <;> omega
  · -- the maker is used up and leaves the list
    simp only [hq, sub_self, if_true]
    split <;> omega

/-- The matching loop ends: on a book whose orders are stored under their own ids it never
runs out of rounds, and only an overflow stops it. -/
theorem matchLimitOrder_ne_error {fault : Fault TradeError} (hne : fault ≠ .overflow) {s : State τ}
    {incoming : LimitOrder} (hkey : KeyedById s.book) :
    matchLimitOrder now s incoming ≠ .error fault := by
  have hfuel : loop (matchStep now) ((oppositeBook s.book incoming).length + 2) (s, incoming) ≠
      .ok none := by
    refine loop_ne_none (I := fun p => KeyedById p.1.book) (fun p => roundsLeft p.1.book p.2)
      ?_ _ _ hkey ?_
    · rintro ⟨s, incoming⟩ p hp hstep
      rcases matchStep_eq_ok hstep with ⟨hf, -⟩ | ⟨makerId, maker, q, hf, hrem, hpicks, he⟩
      · cases hf
      · obtain rfl := Round.next.inj hf
        obtain rfl := executeFill_eq_ok he
        obtain rfl : maker.id = makerId := hp _ _ hpicks.readOrder
        exact ⟨KeyedById.fillMaker hp, roundsLeft_fill hrem hpicks.mem⟩
    · simp only [roundsLeft]
      split <;> omega
  refine Except.bind_ne_error (loop_ne_error (fun _ => matchStep_ne_error hne) _ _) fun r hr => ?_
  exact orAbort_ne_error fun hnone => absurd (hnone ▸ hr) hfuel

end Stellara.Trading
