import Mathlib.Algebra.Order.BigOperators.Group.List
import Mathlib.Algebra.Order.Group.Int
import Stellara.Token.Allowances

/-!
# The events of the token contract

Every call that moves tokens publishes one event, from which an observer keeps books: what an
account receives and is minted is added, what it sends and burns is subtracted. The books of the
supply are always right. The books of an account are right as long as it sends nothing to itself;
they fall behind its balance by what it has sent to itself, which the contract creates.

## Main definitions

* `Call.event`: the event of a call
* `booked`, `bookedSupply`: the books of an observer
* `sentToSelf`: what an account sent to itself, by the events

## Main results

* `books_of_run`: the events of a run, and what its balances and its supply have to do with them
-/

namespace Stellara.Token

variable {now : ℕ} {s s' : State} {src dst a : Address} {amount : ℤ} {r : Unit}

/-! ## Books -/

/-- What an event adds to the balance of an account in the books. -/
def Event.change (a : Address) : Event → ℤ
  | .transfer src dst amount =>
    (if a = dst then amount else 0) - if a = src then amount else 0
  | .mint dst amount => if a = dst then amount else 0
  | .burn src amount => -if a = src then amount else 0
  | .approve _ _ _ => 0

/-- What an event adds to the supply. -/
def Event.issued : Event → ℤ
  | .mint _ amount => amount
  | .burn _ amount => -amount
  | _ => 0

/-- What an account sends to itself. -/
def Event.toSelf (a : Address) : Event → ℤ
  | .transfer src dst amount => if a = src ∧ a = dst then amount else 0
  | _ => 0

/-- The balance of an account in the books. -/
def booked (a : Address) (events : List Event) : ℤ := (events.map (Event.change a)).sum

/-- The supply in the books. -/
def bookedSupply (events : List Event) : ℤ := (events.map Event.issued).sum

def sentToSelf (a : Address) (events : List Event) : ℤ := (events.map (Event.toSelf a)).sum

/-- The event that a call publishes when it returns. -/
def Call.event : Call → Option Event
  | .transfer src dst amount | .transferFrom _ src dst amount => some (.transfer src dst amount)
  | .approve owner spender amount _ => some (.approve owner spender amount)
  | .mint dst amount => some (.mint dst amount)
  | .burn src amount | .burnFrom _ src amount => some (.burn src amount)
  | .init _ _ | .setAdmin _ => none

/-- The event of a step; an entry expires without one. -/
def Step.event : Step → Option Event
  | .call c => c.event
  | .expire _ _ => none

/-- The events of the steps of a log. -/
def published (log : List (Commit State Step Unit)) : List Event :=
  log.filterMap fun c => c.call.event

/-! ## What a step publishes -/

/-- The event is published, and the balances and the supply are what the books make of it, but for
what is sent to oneself. -/
structure Booked (event : Option Event) (s s' : State) : Prop where
  events : s'.events = s.events ++ event.toList
  balance : ∀ a, balanceOf s' a =
    balanceOf s a + event.elim 0 fun e => e.change a + e.toSelf a
  supply : getTotalSupply s' = getTotalSupply s + event.elim 0 Event.issued
  pos : ∀ src dst amount, event = some (.transfer src dst amount) → 0 < amount

theorem events_moveBalance (h : moveBalance src dst amount s = .ok s') :
    s'.events = s.events ∧ getTotalSupply s' = getTotalSupply s := by
  obtain ⟨-, rfl⟩ := moveBalance_eq_ok h
  exact ⟨rfl, rfl⟩

theorem events_takeBalance (h : takeBalance src amount s = .ok s') :
    s'.events = s.events ∧ getTotalSupply s' = getTotalSupply s - amount := by
  obtain ⟨-, rfl⟩ := takeBalance_eq_ok h
  exact ⟨rfl, rfl⟩

/-- A movement adds to the balances what its event does to the books, and what it moves to its
source. -/
theorem moveBalance_change (h : moveBalance src dst amount s = .ok s') (a : Address) :
    balanceOf s' a = balanceOf s a +
      ((Event.transfer src dst amount).change a + (Event.transfer src dst amount).toSelf a) := by
  obtain ⟨-, rfl⟩ := moveBalance_eq_ok h
  rw [balanceOf_setBalance, balanceOf_setBalance]
  simp only [Event.change, Event.toSelf]
  by_cases hdst : a = dst
  · subst hdst
    by_cases hsrc : a = src
    · -- the balance of before is written back with the amount
      simp [hsrc]
    · simp [hsrc]
  · by_cases hsrc : a = src
    · subst hsrc
      simp [hdst, sub_eq_add_neg]
    · simp [hdst, hsrc]

theorem takeBalance_change (h : takeBalance src amount s = .ok s') (a : Address) :
    balanceOf s' a = balanceOf s a +
      ((Event.burn src amount).change a + (Event.burn src amount).toSelf a) := by
  obtain ⟨-, rfl⟩ := takeBalance_eq_ok h
  rw [balanceOf_setTotalSupply, balanceOf_setBalance]
  simp only [Event.change, Event.toSelf]
  split
  · rename_i hsrc
    subst hsrc
    omega
  · omega

/-- What changes no balance publishes nothing. -/
theorem Booked.of_none (hevents : s'.events = s.events)
    (hbalance : ∀ a, balanceOf s' a = balanceOf s a)
    (hsupply : getTotalSupply s' = getTotalSupply s) : Booked none s s' where
  events := by rw [hevents, Option.toList_none, List.append_nil]
  balance a := (hbalance a).trans (add_zero _).symm
  supply := hsupply.trans (add_zero _).symm
  pos := by simp

/-- A movement between accounts, published when all is written. -/
theorem Booked.of_moveBalance {s₀ s₁ : State} (hpos : 0 < amount)
    (h : moveBalance src dst amount s₀ = .ok s₁) (hevents : s₀.events = s.events)
    (hsupply : getTotalSupply s₀ = getTotalSupply s)
    (hbalance : ∀ a, balanceOf s₀ a = balanceOf s a) :
    Booked (some (.transfer src dst amount)) s (publish s₁ (.transfer src dst amount)) where
  events := by
    rw [← hevents, ← (events_moveBalance h).1]
    rfl
  balance a := by
    rw [balanceOf_publish, moveBalance_change h, hbalance]
    rfl
  supply := by
    rw [← hsupply, ← (events_moveBalance h).2]
    exact (add_zero _).symm
  pos _ _ _ heq := by
    obtain ⟨-, -, rfl⟩ := Event.transfer.inj (Option.some.inj heq)
    exact hpos

theorem Booked.of_takeBalance {s₀ s₁ : State} (h : takeBalance src amount s₀ = .ok s₁)
    (hevents : s₀.events = s.events) (hsupply : getTotalSupply s₀ = getTotalSupply s)
    (hbalance : ∀ a, balanceOf s₀ a = balanceOf s a) :
    Booked (some (.burn src amount)) s (publish s₁ (.burn src amount)) where
  events := by
    rw [← hevents, ← (events_takeBalance h).1]
    rfl
  balance a := by
    rw [balanceOf_publish, takeBalance_change h, hbalance]
    rfl
  supply := by
    rw [← hsupply]
    exact (events_takeBalance h).2
  pos := by simp

theorem booked_of_execute {call : Call} (h : execute s call = .ok s') :
    Booked call.event s s' := by
  cases call with
  | init admin metadata =>
    simp only [execute, init, Except.bind_eq_ok, require_eq_ok, exists_const] at h
    obtain ⟨-, h⟩ := h
    obtain rfl := Except.ok.inj h
    exact .of_none rfl (fun _ => rfl) rfl
  | transfer src dst amount =>
    simp only [execute, transfer, Except.bind_eq_ok, require_eq_ok, exists_const] at h
    obtain ⟨hpos, s₁, hmove, h⟩ := h
    obtain rfl := Except.ok.inj h
    exact .of_moveBalance hpos hmove rfl rfl fun _ => rfl
  | transferFrom spender src dst amount =>
    simp only [execute, transferFrom, Except.bind_eq_ok, require_eq_ok, exists_const] at h
    obtain ⟨hpos, s₁, hspend, s₂, hmove, h⟩ := h
    obtain rfl := Except.ok.inj h
    obtain rfl := spendAllowance_eq_ok hspend
    exact .of_moveBalance hpos hmove rfl rfl fun _ => rfl
  | approve owner spender amount expirationLedger =>
    simp only [execute, approve, Except.bind_eq_ok, require_eq_ok, exists_const] at h
    obtain ⟨-, h⟩ := h
    obtain rfl := Except.ok.inj h
    exact ⟨rfl, fun a => (add_zero _).symm, (add_zero _).symm, by simp [Call.event]⟩
  | mint dst amount =>
    simp only [execute, mint, Except.bind_eq_ok, require_eq_ok, IntFormat.checked_eq_ok,
      exists_const] at h
    obtain ⟨_, -, hpos, _, ⟨-, rfl⟩, _, ⟨-, rfl⟩, h⟩ := h
    obtain rfl := Except.ok.inj h
    refine ⟨rfl, fun a => ?_, rfl, by simp [Call.event]⟩
    rw [balanceOf_publish, balanceOf_setTotalSupply, balanceOf_setBalance]
    simp only [Call.event, Option.elim_some, Event.change, Event.toSelf, add_zero]
    split
    · rename_i hdst
      rw [hdst]
    · rw [add_zero]
  | burn src amount =>
    simp only [execute, burn, Except.bind_eq_ok, require_eq_ok, exists_const] at h
    obtain ⟨-, s₁, htake, h⟩ := h
    obtain rfl := Except.ok.inj h
    exact .of_takeBalance htake rfl rfl fun _ => rfl
  | burnFrom spender src amount =>
    simp only [execute, burnFrom, Except.bind_eq_ok, require_eq_ok, exists_const] at h
    obtain ⟨-, s₁, hspend, s₂, htake, h⟩ := h
    obtain rfl := Except.ok.inj h
    obtain rfl := spendAllowance_eq_ok hspend
    exact .of_takeBalance htake rfl rfl fun _ => rfl
  | setAdmin newAdmin =>
    simp only [execute, setAdmin, Except.bind_eq_ok] at h
    obtain ⟨_, -, h⟩ := h
    obtain rfl := Except.ok.inj h
    exact .of_none rfl (fun _ => rfl) rfl

theorem booked_of_step {step : Step} (h : onLedger.exec now step s = .ok (r, s')) :
    Booked step.event s s' := by
  cases step with
  | call call =>
    have he : contract.exec now call s = .ok (r, s') := h
    exact booked_of_execute (exec_eq_ok.mp he)
  | expire owner spender =>
    obtain ⟨-, rfl⟩ := Prod.mk.inj (Except.ok.inj h)
    exact .of_none rfl (fun _ => rfl) rfl

/-! ## Runs -/

/-- The balances and the supply by the books. -/
structure InBooks (events : List Event) (s : State) : Prop where
  events_eq : s.events = events
  balance : ∀ a, balanceOf s a = booked a events + sentToSelf a events
  supply : getTotalSupply s = bookedSupply events
  pos : ∀ src dst amount, .transfer src dst amount ∈ events → 0 < amount

/-- A step keeps the books. -/
theorem InBooks.step {events : List Event} {event : Option Event} (h : InBooks events s)
    (hstep : Booked event s s') : InBooks (events ++ event.toList) s' where
  events_eq := by rw [hstep.events, h.events_eq]
  balance a := by
    rw [hstep.balance, h.balance]
    cases event with
    | none => simp [booked, sentToSelf]
    | some e =>
      simp only [booked, sentToSelf, Option.elim_some, Option.toList_some, List.map_append,
        List.map_singleton, List.sum_append, List.sum_singleton]
      omega
  supply := by
    rw [hstep.supply, h.supply]
    cases event <;> simp [bookedSupply]
  pos src dst amount hmem := by
    rcases List.mem_append.mp hmem with hold | hnew
    · exact h.pos src dst amount hold
    · exact hstep.pos src dst amount (Option.mem_toList.mp hnew)

theorem published_concat {log : List (Commit State Step Unit)} {c : Commit State Step Unit} :
    published (log ++ [c]) = published log ++ c.call.event.toList := by
  rw [published, List.filterMap_append, published]
  cases hevent : c.call.event <;> simp [hevent]

/-- Nothing is sent to oneself exactly when there is no such event. -/
theorem sentToSelf_eq_zero {events : List Event}
    (hpos : ∀ src dst amount, .transfer src dst amount ∈ events → 0 < amount) :
    sentToSelf a events = 0 ↔ ∀ amount, .transfer a a amount ∉ events := by
  have hnonneg : ∀ amount ∈ events.map (Event.toSelf a), 0 ≤ amount := by
    rintro _ hmem
    obtain ⟨event, hevent, rfl⟩ := List.mem_map.mp hmem
    cases event with
    | transfer src dst amount =>
      simp only [Event.toSelf]
      split
      · exact (hpos src dst amount hevent).le
      · exact le_rfl
    | _ => exact le_rfl
  constructor
  · intro hzero amount hmem
    have hamount : (Event.transfer a a amount).toSelf a = 0 :=
      List.all_zero_of_le_zero_le_of_sum_eq_zero hnonneg hzero (List.mem_map_of_mem hmem)
    simp only [Event.toSelf, and_self, if_true] at hamount
    exact (hpos a a amount hmem).ne' hamount
  · intro hnone
    refine List.sum_eq_zero fun amount hmem => ?_
    obtain ⟨event, hevent, rfl⟩ := List.mem_map.mp hmem
    cases event with
    | transfer src dst amount =>
      refine if_neg fun hself => ?_
      obtain ⟨rfl, rfl⟩ := hself
      exact hnone amount hevent
    | _ => rfl

variable {w : World State} {log : List (Commit State Step Unit)}

theorem inBooks_of_run (h : onLedger.Run ⟨now, .empty⟩ w log) :
    InBooks (published log) w.store := by
  refine h.invariant_log (I := fun _ s log => InBooks (published log) s)
    ⟨rfl, fun _ => rfl, rfl, fun _ _ _ hmem => absurd hmem List.not_mem_nil⟩
    (fun _ _ _ _ _ hs => hs) fun t step r s s' log hs he => ?_
  rw [published_concat]
  exact hs.step (booked_of_step he)

/-- **The books.** In every run from the deployment the contract published one event for each call
that moves or grants tokens. The supply is what was minted and not burned. The balance of an
account is what it received and was minted, less what it sent and burned, but that what it sent to
itself is only added; so the books are right for exactly the accounts that sent themselves
nothing. -/
theorem books_of_run (h : onLedger.Run ⟨now, .empty⟩ w log) :
    w.store.events = published log ∧
      getTotalSupply w.store = bookedSupply w.store.events ∧
      ∀ a, balanceOf w.store a = booked a w.store.events + sentToSelf a w.store.events ∧
        (balanceOf w.store a = booked a w.store.events ↔
          ∀ amount, .transfer a a amount ∉ w.store.events) := by
  have hbooks := inBooks_of_run h
  refine ⟨hbooks.events_eq, hbooks.events_eq ▸ hbooks.supply, fun a => ?_⟩
  rw [hbooks.events_eq, ← sentToSelf_eq_zero hbooks.pos, hbooks.balance]
  omega

/-- The account 2 is minted 100, sends 30 to the account 3, has 10 sent to itself by a spender, and
burns 5. -/
def bookedSteps : List (ℕ × Step) :=
  [(1, .call (.init ⟨1⟩ ⟨"Stellara", "STL", 7⟩)), (2, .call (.mint ⟨2⟩ 100)),
    (3, .call (.transfer ⟨2⟩ ⟨3⟩ 30)), (4, .call (.approve ⟨2⟩ ⟨4⟩ 20 9)),
    (5, .call (.transferFrom ⟨4⟩ ⟨2⟩ ⟨2⟩ 10)), (6, .expire ⟨2⟩ ⟨4⟩), (7, .call (.burn ⟨2⟩ 5))]

theorem books_of_run_sample :
    let w := (after bookedSteps).1
    balanceOf w.store ⟨2⟩ = 75 ∧ booked ⟨2⟩ w.store.events = 65 ∧
      w.store.events = published (after bookedSteps).2 ∧
      getTotalSupply w.store = bookedSupply w.store.events ∧
      ∀ a, balanceOf w.store a = booked a w.store.events + sentToSelf a w.store.events ∧
        (balanceOf w.store a = booked a w.store.events ↔
          ∀ amount, .transfer a a amount ∉ w.store.events) :=
  ⟨by decide, by decide, books_of_run (Contract.run_play onLedger ⟨0, .empty⟩ bookedSteps (by decide))⟩

end Stellara.Token
