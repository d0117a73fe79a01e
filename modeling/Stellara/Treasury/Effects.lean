import Stellara.Treasury.Contract

/-!
# The effects of the calls of the treasury

What the own part of every call leaves, up to the call that it makes.

## Main definitions

* `Executed`: what the execution of a transaction leaves
* `Effect`: the effect of a call

## Main results

* `executeTransaction_executed`: what a successful execution required, and what it leaves
* `enter_effect`: every call that returns has one of the effects
-/

namespace Stellara.Treasury

open Evm (Bytes Revert)

variable {abi : Abi} {treasury sender : Evm.Address} {now txIndex : ℕ} {s s' : State}
  {txn : Transaction}

/-- The transaction as it was submitted. -/
def newTransaction (now : ℕ) (dest : Evm.Address) (value : ℕ) (data : Bytes) : Transaction :=
  ⟨dest, value, data, false, 0, now⟩

/-- What the execution of the transaction `txIndex` at the time `now` requires and leaves. -/
structure Executed (abi : Abi) (treasury : Evm.Address) (now txIndex : ℕ) (txn : Transaction)
    (s s' : State) : Prop where
  frozen : s.frozen = false
  lookup : s.transactions[txIndex]? = some txn
  fresh : txn.executed = false
  large : s.threshold < txn.value → s.required ≤ txn.numConfirmations
  unfreeze : isUnfreezeCall abi treasury txn → s.required ≤ txn.numConfirmations
  daily : s.dailyLimit ≠ 0 → s'.daySpent ≤ s.dailyLimit
  weekly : s.weeklyLimit ≠ 0 → s'.weekSpent ≤ s.weeklyLimit
  dayWindowStart : s'.dayWindowStart = now / day
  daySpent : s'.daySpent = (if s.dayWindowStart = now / day then s.daySpent else 0) + txn.value
  weekWindowStart : s'.weekWindowStart = now / week
  weekSpent : s'.weekSpent = (if s.weekWindowStart = now / week then s.weekSpent else 0) + txn.value
  transactions : s'.transactions = s.transactions.set txIndex { txn with executed := true }
  frame : s'.owners = s.owners ∧ s'.isOwner = s.isOwner ∧ s'.required = s.required ∧
    s'.threshold = s.threshold ∧ s'.frozen = s.frozen ∧ s'.isConfirmed = s.isConfirmed

/-- The effect of a call `m` up to the call that it makes. -/
inductive Effect (abi : Abi) (treasury : Evm.Address) (now : ℕ) (m : Message) (s s' : State) :
    Exit Message → Prop
  | submitted {dest : Evm.Address} {value : ℕ} {data : Bytes}
      (hcall : m.function = .submitTransaction dest value data) (howner : s.owns m.sender = true)
      (hs : s' = { s with
        transactions := s.transactions ++ [newTransaction now dest value data] }) :
      Effect abi treasury now m s s' .returns
  | confirmed {i : ℕ} {txn : Transaction} (hcall : m.function = .confirmTransaction i)
      (howner : s.owns m.sender = true) (hfrozen : s.frozen = false)
      (hlookup : s.transactions[i]? = some txn) (hfresh : txn.executed = false)
      (hnot : s.confirmed i m.sender = false)
      (hs : s' = { s with
        isConfirmed := s.isConfirmed.insert (i, m.sender) true
        transactions := s.transactions.set i
          { txn with numConfirmations := txn.numConfirmations + 1 } }) :
      Effect abi treasury now m s s' .returns
  | revoked {i : ℕ} {txn : Transaction} (hcall : m.function = .revokeConfirmation i)
      (howner : s.owns m.sender = true) (hfrozen : s.frozen = false)
      (hlookup : s.transactions[i]? = some txn) (hfresh : txn.executed = false)
      (hconfirmed : s.confirmed i m.sender = true)
      (hs : s' = { s with
        isConfirmed := s.isConfirmed.insert (i, m.sender) false
        transactions := s.transactions.set i
          { txn with numConfirmations := txn.numConfirmations - 1 } }) :
      Effect abi treasury now m s s' .returns
  | executed {i : ℕ} {txn : Transaction} {exit : Exit Message}
      (hcall : m.function = .executeTransaction i) (h : Executed abi treasury now i txn s s')
      (hexit : exit = .outside ∧ txn.dest ≠ treasury ∨
        ∃ function, exit = .self ⟨treasury, txn.value, function⟩ ∧ txn.dest = treasury ∧
          abi.decode txn.data = some function) :
      Effect abi treasury now m s s' exit
  | limited {dailyLimit weeklyLimit threshold : ℕ}
      (hcall : m.function = .updateLimits dailyLimit weeklyLimit threshold)
      (howner : s.owns m.sender = true)
      (hs : s' = { s with
        dailyLimit := dailyLimit, weeklyLimit := weeklyLimit, threshold := threshold }) :
      Effect abi treasury now m s s' .returns
  | frozen (hcall : m.function = .emergencyFreeze) (howner : s.owns m.sender = true)
      (hs : s' = { s with frozen := true }) : Effect abi treasury now m s s' .returns
  | unfrozen (hcall : m.function = .unfreezeInternal) (hself : m.sender = treasury)
      (hs : s' = { s with frozen := false }) : Effect abi treasury now m s s' .returns
  | received (hcall : m.function = .receive)
      (hs : s' = { s with balance := s.balance + m.value }) : Effect abi treasury now m s s' .returns
  | viewed (hview : m.function.isView = true) (hs : s' = s) : Effect abi treasury now m s s' .returns

/-! ## The deployment -/

/-- The loop of the constructor makes owners of the given accounts. -/
theorem foldlM_addOwner {owners : List Evm.Address} (h : owners.foldlM addOwner s = .ok s')
    (howns : ∀ account, s.owns account = true ↔ account ∈ s.owners) :
    (∀ account, s'.owns account = true ↔ account ∈ s'.owners) ∧
      s' = { s with owners := s.owners ++ owners, isOwner := s'.isOwner } := by
  induction owners generalizing s with
  | nil =>
    obtain rfl := Except.ok.inj h
    exact ⟨howns, by rw [List.append_nil]⟩
  | cons o owners ih =>
    rw [List.foldlM_cons, Except.bind_eq_ok] at h
    obtain ⟨s₁, h₁, h⟩ := h
    simp only [addOwner, Except.bind_eq_ok, require_eq_ok, exists_const] at h₁
    obtain ⟨-, -, h₁⟩ := h₁
    obtain rfl := Except.ok.inj h₁
    obtain ⟨howns', hs'⟩ := ih h fun account => by
      unfold State.owns
      rw [Store.lookup_insert_ite]
      by_cases ho : account = o
      · simp [ho]
      · rw [if_neg ho, List.mem_append, List.mem_singleton, or_iff_left ho]
        exact howns account
    refine ⟨howns', hs'.trans ?_⟩
    simp only [List.append_assoc, List.singleton_append]

/-- What the constructor leaves. -/
theorem construct_eq_ok {owners : List Evm.Address}
    {required dailyLimit weeklyLimit threshold balance : ℕ}
    (h : construct now owners required dailyLimit weeklyLimit threshold balance = .ok s) :
    (0 < required ∧ required ≤ owners.length) ∧
      (∀ account, s.owns account = true ↔ account ∈ s.owners) ∧
      s = { State.blank balance with
        owners := owners
        isOwner := s.isOwner
        required := required
        dailyLimit := dailyLimit
        weeklyLimit := weeklyLimit
        threshold := threshold
        dayWindowStart := now / day
        weekWindowStart := now / week } := by
  simp only [construct, Except.bind_eq_ok, require_eq_ok, exists_const] at h
  obtain ⟨-, hrequired, s₁, hloop, h⟩ := h
  obtain ⟨howns, hs₁⟩ := foldlM_addOwner hloop fun account => by simp [State.owns, State.blank]
  obtain rfl := Except.ok.inj h
  refine ⟨hrequired, howns, ?_⟩
  rw [hs₁]
  rfl

/-! ## The functions -/

theorem submitTransaction_eq_ok {dest : Evm.Address} {value : ℕ} {data : Bytes}
    (h : submitTransaction now sender dest value data s = .ok s') :
    s.owns sender = true ∧ s' = { s with
      transactions := s.transactions ++ [newTransaction now dest value data] } := by
  simp only [submitTransaction, onlyOwner, Except.bind_eq_ok, require_eq_ok, exists_const] at h
  exact ⟨h.1, (Except.ok.inj h.2).symm⟩

theorem confirmTransaction_eq_ok (h : confirmTransaction sender txIndex s = .ok s') :
    ∃ txn, (s.owns sender = true ∧ s.frozen = false) ∧ s.transactions[txIndex]? = some txn ∧
      txn.executed = false ∧ s.confirmed txIndex sender = false ∧
      s' = { s with
        isConfirmed := s.isConfirmed.insert (txIndex, sender) true
        transactions := s.transactions.set txIndex
          { txn with numConfirmations := txn.numConfirmations + 1 } } := by
  simp only [confirmTransaction, onlyOwner, notFrozen, findTransaction, Except.bind_eq_ok,
    require_eq_ok, exists_const, orAbort_eq_ok] at h
  obtain ⟨howner, hfrozen, txn, hlookup, hfresh, hnot, count, hcount, h⟩ := h
  obtain rfl := Evm.add_eq_ok hcount
  obtain rfl := Except.ok.inj h
  exact ⟨txn, ⟨howner, hfrozen⟩, hlookup, hfresh, hnot, rfl⟩

theorem revokeConfirmation_eq_ok (h : revokeConfirmation sender txIndex s = .ok s') :
    ∃ txn, (s.owns sender = true ∧ s.frozen = false) ∧ s.transactions[txIndex]? = some txn ∧
      txn.executed = false ∧ s.confirmed txIndex sender = true ∧
      s' = { s with
        isConfirmed := s.isConfirmed.insert (txIndex, sender) false
        transactions := s.transactions.set txIndex
          { txn with numConfirmations := txn.numConfirmations - 1 } } := by
  simp only [revokeConfirmation, onlyOwner, notFrozen, findTransaction, Except.bind_eq_ok,
    require_eq_ok, exists_const, orAbort_eq_ok] at h
  obtain ⟨howner, hfrozen, txn, hlookup, hfresh, hconfirmed, count, hcount, h⟩ := h
  obtain ⟨-, rfl⟩ := Evm.sub_eq_ok hcount
  obtain rfl := Except.ok.inj h
  exact ⟨txn, ⟨howner, hfrozen⟩, hlookup, hfresh, hconfirmed, rfl⟩

theorem updateLimits_eq_ok {dailyLimit weeklyLimit threshold : ℕ}
    (h : updateLimits sender dailyLimit weeklyLimit threshold s = .ok s') :
    s.owns sender = true ∧ s' = { s with
      dailyLimit := dailyLimit, weeklyLimit := weeklyLimit, threshold := threshold } := by
  simp only [updateLimits, onlyOwner, Except.bind_eq_ok, require_eq_ok, exists_const] at h
  exact ⟨h.1, (Except.ok.inj h.2).symm⟩

theorem emergencyFreeze_eq_ok (h : emergencyFreeze sender s = .ok s') :
    s.owns sender = true ∧ s' = { s with frozen := true } := by
  simp only [emergencyFreeze, onlyOwner, Except.bind_eq_ok, require_eq_ok, exists_const] at h
  exact ⟨h.1, (Except.ok.inj h.2).symm⟩

theorem unfreezeInternal_eq_ok (h : unfreezeInternal treasury sender s = .ok s') :
    sender = treasury ∧ s' = { s with frozen := false } := by
  simp only [unfreezeInternal, Except.bind_eq_ok, require_eq_ok, exists_const] at h
  exact ⟨h.1, (Except.ok.inj h.2).symm⟩

/-! ## Executions -/

theorem requireConfirmations_eq_ok {u : Unit} (h : requireConfirmations abi treasury txn s = .ok u) :
    (s.threshold < txn.value → s.required ≤ txn.numConfirmations) ∧
      (isUnfreezeCall abi treasury txn → s.required ≤ txn.numConfirmations) := by
  unfold requireConfirmations at h
  split at h
  · have hrequired := require_eq_ok.mp h
    exact ⟨fun _ => hrequired, fun _ => hrequired⟩
  split at h
  · have hrequired := require_eq_ok.mp h
    exact ⟨fun _ => hrequired, fun _ => hrequired⟩
  · -- neither above the threshold nor a call to unfreeze, so nothing is required
    exact ⟨fun hlarge => absurd hlarge ‹_›, fun hcall => absurd hcall ‹_›⟩

theorem enforceLimit_eq_ok {limit spent value : ℕ} {message : String} {u : Unit}
    (h : enforceLimit limit spent value message = .ok u) : limit ≠ 0 → spent + value ≤ limit := by
  intro hlimit
  rw [enforceLimit, if_pos (Nat.pos_of_ne_zero hlimit)] at h
  simp only [Except.bind_eq_ok, require_eq_ok] at h
  obtain ⟨total, htotal, hle⟩ := h
  rw [Evm.add_eq_ok htotal] at hle
  exact hle

/-- Windows that are started anew are the current ones, and nothing was spent in them. -/
theorem updateWindows_eq : updateWindows now s = { s with
    dayWindowStart := now / day
    daySpent := if s.dayWindowStart = now / day then s.daySpent else 0
    weekWindowStart := now / week
    weekSpent := if s.weekWindowStart = now / week then s.weekSpent else 0 } := by
  obtain ⟨⟩ := s
  unfold updateWindows
  simp only [ne_eq, ite_not]
  -- a window that is current keeps what was spent in it
  split <;> split <;> simp_all

theorem executeTransaction_executed {exit : Exit Message}
    (h : executeTransaction abi treasury now txIndex s = .ok (s', exit)) :
    ∃ txn, Executed abi treasury now txIndex txn s s' ∧
      (exit = .outside ∧ txn.dest ≠ treasury ∨
        ∃ function, exit = .self ⟨treasury, txn.value, function⟩ ∧ txn.dest = treasury ∧
          abi.decode txn.data = some function) := by
  simp only [executeTransaction, notFrozen, findTransaction, setTransaction, updateWindows_eq,
    Except.bind_eq_ok, require_eq_ok, exists_const, orAbort_eq_ok] at h
  obtain ⟨hfrozen, txn, hlookup, hfresh, _, hconfirmations, _, hdaily, _, hweekly, daySpent, hday,
    weekSpent, hweek, -, h⟩ := h
  obtain ⟨hlarge, hunfreeze⟩ := requireConfirmations_eq_ok hconfirmations
  -- both exits leave the same storage
  have hexecuted : ∀ t : State, t = { s with
      dayWindowStart := now / day
      daySpent := daySpent
      weekWindowStart := now / week
      weekSpent := weekSpent
      transactions := s.transactions.set txIndex { txn with executed := true }
      balance := s.balance - txn.value } → Executed abi treasury now txIndex txn s t := by
    rintro t rfl
    exact
      { frozen := hfrozen
        lookup := hlookup
        fresh := hfresh
        large := hlarge
        unfreeze := hunfreeze
        daily := fun hlimit => (Evm.add_eq_ok hday).le.trans (enforceLimit_eq_ok hdaily hlimit)
        weekly := fun hlimit => (Evm.add_eq_ok hweek).le.trans (enforceLimit_eq_ok hweekly hlimit)
        dayWindowStart := rfl
        daySpent := Evm.add_eq_ok hday
        weekWindowStart := rfl
        weekSpent := Evm.add_eq_ok hweek
        transactions := rfl
        frame := ⟨rfl, rfl, rfl, rfl, rfl, rfl⟩ }
  split at h
  · rename_i hdest
    simp only [Except.bind_eq_ok, orAbort_eq_ok] at h
    -- the treasury calls itself, with the function its data decode to
    obtain ⟨function, hdecode, h⟩ := h
    obtain ⟨rfl, rfl⟩ := Prod.mk.inj (Except.ok.inj h)
    exact ⟨txn, hexecuted _ rfl, .inr ⟨function, rfl, hdest, hdecode⟩⟩
  · rename_i hdest
    obtain ⟨rfl, rfl⟩ := Prod.mk.inj (Except.ok.inj h)
    exact ⟨txn, hexecuted _ rfl, .inl ⟨rfl, hdest⟩⟩

/-! ## Calls -/

/-- A function that makes no call ends where it returns. -/
theorem returns_eq_ok {x : Except Revert State} {exit : Exit Message}
    (h : (·, Exit.returns) <$> x = .ok (s', exit)) : x = .ok s' ∧ exit = .returns := by
  obtain ⟨t, ht, rfl, rfl⟩ := Except.map_pair_eq_ok.mp h
  exact ⟨ht, rfl⟩

/-- Every call that returns has one of the effects. -/
theorem enter_effect {m : Message} {exit : Exit Message}
    (h : enter abi treasury now m s = .ok (s', exit)) : Effect abi treasury now m s s' exit := by
  simp only [enter, Except.bind_eq_ok, require_eq_ok, exists_const] at h
  obtain ⟨hvalue, h⟩ := h
  by_cases hreceive : m.function = .receive
  · -- the only function that takes ether
    rw [hreceive] at h
    obtain ⟨rfl, rfl⟩ := Prod.mk.inj (Except.ok.inj h)
    exact .received hreceive rfl
  -- every other function takes no ether
  rw [hvalue.resolve_right hreceive] at h
  change execute abi treasury now m.sender s m.function = _ at h
  cases hcall : m.function with
  | submitTransaction dest value data =>
    rw [hcall] at h
    obtain ⟨ht, rfl⟩ := returns_eq_ok h
    obtain ⟨howner, hs⟩ := submitTransaction_eq_ok ht
    exact .submitted hcall howner hs
  | confirmTransaction i =>
    rw [hcall] at h
    obtain ⟨ht, rfl⟩ := returns_eq_ok h
    obtain ⟨txn, ⟨howner, hfrozen⟩, hlookup, hfresh, hnot, hs⟩ := confirmTransaction_eq_ok ht
    exact .confirmed hcall howner hfrozen hlookup hfresh hnot hs
  | revokeConfirmation i =>
    rw [hcall] at h
    obtain ⟨ht, rfl⟩ := returns_eq_ok h
    obtain ⟨txn, ⟨howner, hfrozen⟩, hlookup, hfresh, hconfirmed, hs⟩ := revokeConfirmation_eq_ok ht
    exact .revoked hcall howner hfrozen hlookup hfresh hconfirmed hs
  | executeTransaction i =>
    rw [hcall] at h
    obtain ⟨txn, hexecuted, hexit⟩ := executeTransaction_executed h
    exact .executed hcall hexecuted hexit
  | updateLimits dailyLimit weeklyLimit threshold =>
    rw [hcall] at h
    obtain ⟨ht, rfl⟩ := returns_eq_ok h
    obtain ⟨howner, hs⟩ := updateLimits_eq_ok ht
    exact .limited hcall howner hs
  | emergencyFreeze =>
    rw [hcall] at h
    obtain ⟨ht, rfl⟩ := returns_eq_ok h
    obtain ⟨howner, hs⟩ := emergencyFreeze_eq_ok ht
    exact .frozen hcall howner hs
  | unfreezeInternal =>
    rw [hcall] at h
    obtain ⟨ht, rfl⟩ := returns_eq_ok h
    obtain ⟨hself, hs⟩ := unfreezeInternal_eq_ok ht
    exact .unfrozen hcall hself hs
  | getTransaction index | transactions index | owners index =>
    rw [hcall] at h
    simp only [execute, Except.bind_eq_ok, require_eq_ok, exists_const] at h
    obtain ⟨rfl, rfl⟩ := Prod.mk.inj (Except.ok.inj h.2)
    exact .viewed (by rw [hcall]; rfl) rfl
  | getOwners | getTransactionCount | getter =>
    rw [hcall] at h
    obtain ⟨rfl, rfl⟩ := Prod.mk.inj (Except.ok.inj h)
    exact .viewed (by rw [hcall]; rfl) rfl
  | receive => exact absurd hcall hreceive

end Stellara.Treasury
