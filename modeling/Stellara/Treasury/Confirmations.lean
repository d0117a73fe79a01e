import Mathlib.Data.Finset.Card
import Stellara.Treasury.Effects

/-!
# The confirmations of the treasury

In every configuration of every run, also in the middle of nested calls, the count of a
transaction is the number of owners that have confirmed it, no transaction is executed twice,
and those above the threshold were confirmed by enough owners.

## Main definitions

* `State.confirmers`: the owners that have confirmed a transaction
* `State.contents`, `submissions`: the transactions as they are stored and as they were submitted
* `executionsOf`: the calls that executed a transaction
* `Sound`: what relates the storage and the log

## Main results

* `Effect.sound`: what a call preserves
* `sound_of_run`: every run from the deployment
* `confirmations_counted`: the confirmations, executions and contents in every run
-/

namespace Stellara.Treasury

open Evm (Bytes Revert)

abbrev Log := Reentrant.Log State Message

/-- The owners that have confirmed a transaction. -/
def State.confirmers (s : State) (txIndex : ℕ) : Finset Evm.Address :=
  s.owners.toFinset.filter fun account => s.confirmed txIndex account = true

/-- The transaction was marked executed. -/
def State.marked (s : State) (txIndex : ℕ) : Bool := s.transactions[txIndex]?.any (·.executed)

/-- The destinations, values and data of the stored transactions. -/
def State.contents (s : State) : List (Evm.Address × ℕ × Bytes) :=
  s.transactions.map fun txn => (txn.dest, txn.value, txn.data)

/-- The destination, value and data of the transaction that a call submits. -/
def Function.submission? : Function → Option (Evm.Address × ℕ × Bytes)
  | .submitTransaction dest value data => some (dest, value, data)
  | _ => none

/-- The destinations, values and data that were submitted. -/
def submissions (log : Log) : List (Evm.Address × ℕ × Bytes) :=
  log.filterMap fun e => e.call.function.submission?

/-- The calls that executed a transaction. -/
def executionsOf (txIndex : ℕ) (log : Log) : Log :=
  log.filter fun e => e.call.function = .executeTransaction txIndex

/-- What relates the storage and the log, when `required` confirmations are. -/
structure Sound (required : ℕ) (s : State) (log : Log) : Prop where
  required_eq : s.required = required
  isOwner : ∀ account, s.owns account = true ↔ account ∈ s.owners
  count : ∀ i txn, s.transactions[i]? = some txn → txn.numConfirmations = (s.confirmers i).card
  unborn : ∀ i account, s.transactions.length ≤ i → s.confirmed i account = false
  contents_eq : s.contents = submissions log
  executions : ∀ i, (executionsOf i log).length = if s.marked i then 1 else 0
  approved : ∀ e ∈ log, ∀ i txn, e.call.function = .executeTransaction i →
    e.before.transactions[i]? = some txn → e.before.threshold < txn.value →
    required ≤ (e.before.confirmers i).card

/-! ## Reading an updated storage -/

section Lists

variable {α β : Type} {l : List α} {a a' : α} {i j : ℕ}

/-- An element that is overwritten is the new one, and all others stay. -/
theorem getElem?_set_of_some (h : l[i]? = some a) :
    (l.set i a')[j]? = if j = i then some a' else l[j]? := by
  have hlt : i < l.length := (List.getElem?_eq_some_iff.mp h).1
  rw [List.getElem?_set]
  by_cases hij : i = j
  · subst hij
    rw [if_pos rfl, if_pos hlt, if_pos rfl]
  · rw [if_neg hij, if_neg (Ne.symm hij)]

/-- Overwriting an element by one with the same image leaves the images. -/
theorem map_set_of_eq {f : α → β} (h : l[i]? = some a) (hf : f a' = f a) :
    (l.set i a').map f = l.map f := by
  apply List.ext_getElem?
  intro j
  rw [List.getElem?_map, List.getElem?_map, getElem?_set_of_some h]
  split
  · rename_i hj
    rw [hj, h]
    simp [hf]
  · rfl

end Lists

section Reading

variable {s s' : State} {log : Log} {txn txn' : Transaction} {i : ℕ} {account : Evm.Address}
  {e : Commit State Message (Exit Message)}

theorem mem_confirmers :
    account ∈ s.confirmers i ↔ account ∈ s.owners ∧ s.confirmed i account = true := by
  simp [State.confirmers]

theorem confirmed_of_insert {b : Bool} (h : s'.isConfirmed = s.isConfirmed.insert (i, account) b)
    (j : ℕ) (account' : Evm.Address) : s'.confirmed j account' =
      if j = i ∧ account' = account then b else s.confirmed j account' := by
  unfold State.confirmed
  rw [h, Store.lookup_insert_ite]
  by_cases hj : j = i ∧ account' = account
  · rw [if_pos (Prod.ext hj.1 hj.2), if_pos hj]
    rfl
  · rw [if_neg fun heq => hj (Prod.mk.inj heq), if_neg hj]

/-- Confirming adds the owner to those that have confirmed the transaction, and to no others. -/
theorem confirmers_of_confirm (h : s'.isConfirmed = s.isConfirmed.insert (i, account) true)
    (howners : s'.owners = s.owners) (howner : account ∈ s.owners) (j : ℕ) :
    s'.confirmers j = if j = i then insert account (s.confirmers j) else s.confirmers j := by
  ext account'
  rw [mem_confirmers, howners, confirmed_of_insert h]
  by_cases hj : j = i
  · subst hj
    by_cases ha : account' = account
    · subst ha
      simp [howner]
    · simp [ha, mem_confirmers]
  · simp [hj, mem_confirmers]

/-- Revoking removes the owner from those that have confirmed the transaction. -/
theorem confirmers_of_revoke (h : s'.isConfirmed = s.isConfirmed.insert (i, account) false)
    (howners : s'.owners = s.owners) (j : ℕ) :
    s'.confirmers j = if j = i then (s.confirmers j).erase account else s.confirmers j := by
  ext account'
  rw [mem_confirmers, howners, confirmed_of_insert h]
  by_cases hj : j = i
  · subst hj
    by_cases ha : account' = account
    · subst ha
      simp
    · simp [ha, mem_confirmers]
  · simp [hj, mem_confirmers]

theorem confirmers_congr (howners : s'.owners = s.owners)
    (hconfirmed : s'.isConfirmed = s.isConfirmed) : s'.confirmers i = s.confirmers i := by
  unfold State.confirmers State.confirmed
  rw [howners, hconfirmed]

/-- Overwriting a transaction by one with the same mark leaves the marks. -/
theorem marked_of_set (h : s.transactions[i]? = some txn)
    (hs : s'.transactions = s.transactions.set i txn') (j : ℕ) :
    s'.marked j = if j = i then txn'.executed else s.marked j := by
  unfold State.marked
  rw [hs, getElem?_set_of_some h]
  split <;> rfl

theorem submissions_append : submissions (log ++ [e]) =
    submissions log ++ e.call.function.submission?.toList := by
  unfold submissions
  rw [List.filterMap_append]
  cases h : e.call.function.submission? <;> simp [h]

theorem length_executionsOf_append : (executionsOf i (log ++ [e])).length =
    (executionsOf i log).length +
      if e.call.function = .executeTransaction i then 1 else 0 := by
  unfold executionsOf
  rw [List.filter_append, List.length_append]
  split <;> simp [*]

end Reading

/-! ## What a call preserves -/

section Calls

variable {required now i : ℕ} {s s' : State} {log : Log} {txn : Transaction} {m : Message}
  {exit : Exit Message} {abi : Abi} {treasury : Evm.Address}

/-- The log is extended by a call that does not execute a transaction, or executes one that enough
owners have confirmed. -/
theorem Sound.approved_append (h : Sound required s log)
    (hcall : ∀ i txn, m.function = .executeTransaction i → s.transactions[i]? = some txn →
      s.threshold < txn.value → required ≤ (s.confirmers i).card) :
    ∀ e ∈ log ++ [⟨now, m, exit, s, s'⟩], ∀ i txn, e.call.function = .executeTransaction i →
      e.before.transactions[i]? = some txn → e.before.threshold < txn.value →
      required ≤ (e.before.confirmers i).card := by
  intro e he
  rcases List.mem_append.mp he with he | he
  · exact h.approved e he
  · obtain rfl := List.mem_singleton.mp he
    exact hcall

/-- A call that neither submits nor executes, and leaves the owners and the confirmations. -/
theorem Sound.quiet (h : Sound required s log) (hsubmit : m.function.submission? = none)
    (hexecute : ∀ i, m.function ≠ .executeTransaction i)
    (htransactions : s'.transactions = s.transactions) (howners : s'.owners = s.owners)
    (hisOwner : s'.isOwner = s.isOwner) (hrequired : s'.required = s.required)
    (hconfirmed : s'.isConfirmed = s.isConfirmed) :
    Sound required s' (log ++ [⟨now, m, exit, s, s'⟩]) where
  required_eq := hrequired.trans h.required_eq
  isOwner account := by
    unfold State.owns
    rw [hisOwner, howners]
    exact h.isOwner account
  count j txn hlookup := by
    rw [htransactions] at hlookup
    rw [confirmers_congr howners hconfirmed]
    exact h.count j txn hlookup
  unborn j account hle := by
    rw [htransactions] at hle
    unfold State.confirmed
    rw [hconfirmed]
    exact h.unborn j account hle
  contents_eq := by
    rw [submissions_append, hsubmit, Option.toList_none, List.append_nil, ← h.contents_eq]
    unfold State.contents
    rw [htransactions]
  executions j := by
    rw [length_executionsOf_append, if_neg (hexecute j), Nat.add_zero, h.executions]
    unfold State.marked
    rw [htransactions]
  -- the new entry of the log is no execution
  approved := h.approved_append fun i txn hcall => absurd hcall (hexecute i)

/-- A call that overwrites a transaction by one with the same contents. -/
theorem Sound.overwrite (h : Sound required s log) {txn' : Transaction}
    (hsubmit : m.function.submission? = none) (hlookup : s.transactions[i]? = some txn)
    (hs : s'.transactions = s.transactions.set i txn') (hdest : txn'.dest = txn.dest)
    (hvalue : txn'.value = txn.value) (hdata : txn'.data = txn.data) :
    s'.contents = submissions (log ++ [⟨now, m, exit, s, s'⟩]) := by
  rw [submissions_append, hsubmit, Option.toList_none, List.append_nil, ← h.contents_eq]
  unfold State.contents
  rw [hs, map_set_of_eq hlookup (by rw [hdest, hvalue, hdata])]

/-- A confirmation or a revocation: the count follows the owners that have confirmed. -/
theorem Sound.recount (h : Sound required s log) {count : ℕ}
    (hsubmit : m.function.submission? = none)
    (hexecute : ∀ i, m.function ≠ .executeTransaction i)
    (hlookup : s.transactions[i]? = some txn)
    (hs : s'.transactions = s.transactions.set i { txn with numConfirmations := count })
    (howners : s'.owners = s.owners) (hisOwner : s'.isOwner = s.isOwner)
    (hrequired : s'.required = s.required) (hcount : count = (s'.confirmers i).card)
    (hothers : ∀ j, j ≠ i → ∀ account, s'.confirmed j account = s.confirmed j account) :
    Sound required s' (log ++ [⟨now, m, exit, s, s'⟩]) where
  required_eq := hrequired.trans h.required_eq
  isOwner account := by
    unfold State.owns
    rw [hisOwner, howners]
    exact h.isOwner account
  count j txn' hlookup' := by
    rw [hs, getElem?_set_of_some hlookup] at hlookup'
    split at hlookup'
    · rename_i hj
      obtain rfl := Option.some.inj hlookup'
      rw [hj]
      -- the transaction whose confirmations changed
      exact hcount
    · rename_i hj
      rw [h.count j txn' hlookup']
      unfold State.confirmers
      rw [howners]
      simp only [hothers j hj]
  unborn j account hle := by
    rw [hs, List.length_set] at hle
    have hlt : i < s.transactions.length := (List.getElem?_eq_some_iff.mp hlookup).1
    rw [hothers j (by omega)]
    exact h.unborn j account hle
  contents_eq := h.overwrite hsubmit hlookup hs rfl rfl rfl
  executions j := by
    rw [length_executionsOf_append, if_neg (hexecute j), Nat.add_zero, h.executions,
      marked_of_set hlookup hs]
    by_cases hj : j = i
    · rw [if_pos hj, hj, State.marked, hlookup]
      rfl
    · rw [if_neg hj]
  approved := h.approved_append fun i txn hcall => absurd hcall (hexecute i)

/-- A submission: nobody has confirmed the new transaction. -/
theorem Sound.submit (h : Sound required s log) {dest : Evm.Address} {value : ℕ} {data : Bytes}
    (hcall : m.function = .submitTransaction dest value data)
    (hs : s' = { s with
      transactions := s.transactions ++ [newTransaction now dest value data] }) :
    Sound required s' (log ++ [⟨now, m, exit, s, s'⟩]) := by
  have htransactions : s'.transactions =
      s.transactions ++ [newTransaction now dest value data] := by rw [hs]
  have hconfirmed : ∀ j account, s'.confirmed j account = s.confirmed j account := by
    intro j account
    rw [hs]
    rfl
  have hconfirmers : ∀ j, s'.confirmers j = s.confirmers j := by
    intro j
    rw [hs]
    rfl
  -- the new transaction has the next index, which no earlier fact speaks about
  refine ⟨by rw [hs]; exact h.required_eq, by rw [hs]; exact h.isOwner, ?_, ?_, ?_, ?_, ?_⟩
  · intro j txn' hlookup
    rw [hconfirmers]
    rw [htransactions] at hlookup
    rcases Nat.lt_or_ge j s.transactions.length with hlt | hge
    · rw [List.getElem?_append_left hlt] at hlookup
      exact h.count j txn' hlookup
    · -- the new transaction counts no confirmations, and nobody has confirmed it
      rw [List.getElem?_append_right hge] at hlookup
      obtain rfl := List.mem_singleton.mp (List.mem_of_getElem? hlookup)
      have hnone : s.confirmers j = ∅ := by
        refine Finset.eq_empty_of_forall_notMem fun account hmem => ?_
        have htrue := (mem_confirmers.mp hmem).2
        rw [h.unborn j account hge] at htrue
        cases htrue
      rw [hnone]
      rfl
  · intro j account hle
    rw [hconfirmed]
    refine h.unborn j account (le_trans ?_ hle)
    rw [htransactions, List.length_append]
    exact Nat.le_add_right _ _
  · rw [submissions_append, ← h.contents_eq]
    unfold State.contents
    rw [htransactions, List.map_append, hcall]
    rfl
  · intro j
    rw [length_executionsOf_append, if_neg (by rw [hcall]; simp), Nat.add_zero, h.executions]
    unfold State.marked
    rw [htransactions]
    rcases Nat.lt_trichotomy j s.transactions.length with hlt | rfl | hgt
    · rw [List.getElem?_append_left hlt]
    · -- the new transaction is not marked
      simp [newTransaction]
    · rw [List.getElem?_eq_none hgt.le, List.getElem?_eq_none (by
        rw [List.length_append]
        exact hgt)]
  · exact h.approved_append fun i txn hexecute => by rw [hcall] at hexecute; cases hexecute

/-- An execution: the transaction is marked, and was not marked before. -/
theorem Executed.sound (h : Sound required s log) (hcall : m.function = .executeTransaction i)
    (hexecuted : Executed abi treasury now i txn s s') :
    Sound required s' (log ++ [⟨now, m, exit, s, s'⟩]) := by
  -- the calls made during the execution are entries of their own
  obtain ⟨howners, hisOwner, hrequired, -, -, hconfirmed⟩ := hexecuted.frame
  refine ⟨hrequired.trans h.required_eq, ?_, ?_, ?_, ?_, ?_, ?_⟩
  · intro account
    unfold State.owns
    rw [hisOwner, howners]
    exact h.isOwner account
  · intro j txn' hlookup
    rw [confirmers_congr howners hconfirmed]
    rw [hexecuted.transactions, getElem?_set_of_some hexecuted.lookup] at hlookup
    split at hlookup
    · rename_i hj
      obtain rfl := Option.some.inj hlookup
      rw [hj]
      exact h.count i txn hexecuted.lookup
    · exact h.count j txn' hlookup
  · intro j account hle
    rw [hexecuted.transactions, List.length_set] at hle
    unfold State.confirmed
    rw [hconfirmed]
    exact h.unborn j account hle
  · exact h.overwrite (by rw [hcall]; rfl) hexecuted.lookup hexecuted.transactions rfl rfl rfl
  · intro j
    have hmark := marked_of_set hexecuted.lookup hexecuted.transactions j
    rw [length_executionsOf_append, h.executions, hmark, hcall]
    by_cases hj : j = i
    · subst hj
      -- one execution more, of a transaction that was marked for the first time
      have hfresh : s.marked j = false := by
        rw [State.marked, hexecuted.lookup]
        exact hexecuted.fresh
      simp [hfresh]
    · simp [hj, Ne.symm hj]
  · -- above the threshold the count was checked, and the count is that of the owners
    refine h.approved_append fun i' txn' hcall' hlookup hlarge => ?_
    rw [hcall] at hcall'
    obtain rfl := Function.executeTransaction.inj hcall'
    obtain rfl := Option.some.inj (hexecuted.lookup.symm.trans hlookup)
    rw [← h.count i txn hexecuted.lookup, ← h.required_eq]
    exact hexecuted.large hlarge

/-- Every call keeps the storage and the log related. -/
theorem Effect.sound (h : Sound required s log) (heffect : Effect abi treasury now m s s' exit) :
    Sound required s' (log ++ [⟨now, m, exit, s, s'⟩]) := by
  cases heffect with
  | submitted hcall howner hs => exact h.submit hcall hs
  | @confirmed i txn hcall howner hfrozen hlookup hfresh hnot hs =>
    have hstore : s'.isConfirmed = s.isConfirmed.insert (i, m.sender) true := by rw [hs]
    have howners : s'.owners = s.owners := by rw [hs]
    have hmem : m.sender ∈ s.owners := (h.isOwner _).mp howner
    refine h.recount (by rw [hcall]; rfl) (by rw [hcall]; simp) hlookup (by rw [hs]) howners
      (by rw [hs]) (by rw [hs]) ?_ fun j hj account => ?_
    · -- the sender had not confirmed, so one owner more
      rw [confirmers_of_confirm hstore howners hmem, if_pos rfl, Finset.card_insert_of_notMem,
        h.count i txn hlookup]
      intro hin
      rw [(mem_confirmers.mp hin).2] at hnot
      cases hnot
    · rw [confirmed_of_insert hstore, if_neg fun heq => hj heq.1]
  | @revoked i txn hcall howner hfrozen hlookup hfresh hconfirmed hs =>
    have hstore : s'.isConfirmed = s.isConfirmed.insert (i, m.sender) false := by rw [hs]
    have howners : s'.owners = s.owners := by rw [hs]
    have hmem : m.sender ∈ s.owners := (h.isOwner _).mp howner
    refine h.recount (by rw [hcall]; rfl) (by rw [hcall]; simp) hlookup (by rw [hs]) howners
      (by rw [hs]) (by rw [hs]) ?_ fun j hj account => ?_
    · -- the sender had confirmed, so one owner less
      rw [confirmers_of_revoke hstore howners, if_pos rfl, h.count i txn hlookup,
        Finset.card_erase_of_mem (mem_confirmers.mpr ⟨hmem, hconfirmed⟩)]
    · rw [confirmed_of_insert hstore, if_neg fun heq => hj heq.1]
  | executed hcall hexecuted _ => exact hexecuted.sound h hcall
  | limited hcall _ hs | frozen hcall _ hs | unfrozen hcall _ hs | received hcall hs =>
    exact h.quiet (by rw [hcall]; rfl) (by rw [hcall]; simp) (by rw [hs]) (by rw [hs]) (by rw [hs])
      (by rw [hs]) (by rw [hs])
  | viewed hview hs =>
    refine h.quiet ?_ (fun i hcall => ?_) (by rw [hs]) (by rw [hs]) (by rw [hs]) (by rw [hs])
      (by rw [hs])
    · -- a function that only reads submits nothing
      cases hcall : m.function with
      | submitTransaction dest value data => rw [hcall] at hview; cases hview
      | _ => rfl
    · rw [hcall] at hview
      cases hview

end Calls

/-! ## Runs -/

section Runs

variable {abi : Abi} {treasury : Evm.Address} {now required dailyLimit weeklyLimit threshold : ℕ}
  {balance : ℕ} {owners : List Evm.Address} {s₀ : State} {c c' : Reentrant.Config State Message}
  {made made' : List Message}

theorem construct_sound
    (h : construct now owners required dailyLimit weeklyLimit threshold balance = .ok s₀) :
    Sound required s₀ [] := by
  -- there are no transactions, and the log is empty
  obtain ⟨-, howns, hs⟩ := construct_eq_ok h
  have htransactions : s₀.transactions = [] := by rw [hs]; rfl
  have hconfirmed : ∀ i account, s₀.confirmed i account = false := by
    intro i account
    rw [hs]
    rfl
  refine ⟨by rw [hs], howns, ?_, fun i account _ => hconfirmed i account, ?_, ?_, by simp⟩
  · intro i txn hlookup
    rw [htransactions] at hlookup
    cases hlookup
  · rw [State.contents, htransactions]
    rfl
  · intro i
    rw [State.marked, htransactions]
    rfl

/-- In every configuration of every run from the deployment, the storage and the log are related. -/
theorem sound_of_run
    (hdeploy : construct now owners required dailyLimit weeklyLimit threshold balance = .ok s₀)
    (h : (contract abi treasury).Run (.initial now s₀) c made) : Sound required c.store c.log :=
  h.invariant (I := fun _ s log => Sound required s log) (J := fun _ => True) (G := fun _ => True)
    (fun _ _ _ _ _ hs => hs)
    (fun _ _ _ _ _ _ _ _ hs he => ⟨(enter_effect he).sound hs, fun _ _ => trivial⟩)
    (fun _ _ => trivial) rfl (construct_sound hdeploy)

/-- **The confirmations** in every configuration of every run from the deployment: the count of a
transaction is the number of owners that have confirmed it; no transaction is executed twice;
transactions keep their contents as long as nothing is undone; and every executed transaction
above the threshold was confirmed by enough owners. -/
theorem confirmations_counted
    (hdeploy : construct now owners required dailyLimit weeklyLimit threshold balance = .ok s₀)
    (h : (contract abi treasury).Run (.initial now s₀) c made) :
    (∀ i txn, c.store.transactions[i]? = some txn →
        txn.numConfirmations = (c.store.confirmers i).card) ∧
      (∀ i, (executionsOf i c.log).length ≤ 1) ∧
      (∀ c' made', (contract abi treasury).Run c c' made' → c.stack = [] ∨ c.log <+: c'.log →
        c.store.contents <+: c'.store.contents) ∧
      ∀ e ∈ c.log, ∀ i txn, e.call.function = .executeTransaction i →
        e.before.transactions[i]? = some txn → e.before.threshold < txn.value →
        required ≤ (e.before.confirmers i).card := by
  have hsound := sound_of_run hdeploy h
  refine ⟨hsound.count, fun i => ?_, fun c' made' h' hkept => ?_, hsound.approved⟩
  · rw [hsound.executions]
    split
    · exact le_rfl
    · exact Nat.zero_le 1
  · -- the contents are those of the submissions that stand
    have hlog : c.log <+: c'.log := hkept.elim h'.log_prefix id
    rw [hsound.contents_eq, (sound_of_run hdeploy (h.append h')).contents_eq]
    exact hlog.filterMap _

end Runs

/-! ## A deployed treasury -/

/-- The encoding, on data that is empty or calls the unfreeze function. -/
def sampleAbi : Abi where
  unfreezeSelector := [203, 125, 170, 80]
  decode data :=
    if data = [] then some .receive
    else if 4 ≤ data.length ∧ data.take 4 = [203, 125, 170, 80] then some .unfreezeInternal
    else none
  decode_nil := rfl
  decode_unfreeze data := by
    split
    · rename_i hnil
      simp [hnil]
    · split <;> simp [*]

/-- A treasury of three owners, of which two are required above the threshold 20. -/
def sampleStore : State :=
  { State.blank 500 with
    owners := [1, 2, 3]
    isOwner := ((AList.insert 1 true ∅).insert 2 true).insert 3 true
    required := 2
    dailyLimit := 100
    weeklyLimit := 1000
    threshold := 20 }

theorem construct_sample : construct 0 [1, 2, 3] 2 100 1000 20 500 = .ok sampleStore := rfl

/-- A transaction above the threshold, confirmed by two owners, whose execution lets the third
owner submit another. -/
def sampleActions : List (Reentrant.Action Message) :=
  [.call ⟨1, 0, .submitTransaction 7 30 []⟩, .call ⟨1, 0, .confirmTransaction 0⟩,
    .call ⟨2, 0, .confirmTransaction 0⟩, .tick 100, .call ⟨8, 0, .executeTransaction 0⟩,
    .call ⟨3, 0, .submitTransaction 7 5 []⟩, .finish]

/-- The configuration after some actions on the sample treasury, at the address 99. -/
def sampleAfter (actions : List (Reentrant.Action Message)) : Reentrant.Config State Message :=
  ((contract sampleAbi 99).play (.initial 0 sampleStore) actions).1

theorem confirmations_counted_sample :
    (∀ i txn, (sampleAfter sampleActions).store.transactions[i]? = some txn →
        txn.numConfirmations = ((sampleAfter sampleActions).store.confirmers i).card) ∧
      (∀ i, (executionsOf i (sampleAfter sampleActions).log).length ≤ 1) ∧
      (∀ c' made', (contract sampleAbi 99).Run (sampleAfter sampleActions) c' made' →
        (sampleAfter sampleActions).stack = [] ∨ (sampleAfter sampleActions).log <+: c'.log →
        (sampleAfter sampleActions).store.contents <+: c'.store.contents) ∧
      ∀ e ∈ (sampleAfter sampleActions).log, ∀ i txn, e.call.function = .executeTransaction i →
        e.before.transactions[i]? = some txn → e.before.threshold < txn.value →
        2 ≤ (e.before.confirmers i).card :=
  confirmations_counted construct_sample
    (Reentrant.run_play (contract sampleAbi 99) (.initial 0 sampleStore) sampleActions)

example : (sampleAfter sampleActions).store.balance = 470 ∧
    (executionsOf 0 (sampleAfter sampleActions).log).length = 1 := by decide

end Stellara.Treasury
