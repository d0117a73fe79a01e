import Stellara.Token.Supply

/-!
# The allowances of the token contract

An owner approves a spender for an amount, which the calls of the spender consume; an approval
replaces what is left of the one before. Allowances are temporary entries of the storage, so an
entry can expire between any two calls, and then nothing is left of it. In every order of calls a
spender takes no more than was approved, and an account that signs nothing loses no more than it had
granted.

## Main definitions

* `Step`, `onLedger`: the calls of the contract, on a ledger whose temporary entries expire
* `takenBy`: what a spender has taken from an owner
* `granted`: what all spenders can still take from an account
* `Effect`: what a step does to the allowances and to the balances

## Main results

* `approval_accounted`: what is taken after an approval, and what is left of it
* `loss_le_granted`: what an account loses that signs nothing
-/

namespace Stellara.Token

variable {now : ℕ} {s s' : State} {owner spender a : Address} {amount : ℤ} {r : Unit}

/-! ## Temporary entries -/

/-- What happens on the ledger: a call, or the end of a temporary entry. -/
inductive Step where
  | call (call : Call)
  | expire (owner spender : Address)
deriving DecidableEq, Repr

def expire (owner spender : Address) (s : State) : State :=
  { s with allowances := s.allowances.erase (owner, spender) }

/-- The token contract on a ledger where a temporary entry can expire at any time. -/
def onLedger : Contract State Step Unit (Fault Empty) where
  exec now step s :=
    match step with
    | .call call => contract.exec now call s
    | .expire owner spender => .ok ((), expire owner spender s)

/-- What a step takes from `owner` for `spender`. -/
def taken (owner spender : Address) : Step → ℤ
  | .call (.transferFrom spender' src _ amount) | .call (.burnFrom spender' src amount) =>
    if src = owner ∧ spender' = spender then amount else 0
  | _ => 0

/-- What the steps of a log took from `owner` for `spender`. -/
def takenBy (owner spender : Address) (log : List (Commit State Step Unit)) : ℤ :=
  (log.map fun c => taken owner spender c.call).sum

/-- The approvals of `spender` by `owner`. -/
def Approves (owner spender : Address) : Step → Prop
  | .call (.approve owner' spender' _ _) => owner' = owner ∧ spender' = spender
  | _ => False

instance : DecidablePred (Approves owner spender) := fun step => by
  unfold Approves
  split <;> infer_instance

/-- The calls that move or grant the tokens of `a` on the authorisation of `a`. -/
def SignedBy (a : Address) : Step → Prop
  | .call (.transfer src _ _) | .call (.burn src _) | .call (.approve src _ _ _) => src = a
  | _ => False

instance : DecidablePred (SignedBy a) := fun step => by
  unfold SignedBy
  split <;> infer_instance

/-- What all spenders together can still take from `a`. -/
def granted (s : State) (a : Address) : ℤ :=
  Store.total (fun key amount => if key.1 = a then amount else 0) s.allowances

/-! ## What a step does -/

/-- What a step does to the allowances, and to the balances. -/
inductive Effect (step : Step) (s s' : State) : Prop
  | approved {owner spender : Address} {amount : ℤ} {expirationLedger : ℕ}
      (hstep : step = .call (.approve owner spender amount expirationLedger)) (hamount : 0 ≤ amount)
      (hallowances : s'.allowances = s.allowances.insert (owner, spender) amount)
      (hbalances : ∀ a, balanceOf s' a = balanceOf s a)
  | spent {owner spender : Address} {amount : ℤ}
      (htaken : ∀ owner' spender', taken owner' spender' step =
        if owner = owner' ∧ spender = spender' then amount else 0)
      (hkind : ∀ owner' spender', ¬ Approves owner' spender' step ∧ step ≠ .expire owner' spender')
      (hpos : 0 < amount) (hle : amount ≤ allowance s owner spender)
      (hallowances : s'.allowances =
        s.allowances.insert (owner, spender) (allowance s owner spender - amount))
      (hbalances : ∀ a, balanceOf s a ≤ balanceOf s' a + if a = owner then amount else 0)
  | expired {owner spender : Address} (hstep : step = .expire owner spender)
      (hs : s' = expire owner spender s)
  | kept (htaken : ∀ owner spender, taken owner spender step = 0)
      (hkind : ∀ owner spender, ¬ Approves owner spender step ∧ step ≠ .expire owner spender)
      (hallowances : s'.allowances = s.allowances)
      (hbalances : ∀ a, ¬ SignedBy a step → balanceOf s a ≤ balanceOf s' a)

/-- A movement of tokens takes them from one account only. -/
theorem balanceOf_moveBalance {src dst : Address} (hpos : 0 < amount)
    (h : moveBalance src dst amount s = .ok s') (a : Address) :
    balanceOf s a ≤ balanceOf s' a + if a = src then amount else 0 := by
  obtain ⟨-, rfl⟩ := moveBalance_eq_ok h
  rw [balanceOf_setBalance, balanceOf_setBalance]
  by_cases hdst : a = dst
  · subst hdst
    rw [if_pos rfl]
    split <;> omega
  · rw [if_neg hdst]
    split
    · rename_i hsrc
      rw [hsrc, sub_add_cancel]
    · rw [add_zero]

theorem balanceOf_takeBalance {src : Address} (h : takeBalance src amount s = .ok s')
    (a : Address) : balanceOf s a ≤ balanceOf s' a + if a = src then amount else 0 := by
  obtain ⟨-, rfl⟩ := takeBalance_eq_ok h
  rw [balanceOf_setTotalSupply, balanceOf_setBalance]
  split
  · rename_i hsrc
    rw [hsrc, sub_add_cancel]
  · rw [add_zero]

theorem allowances_moveBalance {src dst : Address} (h : moveBalance src dst amount s = .ok s') :
    s'.allowances = s.allowances := by
  obtain ⟨-, rfl⟩ := moveBalance_eq_ok h
  rfl

theorem allowances_takeBalance {src : Address} (h : takeBalance src amount s = .ok s') :
    s'.allowances = s.allowances := by
  obtain ⟨-, rfl⟩ := takeBalance_eq_ok h
  rfl

/-- A spender consumes what it takes, which is not more than its allowance. -/
theorem spendAllowance_le (h : spendAllowance owner spender amount s = .ok s') :
    amount ≤ allowance s owner spender := by
  simp only [spendAllowance, Except.bind_eq_ok, require_eq_ok, exists_const] at h
  exact h.1

theorem effect_of_execute {call : Call} (h : execute s call = .ok s') :
    Effect (.call call) s s' := by
  cases call with
  | init admin metadata =>
    simp only [execute, init, Except.bind_eq_ok, require_eq_ok, exists_const] at h
    obtain ⟨-, h⟩ := h
    obtain rfl := Except.ok.inj h
    exact .kept (fun _ _ => rfl) (fun _ _ => ⟨id, by simp⟩) rfl fun _ _ => le_rfl
  | transfer src dst amount =>
    simp only [execute, transfer, Except.bind_eq_ok, require_eq_ok, exists_const] at h
    obtain ⟨hpos, s₁, hmove, h⟩ := h
    obtain rfl := Except.ok.inj h
    refine .kept (fun _ _ => rfl) (fun _ _ => ⟨id, by simp⟩) (allowances_moveBalance hmove :)
      fun a hsigned => ?_
    have hle := balanceOf_moveBalance hpos hmove a
    rwa [if_neg fun heq => hsigned heq.symm, add_zero] at hle
  | transferFrom spender src dst amount =>
    simp only [execute, transferFrom, Except.bind_eq_ok, require_eq_ok, exists_const] at h
    obtain ⟨hpos, s₁, hspend, s₂, hmove, h⟩ := h
    obtain rfl := Except.ok.inj h
    have hle := spendAllowance_le hspend
    obtain rfl := spendAllowance_eq_ok hspend
    exact .spent (fun _ _ => rfl) (fun _ _ => ⟨id, by simp⟩) hpos hle
      (allowances_moveBalance hmove :) fun a => (balanceOf_moveBalance hpos hmove a :)
  | approve owner spender amount expirationLedger =>
    simp only [execute, approve, Except.bind_eq_ok, require_eq_ok, exists_const] at h
    obtain ⟨hamount, h⟩ := h
    obtain rfl := Except.ok.inj h
    exact .approved rfl hamount rfl fun _ => rfl
  | mint dst amount =>
    simp only [execute, mint, Except.bind_eq_ok, require_eq_ok, IntFormat.checked_eq_ok,
      exists_const] at h
    obtain ⟨_, -, hpos, _, ⟨-, rfl⟩, _, ⟨-, rfl⟩, h⟩ := h
    obtain rfl := Except.ok.inj h
    refine .kept (fun _ _ => rfl) (fun _ _ => ⟨id, by simp⟩) rfl fun a _ => ?_
    rw [balanceOf_publish, balanceOf_setTotalSupply, balanceOf_setBalance]
    split
    · rename_i heq
      rw [heq]
      omega
    · exact le_rfl
  | burn src amount =>
    simp only [execute, burn, Except.bind_eq_ok, require_eq_ok, exists_const] at h
    obtain ⟨-, s₁, htake, h⟩ := h
    obtain rfl := Except.ok.inj h
    refine .kept (fun _ _ => rfl) (fun _ _ => ⟨id, by simp⟩) (allowances_takeBalance htake :)
      fun a hsigned => ?_
    have hle := balanceOf_takeBalance htake a
    rwa [if_neg fun heq => hsigned heq.symm, add_zero] at hle
  | burnFrom spender src amount =>
    simp only [execute, burnFrom, Except.bind_eq_ok, require_eq_ok, exists_const] at h
    obtain ⟨hpos, s₁, hspend, s₂, htake, h⟩ := h
    obtain rfl := Except.ok.inj h
    have hle := spendAllowance_le hspend
    obtain rfl := spendAllowance_eq_ok hspend
    exact .spent (fun _ _ => rfl) (fun _ _ => ⟨id, by simp⟩) hpos hle
      (allowances_takeBalance htake :) fun a => (balanceOf_takeBalance htake a :)
  | setAdmin newAdmin =>
    simp only [execute, setAdmin, Except.bind_eq_ok] at h
    obtain ⟨_, -, h⟩ := h
    obtain rfl := Except.ok.inj h
    exact .kept (fun _ _ => rfl) (fun _ _ => ⟨id, by simp⟩) rfl fun _ _ => le_rfl

theorem step_effect {step : Step} (h : onLedger.exec now step s = .ok (r, s')) :
    Effect step s s' := by
  cases step with
  | call call =>
    have he : contract.exec now call s = .ok (r, s') := h
    exact effect_of_execute (exec_eq_ok.mp he)
  | expire owner spender =>
    obtain ⟨-, rfl⟩ := Prod.mk.inj (Except.ok.inj h)
    exact .expired rfl rfl

/-! ## One allowance -/

variable {step : Step}

theorem allowance_of_insert {owner' spender' : Address}
    (h : s'.allowances = s.allowances.insert (owner, spender) amount) :
    allowance s' owner' spender' =
      if owner = owner' ∧ spender = spender' then amount else allowance s owner' spender' := by
  rw [allowance, h, Store.lookup_insert_ite]
  by_cases heq : owner = owner' ∧ spender = spender'
  · rw [if_pos heq, if_pos (by rw [heq.1, heq.2])]
    rfl
  · rw [if_neg heq, if_neg fun hkey => heq ⟨(congrArg Prod.fst hkey).symm,
      (congrArg Prod.snd hkey).symm⟩]
    rfl

theorem allowance_expire {owner' spender' : Address} :
    allowance (expire owner spender s) owner' spender' =
      if owner = owner' ∧ spender = spender' then 0 else allowance s owner' spender' := by
  simp only [allowance, expire, Store.lookup_erase_ite, Prod.mk.injEq]
  by_cases heq : owner = owner' ∧ spender = spender'
  · rw [if_pos heq, if_pos ⟨heq.1.symm, heq.2.symm⟩]
    rfl
  · rw [if_neg heq, if_neg fun hkey => heq ⟨hkey.1.symm, hkey.2.symm⟩]

/-- What a log took for a spender and what is left add up to `amount`, unless what was left has
expired. -/
structure Accounted (owner spender : Address) (amount : ℤ) (log : List (Commit State Step Unit))
    (s : State) : Prop where
  taken_nonneg : 0 ≤ takenBy owner spender log
  left_nonneg : 0 ≤ allowance s owner spender
  within : takenBy owner spender log + allowance s owner spender ≤ amount
  exact : (∀ c ∈ log, c.call ≠ .expire owner spender) →
    takenBy owner spender log + allowance s owner spender = amount

theorem takenBy_concat {log : List (Commit State Step Unit)} {c : Commit State Step Unit} :
    takenBy owner spender (log ++ [c]) = takenBy owner spender log + taken owner spender c.call := by
  simp [takenBy]

/-- A step that is no approval takes from the allowance what it takes from the owner. -/
theorem Effect.allowance (h : Effect step s s') (happroves : ¬ Approves owner spender step)
    (hleft : 0 ≤ allowance s owner spender) :
    0 ≤ taken owner spender step ∧ 0 ≤ Token.allowance s' owner spender ∧
      taken owner spender step + Token.allowance s' owner spender ≤ Token.allowance s owner spender ∧
      (step ≠ .expire owner spender →
        taken owner spender step + Token.allowance s' owner spender =
          Token.allowance s owner spender) := by
  cases h with
  | @approved owner' spender' amount _ hstep _ hallowances _ =>
    subst hstep
    have hne : ¬ (owner' = owner ∧ spender' = spender) := happroves
    rw [allowance_of_insert hallowances, if_neg hne]
    exact ⟨le_rfl, hleft, (zero_add _).le, fun _ => zero_add _⟩
  | @spent owner' spender' amount htaken _ hpos hle hallowances _ =>
    rw [allowance_of_insert hallowances, htaken]
    split
    · rename_i heq
      obtain ⟨rfl, rfl⟩ := heq
      omega
    · omega
  | @expired owner' spender' hstep hs =>
    subst hstep hs
    rw [allowance_expire]
    show 0 ≤ (0 : ℤ) ∧ _ ∧ 0 + _ ≤ _ ∧ (_ → 0 + _ = _)
    split
    · rename_i heq
      obtain ⟨rfl, rfl⟩ := heq
      exact ⟨le_rfl, le_rfl, by omega, fun hne => absurd rfl hne⟩
    · omega
  | kept htaken _ hallowances _ =>
    have heq : Token.allowance s' owner spender = Token.allowance s owner spender := by
      rw [Token.allowance, hallowances, Token.allowance]
    rw [htaken, heq]
    omega

variable {w w₀ w' : World State} {log log' : List (Commit State Step Unit)}

/-- While nothing is approved, what was left at the start is taken, left, or has expired. -/
theorem accounted_of_run (h : onLedger.Run w₀ w log)
    (hstart : 0 ≤ allowance w₀.store owner spender)
    (happroves : ∀ c ∈ log, ¬ Approves owner spender c.call) :
    Accounted owner spender (allowance w₀.store owner spender) log w.store := by
  refine h.invariant_log (I := fun _ s log => (∀ c ∈ log, ¬ Approves owner spender c.call) →
    Accounted owner spender (allowance w₀.store owner spender) log s)
    (fun _ => ⟨le_rfl, hstart, (zero_add _).le, fun _ => zero_add _⟩) (fun _ _ _ _ _ hs => hs)
    (fun t step r s s' log ih he hall => ?_) happroves
  rw [List.forall_mem_append, List.forall_mem_singleton] at hall
  obtain ⟨htaken, hleft, hwithin, hexact⟩ := ih hall.1
  obtain ⟨htaken', hleft', hwithin', hexact'⟩ := (step_effect he).allowance hall.2 hleft
  constructor
  · rw [takenBy_concat]
    exact add_nonneg htaken htaken'
  · exact hleft'
  · rw [takenBy_concat]
    dsimp only
    omega
  · intro hexpire
    rw [List.forall_mem_append, List.forall_mem_singleton] at hexpire
    have hold := hexact hexpire.1
    have hnew := hexact' hexpire.2
    rw [takenBy_concat]
    dsimp only
    omega

/-- **Allowances.** In every run from the deployment, what a spender has taken from an owner since
an approval and what is left of it add up to the approved amount, or stay below when the entry has
expired, until the owner approves the spender again. Nothing is taken before the first approval. -/
theorem approval_accounted (h : onLedger.Run ⟨now, .empty⟩ w log) :
    (∀ past c rest expirationLedger, log = past ++ c :: rest →
        c.call = .call (.approve owner spender amount expirationLedger) →
        (∀ c' ∈ rest, ¬ Approves owner spender c'.call) →
        Accounted owner spender amount rest w.store) ∧
      ((∀ c ∈ log, ¬ Approves owner spender c.call) →
        takenBy owner spender log = 0 ∧ allowance w.store owner spender = 0) := by
  constructor
  · intro past c rest expirationLedger hlog hcall happroves
    obtain ⟨time, call, _, s, s'⟩ := c
    obtain rfl := hcall
    have he := h.exec_of_mem _ (hlog ▸ List.mem_append_right past List.mem_cons_self)
    have hafter : allowance s' owner spender = amount ∧ 0 ≤ amount := by
      cases step_effect he with
      | approved hstep hamount hallowances _ =>
        obtain ⟨rfl, rfl, rfl, -⟩ := Call.approve.inj (Step.call.inj hstep)
        rw [allowance_of_insert hallowances, if_pos ⟨rfl, rfl⟩]
        exact ⟨rfl, hamount⟩
      | spent _ hkind _ _ _ _ => exact absurd ⟨rfl, rfl⟩ (hkind owner spender).1
      | expired hstep _ => cases hstep
      | kept _ hkind _ _ => exact absurd ⟨rfl, rfl⟩ (hkind owner spender).1
    have haccounted : Accounted owner spender (allowance s' owner spender) rest w.store :=
      accounted_of_run (h.from_commit hlog) (hafter.1.symm ▸ hafter.2) happroves
    exact hafter.1 ▸ haccounted
  · intro happroves
    obtain ⟨htaken, hleft, hwithin, -⟩ := accounted_of_run h le_rfl happroves
    have hzero : allowance (World.mk now State.empty).store owner spender = 0 := rfl
    omega

/-- The account 2 approves the account 3 for 60; 25 are taken, and a call for 40 more aborts. -/
def approvedSteps : List (ℕ × Step) :=
  [(1, .call (.init ⟨1⟩ ⟨"Stellara", "STL", 7⟩)), (2, .call (.mint ⟨2⟩ 100)),
    (3, .call (.approve ⟨2⟩ ⟨3⟩ 60 9)), (4, .call (.transferFrom ⟨3⟩ ⟨2⟩ ⟨4⟩ 25)),
    (5, .call (.burnFrom ⟨3⟩ ⟨2⟩ 40))]

/-- The ledger after some steps from the deployment, and the commits so far. -/
def after (steps : List (ℕ × Step)) : World State × List (Commit State Step Unit) :=
  onLedger.play ⟨0, .empty⟩ steps

theorem approval_accounted_sample :
    takenBy ⟨2⟩ ⟨3⟩ (after approvedSteps).2 = 25 ∧
      Accounted ⟨2⟩ ⟨3⟩ 60 ((after approvedSteps).2.drop 3) (after approvedSteps).1.store :=
  ⟨by decide, (approval_accounted (Contract.run_play onLedger _ approvedSteps (by decide))).1
    ((after approvedSteps).2.take 2) _ _ 9 rfl rfl (by decide)⟩

/-! ## All allowances of an account -/

/-- No stored allowance is negative. -/
def AllowancesNonneg (s : State) : Prop :=
  ∀ key amount, s.allowances.lookup key = some amount → 0 ≤ amount

theorem granted_nonneg (h : AllowancesNonneg s) : 0 ≤ granted s a :=
  Store.total_nonneg fun key amount hkey => by
    split
    · exact h key amount hkey
    · exact le_rfl

theorem AllowancesNonneg.insert (h : AllowancesNonneg s) (hamount : 0 ≤ amount)
    (hallowances : s'.allowances = s.allowances.insert (owner, spender) amount) :
    AllowancesNonneg s' := by
  intro key amount' hkey
  rw [hallowances] at hkey
  rcases Store.eq_or_lookup_of_insert hkey with ⟨-, rfl⟩ | ⟨-, hold⟩
  · exact hamount
  · exact h key amount' hold

theorem AllowancesNonneg.after (h : AllowancesNonneg s) (heffect : Effect step s s') :
    AllowancesNonneg s' := by
  cases heffect with
  | approved _ hamount hallowances _ => exact h.insert hamount hallowances
  | spent _ _ _ hle hallowances _ => exact h.insert (by omega) hallowances
  | expired _ hs =>
    intro key amount hkey
    simp only [hs, expire, Store.lookup_erase_ite, Option.ite_none_left_eq_some] at hkey
    exact h key amount hkey.2
  | kept _ _ hallowances _ =>
    intro key amount hkey
    exact h key amount (hallowances ▸ hkey)

theorem granted_of_insert
    (h : s'.allowances = s.allowances.insert (owner, spender) amount) :
    granted s' a = granted s a + if owner = a then amount - allowance s owner spender else 0 := by
  have hsum := Store.total_insert_elim (m := s.allowances) (k := (owner, spender)) (v := amount)
    (f := fun key amount => if key.1 = a then amount else 0)
  rw [← h] at hsum
  have hold : (s.allowances.lookup (owner, spender)).elim (0 : ℤ)
      (fun amount => if owner = a then amount else 0) =
        if owner = a then allowance s owner spender else 0 := by
    unfold allowance
    cases s.allowances.lookup (owner, spender) <;> simp
  dsimp only at hsum
  rw [hold] at hsum
  unfold granted
  split at hsum <;> rename_i heq
  · rw [if_pos heq]
    omega
  · rw [if_neg heq]
    omega

theorem granted_expire (h : AllowancesNonneg s) :
    granted (expire owner spender s) a ≤ granted s a := by
  simp only [granted, expire]
  cases hlookup : s.allowances.lookup (owner, spender) with
  | none => rw [Store.erase_eq_self hlookup]
  | some amount =>
    have hsum := Store.total_erase (f := fun key amount => if key.1 = a then amount else 0) hlookup
    have hamount := h _ _ hlookup
    dsimp only at hsum
    split at hsum <;> omega

/-- A step that `a` does not sign takes from `a` only what it takes from what `a` has granted. -/
theorem Effect.loss_le (h : Effect step s s') (hs : AllowancesNonneg s)
    (hsigned : ¬ SignedBy a step) :
    balanceOf s a - granted s a ≤ balanceOf s' a - granted s' a := by
  cases h with
  | @approved owner spender amount _ hstep _ hallowances hbalances =>
    subst hstep
    have howner : owner ≠ a := hsigned
    rw [granted_of_insert hallowances, if_neg howner, hbalances]
    omega
  | @spent owner spender amount _ _ _ _ hallowances hbalances =>
    have hbalance := hbalances a
    rw [granted_of_insert hallowances]
    by_cases heq : owner = a
    · rw [if_pos heq.symm] at hbalance
      rw [if_pos heq]
      omega
    · rw [if_neg (Ne.symm heq)] at hbalance
      rw [if_neg heq]
      omega
  | @expired owner spender _ hs' =>
    have hgranted : granted (expire owner spender s) a ≤ granted s a := granted_expire hs
    have hbalance : balanceOf s' a = balanceOf s a := by rw [hs']; rfl
    rw [hbalance, hs']
    omega
  | kept _ _ hallowances hbalances =>
    have hbalance := hbalances a hsigned
    have hgranted : granted s' a = granted s a := by rw [granted, hallowances, granted]
    omega

/-- **Losses.** From any state of any run, an account that signs nothing loses no more than what it
has granted falls by, and this never falls below zero. -/
theorem loss_le_granted (h : onLedger.Run ⟨now, .empty⟩ w log) (h' : onLedger.Run w w' log')
    (hsigned : ∀ c ∈ log', ¬ SignedBy a c.call) :
    balanceOf w.store a - balanceOf w'.store a ≤ granted w.store a - granted w'.store a ∧
      0 ≤ granted w'.store a := by
  have hnonneg : AllowancesNonneg w.store := h.invariant (I := AllowancesNonneg)
    (fun _ _ _ _ _ hs he => hs.after (step_effect he)) (fun key amount hkey => by cases hkey)
  obtain ⟨hend, hloss⟩ := h'.invariant_of_forall (G := fun c => ¬ SignedBy a c.call)
    (I := fun s => AllowancesNonneg s ∧
      balanceOf w.store a - granted w.store a ≤ balanceOf s a - granted s a)
    (fun c hc hs he => ⟨hs.1.after (step_effect he),
      hs.2.trans ((step_effect he).loss_le hs.1 hc)⟩) ⟨hnonneg, le_rfl⟩ hsigned
  exact ⟨by omega, granted_nonneg hend⟩

theorem loss_le_granted_sample :
    balanceOf (after (approvedSteps.take 3)).1.store ⟨2⟩ = 100 ∧
      granted (after (approvedSteps.take 3)).1.store ⟨2⟩ = 60 ∧
      let w' := (onLedger.play (after (approvedSteps.take 3)).1
        [(4, .call (.transferFrom ⟨3⟩ ⟨2⟩ ⟨4⟩ 25)), (7, .expire ⟨2⟩ ⟨3⟩)]).1
      balanceOf (after (approvedSteps.take 3)).1.store ⟨2⟩ - balanceOf w'.store ⟨2⟩ ≤
          granted (after (approvedSteps.take 3)).1.store ⟨2⟩ - granted w'.store ⟨2⟩ ∧
        0 ≤ granted w'.store ⟨2⟩ :=
  ⟨by decide, by decide, loss_le_granted
    (Contract.run_play onLedger ⟨0, .empty⟩ (approvedSteps.take 3) (by decide))
    (Contract.run_play onLedger _ _ (by decide)) (by decide)⟩

end Stellara.Token
