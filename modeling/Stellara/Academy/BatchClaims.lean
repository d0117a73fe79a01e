import Mathlib.Data.List.Perm.Basic
import Stellara.Academy.SingleClaim

/-!
# Claiming in a batch

A batch computes all its claims from the schedules that are stored before it, checks their total
against the balance of the contract, and then pays them. Claiming the same grants one after another
checks each claim against the balance that the claims before it have left. Both succeed on the same
condition, which does not depend on the order of the claims, and leave the same.

## Main definitions

* `claimEach`: the claims of a list of grants one after another
* `claimOf`: the claim of one grant
* `Due`: claims that can be paid together
* `Paid`: what is left when they are paid
* `SameOutcome`: the same schedules and balances

## Main results

* `Due.claimEach`, `Due.batchClaim`: claims that are due are paid in either way
* `claimEach_due`, `batchClaim_due`: what is paid in either way is due
* `batchClaim_iff_claimEach`: both ways agree, in every order
-/

namespace Stellara.Academy

variable {τ : Type}

/-- The claim of a grant, computed from the stored schedules. -/
def claimOf (now : ℕ) (beneficiary : Address) (schedules : Schedules) (grantId : ℕ) :
    Outcome VestingError Claim := do
  let schedule ← orAbort (.error .grantNotFound) (schedules.lookup grantId)
  let amount ← claimableAmount now beneficiary schedule
  .ok ⟨grantId, { schedule with claimed := true }, amount⟩

/-- The sum of the amounts of claims. -/
def totalOf (claims : List Claim) : ℤ := (claims.map Claim.amount).sum

@[simp] theorem totalOf_nil : totalOf [] = 0 := rfl

@[simp] theorem totalOf_cons (c : Claim) (claims : List Claim) :
    totalOf (c :: claims) = c.amount + totalOf claims := by
  simp [totalOf]

theorem totalOf_nonneg {claims : List Claim} (h : ∀ c ∈ claims, 0 ≤ c.amount) :
    0 ≤ totalOf claims :=
  List.sum_nonneg (by simpa using h)

theorem claimOf_eq_ok {now : ℕ} {beneficiary : Address} {m : Schedules} {grantId : ℕ} {c : Claim} :
    claimOf now beneficiary m grantId = .ok c ↔ ∃ schedule amount, m.lookup grantId = some schedule ∧
      claimableAmount now beneficiary schedule = .ok amount ∧
      c = ⟨grantId, { schedule with claimed := true }, amount⟩ := by
  simp only [claimOf, Except.bind_eq_ok, orAbort_eq_ok]
  constructor
  · rintro ⟨schedule, hread, amount, hamount, h⟩
    exact ⟨schedule, amount, hread, hamount, (Except.ok.inj h).symm⟩
  · rintro ⟨schedule, amount, hread, hamount, rfl⟩
    exact ⟨schedule, hread, amount, hamount, rfl⟩

/-- The claim of a grant depends on its own schedule only. -/
theorem claimOf_insert {now : ℕ} {beneficiary : Address} {m : Schedules} {id grantId : ℕ}
    {schedule : VestingSchedule} (hne : grantId ≠ id) :
    claimOf now beneficiary (m.insert id schedule) grantId = claimOf now beneficiary m grantId := by
  rw [claimOf, claimOf, Store.lookup_insert_ite, if_neg hne]

/-- What is left of the schedules when different claims are written to them. -/
theorem lookup_writeClaims {m : Schedules} {claims : List Claim}
    (hnodup : (claims.map Claim.grantId).Nodup) (id : ℕ) (schedule : VestingSchedule) :
    (writeClaims m claims).lookup id = some schedule ↔
      (∃ c ∈ claims, c.grantId = id ∧ c.schedule = schedule) ∨
        (∀ c ∈ claims, c.grantId ≠ id) ∧ m.lookup id = some schedule := by
  induction claims generalizing m with
  | nil => simp [writeClaims]
  | cons c claims ih =>
    rw [List.map_cons, List.nodup_cons] at hnodup
    obtain ⟨hfresh, hnodup⟩ := hnodup
    have hfresh' : ∀ c' ∈ claims, c'.grantId ≠ c.grantId := by
      intro c' hc' heq
      exact hfresh (heq ▸ List.mem_map_of_mem hc')
    have hwrite : writeClaims m (c :: claims) = writeClaims (m.insert c.grantId c.schedule) claims := rfl
    rw [hwrite, ih hnodup, Store.lookup_insert_ite]
    rw [List.exists_mem_cons_iff, List.forall_mem_cons]
    by_cases hid : id = c.grantId
    · subst hid
      have hnone : ¬ ∃ c' ∈ claims, c'.grantId = c.grantId ∧ c'.schedule = schedule := by
        rintro ⟨c', hc', heq, -⟩
        exact hfresh' c' hc' heq
      rw [if_pos rfl, or_iff_right hnone, and_iff_right hfresh', Option.some_inj]
      simp [hnone]
    · simp [hid, Ne.symm hid]

section Claims

variable [TokenClient τ Address Address]

/-- Claim the grants one after another, and sum up what is paid. -/
def claimEach (now : ℕ) (beneficiary : Address) :
    List ℕ → State τ → Outcome VestingError (ℤ × State τ)
  | [], s => .ok (0, s)
  | grantId :: grantIds, s => do
    let (amount, s) ← claim now grantId beneficiary s
    let (total, s) ← claimEach now beneficiary grantIds s
    .ok (amount + total, s)

/-- Claims that can be paid together: each of them can be made, and the contract owns the total. -/
structure Due (now : ℕ) (beneficiary : Address) (s : State τ) (claims : List Claim) : Prop where
  stored : claims ≠ [] → s.schedules.isSome ∧ s.token.isSome
  claimOf_eq : ∀ c ∈ claims, claimOf now beneficiary s.stored c.grantId = .ok c
  nonneg : ∀ c ∈ claims, 0 ≤ c.amount
  funded : ∀ token, s.token = some token →
    totalOf claims ≤ TokenClient.balance s.tokens token s.contractAddress

/-- What is left when claims are paid to `beneficiary`. -/
structure Paid (beneficiary : Address) (s s' : State τ) (claims : List Claim) : Prop where
  stored : s'.stored = writeClaims s.stored claims ∧ s'.schedules.isSome = s.schedules.isSome
  balance : ∀ t a, TokenClient.balance s'.tokens t a = if s.token = some t then
    TokenClient.balance s.tokens t a - (if a = s.contractAddress then totalOf claims else 0) +
      (if a = beneficiary then totalOf claims else 0)
    else TokenClient.balance s.tokens t a

/-- The same schedules, and the same balances. -/
structure SameOutcome (s s' : State τ) : Prop where
  schedules : s.schedules.isSome = s'.schedules.isSome
  lookup : ∀ id, s.stored.lookup id = s'.stored.lookup id
  balance : ∀ t a, TokenClient.balance s.tokens t a = TokenClient.balance s'.tokens t a

variable {now : ℕ} {beneficiary : Address} {s s' s₁ s₂ : State τ} {claims claims' : List Claim}

theorem Due.perm (h : Due now beneficiary s claims) (hperm : claims'.Perm claims) :
    Due now beneficiary s claims' where
  stored hne := h.stored fun hnil => hne (by rw [hnil] at hperm; exact hperm.eq_nil)
  claimOf_eq c hc := h.claimOf_eq c (hperm.mem_iff.mp hc)
  nonneg c hc := h.nonneg c (hperm.mem_iff.mp hc)
  funded token htoken := by
    rw [totalOf, (hperm.map Claim.amount).sum_eq]
    exact h.funded token htoken

/-- Claims that are paid in different orders have the same outcome. -/
theorem Paid.sameOutcome (h : Paid beneficiary s s₁ claims) (h' : Paid beneficiary s s₂ claims')
    (hperm : claims'.Perm claims) (hnodup : (claims.map Claim.grantId).Nodup) : SameOutcome s₁ s₂ := by
  have htotal : totalOf claims' = totalOf claims := (hperm.map Claim.amount).sum_eq
  have hnodup' : (claims'.map Claim.grantId).Nodup := (hperm.map Claim.grantId).nodup_iff.mpr hnodup
  refine ⟨h.stored.2.trans h'.stored.2.symm, fun id => ?_, fun t a => ?_⟩
  · rw [h.stored.1, h'.stored.1]
    apply Option.ext
    intro schedule
    rw [lookup_writeClaims hnodup, lookup_writeClaims hnodup']
    simp only [hperm.mem_iff]
  · rw [h.balance, h'.balance, htotal]

/-! ## One claim -/

/-- A claim pays what is computed for its grant, when the contract owns that much. -/
theorem claim_iff {grantId : ℕ} {v : ℤ} :
    claim now grantId beneficiary s = .ok (v, s') ↔ ∃ c token tokens, s.schedules.isSome ∧
      claimOf now beneficiary s.stored grantId = .ok c ∧ s.token = some token ∧
      c.amount ≤ TokenClient.balance s.tokens token s.contractAddress ∧
      TokenClient.transfer s.tokens token s.contractAddress beneficiary c.amount = some tokens ∧
      v = c.amount ∧
      s' = persistSchedules (s.paid now beneficiary [c] tokens) (writeClaims s.stored [c]) := by
  simp only [claim, loadSchedules, payOut, Except.bind_eq_ok, orAbort_eq_ok, require_eq_ok,
    exists_const, tokenTransfer_eq_ok, claimOf_eq_ok]
  constructor
  · rintro ⟨m, hm, schedule, hread, amount, hamount, token, htoken, hle, t, ⟨tokens, htransfer, ht⟩, h⟩
    obtain rfl := Except.ok.inj ht
    obtain ⟨rfl, rfl⟩ := Prod.mk.inj (Except.ok.inj h)
    have hstored : s.stored = m := by rw [State.stored, hm, Option.getD_some]
    rw [hstored]
    exact ⟨_, token, tokens, by rw [hm]; rfl, ⟨schedule, amount, hread, hamount, rfl⟩, htoken, hle,
      htransfer, rfl, by simp [State.paid, persistSchedules, writeClaims]⟩
  · rintro ⟨c, token, tokens, hsome, ⟨schedule, amount, hread, hamount, rfl⟩, htoken, hle, htransfer,
      rfl, rfl⟩
    obtain ⟨m, hm⟩ := Option.isSome_iff_exists.mp hsome
    have hstored : s.stored = m := by rw [State.stored, hm, Option.getD_some]
    rw [hstored] at hread ⊢
    exact ⟨m, hm, schedule, hread, v, hamount, token, htoken, hle, _, ⟨tokens, htransfer, rfl⟩,
      by simp [State.paid, persistSchedules, writeClaims]⟩

section Standard

variable [StandardToken τ Address Address]

/-- Claims are due exactly when the first is, and the others are after it was paid. -/
theorem due_cons {c : Claim} {token : Address} {tokens : τ} (hne : beneficiary ≠ s.contractAddress)
    (hfresh : c.grantId ∉ claims.map Claim.grantId) (hsome : s.schedules.isSome)
    (htoken : s.token = some token)
    (hclaim : claimOf now beneficiary s.stored c.grantId = .ok c)
    (htransfer : TokenClient.transfer s.tokens token s.contractAddress beneficiary c.amount =
      some tokens) :
    Due now beneficiary s (c :: claims) ↔ Due now beneficiary
      (persistSchedules (s.paid now beneficiary [c] tokens) (writeClaims s.stored [c])) claims := by
  have hnn := StandardToken.amount_nonneg htransfer
  have hbalance := StandardToken.transfer_src htransfer hne.symm
  have hrest : ∀ c' ∈ claims, claimOf now beneficiary (writeClaims s.stored [c]) c'.grantId =
      claimOf now beneficiary s.stored c'.grantId := by
    intro c' hc'
    apply claimOf_insert
    intro heq
    exact hfresh (heq ▸ List.mem_map_of_mem hc')
  constructor
  · intro h
    refine ⟨fun _ => ⟨rfl, h.stored (List.cons_ne_nil _ _) |>.2⟩, fun c' hc' => ?_,
      fun c' hc' => h.nonneg c' (List.mem_cons_of_mem c hc'), fun token' htoken' => ?_⟩
    · exact (hrest c' hc').trans (h.claimOf_eq c' (List.mem_cons_of_mem c hc'))
    · obtain rfl := Option.some.inj (htoken.symm.trans htoken')
      have hfunded := h.funded token htoken
      rw [totalOf_cons] at hfunded
      show totalOf claims ≤ TokenClient.balance tokens token s.contractAddress
      omega
  · intro h
    refine ⟨fun _ => ⟨hsome, by rw [htoken]; rfl⟩, fun c' hc' => ?_, fun c' hc' => ?_,
      fun token' htoken' => ?_⟩
    · rcases List.mem_cons.mp hc' with rfl | hc'
      · exact hclaim
      · exact (hrest c' hc').symm.trans (h.claimOf_eq c' hc')
    · rcases List.mem_cons.mp hc' with rfl | hc'
      · exact hnn
      · exact h.nonneg c' hc'
    · obtain rfl := Option.some.inj (htoken.symm.trans htoken')
      have hfunded : totalOf claims ≤ TokenClient.balance tokens token s.contractAddress :=
        h.funded token htoken
      rw [totalOf_cons]
      omega

/-- The first of claims that are due can be transferred. -/
theorem Due.transfer {c : Claim} (h : Due now beneficiary s (c :: claims)) :
    ∃ token tokens, s.token = some token ∧
      c.amount ≤ TokenClient.balance s.tokens token s.contractAddress ∧
      TokenClient.transfer s.tokens token s.contractAddress beneficiary c.amount = some tokens := by
  obtain ⟨token, htoken⟩ := Option.isSome_iff_exists.mp (h.stored (List.cons_ne_nil _ _)).2
  have hnn := h.nonneg c List.mem_cons_self
  have hrest : 0 ≤ totalOf claims :=
    totalOf_nonneg fun c' hc' => h.nonneg c' (List.mem_cons_of_mem c hc')
  have hfunded := h.funded token htoken
  rw [totalOf_cons] at hfunded
  have hle : c.amount ≤ TokenClient.balance s.tokens token s.contractAddress := by omega
  obtain ⟨tokens, htransfer⟩ := Option.isSome_iff_exists.mp
    ((StandardToken.transfer_isSome _ _ _ _ _).mpr ⟨hnn, hle⟩)
  exact ⟨token, tokens, htoken, hle, htransfer⟩

/-- What is left of the balances when the first claim and then the others are paid. -/
theorem Paid.balance_cons {c : Claim} {token : Address} {tokens tokens' : τ}
    (htoken : s.token = some token)
    (htransfer : TokenClient.transfer s.tokens token s.contractAddress beneficiary c.amount =
      some tokens)
    (hrest : ∀ t a, TokenClient.balance tokens' t a = if s.token = some t then
      TokenClient.balance tokens t a - (if a = s.contractAddress then totalOf claims else 0) +
        (if a = beneficiary then totalOf claims else 0)
      else TokenClient.balance tokens t a) (t a : Address) :
    TokenClient.balance tokens' t a = if s.token = some t then
      TokenClient.balance s.tokens t a - (if a = s.contractAddress then totalOf (c :: claims) else 0) +
        (if a = beneficiary then totalOf (c :: claims) else 0)
      else TokenClient.balance s.tokens t a := by
  rw [hrest, StandardToken.transfer_balance htransfer, htoken, totalOf_cons]
  by_cases ht : t = token
  · rw [if_pos (congrArg some ht.symm), if_pos (congrArg some ht.symm), if_pos ht]
    split <;> split <;> omega
  · have hother : some token ≠ some t := fun heq => ht (Option.some.inj heq).symm
    rw [if_neg hother, if_neg hother, if_neg ht]

/-! ## One after another -/

/-- Claims that are due are paid one after another. -/
theorem Due.claimEach (h : Due now beneficiary s claims) (hne : beneficiary ≠ s.contractAddress)
    (hnodup : (claims.map Claim.grantId).Nodup) :
    ∃ s', claimEach now beneficiary (claims.map Claim.grantId) s = .ok (totalOf claims, s') ∧
      Paid beneficiary s s' claims := by
  induction claims generalizing s with
  | nil => exact ⟨s, rfl, ⟨rfl, rfl⟩, by simp⟩
  | cons c claims ih =>
    rw [List.map_cons, List.nodup_cons] at hnodup
    obtain ⟨token, tokens, htoken, hle, htransfer⟩ := h.transfer
    have hsome := (h.stored (List.cons_ne_nil _ _)).1
    have hclaim := h.claimOf_eq c List.mem_cons_self
    -- the first claim is paid, and the others are due then
    have hfirst := claim_iff.mpr ⟨c, token, tokens, hsome, hclaim, htoken, hle, htransfer, rfl, rfl⟩
    obtain ⟨s', hrest, hpaid⟩ := ih
      ((due_cons hne hnodup.1 hsome htoken hclaim htransfer).mp h) hne hnodup.2
    refine ⟨s', ?_, ⟨hpaid.stored.1, hpaid.stored.2.trans hsome.symm⟩,
      Paid.balance_cons htoken htransfer hpaid.balance⟩
    simp only [List.map_cons, Academy.claimEach, hfirst, Except.ok_bind, hrest, totalOf_cons]

/-- What is paid one after another is due. -/
theorem claimEach_due {ids : List ℕ} {r : ℤ × State τ} (hne : beneficiary ≠ s.contractAddress)
    (hnodup : ids.Nodup) (h : claimEach now beneficiary ids s = .ok r) :
    ∃ claims, claims.map Claim.grantId = ids ∧ Due now beneficiary s claims := by
  induction ids generalizing s r with
  | nil => exact ⟨[], rfl, by simp, by simp, by simp, fun _ _ => StandardToken.balance_nonneg _ _ _⟩
  | cons id ids ih =>
    rw [List.nodup_cons] at hnodup
    simp only [claimEach, Except.bind_eq_ok] at h
    obtain ⟨⟨v, s₁⟩, hfirst, ⟨total, s₂⟩, hrest, -⟩ := h
    obtain ⟨c, token, tokens, hsome, hclaim, htoken, -, htransfer, -, rfl⟩ := claim_iff.mp hfirst
    obtain ⟨claims, rfl, hdue⟩ := ih (by exact hne) hnodup.2 hrest
    obtain rfl : c.grantId = id := by
      obtain ⟨-, -, -, -, rfl⟩ := claimOf_eq_ok.mp hclaim
      rfl
    exact ⟨c :: claims, rfl, (due_cons hne hnodup.1 hsome htoken hclaim htransfer).mpr hdue⟩

/-! ## In a batch -/

omit [TokenClient τ Address Address] [StandardToken τ Address Address] in
/-- The claims of a batch are those of its grants, computed from the same schedules. -/
theorem collectClaims_claimOf {m : Schedules} {ids : List ℕ} {total total' : ℤ}
    (h : collectClaims now beneficiary m ids total = .ok (claims, total')) :
    claims.map Claim.grantId = ids ∧ (∀ c ∈ claims, claimOf now beneficiary m c.grantId = .ok c) ∧
      total' = total + totalOf claims := by
  induction ids generalizing total total' claims with
  | nil =>
    obtain ⟨rfl, rfl⟩ := Prod.mk.inj (Except.ok.inj h)
    exact ⟨rfl, by simp, by simp⟩
  | cons id ids ih =>
    simp only [collectClaims, Except.bind_eq_ok, orAbort_eq_ok, IntFormat.checked_eq_ok] at h
    obtain ⟨schedule, hread, amount, hamount, _, ⟨-, rfl⟩, ⟨claims', _⟩, h', h⟩ := h
    obtain ⟨rfl, rfl⟩ := Prod.mk.inj (Except.ok.inj h)
    obtain ⟨rfl, hall, rfl⟩ := ih h'
    refine ⟨rfl, ?_, by rw [totalOf_cons, add_assoc]⟩
    rw [List.forall_mem_cons]
    exact ⟨claimOf_eq_ok.mpr ⟨schedule, amount, hread, hamount, rfl⟩, hall⟩

omit [TokenClient τ Address Address] [StandardToken τ Address Address] in
/-- The total of claims that are not negative does not overflow on the way when it does not at the
end. -/
theorem collectClaims_of_claimOf {m : Schedules} (total : ℤ)
    (hclaims : ∀ c ∈ claims, claimOf now beneficiary m c.grantId = .ok c)
    (hnn : ∀ c ∈ claims, 0 ≤ c.amount) (htotal : 0 ≤ total)
    (hfits : total + totalOf claims ≤ IntFormat.i128.hi) :
    collectClaims now beneficiary m (claims.map Claim.grantId) total =
      .ok (claims, total + totalOf claims) := by
  induction claims generalizing total with
  | nil => simp [collectClaims]
  | cons c claims ih =>
    rw [List.forall_mem_cons] at hclaims hnn
    obtain ⟨hclaim, hclaims⟩ := hclaims
    obtain ⟨hc, hnn⟩ := hnn
    have hrest := totalOf_nonneg hnn
    rw [totalOf_cons] at hfits ⊢
    obtain ⟨schedule, amount, hread, hamount, heq⟩ := claimOf_eq_ok.mp hclaim
    obtain rfl : c.amount = amount := by rw [heq]
    have hmem : IntFormat.i128.Mem (total + c.amount) :=
      ⟨IntFormat.i128.lo_nonpos.trans (by omega), by omega⟩
    have hsum := ih (total + c.amount) hclaims hnn (by omega) (by omega)
    simp only [List.map_cons, collectClaims, hread, hamount, orAbort, Except.ok_bind,
      IntFormat.checked_of_mem hmem, hsum, ← heq, add_assoc]

/-- Only amounts that are not negative are paid. -/
theorem payClaims_nonneg {token : Address} {m : Schedules} {r : Schedules × State τ}
    (h : payClaims now token beneficiary claims m s = .ok r) : ∀ c ∈ claims, 0 ≤ c.amount := by
  induction claims generalizing m s with
  | nil => simp
  | cons c claims ih =>
    simp only [payClaims, payOut, Except.bind_eq_ok, tokenTransfer_eq_ok] at h
    obtain ⟨s₁, ⟨tokens, htransfer, -⟩, h⟩ := h
    rw [List.forall_mem_cons]
    exact ⟨StandardToken.amount_nonneg htransfer, ih h⟩

/-- Claims that the contract can pay together are paid. -/
theorem payClaims_of_le (now : ℕ) {token : Address} (m : Schedules) (hne : beneficiary ≠ s.contractAddress)
    (htoken : s.token = some token) (hnn : ∀ c ∈ claims, 0 ≤ c.amount)
    (hle : totalOf claims ≤ TokenClient.balance s.tokens token s.contractAddress) :
    ∃ tokens, payClaims now token beneficiary claims m s =
        .ok (writeClaims m claims, s.paid now beneficiary claims tokens) ∧
      ∀ t a, TokenClient.balance tokens t a = if s.token = some t then
        TokenClient.balance s.tokens t a - (if a = s.contractAddress then totalOf claims else 0) +
          (if a = beneficiary then totalOf claims else 0)
        else TokenClient.balance s.tokens t a := by
  induction claims generalizing m s with
  | nil => exact ⟨s.tokens, by simp [payClaims, writeClaims, State.paid], by simp⟩
  | cons c claims ih =>
    rw [List.forall_mem_cons] at hnn
    obtain ⟨hc, hnn⟩ := hnn
    have hrest := totalOf_nonneg hnn
    rw [totalOf_cons] at hle
    obtain ⟨tokens, htransfer⟩ := Option.isSome_iff_exists.mp
      ((StandardToken.transfer_isSome s.tokens token s.contractAddress beneficiary _).mpr
        ⟨hc, (by omega : c.amount ≤ _)⟩)
    have hbalance := StandardToken.transfer_src htransfer hne.symm
    obtain ⟨tokens', hpay, hmove⟩ := ih (s := s.paid now beneficiary [c] tokens)
      (m.insert c.grantId c.schedule) hne htoken hnn
      (show totalOf claims ≤ TokenClient.balance tokens token s.contractAddress by omega)
    refine ⟨tokens', ?_, Paid.balance_cons htoken htransfer hmove⟩
    have hfirst : payOut now token c.grantId beneficiary c.amount s =
        .ok (s.paid now beneficiary [c] tokens) := by
      simp [payOut, tokenTransfer, htransfer, orAbort, State.paid]
    rw [payClaims, hfirst, Except.ok_bind, hpay]
    simp [State.paid, writeClaims]

/-- Claims that are due are paid in a batch. -/
theorem Due.batchClaim (h : Due now beneficiary s claims) (hne : beneficiary ≠ s.contractAddress)
    (hlength : claims.length ≤ maxBatchClaims)
    (hfits : ∀ token, s.token = some token →
      IntFormat.i128.Mem (TokenClient.balance s.tokens token s.contractAddress)) :
    ∃ s', batchClaim now (claims.map Claim.grantId) beneficiary s = .ok (totalOf claims, s') ∧
      Paid beneficiary s s' claims := by
  by_cases hnil : claims = []
  · subst hnil
    exact ⟨s, rfl, ⟨rfl, rfl⟩, by simp⟩
  obtain ⟨hsome, hstored⟩ := h.stored hnil
  obtain ⟨m, hm⟩ := Option.isSome_iff_exists.mp hsome
  obtain ⟨token, htoken⟩ := Option.isSome_iff_exists.mp hstored
  have hread : s.stored = m := by rw [State.stored, hm, Option.getD_some]
  have hfunded := h.funded token htoken
  have hcollect := collectClaims_of_claimOf 0 h.claimOf_eq h.nonneg le_rfl
    (by rw [zero_add]; exact hfunded.trans (hfits token htoken).2)
  obtain ⟨tokens, hpay, hbalance⟩ := payClaims_of_le now m hne htoken h.nonneg hfunded
  rw [hread, zero_add] at hcollect
  have hids : claims.map Claim.grantId ≠ [] := by simpa using hnil
  refine ⟨persistSchedules (s.paid now beneficiary claims tokens) (writeClaims m claims), ?_,
    ⟨by rw [hread]; rfl, hsome.symm⟩, hbalance⟩
  rw [Academy.batchClaim, if_neg hids]
  simp only [require, List.length_map, if_pos hlength, loadSchedules, hm, htoken, orAbort,
    Except.ok_bind, hcollect, if_pos hfunded, hpay]

/-- What is paid in a batch is due. -/
theorem batchClaim_due {ids : List ℕ} {r : ℤ × State τ}
    (h : batchClaim now ids beneficiary s = .ok r) :
    ∃ claims, claims.map Claim.grantId = ids ∧ Due now beneficiary s claims := by
  unfold batchClaim at h
  split at h
  · rename_i hnil
    subst hnil
    exact ⟨[], rfl, by simp, by simp, by simp, fun _ _ => StandardToken.balance_nonneg _ _ _⟩
  · simp only [loadSchedules, Except.bind_eq_ok, orAbort_eq_ok, require_eq_ok, exists_const] at h
    obtain ⟨-, m, hm, token, htoken, ⟨claims, total⟩, hcollect, hle, ⟨m', s₁⟩, hpay, -⟩ := h
    obtain ⟨rfl, hall, rfl⟩ := collectClaims_claimOf hcollect
    have hread : s.stored = m := by rw [State.stored, hm, Option.getD_some]
    refine ⟨claims, rfl, fun _ => ⟨by rw [hm]; rfl, by rw [htoken]; rfl⟩, by rwa [hread],
      payClaims_nonneg hpay, fun token' htoken' => ?_⟩
    obtain rfl := Option.some.inj (htoken.symm.trans htoken')
    simpa using hle

/-! ## Agreement -/

omit [TokenClient τ Address Address] [StandardToken τ Address Address] in
/-- The claims of grants, for the same grants in another order. -/
theorem claims_of_perm {ids : List ℕ} (h : ids.Perm (claims.map Claim.grantId)) :
    ∃ claims' : List Claim, claims'.map Claim.grantId = ids ∧ claims'.Perm claims := by
  have hcomp : Relation.Comp (fun l l' => l = List.map Claim.grantId l') List.Perm ids claims :=
    (congrFun₂ (List.eq_map_comp_perm Claim.grantId) ids claims).mpr h
  obtain ⟨claims', rfl, hperm⟩ := hcomp
  exact ⟨claims', rfl, hperm⟩

/-- Claims that are due are paid in a batch and one after another, in any order, with the same
outcome. -/
theorem Due.agree {ids' : List ℕ} (h : Due now beneficiary s claims)
    (hne : beneficiary ≠ s.contractAddress) (hlength : claims.length ≤ maxBatchClaims)
    (hnodup : (claims.map Claim.grantId).Nodup) (hperm : ids'.Perm (claims.map Claim.grantId))
    (hfits : ∀ token, s.token = some token →
      IntFormat.i128.Mem (TokenClient.balance s.tokens token s.contractAddress)) :
    ∃ total s₁ s₂, Academy.batchClaim now (claims.map Claim.grantId) beneficiary s = .ok (total, s₁) ∧
      Academy.claimEach now beneficiary ids' s = .ok (total, s₂) ∧ SameOutcome s₁ s₂ := by
  obtain ⟨claims', rfl, hperm'⟩ := claims_of_perm hperm
  obtain ⟨s₁, hbatch, hpaid₁⟩ := h.batchClaim hne hlength hfits
  obtain ⟨s₂, heach, hpaid₂⟩ := (h.perm hperm').claimEach hne (hperm.nodup_iff.mpr hnodup)
  rw [totalOf, (hperm'.map Claim.amount).sum_eq] at heach
  exact ⟨_, s₁, s₂, hbatch, heach, hpaid₁.sameOutcome hpaid₂ hperm' hnodup⟩

/-- A batch of different grants succeeds exactly when claiming them one after another does, in any
order. Then the total is the same, and so are the schedules and the balances that are left. A batch
that fails leaves the state as it is. -/
theorem batchClaim_iff_claimEach {ids ids' : List ℕ} (hne : beneficiary ≠ s.contractAddress)
    (hlength : ids.length ≤ maxBatchClaims) (hnodup : ids.Nodup) (hperm : ids'.Perm ids)
    (hfits : ∀ token, s.token = some token →
      IntFormat.i128.Mem (TokenClient.balance s.tokens token s.contractAddress)) :
    ((∃ r, batchClaim now ids beneficiary s = .ok r) ↔
        ∃ r, claimEach now beneficiary ids' s = .ok r) ∧
      (∀ total s₁ total' s₂, batchClaim now ids beneficiary s = .ok (total, s₁) →
        claimEach now beneficiary ids' s = .ok (total', s₂) → total = total' ∧ SameOutcome s₁ s₂) ∧
      ∀ fault w, w.store = s → batchClaim now ids beneficiary s = .error fault →
        ((contract τ).play w [(now, .batchClaim ids beneficiary)]).1.store = s := by
  have hagree : ∀ claims, claims.map Claim.grantId = ids → Due now beneficiary s claims →
      ∃ total s₁ s₂, batchClaim now ids beneficiary s = .ok (total, s₁) ∧
        claimEach now beneficiary ids' s = .ok (total, s₂) ∧ SameOutcome s₁ s₂ := by
    rintro claims rfl hdue
    exact hdue.agree hne (by simpa using hlength) hnodup hperm hfits
  have hbatch : (∃ r, batchClaim now ids beneficiary s = .ok r) →
      ∃ claims, claims.map Claim.grantId = ids ∧ Due now beneficiary s claims := by
    rintro ⟨r, h⟩
    exact batchClaim_due h
  have heach : (∃ r, claimEach now beneficiary ids' s = .ok r) →
      ∃ claims, claims.map Claim.grantId = ids ∧ Due now beneficiary s claims := by
    rintro ⟨r, h⟩
    obtain ⟨claims', rfl, hdue⟩ := claimEach_due hne (hperm.nodup_iff.mpr hnodup) h
    obtain ⟨claims, rfl, hperm'⟩ := claims_of_perm hperm.symm
    exact ⟨claims, rfl, hdue.perm hperm'⟩
  refine ⟨⟨fun h => ?_, fun h => ?_⟩, fun total s₁ total' s₂ h₁ h₂ => ?_, fun fault w hw h => ?_⟩
  · obtain ⟨claims, hids, hdue⟩ := hbatch h
    obtain ⟨total, s₁, s₂, -, h₂, -⟩ := hagree claims hids hdue
    exact ⟨_, h₂⟩
  · obtain ⟨claims, hids, hdue⟩ := heach h
    obtain ⟨total, s₁, s₂, h₁, -, -⟩ := hagree claims hids hdue
    exact ⟨_, h₁⟩
  · obtain ⟨claims, hids, hdue⟩ := hbatch ⟨_, h₁⟩
    obtain ⟨total'', t₁, t₂, h₁', h₂', hsame⟩ := hagree claims hids hdue
    obtain ⟨rfl, rfl⟩ := Prod.mk.inj (Except.ok.inj (h₁.symm.trans h₁'))
    obtain ⟨rfl, rfl⟩ := Prod.mk.inj (Except.ok.inj (h₂.symm.trans h₂'))
    exact ⟨rfl, hsame⟩
  · have hexec : (contract τ).exec now (.batchClaim ids beneficiary) w.store = .error fault := by
      rw [hw]
      show execute now s (.batchClaim ids beneficiary) = .error fault
      rw [execute, h]
      rfl
    rw [Contract.play, hexec]
    exact hw

end Standard

end Claims

/-- The contract after two grants to one beneficiary. -/
def grantedWorld : World (State (Balances Address Address)) :=
  ((contract _).play sampleWorld [(0, .grantVesting ⟨1⟩ ⟨2⟩ 10 0 0 10),
    (0, .grantVesting ⟨1⟩ ⟨2⟩ 8 0 0 10)]).1

theorem batchClaim_iff_claimEach_granted :
    ((∃ r, batchClaim 20 [1, 2] ⟨2⟩ grantedWorld.store = .ok r) ↔
        ∃ r, claimEach 20 ⟨2⟩ [2, 1] grantedWorld.store = .ok r) ∧
      (∀ total s₁ total' s₂, batchClaim 20 [1, 2] ⟨2⟩ grantedWorld.store = .ok (total, s₁) →
        claimEach 20 ⟨2⟩ [2, 1] grantedWorld.store = .ok (total', s₂) →
          total = total' ∧ SameOutcome s₁ s₂) ∧
      ∀ fault w, w.store = grantedWorld.store →
        batchClaim 20 [1, 2] ⟨2⟩ grantedWorld.store = .error fault →
          ((contract _).play w [(20, .batchClaim [1, 2] ⟨2⟩)]).1.store = grantedWorld.store := by
  refine batchClaim_iff_claimEach (by decide) (by decide) (by decide) (by decide) ?_
  intro token htoken
  obtain rfl := Option.some.inj htoken
  decide

end Stellara.Academy
