import Stellara.Insurance.Pool

/-!
# Accounting of the insurance pool

The five counters of the pool agree with what is stored: the reserved liquidity is the
coverage of the active policies, and the total liquidity is what the providers deposited, plus
the premiums, minus the payouts. The contract owns at least the total liquidity, so every
payout is funded, and no saturating subtraction of the contract ever saturates.

## Main definitions

* `Accounted`: what is required of the pool
* `Unsaturated`: the saturating subtractions of the contract are exact
* `Books`: the counters, the policies and the deposits agree
* `Outside`: a call that the contract itself does not make

## Main results

* `Books.move`, `Books.issue`, `Books.retire`: what each kind of write preserves
* `execute_accounts`: what a call preserves
* `pool_accounted`: every run
-/

namespace Stellara.Insurance

/-! ## Requirements -/

/-- The coverage of the active policies. -/
def activeCoverage (policies : Store ℕ InsurancePolicy) : ℤ :=
  policies.total fun _ policy => if policy.status = .active then policy.coverageAmount else 0

/-- The number of the active policies. -/
def activeCount (policies : Store ℕ InsurancePolicy) : ℕ :=
  policies.total fun _ policy => if policy.status = .active then 1 else 0

/-- The sum of the balances of the liquidity providers. -/
def deposits (providers : Store Address ℤ) : ℤ := providers.total fun _ balance => balance

/-- What is required of the accounting of the pool. -/
structure Accounted (s : State (Balances Address Address)) : Prop where
  reserved : s.pool.reservedLiquidity = activeCoverage s.policies
  active : s.pool.activePolicies = activeCount s.policies
  reserved_nonneg : 0 ≤ s.pool.reservedLiquidity
  reserved_le : s.pool.reservedLiquidity ≤ s.pool.totalLiquidity
  total : s.pool.totalLiquidity =
    deposits s.liquidityProviders + s.pool.totalPremiumsCollected - s.pool.totalPayouts
  funded : ∀ poolToken, s.poolToken = some poolToken →
    s.pool.totalLiquidity ≤ s.tokens.balance poolToken s.contractAddress

/-- The saturating subtractions that a call makes in the state are exact. -/
structure Unsaturated {τ : Type} (s : State τ) : Prop where
  available : IntFormat.i128.Mem (s.pool.totalLiquidity - s.pool.reservedLiquidity)
  leaving : ∀ policyId policy, s.policies.lookup policyId = some policy → policy.status = .active →
    IntFormat.i128.Mem (s.pool.totalLiquidity - policy.coverageAmount) ∧
      IntFormat.i128.Mem (s.pool.reservedLiquidity - policy.coverageAmount) ∧
      0 ≤ s.pool.reservedLiquidity - policy.coverageAmount ∧ 1 ≤ s.pool.activePolicies

/-! ## The books -/

/-- The stored policies have the ids that were given out, and positive coverage. -/
structure Issued (policies : Store ℕ InsurancePolicy) (policyCounter : ℕ) : Prop where
  id_eq : ∀ id policy, policies.lookup id = some policy → policy.id = id
  id_le : ∀ id policy, policies.lookup id = some policy → id ≤ policyCounter
  coverage_pos : ∀ id policy, policies.lookup id = some policy → 0 < policy.coverageAmount

/-- The counters of the pool agree with the policies and the deposits. -/
structure Books (pool : RiskPool) (policies : Store ℕ InsurancePolicy)
    (providers : Store Address ℤ) : Prop where
  reserved : pool.reservedLiquidity = activeCoverage policies
  active : pool.activePolicies = activeCount policies
  reserved_le : pool.reservedLiquidity ≤ pool.totalLiquidity
  total : pool.totalLiquidity =
    deposits providers + pool.totalPremiumsCollected - pool.totalPayouts
  total_mem : IntFormat.i128.Mem pool.totalLiquidity

namespace Issued

variable {policies : Store ℕ InsurancePolicy} {policyCounter id : ℕ} {policy : InsurancePolicy}

theorem insert (h : Issued policies policyCounter) (policy : InsurancePolicy) {policyCounter' : ℕ}
    (hle : policyCounter ≤ policyCounter') (hid : policy.id ≤ policyCounter')
    (hpos : 0 < policy.coverageAmount) :
    Issued (policies.insert policy.id policy) policyCounter' := by
  constructor
  · intro id q hq
    rcases Store.eq_or_lookup_of_insert hq with ⟨rfl, rfl⟩ | ⟨-, hq⟩
    · rfl
    · exact h.id_eq id q hq
  · intro id q hq
    rcases Store.eq_or_lookup_of_insert hq with ⟨rfl, rfl⟩ | ⟨-, hq⟩
    · exact hid
    · exact (h.id_le id q hq).trans hle
  · intro id q hq
    rcases Store.eq_or_lookup_of_insert hq with ⟨rfl, rfl⟩ | ⟨-, hq⟩
    · exact hpos
    · exact h.coverage_pos id q hq

theorem lookup_next (h : Issued policies policyCounter) :
    policies.lookup (policyCounter + 1) = none := by
  cases hl : policies.lookup (policyCounter + 1) with
  | none => rfl
  | some q =>
    have := h.id_le _ q hl
    omega

/-- The active policies cover no less than nothing. -/
theorem activeCoverage_nonneg (h : Issued policies policyCounter) : 0 ≤ activeCoverage policies := by
  refine Store.total_nonneg fun id q hq => ?_
  split
  · exact (h.coverage_pos id q hq).le
  · exact le_rfl

/-- The coverage of an active policy is a part of the coverage of all. -/
theorem coverage_le (h : Issued policies policyCounter) (hread : policies.lookup id = some policy)
    (hactive : policy.status = .active) : policy.coverageAmount ≤ activeCoverage policies := by
  -- no coverage is negative, so each is at most the sum
  have hle := Store.le_total
    (f := fun _ p => if p.status = PolicyStatus.active then p.coverageAmount else 0)
    (fun id q hq => by
      split
      · exact (h.coverage_pos id q hq).le
      · exact le_rfl) hread
  rw [if_pos hactive] at hle
  exact hle

end Issued

/-- An active policy is one of the active policies. -/
theorem one_le_activeCount {policies : Store ℕ InsurancePolicy} {id : ℕ} {policy : InsurancePolicy}
    (hread : policies.lookup id = some policy) (hactive : policy.status = .active) :
    1 ≤ activeCount policies := by
  have h := Store.total_erase
    (f := fun _ p => if p.status = PolicyStatus.active then 1 else 0) hread
  rw [if_pos hactive] at h
  show 1 ≤ Store.total _ policies
  omega

namespace Books

variable {pool : RiskPool} {policies : Store ℕ InsurancePolicy} {providers : Store Address ℤ}
  {policyCounter id : ℕ} {policy : InsurancePolicy}

theorem new : Books .new ∅ ∅ := ⟨rfl, rfl, le_rfl, rfl, by decide⟩

theorem reserved_nonneg (h : Books pool policies providers) (hi : Issued policies policyCounter) :
    0 ≤ pool.reservedLiquidity := h.reserved ▸ hi.activeCoverage_nonneg

theorem available_mem (h : Books pool policies providers) (hi : Issued policies policyCounter) :
    IntFormat.i128.Mem (pool.totalLiquidity - pool.reservedLiquidity) := by
  have hnonneg := h.reserved_nonneg hi
  have hle := h.reserved_le
  have hlo := IntFormat.i128.lo_nonpos
  have hhi := h.total_mem.2
  exact ⟨by omega, by omega⟩

/-- What is available is exactly what is not reserved. -/
theorem availableLiquidity_eq (h : Books pool policies providers)
    (hi : Issued policies policyCounter) :
    pool.availableLiquidity = pool.totalLiquidity - pool.reservedLiquidity :=
  IntFormat.saturate_of_mem (h.available_mem hi)

/-- The subtractions made when an active policy leaves the pool are exact. -/
theorem leaving (h : Books pool policies providers) (hi : Issued policies policyCounter)
    (hread : policies.lookup id = some policy) (hactive : policy.status = .active) :
    IntFormat.i128.Mem (pool.totalLiquidity - policy.coverageAmount) ∧
      IntFormat.i128.Mem (pool.reservedLiquidity - policy.coverageAmount) ∧
      0 ≤ pool.reservedLiquidity - policy.coverageAmount ∧ 1 ≤ pool.activePolicies := by
  have hpos := hi.coverage_pos id policy hread
  have hle : policy.coverageAmount ≤ pool.reservedLiquidity :=
    h.reserved ▸ hi.coverage_le hread hactive
  have hone : 1 ≤ pool.activePolicies := h.active ▸ one_le_activeCount hread hactive
  have hreserved := h.reserved_le
  have hlo := IntFormat.i128.lo_nonpos
  have hhi := h.total_mem.2
  -- the coverage is reserved, and what is reserved is at most the total
  exact ⟨⟨by omega, by omega⟩, ⟨by omega, by omega⟩, by omega, hone⟩

/-- A provider deposits `amount`, or withdraws it when it is negative. -/
theorem move (h : Books pool policies providers) {provider : Address} {amount : ℤ}
    (hle : pool.reservedLiquidity ≤ pool.totalLiquidity + amount)
    (hmem : IntFormat.i128.Mem (pool.totalLiquidity + amount)) :
    Books { pool with totalLiquidity := pool.totalLiquidity + amount } policies
      (providers.insert provider ((providers.lookup provider).getD 0 + amount)) := by
  -- the deposits change by what the provider moves
  have hsum : deposits (providers.insert provider ((providers.lookup provider).getD 0 + amount)) =
      deposits providers + amount := by
    have hold : (providers.lookup provider).elim 0 (fun balance => balance) =
        (providers.lookup provider).getD 0 := by
      cases providers.lookup provider <;> rfl
    have := Store.total_insert_elim (f := fun (_ : Address) (balance : ℤ) => balance)
      (m := providers) (k := provider) (v := (providers.lookup provider).getD 0 + amount)
    unfold deposits
    omega
  refine ⟨h.reserved, h.active, hle, ?_, hmem⟩
  have := h.total
  show pool.totalLiquidity + amount = _ + pool.totalPremiumsCollected - pool.totalPayouts
  omega

/-- A new active policy is issued for a premium, and its coverage is reserved. -/
theorem issue (h : Books pool policies providers) (hnew : policies.lookup policy.id = none)
    (hactive : policy.status = .active) {premium : ℤ}
    (hle : policy.coverageAmount ≤ pool.totalLiquidity - pool.reservedLiquidity)
    (hpremium : 0 ≤ premium) (hmem : IntFormat.i128.Mem (pool.totalLiquidity + premium))
    (totalPolicies : ℕ) :
    Books ⟨pool.totalLiquidity + premium, pool.reservedLiquidity + policy.coverageAmount,
        pool.totalPremiumsCollected + premium, pool.totalPayouts, totalPolicies,
        pool.activePolicies + 1⟩
      (policies.insert policy.id policy) providers := by
  -- the new id is free, so the sums gain one term each
  refine ⟨?_, ?_, ?_, ?_, hmem⟩
  · show pool.reservedLiquidity + policy.coverageAmount = activeCoverage _
    rw [activeCoverage, Store.total_insert_new hnew, if_pos hactive, h.reserved, activeCoverage,
      add_comm]
  · show pool.activePolicies + 1 = activeCount _
    rw [activeCount, Store.total_insert_new hnew, if_pos hactive, h.active, activeCount, add_comm]
  · show pool.reservedLiquidity + policy.coverageAmount ≤ pool.totalLiquidity + premium
    omega
  · have := h.total
    show pool.totalLiquidity + premium =
      deposits providers + (pool.totalPremiumsCollected + premium) - pool.totalPayouts
    omega

/-- An active policy leaves the pool, and at most its coverage is paid. -/
theorem retire (h : Books pool policies providers) (hi : Issued policies policyCounter)
    (hread : policies.lookup id = some policy) (hactive : policy.status = .active)
    {status : PolicyStatus} (hstatus : status ≠ .active) {pool' : RiskPool} {paid : ℤ}
    (hpaid : 0 ≤ paid) (hle : paid ≤ policy.coverageAmount)
    (htotal : pool'.totalLiquidity = pool.totalLiquidity - paid)
    (hreserved : pool'.reservedLiquidity = pool.reservedLiquidity - policy.coverageAmount)
    (hpremiums : pool'.totalPremiumsCollected = pool.totalPremiumsCollected)
    (hpayouts : pool'.totalPayouts = pool.totalPayouts + paid)
    (hcount : pool'.activePolicies = pool.activePolicies - 1) :
    Books pool' (policies.insert id { policy with status := status }) providers := by
  -- the policy leaves the sum of the coverages, the count and the total together
  obtain ⟨-, -, hnonneg, hone⟩ := h.leaving hi hread hactive
  have hreserved_le := h.reserved_le
  have htotal_eq := h.total
  refine ⟨?_, ?_, by omega, by omega, ?_⟩
  · have hsum := Store.total_insert_old (v := { policy with status := status })
      (f := fun _ p => if p.status = PolicyStatus.active then p.coverageAmount else 0) hread
    rw [if_pos hactive, if_neg hstatus] at hsum
    have heq := h.reserved
    unfold activeCoverage at heq ⊢
    omega
  · have hsum := Store.total_insert_old (v := { policy with status := status })
      (f := fun _ p => if p.status = PolicyStatus.active then 1 else 0) hread
    rw [if_pos hactive, if_neg hstatus] at hsum
    have heq := h.active
    unfold activeCount at heq ⊢
    omega
  · have := h.total_mem.2
    have := IntFormat.i128.lo_nonpos
    exact ⟨by omega, by omega⟩

end Books

/-! ## Runs -/

/-- What holds of the contract `c` after every call. -/
structure Accounts (c : Address) (s : State (Balances Address Address)) : Prop where
  address : s.contractAddress = c
  books : Books s.pool s.policies s.liquidityProviders
  issued : Issued s.policies s.policyCounter
  funded : ∀ poolToken, s.poolToken = some poolToken →
    s.pool.totalLiquidity ≤ s.tokens.balance poolToken c
  fresh : s.initialized = false → s.policies = ∅ ∧ s.liquidityProviders = ∅

/-- A call that the contract `c` does not make itself. -/
def Outside (c : Address) : Call → Prop
  | .depositLiquidity provider _ => provider ≠ c
  | .withdrawLiquidity provider _ => provider ≠ c
  | .createPolicy policyholder _ => policyholder ≠ c
  | .cancelPolicy policyholder _ => policyholder ≠ c
  | .transfer _ src _ _ => src ≠ c
  | _ => True

variable {c : Address} {s s' : State (Balances Address Address)} {now policyId : ℕ}

theorem accounts_empty (c : Address) (tokens : Balances Address Address) :
    Accounts c (.empty c tokens) where
  address := rfl
  books := .new
  issued := ⟨fun _ _ h => (by cases h), fun _ _ h => (by cases h), fun _ _ h => (by cases h)⟩
  funded _ h := by cases h
  fresh _ := ⟨rfl, rfl⟩

namespace Accounts

theorem accounted (h : Accounts c s) : Accounted s where
  reserved := h.books.reserved
  active := h.books.active
  reserved_nonneg := h.books.reserved_nonneg h.issued
  reserved_le := h.books.reserved_le
  total := h.books.total
  funded := h.address.symm ▸ h.funded

theorem unsaturated (h : Accounts c s) : Unsaturated s where
  available := h.books.available_mem h.issued
  leaving _ _ hread hactive := h.books.leaving h.issued hread hactive

/-- The contract can pay for every active policy. -/
theorem payout_ne_none (h : Accounts c s) {policy : InsurancePolicy} {poolToken : Address}
    (hread : s.policies.lookup policyId = some policy) (hactive : policy.status = .active)
    (htoken : s.poolToken = some poolToken) :
    TokenClient.transfer s.tokens poolToken s.contractAddress policy.policyholder
      policy.coverageAmount ≠ none := by
  have hcoverage := h.issued.coverage_le hread hactive
  have hreserved := h.books.reserved
  have hle := h.books.reserved_le
  have hfunded := h.funded poolToken htoken
  rw [Balances.client_transfer, ← Option.isSome_iff_ne_none, Balances.transfer_isSome, h.address]
  -- its coverage is at most the reserve, the total, and what the contract owns
  exact ⟨(h.issued.coverage_pos _ _ hread).le, by omega⟩

/-- No payout transfer fails. -/
theorem checkTrigger_ne_panic (h : Accounts c s) (now policyId : ℕ) (oracle : Oracle)
    (message : String) : checkTrigger now policyId oracle s ≠ .error (.panic message) := by
  refine Except.bind_ne_error (require_ne_error (by simp)) fun _ _ =>
    Except.bind_ne_error (orAbort_ne_error (by simp)) fun policy hread =>
    Except.bind_ne_error (require_ne_error (by simp)) fun _ hactive =>
    Except.bind_ne_error (require_ne_error (by simp)) fun _ _ =>
    Except.bind_ne_error (orAbort_ne_error (by simp)) fun config _ =>
    Except.bind_ne_error (orAbort_ne_error (by simp)) fun oracleValue _ => ?_
  rw [orAbort_eq_ok] at hread
  rw [require_eq_ok] at hactive
  split
  · -- only the payout can panic, and only when the transfer fails
    refine Except.bind_ne_error (Except.bind_ne_error (orAbort_ne_error (by simp))
      fun poolToken htoken => Except.bind_ne_error (orAbort_ne_error fun hnone => ?_) fun _ _ =>
      Except.bind_ne_error (IntFormat.checked_ne_error (by simp)) fun _ _ => by simp)
      fun _ _ => by simp
    rw [orAbort_eq_ok] at htoken
    exact absurd hnone (h.payout_ne_none hread hactive htoken)
  · simp

/-- A policy leaves the pool. -/
theorem leaves (h : Accounts c s) {policy : InsurancePolicy} {paid : ℤ}
    (hl : Leaves s s' policyId policy paid) (hpaid : 0 ≤ paid) (hle : paid ≤ policy.coverageAmount)
    (hfunded : ∀ poolToken, s.poolToken = some poolToken →
      s.pool.totalLiquidity - paid ≤ s'.tokens.balance poolToken c) : Accounts c s' := by
  obtain ⟨hmemTotal, hmemReserved, -, -⟩ := h.books.leaving h.issued hl.lookup hl.active
  obtain rfl := h.issued.id_eq _ _ hl.lookup
  have hmemPaid : IntFormat.i128.Mem (s.pool.totalLiquidity - paid) := by
    have := h.books.total_mem.2
    exact ⟨hmemTotal.1.trans (by omega), by omega⟩
  -- nothing saturates, so the pool shrinks by exactly the payment and the coverage
  obtain ⟨status, hstatus, hpolicies⟩ := hl.policies
  constructor
  · exact hl.contractAddress.trans h.address
  · rw [hpolicies, hl.liquidityProviders]
    exact h.books.retire h.issued hl.lookup hl.active hstatus hpaid hle
      (hl.totalLiquidity hmemPaid) (hl.reservedLiquidity hmemReserved)
      hl.totalPremiumsCollected hl.totalPayouts hl.activePolicies
  · rw [hpolicies, hl.policyCounter]
    exact h.issued.insert { policy with status := status } le_rfl
      (h.issued.id_le _ policy hl.lookup) (h.issued.coverage_pos _ policy hl.lookup)
  · intro poolToken htoken
    rw [hl.totalLiquidity hmemPaid]
    exact hfunded poolToken (hl.poolToken ▸ htoken)
  · intro hinit
    -- nothing is stored before `init`, so no policy can leave
    obtain ⟨hempty, -⟩ := h.fresh (hl.initialized ▸ hinit)
    have hread := hl.lookup
    rw [hempty] at hread
    cases hread

/-- A call that writes neither books nor tokens. -/
theorem of_eq (h : Accounts c s) (haddress : s'.contractAddress = s.contractAddress)
    (hpool : s'.pool = s.pool) (hpolicies : s'.policies = s.policies)
    (hproviders : s'.liquidityProviders = s.liquidityProviders)
    (hcounter : s'.policyCounter = s.policyCounter) (htoken : s'.poolToken = s.poolToken)
    (htokens : s'.tokens = s.tokens) (hinit : s'.initialized = s.initialized) : Accounts c s' where
  address := haddress.trans h.address
  books := hpool ▸ hpolicies ▸ hproviders ▸ h.books
  issued := hpolicies ▸ hcounter ▸ h.issued
  funded := hpool ▸ htoken ▸ htokens ▸ h.funded
  fresh := hpolicies ▸ hproviders ▸ hinit ▸ h.fresh

/-- The contract owns what somebody else paid in on top of the total. -/
theorem funded_paid_in (h : Accounts c s) {src poolToken : Address} {amount : ℤ}
    {tokens : Balances Address Address} (htoken : s.poolToken = some poolToken)
    (htransfer : TokenClient.transfer s.tokens poolToken src s.contractAddress amount = some tokens)
    (hsrc : src ≠ c) :
    ∀ token, s.poolToken = some token →
      s.pool.totalLiquidity + amount ≤ tokens.balance token c := by
  intro token ht
  obtain rfl := Option.some.inj (htoken.symm.trans ht)
  have hfunded := h.funded poolToken htoken
  rw [h.address] at htransfer
  rw [Balances.transfer_dst htransfer hsrc.symm]
  omega

/-- The contract owns the total without what it paid out. -/
theorem funded_paid_out (h : Accounts c s) {dst poolToken : Address} {amount : ℤ}
    {tokens : Balances Address Address} (htoken : s.poolToken = some poolToken)
    (htransfer : TokenClient.transfer s.tokens poolToken s.contractAddress dst amount =
      some tokens) :
    ∀ token, s.poolToken = some token →
      s.pool.totalLiquidity - amount ≤ tokens.balance token c := by
  intro token ht
  obtain rfl := Option.some.inj (htoken.symm.trans ht)
  have hfunded := h.funded poolToken htoken
  have hpaid := Balances.sub_le_transfer htransfer poolToken c
  omega

/-! ### The calls -/

theorem init (h : Accounts c s) {admin poolToken : Address} {oracleSources : List Address}
    {maxStaleness minOracleSources : ℕ}
    (he : init admin poolToken oracleSources maxStaleness minOracleSources s = .ok s') :
    Accounts c s' := by
  simp only [Insurance.init, Except.bind_eq_ok, require_eq_ok, exists_const] at he
  obtain ⟨hinit, he⟩ := he
  obtain rfl := Except.ok.inj he
  -- the pool starts anew, and before `init` nothing was stored
  obtain ⟨hpolicies, hproviders⟩ := h.fresh hinit
  refine ⟨h.address, ?_, h.issued, fun token _ => s.tokens.nonneg token c, fun hfalse => ?_⟩
  · show Books .new s.policies s.liquidityProviders
    rw [hpolicies, hproviders]
    exact .new
  · cases hfalse

theorem depositLiquidity (h : Accounts c s) {provider : Address} {amount : ℤ} (hout : provider ≠ c)
    (he : depositLiquidity now provider amount s = .ok s') : Accounts c s' := by
  obtain ⟨⟨hinit, hpos, hmem⟩, poolToken, tokens, htoken, htransfer, rfl⟩ :=
    depositLiquidity_eq_ok he
  have hreserved := h.books.reserved_le
  exact ⟨h.address, h.books.move (by omega) hmem, h.issued, h.funded_paid_in htoken htransfer hout,
    fun hfalse => absurd (hinit.symm.trans hfalse) (by simp)⟩

theorem withdrawLiquidity (h : Accounts c s) {provider : Address} {amount : ℤ}
    (he : withdrawLiquidity now provider amount s = .ok s') : Accounts c s' := by
  obtain ⟨⟨hinit, hpos, havail, hmem⟩, poolToken, tokens, htoken, htransfer, rfl⟩ :=
    withdrawLiquidity_eq_ok he
  rw [h.books.availableLiquidity_eq h.issued] at havail
  rw [sub_eq_add_neg] at hmem
  exact ⟨h.address, h.books.move (by omega) hmem, h.issued, h.funded_paid_out htoken htransfer,
    fun hfalse => absurd (hinit.symm.trans hfalse) (by simp)⟩

theorem createPolicy (h : Accounts c s) {policyholder : Address} {terms : PolicyTerms}
    (hout : policyholder ≠ c) (he : createPolicy now policyholder terms s = .ok (policyId, s')) :
    Accounts c s' := by
  obtain ⟨⟨hinit, hcoverage, hpremium, havail, hmem⟩, poolToken, tokens, policy, htoken,
    htransfer, ⟨hid, hactive, hcov⟩, haddress, hinit', htoken', htokens, hcounter, hproviders,
    hpolicies, hpool⟩ := createPolicy_eq_ok he
  rw [h.books.availableLiquidity_eq h.issued] at havail
  rw [← hcov] at hcoverage havail hpool
  refine ⟨haddress.trans h.address, ?_, ?_, ?_,
    fun hfalse => absurd (hinit.symm.trans (hinit'.symm.trans hfalse)) (by simp)⟩
  · rw [hpool, hpolicies, hproviders]
    exact h.books.issue (hid ▸ h.issued.lookup_next) hactive havail hpremium.le hmem _
  · rw [hpolicies, hcounter]
    exact h.issued.insert policy (Nat.le_succ _) hid.le hcoverage
  · rw [htoken', hpool, htokens]
    exact h.funded_paid_in htoken htransfer hout

/-- A policy leaves the pool without a payout. -/
theorem leaves_unpaid (h : Accounts c s) {policy : InsurancePolicy}
    (hl : Leaves s s' policyId policy 0) (htokens : s'.tokens = s.tokens) : Accounts c s' := by
  refine h.leaves hl le_rfl (h.issued.coverage_pos _ _ hl.lookup).le fun token ht => ?_
  rw [sub_zero, htokens]
  exact h.funded token ht

theorem checkTrigger (h : Accounts c s) {oracle : Oracle} {b : Bool}
    (he : checkTrigger now policyId oracle s = .ok (b, s')) : Accounts c s' := by
  rcases checkTrigger_eq_ok he with ⟨event, rfl⟩ | ⟨policy, poolToken, htoken, htransfer, hl⟩
  · exact h.of_eq rfl rfl rfl rfl rfl rfl rfl rfl
  · exact h.leaves hl (h.issued.coverage_pos _ _ hl.lookup).le le_rfl
      (h.funded_paid_out htoken htransfer)

theorem transfer (h : Accounts c s) {token src dst : Address} {amount : ℤ} (hout : src ≠ c)
    (he : transfer token src dst amount s = .ok s') : Accounts c s' := by
  simp only [Insurance.transfer, Except.bind_eq_ok, tokenTransfer_eq_ok] at he
  obtain ⟨tokens, htransfer, he⟩ := he
  obtain rfl := Except.ok.inj he
  -- a transfer between others takes nothing from the contract
  refine ⟨h.address, h.books, h.issued, fun poolToken ht => ?_, h.fresh⟩
  exact (h.funded poolToken ht).trans (Balances.le_transfer_of_ne htransfer hout poolToken)

end Accounts

/-- A call from outside keeps the accounts. -/
theorem execute_accounts {call : Call} {r : Result} (h : Accounts c s) (hout : Outside c call)
    (he : execute now s call = .ok (r, s')) : Accounts c s' := by
  cases call with
  | init admin poolToken oracleSources maxStaleness minOracleSources =>
    obtain ⟨s₁, h₁, -, rfl⟩ := Except.map_pair_eq_ok.mp he
    exact h.init h₁
  | updateOracleConfig admin oracleSources maxStaleness minOracleSources =>
    simp only [execute, updateOracleConfig, Except.map_eq_ok, Except.bind_eq_ok] at he
    obtain ⟨s₁, ⟨_, -, h₁⟩, he⟩ := he
    obtain rfl := Except.ok.inj h₁
    obtain ⟨-, rfl⟩ := Prod.mk.inj he
    exact h.of_eq rfl rfl rfl rfl rfl rfl rfl rfl
  | pause admin =>
    simp only [execute, pause, Except.map_eq_ok, Except.bind_eq_ok] at he
    obtain ⟨s₁, ⟨_, -, h₁⟩, he⟩ := he
    obtain rfl := Except.ok.inj h₁
    obtain ⟨-, rfl⟩ := Prod.mk.inj he
    exact h.of_eq rfl rfl rfl rfl rfl rfl rfl rfl
  | unpause admin =>
    simp only [execute, unpause, Except.map_eq_ok, Except.bind_eq_ok] at he
    obtain ⟨s₁, ⟨_, -, h₁⟩, he⟩ := he
    obtain rfl := Except.ok.inj h₁
    obtain ⟨-, rfl⟩ := Prod.mk.inj he
    exact h.of_eq rfl rfl rfl rfl rfl rfl rfl rfl
  | depositLiquidity provider amount =>
    obtain ⟨s₁, h₁, -, rfl⟩ := Except.map_pair_eq_ok.mp he
    exact h.depositLiquidity hout h₁
  | withdrawLiquidity provider amount =>
    obtain ⟨s₁, h₁, -, rfl⟩ := Except.map_pair_eq_ok.mp he
    exact h.withdrawLiquidity h₁
  | createPolicy policyholder terms =>
    obtain ⟨⟨policyId, s₁⟩, h₁, -, rfl⟩ := Except.map_pair_eq_ok.mp he
    exact h.createPolicy hout h₁
  | cancelPolicy policyholder policyId =>
    obtain ⟨s₁, h₁, -, rfl⟩ := Except.map_pair_eq_ok.mp he
    obtain ⟨policy, hl, htokens⟩ := cancelPolicy_eq_ok h₁
    exact h.leaves_unpaid hl htokens
  | checkTrigger policyId oracle =>
    obtain ⟨⟨b, s₁⟩, h₁, -, rfl⟩ := Except.map_pair_eq_ok.mp he
    exact h.checkTrigger h₁
  | expirePolicy policyId =>
    obtain ⟨s₁, h₁, -, rfl⟩ := Except.map_pair_eq_ok.mp he
    obtain ⟨policy, hl, htokens⟩ := expirePolicy_eq_ok h₁
    exact h.leaves_unpaid hl htokens
  | transfer token src dst amount =>
    obtain ⟨s₁, h₁, -, rfl⟩ := Except.map_pair_eq_ok.mp he
    exact h.transfer hout h₁

/-- In every run in which the contract makes no call itself, the accounting of the pool holds,
no saturating subtraction is inexact, and no payout transfer fails. -/
theorem pool_accounted {c : Address} {tokens : Balances Address Address} {t : ℕ}
    {w : World (State (Balances Address Address))}
    {log : List (Commit (State (Balances Address Address)) Call Result)}
    (h : (contract (Balances Address Address)).Run ⟨t, .empty c tokens⟩ w log)
    (hout : ∀ k ∈ log, Outside c k.call) :
    Accounted w.store ∧ Unsaturated w.store ∧ ∀ now policyId oracle message,
      checkTrigger now policyId oracle w.store ≠ .error (.panic message) := by
  have hacc : Accounts c w.store := h.invariant_of_forall (G := fun k => Outside c k.call)
    (fun _ hk hs he => execute_accounts hs hk he) (accounts_empty c tokens) hout
  exact ⟨hacc.accounted, hacc.unsaturated, hacc.checkTrigger_ne_panic⟩

/-- Cover of 5000 for rainfall of at least 200, for a premium of 500 and one day. -/
def sampleTerms : PolicyTerms :=
  ⟨.weather, "RAINFALL", 200, .greaterOrEqual, 5000, 500, 86400⟩

/-- A deposit, two policies of which one is paid and one cancelled, and a withdrawal. -/
def sampleCalls : List (ℕ × Call) :=
  [(0, .init ⟨1⟩ ⟨5⟩ [⟨6⟩] 3600 1), (1, .depositLiquidity ⟨2⟩ 20000),
    (2, .createPolicy ⟨3⟩ sampleTerms), (3, .createPolicy ⟨3⟩ sampleTerms),
    (4, .checkTrigger 1 fun _ _ _ _ => some 250), (5, .cancelPolicy ⟨3⟩ 2),
    (6, .withdrawLiquidity ⟨2⟩ 10000)]

/-- A provider and a policyholder with some tokens. -/
def sampleTokens : Balances Address Address := (Balances.zero.mint ⟨5⟩ ⟨2⟩ 20000).mint ⟨5⟩ ⟨3⟩ 1000

theorem pool_accounted_sample :
    Accounted ((contract _).play ⟨0, .empty ⟨7⟩ sampleTokens⟩ sampleCalls).1.store := by
  refine (pool_accounted (Contract.run_play _ _ sampleCalls (by decide)) fun k hk => ?_).1
  have hmem := Contract.call_mem_of_mem_play _ hk
  simp only [sampleCalls, List.map_cons, List.map_nil, List.mem_cons, List.not_mem_nil,
    or_false] at hmem
  rcases hmem with hmem | hmem | hmem | hmem | hmem | hmem | hmem <;> rw [hmem] <;>
    simp [Outside]

end Stellara.Insurance
