import Mathlib.Data.Int.ConditionallyCompleteOrder
import Mathlib.Order.ConditionallyCompleteLattice.Basic
import Stellara.Academy.SingleClaim

/-!
# The vesting curve

A schedule vests nothing before its cliff, then linearly up to its end, and everything from the end
on. The contract computes this with sums of 64-bit times and a product of 128 bits. Granting checks
that the amount is positive and that the cliff is not after the end, but not that these fit: a grant
can be settled exactly when they do.

## Main definitions

* `vestedAt`: the curve, without bounds on the integers
* `Fits`: the schedules that are evaluated without overflow
* `Settleable`: a grant that is evaluated at all times, and whose claim fails for three reasons only

## Main results

* `vesting_curve`: the vested amount is the curve, between zero and the amount and monotone
* `settleable_iff`: the accepted grants that can be settled
-/

namespace Stellara.Academy

/-! ## The curve -/

/-- What a schedule has vested at a time, without bounds on the integers. -/
def vestedAt (schedule : VestingSchedule) (t : ℕ) : ℤ :=
  if t < schedule.startTime + schedule.cliff then 0
  else if schedule.startTime + schedule.duration ≤ t then schedule.amount
  else schedule.amount * (t - (schedule.startTime + schedule.cliff) : ℕ) /
    (schedule.duration - schedule.cliff : ℕ)

variable {schedule : VestingSchedule} {t t' : ℕ}

theorem vestedAt_of_lt (h : t < schedule.startTime + schedule.cliff) : vestedAt schedule t = 0 :=
  if_pos h

theorem vestedAt_of_le (hcliff : schedule.cliff ≤ schedule.duration)
    (h : schedule.startTime + schedule.duration ≤ t) : vestedAt schedule t = schedule.amount := by
  rw [vestedAt, if_neg (by omega), if_pos h]

theorem vestedAt_of_between (h : schedule.startTime + schedule.cliff ≤ t)
    (h' : t < schedule.startTime + schedule.duration) :
    vestedAt schedule t = schedule.amount * (t - (schedule.startTime + schedule.cliff) : ℕ) /
      (schedule.duration - schedule.cliff : ℕ) := by
  rw [vestedAt, if_neg (by omega), if_neg (by omega)]

theorem vestedAt_nonneg (hamount : 0 ≤ schedule.amount) : 0 ≤ vestedAt schedule t := by
  unfold vestedAt
  split
  · exact le_rfl
  · split
    · exact hamount
    · exact Int.ediv_nonneg (Int.mul_nonneg hamount (Int.natCast_nonneg _)) (Int.natCast_nonneg _)

theorem vestedAt_le (hamount : 0 ≤ schedule.amount) : vestedAt schedule t ≤ schedule.amount := by
  unfold vestedAt
  split
  · exact hamount
  · split
    · exact le_rfl
    · -- the fraction that has vested is below one
      refine Int.ediv_le_of_le_mul (by omega) (Int.mul_le_mul_of_nonneg_left ?_ hamount)
      omega

/-- The curve does not fall, neither at the cliff nor at the end. -/
theorem vestedAt_mono (hcliff : schedule.cliff ≤ schedule.duration) (hamount : 0 ≤ schedule.amount) :
    Monotone (vestedAt schedule) := by
  intro t t' hle
  rcases Nat.lt_or_ge t (schedule.startTime + schedule.cliff) with hbefore | hafter
  · rw [vestedAt_of_lt hbefore]
    exact vestedAt_nonneg hamount
  rcases Nat.lt_or_ge t' (schedule.startTime + schedule.duration) with hbetween | hend
  · rw [vestedAt_of_between hafter (by omega), vestedAt_of_between (hafter.trans hle) hbetween]
    refine Int.ediv_le_ediv (by omega) (Int.mul_le_mul_of_nonneg_left ?_ hamount)
    omega
  · rw [vestedAt_of_le hcliff hend]
    exact vestedAt_le hamount

/-! ## The contract's evaluation -/

/-- The sums and the product of a schedule fit their formats at all times. -/
structure Fits (schedule : VestingSchedule) : Prop where
  vestingEnd : ((schedule.startTime + schedule.duration : ℕ) : ℤ) ≤ IntFormat.u64.hi
  product : schedule.amount * (schedule.duration - schedule.cliff - 1 : ℕ) ≤ IntFormat.u128.hi

theorem fits_iff : Fits schedule ↔ schedule.startTime + schedule.duration < 2 ^ 64 ∧
    schedule.amount * (schedule.duration - schedule.cliff - 1 : ℕ) < 2 ^ 128 := by
  constructor
  · rintro ⟨hend, hproduct⟩
    simp only [IntFormat.u64, IntFormat.u128] at hend hproduct
    omega
  · rintro ⟨hend, hproduct⟩
    constructor
    · simp only [IntFormat.u64]
      omega
    · simp only [IntFormat.u128]
      omega

/-- Between the cliff and the end the evaluation is exact when the product fits. -/
theorem linearlyVested_eq (hamount : 0 ≤ schedule.amount)
    (hhi : schedule.amount ≤ IntFormat.i128.hi)
    (h : schedule.startTime + schedule.cliff ≤ t) (h' : t < schedule.startTime + schedule.duration)
    (hproduct : schedule.amount * (t - (schedule.startTime + schedule.cliff) : ℕ) ≤
      IntFormat.u128.hi) :
    linearlyVested schedule t (schedule.startTime + schedule.cliff) =
      .ok (vestedAt schedule t) := by
  have hwrap : IntFormat.u128.wrap schedule.amount = schedule.amount :=
    IntFormat.wrap_of_mem ⟨hamount, hhi.trans (by decide)⟩
  have hmem : IntFormat.u128.Mem
      (schedule.amount * (t - (schedule.startTime + schedule.cliff) : ℕ)) :=
    ⟨Int.mul_nonneg hamount (Int.natCast_nonneg _), hproduct⟩
  -- the quotient is at most the amount, which is a value of the format
  have hquot : IntFormat.i128.wrap (vestedAt schedule t) = vestedAt schedule t :=
    IntFormat.wrap_of_mem ⟨IntFormat.i128.lo_nonpos.trans (vestedAt_nonneg hamount),
      (vestedAt_le hamount).trans hhi⟩
  rw [linearlyVested, IntFormat.checkedSub, if_pos h, Except.ok_bind, IntFormat.checkedSub,
    if_pos (by omega), Except.ok_bind, if_neg (by omega), hwrap, IntFormat.checked_of_mem hmem,
    Except.ok_bind, ← vestedAt_of_between h h', hquot]

/-- A schedule that fits is evaluated to the curve at all times. -/
theorem Fits.calculateVestedAmount_eq (h : Fits schedule) (hcliff : schedule.cliff ≤ schedule.duration)
    (hamount : 0 ≤ schedule.amount) (hhi : schedule.amount ≤ IntFormat.i128.hi) (t : ℕ) :
    calculateVestedAmount schedule t = .ok (vestedAt schedule t) := by
  have hend := h.vestingEnd
  unfold calculateVestedAmount
  split
  · rw [vestedAt_of_lt (by omega)]
  have hcliffEnd : IntFormat.u64.checkedNat (ε := Fault VestingError) .overflow
      (schedule.startTime + schedule.cliff) = .ok (schedule.startTime + schedule.cliff) :=
    IntFormat.checkedNat_eq_ok.mpr ⟨by omega, rfl⟩
  rw [hcliffEnd, Except.ok_bind]
  split
  · rw [vestedAt_of_lt (by omega)]
  rw [vestedAfterCliff, IntFormat.checkedNat_eq_ok.mpr ⟨hend, rfl⟩, Except.ok_bind]
  split
  · rw [vestedAt_of_le hcliff (by omega)]
  refine linearlyVested_eq hamount hhi (by omega) (by omega) ((Int.mul_le_mul_of_nonneg_left ?_
    hamount).trans h.product)
  omega

/-- A schedule that does not fit overflows at some time. -/
theorem fits_of_returns (hstart : (schedule.startTime : ℤ) ≤ IntFormat.u64.hi)
    (hamount : 0 ≤ schedule.amount) (hhi : schedule.amount ≤ IntFormat.i128.hi)
    (h : ∀ t : ℕ, (t : ℤ) ≤ IntFormat.u64.hi → ∃ v, calculateVestedAmount schedule t = .ok v) :
    Fits schedule := by
  -- at the start the end of the cliff is computed
  have hcliffEnd : ((schedule.startTime + schedule.cliff : ℕ) : ℤ) ≤ IntFormat.u64.hi := by
    obtain ⟨v, hv⟩ := h schedule.startTime hstart
    simp only [calculateVestedAmount, lt_irrefl, if_false, Except.bind_eq_ok,
      IntFormat.checkedNat_eq_ok] at hv
    obtain ⟨_, ⟨hle, -⟩, -⟩ := hv
    exact hle
  have hafter : ∀ t : ℕ, (t : ℤ) ≤ IntFormat.u64.hi → schedule.startTime + schedule.cliff ≤ t →
      ∃ v, vestedAfterCliff schedule t (schedule.startTime + schedule.cliff) = .ok v := by
    intro t ht hle
    obtain ⟨v, hv⟩ := h t ht
    rw [calculateVestedAmount, if_neg (by omega), IntFormat.checkedNat_eq_ok.mpr ⟨hcliffEnd, rfl⟩,
      Except.ok_bind, if_neg (by omega)] at hv
    exact ⟨v, hv⟩
  -- at the end of the cliff the end of the vesting is
  have hend : ((schedule.startTime + schedule.duration : ℕ) : ℤ) ≤ IntFormat.u64.hi := by
    obtain ⟨v, hv⟩ := hafter _ hcliffEnd le_rfl
    simp only [vestedAfterCliff, Except.bind_eq_ok, IntFormat.checkedNat_eq_ok] at hv
    obtain ⟨_, ⟨hle, -⟩, -⟩ := hv
    exact hle
  refine ⟨hend, ?_⟩
  rcases Nat.lt_or_ge schedule.cliff schedule.duration with hlt | hge
  · -- one second before the end the product is the largest
    obtain ⟨v, hv⟩ := hafter (schedule.startTime + schedule.duration - 1) (by omega) (by omega)
    rw [vestedAfterCliff, IntFormat.checkedNat_eq_ok.mpr ⟨hend, rfl⟩, Except.ok_bind,
      if_neg (by omega)] at hv
    have hwrap : IntFormat.u128.wrap schedule.amount = schedule.amount :=
      IntFormat.wrap_of_mem ⟨hamount, hhi.trans (by decide)⟩
    simp only [linearlyVested, Except.bind_eq_ok, IntFormat.checkedSub_eq_ok, hwrap] at hv
    obtain ⟨_, ⟨-, rfl⟩, _, ⟨-, rfl⟩, hv⟩ := hv
    rw [if_neg (by omega)] at hv
    simp only [Except.bind_eq_ok, IntFormat.checked_eq_ok] at hv
    obtain ⟨_, ⟨hmem, -⟩, -⟩ := hv
    have htime : schedule.startTime + schedule.duration - 1 -
        (schedule.startTime + schedule.cliff) = schedule.duration - schedule.cliff - 1 := by omega
    rw [htime] at hmem
    exact hmem.2
  · have hzero : schedule.duration - schedule.cliff - 1 = 0 := by omega
    simp [hzero, IntFormat.u128]

/-- The vested amount is a curve from zero, before the cliff ends, to the amount of the grant, at
the end, and it never falls. -/
theorem vesting_curve (hcliff : schedule.cliff ≤ schedule.duration) (hpos : 0 < schedule.amount)
    (hhi : schedule.amount ≤ IntFormat.i128.hi)
    (hend : schedule.startTime + schedule.duration < 2 ^ 64)
    (hproduct : schedule.amount * schedule.duration < 2 ^ 128) :
    ∃ vested : ℕ → ℤ, (∀ t, calculateVestedAmount schedule t = .ok (vested t)) ∧
      (∀ t < schedule.startTime + schedule.cliff, vested t = 0) ∧
      (∀ t, schedule.startTime + schedule.duration ≤ t → vested t = schedule.amount) ∧
      (∀ t, 0 ≤ vested t ∧ vested t ≤ schedule.amount) ∧ Monotone vested := by
  -- the product at the end is larger than all that are computed
  have hle : schedule.amount * (schedule.duration - schedule.cliff - 1 : ℕ) ≤
      schedule.amount * schedule.duration := Int.mul_le_mul_of_nonneg_left (by omega) hpos.le
  have hfits : Fits schedule := fits_iff.mpr ⟨hend, hle.trans_lt hproduct⟩
  refine ⟨vestedAt schedule, ?_, ?_, ?_, ?_, ?_⟩
  · exact hfits.calculateVestedAmount_eq hcliff hpos.le hhi
  · exact fun t => vestedAt_of_lt
  · exact fun t => vestedAt_of_le hcliff
  · exact fun t => ⟨vestedAt_nonneg hpos.le, vestedAt_le hpos.le⟩
  · exact vestedAt_mono hcliff hpos.le

/-- A grant of 1000 over 100 seconds with a cliff of 20. -/
def sampleSchedule : VestingSchedule := ⟨⟨2⟩, 1000, 50, 20, 100, false, false, 0⟩

theorem vesting_curve_sample : ∃ vested : ℕ → ℤ,
    (∀ t, calculateVestedAmount sampleSchedule t = .ok (vested t)) ∧
      (∀ t < 70, vested t = 0) ∧ (∀ t, 150 ≤ t → vested t = 1000) ∧
      (∀ t, 0 ≤ vested t ∧ vested t ≤ 1000) ∧ Monotone vested := by
  have hcliff : sampleSchedule.cliff ≤ sampleSchedule.duration := by decide
  exact vesting_curve hcliff (by decide) (by decide) (by decide) (by decide)

/-! ## Settling a grant -/

/-- A schedule without the record of what became of it. -/
def VestingSchedule.terms (schedule : VestingSchedule) : VestingSchedule :=
  { schedule with claimed := false, revoked := false, revokeTime := 0 }

theorem calculateVestedAmount_terms (schedule : VestingSchedule) (t : ℕ) :
    calculateVestedAmount schedule.terms t = calculateVestedAmount schedule t := rfl

/-- The terms of the stored grants of `m` are those of `m'`. -/
def KeepsTerms (m m' : Schedules) : Prop :=
  ∀ id schedule, m.lookup id = some schedule →
    ∃ schedule', m'.lookup id = some schedule' ∧ schedule'.terms = schedule.terms

theorem KeepsTerms.refl (m : Schedules) : KeepsTerms m m :=
  fun _ schedule h => ⟨schedule, h, rfl⟩

theorem KeepsTerms.trans {m m' m'' : Schedules} (h : KeepsTerms m m') (h' : KeepsTerms m' m'') :
    KeepsTerms m m'' := by
  intro id schedule hread
  obtain ⟨schedule', hread', hterms⟩ := h id schedule hread
  obtain ⟨schedule'', hread'', hterms'⟩ := h' id schedule' hread'
  exact ⟨schedule'', hread'', hterms'.trans hterms⟩

/-- A stored grant is overwritten with the same terms. -/
theorem KeepsTerms.insert {m m' : Schedules} (h : KeepsTerms m m') {id : ℕ}
    {schedule' : VestingSchedule} (hread : m.lookup id = some schedule)
    (hterms : schedule'.terms = schedule.terms) : KeepsTerms m (m'.insert id schedule') := by
  intro id' q hq
  by_cases hid : id' = id
  · subst hid
    obtain rfl := Option.some.inj (hread.symm.trans hq)
    exact ⟨schedule', by rw [Store.lookup_insert_ite, if_pos rfl], hterms⟩
  · obtain ⟨q', hq', hterms'⟩ := h id' q hq
    exact ⟨q', by rw [Store.lookup_insert_ite, if_neg hid, hq'], hterms'⟩

variable {τ : Type} {beneficiary : Address}

theorem KeepsTerms.writeClaims {m₀ m : Schedules} {claims : List Claim} (h : KeepsTerms m₀ m)
    (hall : ∀ c ∈ claims, ∃ schedule, Payable m₀ beneficiary c schedule) :
    KeepsTerms m₀ (Academy.writeClaims m claims) := by
  induction claims generalizing m with
  | nil => exact h
  | cons c claims ih =>
    obtain ⟨schedule, hp⟩ := hall c List.mem_cons_self
    exact ih (h.insert hp.lookup (by rw [hp.schedule_eq]; rfl)) fun c' hc' =>
      hall c' (List.mem_cons_of_mem c hc')

variable [TokenClient τ Address Address] {now : ℕ} {s s' : State τ}

omit [TokenClient τ Address Address] in
theorem grantVesting_token {admin : Address} {amount : ℤ} {startTime cliff duration id : ℕ}
    (h : grantVesting now admin beneficiary amount startTime cliff duration s = .ok (id, s')) :
    id = s.grantCount + 1 ∧ cliff ≤ duration ∧ s'.token = s.token := by
  simp only [grantVesting, Except.bind_eq_ok, require_eq_ok, exists_const,
    IntFormat.checkedNat_eq_ok] at h
  obtain ⟨_, -, _, -, -, hcliff, _, ⟨-, rfl⟩, h⟩ := h
  obtain ⟨rfl, rfl⟩ := Prod.mk.inj (Except.ok.inj h)
  exact ⟨rfl, hcliff, rfl⟩

omit [TokenClient τ Address Address] in
theorem revoke_token {admin : Address} {grantId revokeDelay : ℕ}
    (h : revoke now grantId admin revokeDelay s = .ok s') : s'.token = s.token := by
  simp only [revoke, loadSchedules, Except.bind_eq_ok] at h
  obtain ⟨_, -, _, -, m, -, schedule, -, _, -, _, -, _, -, _, -, _, -, h⟩ := h
  obtain rfl := Except.ok.inj h
  rfl

/-- Every call keeps the terms of the stored grants, and the token. -/
theorem execute_keepsTerms {call : Call} {r : Result} (hg : Granted s.stored s.grantCount)
    (he : execute now s call = .ok (r, s')) :
    KeepsTerms s.stored s'.stored ∧ s'.token = s.token := by
  cases execute_cases he with
  | grantVesting h₁ =>
    obtain ⟨-, hstored, -, -⟩ := grantVesting_eq_ok h₁
    refine ⟨fun id schedule hread => ⟨schedule, ?_, rfl⟩, (grantVesting_token h₁).2.2⟩
    -- an old grant does not have the next id
    have := hg.id_le id schedule hread
    rw [hstored, Store.lookup_insert_ite, if_neg (by omega), hread]
  | @claim _ beneficiary _ _ h₁ =>
    obtain ⟨c, schedule, tokens, -, hp, rfl⟩ := claim_eq_ok hg h₁
    have hall : ∀ c' ∈ [c], ∃ schedule, Payable s.stored beneficiary c' schedule :=
      List.forall_mem_singleton.mpr ⟨schedule, hp⟩
    exact ⟨(KeepsTerms.refl _).writeClaims hall, rfl⟩
  | batchClaim h₁ =>
    rcases batchClaim_eq_ok hg h₁ with rfl | ⟨claims, tokens, -, hall, rfl⟩
    · exact ⟨.refl _, rfl⟩
    · exact ⟨(KeepsTerms.refl _).writeClaims hall, rfl⟩
  | revoke h₁ =>
    obtain ⟨schedule, hread, -, -, hstored, -, -⟩ := revoke_eq_ok h₁
    refine ⟨?_, revoke_token h₁⟩
    rw [hstored]
    exact (KeepsTerms.refl _).insert hread rfl

variable {w w' : World (State τ)} {log log' : List (Commit (State τ) Call Result)}

/-- Every run keeps the terms of the grants it starts with, and the token. -/
theorem run_keepsTerms (hg : Granted w.store.stored w.store.grantCount)
    (h : (contract τ).Run w w' log) :
    KeepsTerms w.store.stored w'.store.stored ∧ w'.store.token = w.store.token := by
  refine (h.invariant (I := fun s => Granted s.stored s.grantCount ∧
    KeepsTerms w.store.stored s.stored ∧ s.token = w.store.token) ?_ ⟨hg, .refl _, rfl⟩).2
  intro t k r s s' hs he
  obtain ⟨hterms, htoken⟩ := execute_keepsTerms hs.1 he
  exact ⟨(execute_keeps hs.1 he).1, hs.2.1.trans hterms, htoken.trans hs.2.2⟩

/-- A grant that can be settled: what it has vested is evaluated at every time, and from the end of
the vesting on its beneficiary's claim fails for lack of balance, or because the grant was claimed
or revoked, whatever happened since it was given in the world `w`. -/
structure Settleable (w : World (State τ)) (id : ℕ) (schedule : VestingSchedule) : Prop where
  returns : ∀ t : ℕ, (t : ℤ) ≤ IntFormat.u64.hi → ∃ v, calculateVestedAmount schedule t = .ok v
  claims : ∀ w' log, (contract τ).Run w w' log → ∀ now e, w'.now ≤ now →
    schedule.startTime + schedule.duration ≤ now →
    claim now id schedule.beneficiary w'.store = .error e →
      e = .error .insufficientBalance ∨ e = .error .alreadyClaimed ∨ e = .error .revoked

/-- Why a claim of a stored grant fails once all of it has vested. -/
theorem claim_eq_error [StandardToken τ Address Address] {id : ℕ} {schedule : VestingSchedule}
    {token : Address} {e : Fault VestingError} (hread : s.stored.lookup id = some schedule)
    (hpos : 0 < schedule.amount) (htoken : s.token = some token)
    (hvested : calculateVestedAmount schedule now = .ok schedule.amount)
    (h : claim now id schedule.beneficiary s = .error e) :
    e = .error .insufficientBalance ∨ e = .error .alreadyClaimed ∨ e = .error .revoked := by
  obtain ⟨m, hm⟩ : ∃ m, s.schedules = some m := by
    cases hm : s.schedules with
    | none => simp [State.stored, hm] at hread
    | some m => exact ⟨m, rfl⟩
  rw [State.stored, hm, Option.getD_some] at hread
  rw [claim, loadSchedules, hm, orAbort, Except.ok_bind, hread, orAbort, Except.ok_bind] at h
  rcases Except.bind_eq_error.mp h with hclaim | ⟨amount, hclaim, h⟩
  · -- the amount is not computed: the grant was claimed or revoked
    simp only [claimableAmount, hvested, Except.bind_eq_error, require_eq_error,
      Except.ok_bind] at hclaim
    rcases hclaim with ⟨hb, -⟩ | ⟨-, -, ⟨-, rfl⟩ | ⟨-, -, ⟨-, rfl⟩ | ⟨-, -, ⟨hzero, -⟩ | ⟨_, _, h⟩⟩⟩⟩
    · exact absurd trivial hb
    · exact .inr (.inl rfl)
    · exact .inr (.inr rfl)
    · exact absurd hpos.ne' hzero
    · cases h
  · -- the balance decides about the transfer
    have hamount : amount = schedule.amount := by
      simp only [claimableAmount, hvested, Except.bind_eq_ok, Except.ok_bind] at hclaim
      obtain ⟨_, -, _, -, _, -, _, -, hclaim⟩ := hclaim
      exact (Except.ok.inj hclaim).symm
    rw [hamount, htoken, orAbort, Except.ok_bind] at h
    rcases Except.bind_eq_error.mp h with hbalance | ⟨_, hbalance, h⟩
    · exact .inl (require_eq_error.mp hbalance).2.symm
    · have hle := require_eq_ok.mp hbalance
      obtain ⟨tokens, htransfer⟩ := Option.isSome_iff_exists.mp
        ((StandardToken.transfer_isSome s.tokens token s.contractAddress schedule.beneficiary _).mpr
          ⟨hpos.le, hle⟩)
      simp [payOut, persistSchedules, tokenTransfer, htransfer, orAbort] at h

/-- An accepted grant can be settled exactly when its sums and its product fit. -/
theorem settleable_iff [StandardToken τ Address Address] {t₀ t id startTime cliff duration : ℕ}
    {admin rewardToken contractAddress grantor : Address} {config : CircuitBreakerConfig} {tokens : τ}
    {amount : ℤ}
    (hinit : init t₀ admin rewardToken config (State.empty contractAddress tokens) = .ok s)
    (h : (contract τ).Run ⟨t₀, s⟩ w log) (ht : w.now ≤ t)
    (hstart : (startTime : ℤ) ≤ IntFormat.u64.hi) (hhi : amount ≤ IntFormat.i128.hi)
    (hgrant : grantVesting t grantor beneficiary amount startTime cliff duration w.store =
      .ok (id, s')) :
    Settleable ⟨t, s'⟩ id ⟨beneficiary, amount, startTime, cliff, duration, false, false, 0⟩ ↔
      startTime + duration < 2 ^ 64 ∧ amount * (duration - cliff - 1 : ℕ) < 2 ^ 128 := by
  obtain ⟨hpos, hstored, -, -⟩ := grantVesting_eq_ok hgrant
  obtain ⟨rfl, hcliff, -⟩ := grantVesting_token hgrant
  refine Iff.trans ⟨?_, ?_⟩
    (@fits_iff ⟨beneficiary, amount, startTime, cliff, duration, false, false, 0⟩)
  · intro hsettle
    exact fits_of_returns hstart hpos.le hhi hsettle.returns
  · intro hfits
    have hcurve := hfits.calculateVestedAmount_eq hcliff hpos.le hhi
    refine ⟨fun t _ => ⟨_, hcurve t⟩, fun w' log' h' now e _ hend herror => ?_⟩
    -- the grant is still stored with its terms when it is claimed
    have hexec : (contract τ).exec t
        (.grantVesting grantor beneficiary amount startTime cliff duration) w.store =
        .ok (.grantId (w.store.grantCount + 1), s') := by
      simp only [contract, execute, hgrant, Except.ok_bind]
    have hrun := h.commit ht hexec
    have hg := (run_keeps (init_settled hinit).granted hrun).1
    have htoken := (run_keepsTerms (init_settled hinit).granted (hrun.append h')).2
    obtain ⟨schedule', hread, hterms⟩ := (run_keepsTerms hg h').1 _ _
      (by rw [hstored, Store.lookup_insert_ite, if_pos rfl])
    have hvested : calculateVestedAmount schedule' now = .ok schedule'.amount := by
      have hamount : schedule'.amount = amount := congrArg VestingSchedule.amount hterms
      rw [← calculateVestedAmount_terms, hterms, calculateVestedAmount_terms, hcurve, hamount,
        vestedAt_of_le hcliff hend]
    have hbeneficiary : schedule'.beneficiary = beneficiary :=
      congrArg VestingSchedule.beneficiary hterms
    rw [← hbeneficiary] at herror
    have hstoredToken : w'.store.token = some rewardToken := by
      rw [htoken]
      simp only [init, Except.bind_eq_ok, require_eq_ok, exists_const] at hinit
      exact congrArg State.token (Except.ok.inj hinit.2).symm
    refine claim_eq_error hread ?_ hstoredToken hvested herror
    exact hpos.trans_eq (congrArg VestingSchedule.amount hterms).symm

theorem settleable_sample :
    Settleable ⟨0, ((contract _).play sampleWorld [(0, .grantVesting ⟨1⟩ ⟨2⟩ 10 0 0 10)]).1.store⟩ 1
      ⟨⟨2⟩, 10, 0, 0, 10, false, false, 0⟩ ↔ 0 + 10 < 2 ^ 64 ∧ (10 : ℤ) * (10 - 0 - 1 : ℕ) < 2 ^ 128 :=
  settleable_iff (s := sampleWorld.store) (w := sampleWorld) rfl .start le_rfl (by decide) (by decide)
    (show grantVesting 0 ⟨1⟩ ⟨2⟩ 10 0 0 10 _ = _ from rfl)

/-- An accepted grant whose product overflows in the middle of its vesting. -/
theorem not_settleable : ∃ (w : World (State (Balances Address Address))) (log : _),
    (contract _).Run sampleWorld w log ∧
      log.map Commit.call = [.grantVesting ⟨1⟩ ⟨2⟩ (10 ^ 38) 0 0 10] ∧
      w.store.stored.lookup 1 = some ⟨⟨2⟩, 10 ^ 38, 0, 0, 10, false, false, 0⟩ ∧
      calculateVestedAmount ⟨⟨2⟩, 10 ^ 38, 0, 0, 10, false, false, 0⟩ 5 = .error .overflow :=
  ⟨_, _, Contract.run_play _ sampleWorld [(0, .grantVesting ⟨1⟩ ⟨2⟩ (10 ^ 38) 0 0 10)] (by decide),
    by decide, by decide, by decide⟩

end Stellara.Academy
