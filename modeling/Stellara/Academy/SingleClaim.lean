import Stellara.Academy.Vesting

/-!
# Single claims

A grant is paid at most once, to its beneficiary and within its amount, and not after it was
revoked. The claimed flag of a stored schedule keeps the grant from being paid again, but a
batch reads all its schedules before it writes the first one back: a batch that names a grant
twice pays it twice. Without such batches every grant is paid at most once.

## Main definitions

* `payoutsOf payouts id`: what was paid for the grant `id`
* `Settled`: the flags of the stored schedules agree with the payouts
* `SingleClaim`: what the flags are for
* `transferAll`: the transfers of payouts, one after the other
* `NoRepeat`: a commit that is no batch with a repeated id
* `Executed`: the entry point that a call has gone through

## Main results

* `execute_cases`: a call has gone through its entry point
* `execute_transfers`: a call transfers what it records as paid
* `single_claim`: every run without repeated ids in a batch
* `repeated_id_paid_twice`: a batch with a repeated id
-/

namespace Stellara.Academy

variable {τ : Type}

/-- The payouts for the grant `id`, in order. -/
def payoutsOf (payouts : List Payout) (id : ℕ) : List Payout := payouts.filter (·.grantId = id)

theorem payoutsOf_append_self (payouts : List Payout) (id : ℕ) (recipient : Address) (amount : ℤ) :
    payoutsOf (payouts ++ [⟨id, recipient, amount⟩]) id =
      payoutsOf payouts id ++ [⟨id, recipient, amount⟩] := by
  simp [payoutsOf]

theorem payoutsOf_append_of_ne (payouts : List Payout) {id id' : ℕ} (recipient : Address)
    (amount : ℤ) (h : id' ≠ id) :
    payoutsOf (payouts ++ [⟨id', recipient, amount⟩]) id = payoutsOf payouts id := by
  simp [payoutsOf, h]

/-- The stored schedules, none before the first grant. -/
def State.stored (s : State τ) : Schedules := s.schedules.getD ∅

/-- What is required of the payouts of a state. -/
structure SingleClaim (s : State τ) : Prop where
  /-- Every grant is paid in at most one transfer. -/
  once : ∀ id, (payoutsOf s.payouts id).length ≤ 1
  /-- What is paid for a grant is within its amount. -/
  within : ∀ id schedule, s.stored.lookup id = some schedule →
    ((payoutsOf s.payouts id).map Payout.amount).sum ≤ schedule.amount
  /-- Every payout is for a stored grant and goes to its beneficiary. -/
  beneficiary : ∀ p ∈ s.payouts, ∃ schedule, s.stored.lookup p.grantId = some schedule ∧
    p.recipient = schedule.beneficiary
  /-- Nothing was paid for a revoked grant. -/
  revoked : ∀ id schedule, s.stored.lookup id = some schedule → schedule.revoked = true →
    payoutsOf s.payouts id = []

/-- The stored schedules have ids that were given out, and positive amounts. -/
structure Granted (m : Schedules) (grantCount : ℕ) : Prop where
  id_le : ∀ id schedule, m.lookup id = some schedule → id ≤ grantCount
  amount_pos : ∀ id schedule, m.lookup id = some schedule → 0 < schedule.amount

namespace Granted

variable {m : Schedules} {grantCount : ℕ} {id : ℕ} {schedule schedule' : VestingSchedule}

theorem lookup_next (h : Granted m grantCount) : m.lookup (grantCount + 1) = none := by
  cases hl : m.lookup (grantCount + 1) with
  | none => rfl
  | some q =>
    have := h.id_le _ q hl
    omega

theorem insert (h : Granted m grantCount) {grantCount' : ℕ} (hle : grantCount ≤ grantCount')
    (hid : id ≤ grantCount') (hpos : 0 < schedule.amount) :
    Granted (AList.insert id schedule m) grantCount' := by
  constructor
  · intro id' q hq
    rcases Store.eq_or_lookup_of_insert hq with ⟨rfl, -⟩ | ⟨-, hq⟩
    · exact hid
    · exact (h.id_le id' q hq).trans hle
  · intro id' q hq
    rcases Store.eq_or_lookup_of_insert hq with ⟨-, rfl⟩ | ⟨-, hq⟩
    · exact hpos
    · exact h.amount_pos id' q hq

/-- A stored schedule is overwritten with the same amount. -/
theorem overwrite (h : Granted m grantCount) (hread : m.lookup id = some schedule)
    (hamount : schedule'.amount = schedule.amount) : Granted (m.insert id schedule') grantCount :=
  h.insert le_rfl (h.id_le id schedule hread) (hamount ▸ h.amount_pos id schedule hread)

end Granted

/-- The claimed flags agree with the payouts. -/
structure Settled (m : Schedules) (grantCount : ℕ) (payouts : List Payout) : Prop where
  granted : Granted m grantCount
  unknown : ∀ id, m.lookup id = none → payoutsOf payouts id = []
  unclaimed : ∀ id schedule, m.lookup id = some schedule → schedule.claimed = false →
    payoutsOf payouts id = []
  claimed : ∀ id schedule, m.lookup id = some schedule → schedule.claimed = true →
    schedule.revoked = false ∧ ∃ amount, amount ≤ schedule.amount ∧
      payoutsOf payouts id = [⟨id, schedule.beneficiary, amount⟩]

namespace Settled

variable {m : Schedules} {grantCount : ℕ} {payouts : List Payout} {id : ℕ}
  {schedule : VestingSchedule}

/-- A new grant under the next id. -/
theorem grant (h : Settled m grantCount payouts) (hpos : 0 < schedule.amount)
    (hc : schedule.claimed = false) :
    Settled (m.insert (grantCount + 1) schedule) (grantCount + 1) payouts := by
  refine ⟨h.granted.insert (Nat.le_succ _) le_rfl hpos, fun id hn => ?_, fun id q hq hq' => ?_,
    fun id q hq hq' => ?_⟩
  · rw [Store.lookup_insert_ite] at hn
    split at hn
    · cases hn
    · exact h.unknown id hn
  · rcases Store.eq_or_lookup_of_insert hq with ⟨rfl, -⟩ | ⟨-, hq⟩
    · exact h.unknown _ h.granted.lookup_next
    · exact h.unclaimed id q hq hq'
  · rcases Store.eq_or_lookup_of_insert hq with ⟨-, rfl⟩ | ⟨-, hq⟩
    · rw [hc] at hq'
      cases hq'
    · exact h.claimed id q hq hq'

/-- A stored schedule is overwritten with the same terms, and its grant is paid or not. -/
theorem update {schedule' : VestingSchedule} {payouts' : List Payout}
    (h : Settled m grantCount payouts) (hread : m.lookup id = some schedule)
    (hamount : schedule'.amount = schedule.amount)
    (hothers : ∀ id', id' ≠ id → payoutsOf payouts' id' = payoutsOf payouts id')
    (hunclaimed : schedule'.claimed = false → payoutsOf payouts' id = [])
    (hclaimed : schedule'.claimed = true → schedule'.revoked = false ∧
      ∃ amount, amount ≤ schedule'.amount ∧
        payoutsOf payouts' id = [⟨id, schedule'.beneficiary, amount⟩]) :
    Settled (m.insert id schedule') grantCount payouts' := by
  -- only the grant `id` is written, and only its payouts change
  refine ⟨h.granted.overwrite hread hamount, fun id' hn => ?_, fun id' q hq hc => ?_,
    fun id' q hq hc => ?_⟩
  · rw [Store.lookup_insert_ite] at hn
    split at hn
    · cases hn
    · rw [hothers id' ‹_›]
      exact h.unknown id' hn
  · rcases Store.eq_or_lookup_of_insert hq with ⟨rfl, rfl⟩ | ⟨hne, hq⟩
    · exact hunclaimed hc
    · rw [hothers id' hne]
      exact h.unclaimed id' q hq hc
  · rcases Store.eq_or_lookup_of_insert hq with ⟨rfl, rfl⟩ | ⟨hne, hq⟩
    · exact hclaimed hc
    · rw [hothers id' hne]
      exact h.claimed id' q hq hc

/-- An unclaimed grant is paid and marked as claimed. -/
theorem pay (h : Settled m grantCount payouts) (hread : m.lookup id = some schedule)
    (hc : schedule.claimed = false) (hr : schedule.revoked = false) {amount : ℤ}
    (hle : amount ≤ schedule.amount) :
    Settled (m.insert id { schedule with claimed := true }) grantCount
      (payouts ++ [⟨id, schedule.beneficiary, amount⟩]) := by
  refine h.update hread rfl (fun id' hne => payoutsOf_append_of_ne payouts _ _ (Ne.symm hne))
    (fun hfalse => absurd hfalse (by simp)) fun _ => ⟨hr, amount, hle, ?_⟩
  rw [payoutsOf_append_self, h.unclaimed id schedule hread hc, List.nil_append]

/-- An unclaimed grant is revoked. -/
theorem revoke (h : Settled m grantCount payouts) (hread : m.lookup id = some schedule)
    (hc : schedule.claimed = false) (time : ℕ) :
    Settled (m.insert id { schedule with revoked := true, revokeTime := time }) grantCount payouts :=
  h.update hread rfl (fun _ _ => rfl) (fun _ => h.unclaimed id schedule hread hc)
    fun htrue => absurd (hc.symm.trans htrue) (by simp)

theorem singleClaim {s : State τ} (h : Settled s.stored s.grantCount s.payouts) :
    SingleClaim s := by
  -- a grant has no payout, or the one that its flag stands for
  have hpaid : ∀ id, payoutsOf s.payouts id = [] ∨ ∃ schedule amount,
      s.stored.lookup id = some schedule ∧ schedule.revoked = false ∧ amount ≤ schedule.amount ∧
        payoutsOf s.payouts id = [⟨id, schedule.beneficiary, amount⟩] := by
    intro id
    cases hl : s.stored.lookup id with
    | none => exact .inl (h.unknown id hl)
    | some schedule =>
      cases hc : schedule.claimed with
      | false => exact .inl (h.unclaimed id schedule hl hc)
      | true =>
        obtain ⟨hr, amount, hle, hp⟩ := h.claimed id schedule hl hc
        exact .inr ⟨schedule, amount, rfl, hr, hle, hp⟩
  constructor
  · intro id
    rcases hpaid id with hp | ⟨schedule, amount, -, -, -, hp⟩
    · simp [hp]
    · simp [hp]
  · intro id schedule hl
    rcases hpaid id with hp | ⟨schedule', amount, hl', -, hle, hp⟩
    · rw [hp]
      exact (h.granted.amount_pos id schedule hl).le
    · obtain rfl := Option.some.inj (hl.symm.trans hl')
      simpa [hp] using hle
  · intro p hp
    -- a payout is one of the payouts of its grant
    have hmem : p ∈ payoutsOf s.payouts p.grantId := by simp [payoutsOf, hp]
    rcases hpaid p.grantId with hnil | ⟨schedule, amount, hl, -, -, hone⟩
    · rw [hnil] at hmem
      cases hmem
    · rw [hone, List.mem_singleton] at hmem
      exact ⟨schedule, hl, congrArg Payout.recipient hmem⟩
  · intro id schedule hl hrevoked
    rcases hpaid id with hp | ⟨schedule', amount, hl', hr, -, -⟩
    · exact hp
    · obtain rfl := Option.some.inj (hl.symm.trans hl')
      rw [hrevoked] at hr
      cases hr

end Settled

/-! ## What a call leaves -/

/-- A claim of a batch, computed from the schedules `m`. -/
structure Payable (m : Schedules) (beneficiary : Address) (c : Claim) (schedule : VestingSchedule) :
    Prop where
  lookup : m.lookup c.grantId = some schedule
  schedule_eq : c.schedule = { schedule with claimed := true }
  beneficiary_eq : schedule.beneficiary = beneficiary
  unclaimed : schedule.claimed = false
  unrevoked : schedule.revoked = false
  amount_le : c.amount ≤ schedule.amount

/-- The state after a list of claims was paid. -/
def State.paid (s : State τ) (now : ℕ) (beneficiary : Address) (claims : List Claim) (tokens : τ) :
    State τ :=
  { s with
    tokens := tokens
    payouts := s.payouts ++ claims.map fun c => ⟨c.grantId, beneficiary, c.amount⟩
    events := s.events ++ claims.flatMap fun c => claimEvents now c.grantId beneficiary c.amount }

variable [TokenClient τ Address Address] {now : ℕ} {s s' : State τ} {beneficiary : Address}

theorem collectClaims_eq_ok {m : Schedules} {grantCount : ℕ} (hg : Granted m grantCount)
    {ids : List ℕ} {total total' : ℤ} {claims : List Claim}
    (h : collectClaims now beneficiary m ids total = .ok (claims, total')) :
    claims.map Claim.grantId = ids ∧ ∀ c ∈ claims, ∃ schedule, Payable m beneficiary c schedule := by
  induction ids generalizing total total' claims with
  | nil =>
    obtain ⟨rfl, -⟩ := Prod.mk.inj (Except.ok.inj h)
    exact ⟨rfl, by simp⟩
  | cons id ids ih =>
    simp only [collectClaims, Except.bind_eq_ok, orAbort_eq_ok] at h
    obtain ⟨schedule, hread, amount, hamount, _, -, ⟨claims', _⟩, h', h⟩ := h
    obtain ⟨rfl, -⟩ := Prod.mk.inj (Except.ok.inj h)
    obtain ⟨hids, hall⟩ := ih h'
    -- all claims are computed from the schedules that were read at first
    obtain ⟨hb, hc, hr, hle⟩ := claimableAmount_eq_ok (hg.amount_pos id schedule hread).le hamount
    refine ⟨by rw [List.map_cons, hids], fun c hmem => ?_⟩
    rcases List.mem_cons.mp hmem with rfl | hmem
    · exact ⟨schedule, hread, rfl, hb, hc, hr, hle⟩
    · exact hall c hmem

/-- The claims are written over the schedules in order. -/
def writeClaims (m : Schedules) (claims : List Claim) : Schedules :=
  claims.foldl (fun m c => m.insert c.grantId c.schedule) m

theorem payClaims_eq_ok {token : Address} {claims : List Claim} {m m' : Schedules}
    (h : payClaims now token beneficiary claims m s = .ok (m', s')) :
    m' = writeClaims m claims ∧ ∃ tokens, s' = s.paid now beneficiary claims tokens := by
  induction claims generalizing m s with
  | nil =>
    obtain ⟨rfl, rfl⟩ := Prod.mk.inj (Except.ok.inj h)
    exact ⟨rfl, s.tokens, by simp [State.paid]⟩
  | cons c claims ih =>
    simp only [payClaims, payOut, Except.bind_eq_ok] at h
    obtain ⟨s₁, ⟨tokens, -, h₁⟩, h⟩ := h
    obtain rfl := Except.ok.inj h₁
    -- the first claim, and by induction the others
    obtain ⟨rfl, tokens', rfl⟩ := ih h
    exact ⟨rfl, tokens', by simp [State.paid]⟩

/-- A single claim pays one payable grant. -/
theorem claim_eq_ok {grantId : ℕ} {v : ℤ}
    (hg : Granted s.stored s.grantCount) (h : claim now grantId beneficiary s = .ok (v, s')) :
    ∃ c schedule tokens, c.grantId = grantId ∧ Payable s.stored beneficiary c schedule ∧
      s' = persistSchedules (s.paid now beneficiary [c] tokens) (writeClaims s.stored [c]) := by
  simp only [claim, loadSchedules, payOut, Except.bind_eq_ok, orAbort_eq_ok, require_eq_ok,
    exists_const] at h
  obtain ⟨m, hm, schedule, hread, amount, hamount, token, -, -, s₁, ⟨tokens, -, h₁⟩, h⟩ := h
  obtain rfl := Except.ok.inj h₁
  obtain ⟨rfl, rfl⟩ := Prod.mk.inj (Except.ok.inj h)
  have hstored : s.stored = m := by rw [State.stored, hm, Option.getD_some]
  rw [hstored] at hg ⊢
  obtain ⟨hb, hc, hr, hle⟩ := claimableAmount_eq_ok (hg.amount_pos grantId schedule hread).le hamount
  exact ⟨⟨grantId, { schedule with claimed := true }, amount⟩, schedule, tokens, rfl,
    ⟨hread, rfl, hb, hc, hr, hle⟩, by simp [State.paid, persistSchedules, writeClaims]⟩

/-- A batch pays a payable grant for each of its ids. -/
theorem batchClaim_eq_ok {ids : List ℕ} {v : ℤ}
    (hg : Granted s.stored s.grantCount) (h : batchClaim now ids beneficiary s = .ok (v, s')) :
    s' = s ∨ ∃ claims tokens, claims.map Claim.grantId = ids ∧
      (∀ c ∈ claims, ∃ schedule, Payable s.stored beneficiary c schedule) ∧
      s' = persistSchedules (s.paid now beneficiary claims tokens) (writeClaims s.stored claims) := by
  unfold batchClaim at h
  split at h
  · obtain ⟨-, rfl⟩ := Prod.mk.inj (Except.ok.inj h)
    exact .inl rfl
  · simp only [loadSchedules, Except.bind_eq_ok, orAbort_eq_ok, require_eq_ok, exists_const] at h
    obtain ⟨-, m, hm, token, -, ⟨claims, total⟩, hcollect, -, ⟨m', s₁⟩, hpay, h⟩ := h
    obtain ⟨-, rfl⟩ := Prod.mk.inj (Except.ok.inj h)
    have hstored : s.stored = m := by rw [State.stored, hm, Option.getD_some]
    rw [hstored] at hg ⊢
    obtain ⟨hids, hall⟩ := collectClaims_eq_ok hg hcollect
    obtain ⟨rfl, tokens, rfl⟩ := payClaims_eq_ok hpay
    exact .inr ⟨claims, tokens, hids, hall, rfl⟩

omit [TokenClient τ Address Address] in
/-- A grant is stored under the next id. -/
theorem grantVesting_eq_ok {admin : Address} {amount : ℤ} {startTime cliff duration id : ℕ}
    (h : grantVesting now admin beneficiary amount startTime cliff duration s = .ok (id, s')) :
    0 < amount ∧ s'.stored = s.stored.insert (s.grantCount + 1)
        ⟨beneficiary, amount, startTime, cliff, duration, false, false, 0⟩ ∧
      s'.grantCount = s.grantCount + 1 ∧ s'.payouts = s.payouts := by
  simp only [grantVesting, Except.bind_eq_ok, require_eq_ok, exists_const,
    IntFormat.checkedNat_eq_ok] at h
  obtain ⟨_, -, _, -, hpos, -, _, ⟨-, rfl⟩, h⟩ := h
  obtain ⟨-, rfl⟩ := Prod.mk.inj (Except.ok.inj h)
  exact ⟨hpos, rfl, rfl, rfl⟩

omit [TokenClient τ Address Address] in
/-- A revoked grant was neither claimed nor revoked before. -/
theorem revoke_eq_ok {admin : Address} {grantId revokeDelay : ℕ}
    (h : revoke now grantId admin revokeDelay s = .ok s') :
    ∃ schedule, s.stored.lookup grantId = some schedule ∧ schedule.claimed = false ∧
      schedule.revoked = false ∧
      s'.stored = s.stored.insert grantId { schedule with revoked := true, revokeTime := now } ∧
      s'.grantCount = s.grantCount ∧ s'.payouts = s.payouts := by
  simp only [revoke, loadSchedules, Except.bind_eq_ok, orAbort_eq_ok, require_eq_ok,
    exists_const] at h
  obtain ⟨_, -, _, -, m, hm, schedule, hread, hc, hr, -, _, -, -, h⟩ := h
  obtain rfl := Except.ok.inj h
  have hstored : s.stored = m := by rw [State.stored, hm, Option.getD_some]
  rw [hstored]
  exact ⟨schedule, hread, hc, hr, rfl, rfl, rfl⟩

/-- The entry point that a call has gone through, with its result. -/
inductive Executed (now : ℕ) (s : State τ) : Call → Result → State τ → Prop
  | grantVesting {admin beneficiary : Address} {amount : ℤ} {startTime cliff duration id : ℕ}
      {s' : State τ} :
      grantVesting now admin beneficiary amount startTime cliff duration s = .ok (id, s') →
      Executed now s (.grantVesting admin beneficiary amount startTime cliff duration) (.grantId id)
        s'
  | claim {grantId : ℕ} {beneficiary : Address} {amount : ℤ} {s' : State τ} :
      claim now grantId beneficiary s = .ok (amount, s') →
      Executed now s (.claim grantId beneficiary) (.amount amount) s'
  | batchClaim {grantIds : List ℕ} {beneficiary : Address} {amount : ℤ} {s' : State τ} :
      batchClaim now grantIds beneficiary s = .ok (amount, s') →
      Executed now s (.batchClaim grantIds beneficiary) (.amount amount) s'
  | revoke {grantId : ℕ} {admin : Address} {revokeDelay : ℕ} {s' : State τ} :
      revoke now grantId admin revokeDelay s = .ok s' →
      Executed now s (.revoke grantId admin revokeDelay) .unit s'

theorem execute_cases {call : Call} {r : Result} (h : execute now s call = .ok (r, s')) :
    Executed now s call r s' := by
  cases call with
  | grantVesting =>
    simp only [execute, Except.bind_eq_ok] at h
    obtain ⟨⟨id, s₁⟩, h₁, h⟩ := h
    obtain ⟨rfl, rfl⟩ := Prod.mk.inj (Except.ok.inj h)
    exact .grantVesting h₁
  | claim =>
    simp only [execute, Except.bind_eq_ok] at h
    obtain ⟨⟨amount, s₁⟩, h₁, h⟩ := h
    obtain ⟨rfl, rfl⟩ := Prod.mk.inj (Except.ok.inj h)
    exact .claim h₁
  | batchClaim =>
    simp only [execute, Except.bind_eq_ok] at h
    obtain ⟨⟨amount, s₁⟩, h₁, h⟩ := h
    obtain ⟨rfl, rfl⟩ := Prod.mk.inj (Except.ok.inj h)
    exact .batchClaim h₁
  | revoke =>
    simp only [execute, Except.bind_eq_ok] at h
    obtain ⟨s₁, h₁, h⟩ := h
    obtain ⟨rfl, rfl⟩ := Prod.mk.inj (Except.ok.inj h)
    exact .revoke h₁

/-! ## Runs without repeated ids -/

omit [TokenClient τ Address Address] in
/-- Claims of different grants are paid one after another. -/
theorem Settled.payAll {m : Schedules} {grantCount : ℕ} {payouts : List Payout}
    {claims : List Claim} (h : Settled m grantCount payouts)
    (hnodup : (claims.map Claim.grantId).Nodup)
    (hall : ∀ c ∈ claims, ∃ schedule, Payable m beneficiary c schedule) :
    Settled (writeClaims m claims) grantCount
      (payouts ++ claims.map fun c => ⟨c.grantId, beneficiary, c.amount⟩) := by
  induction claims generalizing m payouts with
  | nil => simpa [writeClaims] using h
  | cons c claims ih =>
    rw [List.map_cons, List.nodup_cons] at hnodup
    obtain ⟨schedule, hp⟩ := hall c List.mem_cons_self
    -- the first claim is of a grant that is still unclaimed
    have hone : Settled (m.insert c.grantId c.schedule) grantCount
        (payouts ++ [⟨c.grantId, beneficiary, c.amount⟩]) := by
      rw [hp.schedule_eq, ← hp.beneficiary_eq]
      exact h.pay hp.lookup hp.unclaimed hp.unrevoked hp.amount_le
    -- the claims that are left are of other grants, whose schedules are as they were read
    have hrest := ih hone hnodup.2 fun c' hc' => by
      obtain ⟨schedule', hp'⟩ := hall c' (List.mem_cons_of_mem c hc')
      refine ⟨schedule', { hp' with lookup := ?_ }⟩
      rw [Store.lookup_insert_ite, if_neg]
      · exact hp'.lookup
      · rintro heq
        exact hnodup.1 (heq ▸ List.mem_map_of_mem hc')
    simpa [writeClaims] using hrest

omit [TokenClient τ Address Address] in
/-- The commit is no batch that names a grant twice. -/
def NoRepeat (c : Commit (State τ) Call Result) : Prop :=
  match c.call with
  | .batchClaim grantIds _ => grantIds.Nodup
  | _ => True

/-- A call without a repeated id keeps the flags in agreement with the payouts. -/
theorem execute_settled {call : Call} {r : Result}
    (h : Settled s.stored s.grantCount s.payouts) (he : execute now s call = .ok (r, s'))
    (hn : NoRepeat (⟨now, call, r, s, s'⟩ : Commit (State τ) Call Result)) :
    Settled s'.stored s'.grantCount s'.payouts := by
  cases execute_cases he with
  | grantVesting h₁ =>
    obtain ⟨hpos, hstored, hcount, hpayouts⟩ := grantVesting_eq_ok h₁
    rw [hstored, hcount, hpayouts]
    exact h.grant hpos rfl
  | claim h₁ =>
    obtain ⟨c, schedule, tokens, -, hp, rfl⟩ := claim_eq_ok h.granted h₁
    -- a single claim is a batch of one
    exact h.payAll (by simp) (List.forall_mem_singleton.mpr ⟨schedule, hp⟩)
  | batchClaim h₁ =>
    rcases batchClaim_eq_ok h.granted h₁ with rfl | ⟨claims, tokens, rfl, hall, rfl⟩
    · exact h
    · exact h.payAll hn hall
  | revoke h₁ =>
    obtain ⟨schedule, hread, hc, -, hstored, hcount, hpayouts⟩ := revoke_eq_ok h₁
    rw [hstored, hcount, hpayouts]
    exact h.revoke hread hc now

/-! ## Terms -/

/-- Between two states the terms of a grant stay, and a revoked grant stays revoked and is
paid nothing more. -/
def Keeps (m : Schedules) (payouts : List Payout) (m' : Schedules) (payouts' : List Payout) : Prop :=
  ∀ id schedule, m.lookup id = some schedule → ∃ schedule', m'.lookup id = some schedule' ∧
    schedule'.beneficiary = schedule.beneficiary ∧ schedule'.amount = schedule.amount ∧
    (schedule.revoked = true → schedule'.revoked = true ∧ payoutsOf payouts' id = payoutsOf payouts id)

omit [TokenClient τ Address Address] in
theorem Keeps.refl (m : Schedules) (payouts : List Payout) : Keeps m payouts m payouts :=
  fun _ schedule h => ⟨schedule, h, rfl, rfl, fun hr => ⟨hr, rfl⟩⟩

theorem Keeps.trans {m m' m'' : Schedules} {payouts payouts' payouts'' : List Payout}
    (h : Keeps m payouts m' payouts') (h' : Keeps m' payouts' m'' payouts'') :
    Keeps m payouts m'' payouts'' := by
  intro id schedule hread
  obtain ⟨schedule', hread', hb, ha, hr⟩ := h id schedule hread
  obtain ⟨schedule'', hread'', hb', ha', hr'⟩ := h' id schedule' hread'
  refine ⟨schedule'', hread'', hb'.trans hb, ha'.trans ha, fun hrev => ?_⟩
  obtain ⟨hrev', hp⟩ := hr hrev
  obtain ⟨hrev'', hp'⟩ := hr' hrev'
  exact ⟨hrev'', hp'.trans hp⟩

/-- Claims keep the terms of the schedules they were computed from, even repeated ones. -/
theorem Keeps.payAll {m₀ m : Schedules} {payouts₀ payouts : List Payout} {claims : List Claim}
    (h : Keeps m₀ payouts₀ m payouts)
    (hall : ∀ c ∈ claims, ∃ schedule, Payable m₀ beneficiary c schedule) :
    Keeps m₀ payouts₀ (writeClaims m claims)
      (payouts ++ claims.map fun c => ⟨c.grantId, beneficiary, c.amount⟩) := by
  induction claims generalizing m payouts with
  | nil => simpa [writeClaims] using h
  | cons c claims ih =>
    obtain ⟨schedule, hp⟩ := hall c List.mem_cons_self
    have hone : Keeps m₀ payouts₀ (m.insert c.grantId c.schedule)
        (payouts ++ [⟨c.grantId, beneficiary, c.amount⟩]) := by
      intro id q hq
      by_cases hid : id = c.grantId
      · subst hid
        obtain rfl := Option.some.inj (hp.lookup.symm.trans hq)
        refine ⟨c.schedule, by rw [Store.lookup_insert_ite, if_pos rfl], ?_, ?_, fun hr => ?_⟩
        · rw [hp.schedule_eq]
        · rw [hp.schedule_eq]
        · -- a payable grant is not revoked
          rw [hp.unrevoked] at hr
          cases hr
      · obtain ⟨q', hq', hb, ha, hr⟩ := h id q hq
        refine ⟨q', by rw [Store.lookup_insert_ite, if_neg hid, hq'], hb, ha, fun hrev => ?_⟩
        rw [payoutsOf_append_of_ne payouts _ _ (Ne.symm hid)]
        exact hr hrev
    have hrest := ih hone fun c' hc' => hall c' (List.mem_cons_of_mem c hc')
    simpa [writeClaims] using hrest

/-- Claims keep the amounts of the schedules they were computed from. -/
theorem Granted.writeClaims {m₀ m : Schedules} {grantCount : ℕ} {claims : List Claim}
    (h₀ : Granted m₀ grantCount) (h : Granted m grantCount)
    (hall : ∀ c ∈ claims, ∃ schedule, Payable m₀ beneficiary c schedule) :
    Granted (Academy.writeClaims m claims) grantCount := by
  induction claims generalizing m with
  | nil => exact h
  | cons c claims ih =>
    obtain ⟨schedule, hp⟩ := hall c List.mem_cons_self
    refine ih (h.insert le_rfl (h₀.id_le _ schedule hp.lookup) ?_) fun c' hc' =>
      hall c' (List.mem_cons_of_mem c hc')
    rw [hp.schedule_eq]
    exact h₀.amount_pos _ schedule hp.lookup

/-- Every call keeps the terms of the stored grants. -/
theorem execute_keeps {call : Call} {r : Result}
    (hg : Granted s.stored s.grantCount) (he : execute now s call = .ok (r, s')) :
    Granted s'.stored s'.grantCount ∧ Keeps s.stored s.payouts s'.stored s'.payouts := by
  cases execute_cases he with
  | grantVesting h₁ =>
    obtain ⟨hpos, hstored, hcount, hpayouts⟩ := grantVesting_eq_ok h₁
    rw [hstored, hcount, hpayouts]
    refine ⟨hg.insert (Nat.le_succ _) le_rfl hpos, fun id schedule hread => ?_⟩
    -- an old grant does not have the next id
    have hne : id ≠ s.grantCount + 1 := by
      have := hg.id_le id schedule hread
      omega
    exact ⟨schedule, by rw [Store.lookup_insert_ite, if_neg hne, hread], rfl, rfl,
      fun hr => ⟨hr, rfl⟩⟩
  | @claim _ beneficiary _ _ h₁ =>
    obtain ⟨c, schedule, tokens, -, hp, rfl⟩ := claim_eq_ok hg h₁
    have hall : ∀ c' ∈ [c], ∃ schedule, Payable s.stored beneficiary c' schedule :=
      List.forall_mem_singleton.mpr ⟨schedule, hp⟩
    exact ⟨hg.writeClaims hg hall, (Keeps.refl _ _).payAll hall⟩
  | batchClaim h₁ =>
    rcases batchClaim_eq_ok hg h₁ with rfl | ⟨claims, tokens, -, hall, rfl⟩
    · exact ⟨hg, .refl _ _⟩
    · exact ⟨hg.writeClaims hg hall, (Keeps.refl _ _).payAll hall⟩
  | @revoke grantId _ _ _ h₁ =>
    obtain ⟨schedule, hread, hc, hr, hstored, hcount, hpayouts⟩ := revoke_eq_ok h₁
    rw [hstored, hcount, hpayouts]
    refine ⟨hg.overwrite hread rfl, fun id q hq => ?_⟩
    -- revoking keeps the terms, and pays nothing
    by_cases hid : id = grantId
    · subst hid
      obtain rfl := Option.some.inj (hread.symm.trans hq)
      exact ⟨{ schedule with revoked := true, revokeTime := now },
        by rw [Store.lookup_insert_ite, if_pos rfl], rfl, rfl, fun _ => ⟨rfl, rfl⟩⟩
    · exact ⟨q, by rw [Store.lookup_insert_ite, if_neg hid, hq], rfl, rfl, fun hr => ⟨hr, rfl⟩⟩

/-! ## Transfers -/

/-- Transfer payouts from the contract to their recipients, one after the other. -/
def transferAll (token contractAddress : Address) (tokens : τ) (payouts : List Payout) : Option τ :=
  payouts.foldlM (fun tokens p =>
    TokenClient.transfer tokens token contractAddress p.recipient p.amount) tokens

/-- The payouts that a call records are the transfers that it makes. -/
structure Transfers (s s' : State τ) : Prop where
  token : s'.token = s.token
  contractAddress : s'.contractAddress = s.contractAddress
  payouts : ∃ new, s'.payouts = s.payouts ++ new ∧ ∀ token, s.token = some token →
    transferAll token s.contractAddress s.tokens new = some s'.tokens

/-- A call that records no payout moves no tokens. -/
theorem Transfers.none (htoken : s'.token = s.token)
    (haddress : s'.contractAddress = s.contractAddress) (hpayouts : s'.payouts = s.payouts)
    (htokens : s'.tokens = s.tokens) : Transfers s s' where
  token := htoken
  contractAddress := haddress
  payouts := ⟨[], by rw [hpayouts, List.append_nil], fun _ _ => by rw [htokens]; rfl⟩

theorem transferAll_append {token contractAddress : Address} {tokens tokens' : τ}
    {payouts : List Payout} (h : transferAll token contractAddress tokens payouts = some tokens')
    (new : List Payout) : transferAll token contractAddress tokens (payouts ++ new) =
      transferAll token contractAddress tokens' new := by
  rw [transferAll, List.foldlM_append]
  exact (congrArg (fun o => o.bind fun tokens => transferAll token contractAddress tokens new) h)

theorem Transfers.trans {s'' : State τ} (h : Transfers s s') (h' : Transfers s' s'') :
    Transfers s s'' := by
  obtain ⟨new, hnew, hmoved⟩ := h.payouts
  obtain ⟨new', hnew', hmoved'⟩ := h'.payouts
  refine ⟨h'.token.trans h.token, h'.contractAddress.trans h.contractAddress, new ++ new', ?_, ?_⟩
  · rw [hnew', hnew, List.append_assoc]
  · intro token htoken
    have hrest := hmoved' token (h.token.trans htoken)
    rw [h.contractAddress] at hrest
    rw [transferAll_append (hmoved token htoken), hrest]

theorem payOut_transfers {token : Address} {grantId : ℕ} {amount : ℤ} (htoken : s.token = some token)
    (h : payOut now token grantId beneficiary amount s = .ok s') : Transfers s s' := by
  simp only [payOut, Except.bind_eq_ok, tokenTransfer_eq_ok] at h
  obtain ⟨tokens, htransfer, h⟩ := h
  obtain rfl := Except.ok.inj h
  refine ⟨rfl, rfl, [⟨grantId, beneficiary, amount⟩], rfl, fun token' htoken' => ?_⟩
  obtain rfl := Option.some.inj (htoken.symm.trans htoken')
  simp [transferAll, htransfer]

theorem payClaims_transfers {token : Address} {claims : List Claim} {m m' : Schedules}
    (htoken : s.token = some token)
    (h : payClaims now token beneficiary claims m s = .ok (m', s')) : Transfers s s' := by
  induction claims generalizing m s with
  | nil =>
    obtain ⟨-, rfl⟩ := Prod.mk.inj (Except.ok.inj h)
    exact .none rfl rfl rfl rfl
  | cons c claims ih =>
    simp only [payClaims, Except.bind_eq_ok] at h
    obtain ⟨s₁, hpay, h⟩ := h
    -- the token and the address of the contract are the same for the next claim
    have hfirst := payOut_transfers htoken hpay
    exact hfirst.trans (ih (hfirst.token.trans htoken) h)

/-- A call transfers what it records as paid, and nothing else. -/
theorem execute_transfers {call : Call} {r : Result} (he : execute now s call = .ok (r, s')) :
    Transfers s s' := by
  cases execute_cases he with
  | grantVesting h₁ =>
    simp only [Academy.grantVesting, Except.bind_eq_ok] at h₁
    obtain ⟨_, -, _, -, _, -, _, -, _, -, h₁⟩ := h₁
    obtain ⟨-, rfl⟩ := Prod.mk.inj (Except.ok.inj h₁)
    exact .none rfl rfl rfl rfl
  | claim h₁ =>
    simp only [Academy.claim, Except.bind_eq_ok, orAbort_eq_ok] at h₁
    obtain ⟨m, -, schedule, -, amount, -, token, htoken, _, -, s₁, hpay, h₁⟩ := h₁
    obtain ⟨-, rfl⟩ := Prod.mk.inj (Except.ok.inj h₁)
    have hpaid := payOut_transfers (by exact htoken) hpay
    exact ⟨hpaid.token, hpaid.contractAddress, hpaid.payouts⟩
  | batchClaim h₁ =>
    unfold Academy.batchClaim at h₁
    split at h₁
    · -- an empty batch pays nothing
      obtain ⟨-, rfl⟩ := Prod.mk.inj (Except.ok.inj h₁)
      exact .none rfl rfl rfl rfl
    · simp only [Except.bind_eq_ok, orAbort_eq_ok] at h₁
      obtain ⟨_, -, m, -, token, htoken, ⟨claims, total⟩, -, _, -, ⟨m', s₁⟩, hpay, h₁⟩ := h₁
      obtain ⟨-, rfl⟩ := Prod.mk.inj (Except.ok.inj h₁)
      have hpaid := payClaims_transfers htoken hpay
      exact ⟨hpaid.token, hpaid.contractAddress, hpaid.payouts⟩
  | revoke h₁ =>
    simp only [Academy.revoke, Except.bind_eq_ok] at h₁
    obtain ⟨_, -, _, -, m, -, schedule, -, _, -, _, -, _, -, _, -, _, -, h₁⟩ := h₁
    obtain rfl := Except.ok.inj h₁
    exact .none rfl rfl rfl rfl

/-! ## Runs -/

omit [TokenClient τ Address Address] in
theorem init_settled {admin rewardToken contractAddress : Address} {config : CircuitBreakerConfig}
    {tokens : τ}
    (h : init now admin rewardToken config (State.empty contractAddress tokens) = .ok s) :
    Settled s.stored s.grantCount s.payouts := by
  simp only [init, Except.bind_eq_ok, require_eq_ok, exists_const] at h
  obtain ⟨-, h⟩ := h
  obtain rfl := Except.ok.inj h
  constructor
  · constructor <;> simp [State.stored, State.empty]
  · exact fun _ _ => rfl
  · exact fun _ _ _ _ => rfl
  · intro id q hq
    simp [State.stored, State.empty] at hq

variable {w w' : World (State τ)}
  {log log' : List (Commit (State τ) Call Result)}

/-- Every run keeps the terms of the grants it starts with. -/
theorem run_keeps (hg : Granted w.store.stored w.store.grantCount)
    (h : (contract τ).Run w w' log) :
    Granted w'.store.stored w'.store.grantCount ∧
      Keeps w.store.stored w.store.payouts w'.store.stored w'.store.payouts := by
  refine h.invariant (I := fun s => Granted s.stored s.grantCount ∧
    Keeps w.store.stored w.store.payouts s.stored s.payouts) (fun t k r s s' hs he => ?_)
    ⟨hg, .refl _ _⟩
  obtain ⟨hg', hk⟩ := execute_keeps hs.1 he
  exact ⟨hg', hs.2.trans hk⟩

/-- In every run the payouts are transferred from the contract, and nothing else is. -/
theorem transferred_of_run {t₀ : ℕ} {admin rewardToken contractAddress : Address}
    {config : CircuitBreakerConfig} {tokens : τ}
    (hinit : init t₀ admin rewardToken config (State.empty contractAddress tokens) = .ok s)
    (h : (contract τ).Run ⟨t₀, s⟩ w log) :
    transferAll rewardToken contractAddress tokens w.store.payouts = some w.store.tokens := by
  refine (h.invariant (I := fun s => s.token = some rewardToken ∧
    s.contractAddress = contractAddress ∧
      transferAll rewardToken contractAddress tokens s.payouts = some s.tokens)
    (fun t k r s s' hs he => ?_) ?_).2.2
  · obtain ⟨htoken, haddress, hmoved⟩ := hs
    have htransfers := execute_transfers he
    obtain ⟨new, hnew, hall⟩ := htransfers.payouts
    refine ⟨htransfers.token.trans htoken, htransfers.contractAddress.trans haddress, ?_⟩
    rw [hnew, transferAll_append hmoved, ← haddress]
    exact hall rewardToken htoken
  · simp only [init, Except.bind_eq_ok, require_eq_ok, exists_const] at hinit
    obtain rfl := Except.ok.inj hinit.2
    exact ⟨rfl, rfl, rfl⟩

/-- In every run whose batches repeat no id, each grant is paid in at most one transfer,
within its amount and to its beneficiary, and a grant that is revoked was paid nothing and is
paid nothing by whatever calls follow. The payouts are the transfers of the contract. -/
theorem single_claim {t₀ : ℕ} {admin rewardToken contractAddress : Address}
    {config : CircuitBreakerConfig} {tokens : τ}
    (hinit : init t₀ admin rewardToken config (State.empty contractAddress tokens) = .ok s)
    (h : (contract τ).Run ⟨t₀, s⟩ w log) (hn : ∀ c ∈ log, NoRepeat c) :
    SingleClaim w.store ∧ (∀ w' log', (contract τ).Run w w' log' →
      Keeps w.store.stored w.store.payouts w'.store.stored w'.store.payouts) ∧
      transferAll rewardToken contractAddress tokens w.store.payouts = some w.store.tokens := by
  have hs : Settled w.store.stored w.store.grantCount w.store.payouts :=
    h.invariant_of_forall (I := fun s => Settled s.stored s.grantCount s.payouts)
      (fun c hn hs he => execute_settled hs he hn) (init_settled hinit) hn
  exact ⟨hs.singleClaim, fun w' log' h' => (run_keeps hs.granted h').2, transferred_of_run hinit h⟩

/-- The contract with a balance of 20 of its token. -/
def sampleTokens : Balances Address Address := Balances.zero.mint ⟨5⟩ ⟨7⟩ 20

/-- The contract right after `init`, at time 0. -/
def sampleWorld : World (State (Balances Address Address)) :=
  ⟨0, { State.empty ⟨7⟩ sampleTokens with
    initialized := true
    admin := some ⟨1⟩
    token := some ⟨5⟩
    breaker := CircuitBreaker.init 0 ⟨1000000, 1000, 3600⟩ .empty }⟩

/-- Two grants that are claimed in one batch. -/
def sampleBatch : List (ℕ × Call) :=
  [(0, .grantVesting ⟨1⟩ ⟨2⟩ 10 0 0 10), (0, .grantVesting ⟨1⟩ ⟨2⟩ 8 0 0 10),
    (20, .batchClaim [1, 2] ⟨2⟩)]

theorem single_claim_sample :
    SingleClaim ((contract _).play sampleWorld sampleBatch).1.store ∧
      transferAll ⟨5⟩ ⟨7⟩ sampleTokens ((contract _).play sampleWorld sampleBatch).1.store.payouts =
        some ((contract _).play sampleWorld sampleBatch).1.store.tokens := by
  suffices hn : ∀ c ∈ ((contract _).play sampleWorld sampleBatch).2, NoRepeat c by
    have hinit : init 0 ⟨1⟩ ⟨5⟩ ⟨1000000, 1000, 3600⟩ (State.empty ⟨7⟩ sampleTokens) =
      .ok sampleWorld.store := rfl
    have hsingle := single_claim hinit (Contract.run_play _ sampleWorld sampleBatch (by decide)) hn
    exact ⟨hsingle.1, hsingle.2.2⟩
  intro c hc
  have hmem := Contract.call_mem_of_mem_play _ hc
  simp only [sampleBatch, List.map_cons, List.map_nil, List.mem_cons, List.not_mem_nil,
    or_false] at hmem
  unfold NoRepeat
  rcases hmem with hmem | hmem | hmem <;> rw [hmem]
  · trivial
  · trivial
  · decide

/-- A batch that names one grant twice. -/
def repeatedBatch : List (ℕ × Call) :=
  [(0, .grantVesting ⟨1⟩ ⟨2⟩ 10 0 0 10), (20, .batchClaim [1, 1] ⟨2⟩)]

/-- A batch that names a grant twice pays it twice. -/
theorem repeated_id_paid_twice :
    ∃ (w : World (State (Balances Address Address))) (log : _),
      (contract _).Run sampleWorld w log ∧ ¬ SingleClaim w.store := by
  refine ⟨_, _, Contract.run_play _ sampleWorld repeatedBatch (by decide), fun h => ?_⟩
  -- both claims were computed before either was written
  exact absurd (h.once 1) (by decide)

end Stellara.Academy
