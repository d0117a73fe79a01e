import Stellara.Bridge.Contract

/-!
# What the calls of the bridge do

Only a withdrawal writes a nonce. Only deposits and `set_rate_limit` write a rate limit, and a
deposit writes the one of its asset: the amount is added to the usage, which starts at zero when the
window of the stored limit has ended.

## Main definitions

* `started`, `counted`: a rate limit at the time of a deposit, without and with its amount
* `Counted`: what a deposit writes into the rate limits
* `Effect`: what a call does, in four cases

## Main results

* `checkRateLimit_eq_ok`, `deposit_eq_ok`: when a deposit succeeds, and what it writes
* `execute_effect`, `Effect.of_deposit`: a call that returns has its effect
-/

namespace Stellara.Bridge

variable {Hash Signature : Type} {sha256 : List UInt8 → Hash} {s s' : State Hash} {ledger : Ledger}
  {src asset recipient : Address} {amount : ℤ} {destChain : ℕ}

/-! ## Deposits -/

/-- A rate limit at the time `now`: when its window has ended, a new one starts with no usage. -/
def started (now : ℕ) (rl : RateLimit) : RateLimit :=
  if rl.lastUpdate + rl.window ≤ now then { rl with currentUsage := 0, lastUpdate := now } else rl

@[simp] theorem started_limit (now : ℕ) (rl : RateLimit) : (started now rl).limit = rl.limit := by
  unfold started
  split <;> rfl

/-- A rate limit with the amount of a deposit at the time `now`. -/
def counted (now : ℕ) (amount : ℤ) (rl : RateLimit) : RateLimit :=
  { started now rl with currentUsage := (started now rl).currentUsage + amount }

/-- A deposit leaves the rate limits when its asset has none, and adds its amount to the usage of
the window otherwise. -/
inductive Counted (now : ℕ) (asset : Address) (amount : ℤ) (limits : Store Address RateLimit) :
    Store Address RateLimit → Prop
  | unlimited : limits.lookup asset = none → Counted now asset amount limits limits
  | limited {rl : RateLimit} : limits.lookup asset = some rl →
      (started now rl).currentUsage + amount ≤ rl.limit →
      Counted now asset amount limits (limits.insert asset (counted now amount rl))

theorem checkRateLimit_eq_ok {now : ℕ} (h : checkRateLimit now asset amount s = .ok s') :
    ∃ limits, Counted now asset amount s.rateLimits limits ∧ s' = { s with rateLimits := limits } := by
  unfold checkRateLimit at h
  split at h
  · rename_i hnone
    exact ⟨_, .unlimited hnone, (Except.ok.inj h).symm⟩
  · rename_i rl hrl
    -- the limit is compared in the window that the deposit belongs to
    simp only [currentLimit, Except.bind_eq_ok, IntFormat.checkedNat_eq_ok, IntFormat.checked_eq_ok,
      require_eq_ok, exists_const] at h
    obtain ⟨rl', ⟨_, ⟨-, rfl⟩, hstart⟩, _, ⟨-, rfl⟩, hlimit, hs⟩ := h
    obtain rfl : started now rl = rl' := Except.ok.inj hstart
    rw [started_limit] at hlimit
    exact ⟨_, .limited hrl hlimit, (Except.ok.inj hs).symm⟩

theorem deposit_eq_ok {id : Hash}
    (h : deposit sha256 ledger src asset amount destChain recipient s = .ok (id, s')) :
    id = sha256 (depositData src asset amount destChain recipient ledger.sequence) ∧
      ∃ limits, Counted ledger.timestamp asset amount s.rateLimits limits ∧
        s' = { s with
          rateLimits := limits
          events := s.events ++
            [.deposit src asset destChain amount recipient id ledger.sequence] } := by
  simp only [deposit, Except.bind_eq_ok, require_eq_ok, exists_const] at h
  obtain ⟨config, -, -, s₁, hlimit, h⟩ := h
  obtain ⟨limits, hcounted, rfl⟩ := checkRateLimit_eq_ok hlimit
  obtain ⟨rfl, rfl⟩ := Prod.mk.inj (Except.ok.inj h)
  exact ⟨rfl, limits, hcounted, rfl⟩

/-! ## All calls -/

/-- The calls that write the configuration or the validators. -/
def administers : Call Signature → Bool
  | .init _ _ _ _ | .addValidator _ | .removeValidator _ | .setPaused _ => true
  | .deposit _ _ _ _ _ | .withdraw _ _ _ _ _ _ | .setRateLimit _ _ _ => false

/-- What a call does. -/
inductive Effect (sha256 : List UInt8 → Hash) (ledger : Ledger) (s : State Hash) :
    Call Signature → Option Hash → State Hash → Prop
  | administered {call : Call Signature} {config : Option BridgeConfig} {validators : List Address} :
      administers call = true →
      Effect sha256 ledger s call none { s with config := config, validators := validators }
  | deposited {src asset recipient : Address} {amount : ℤ} {destChain : ℕ} {id : Hash}
      {limits : Store Address RateLimit} :
      id = sha256 (depositData src asset amount destChain recipient ledger.sequence) →
      Counted ledger.timestamp asset amount s.rateLimits limits →
      Effect sha256 ledger s (.deposit src asset amount destChain recipient) (some id) { s with
        rateLimits := limits
        events := s.events ++ [.deposit src asset destChain amount recipient id ledger.sequence] }
  | withdrew {dst asset : Address} {amount : ℤ} {sourceChain nonce : ℕ}
      {signatures : List Signature} {id : Hash} :
      s.nonces.lookup (sourceChain, nonce) = none →
      Effect sha256 ledger s (.withdraw dst asset amount sourceChain nonce signatures) (some id) { s with
        nonces := s.nonces.insert (sourceChain, nonce) true
        events := s.events ++ [.withdraw dst asset sourceChain amount id nonce] }
  | limited {asset : Address} {limit : ℤ} {window : ℕ} :
      Effect sha256 ledger s (.setRateLimit asset limit window) none { s with
        rateLimits := s.rateLimits.insert asset ⟨limit, window, 0, ledger.timestamp⟩ }

/-- A call that returns has its effect. -/
theorem execute_effect {call : Call Signature} {r : Option Hash}
    (h : execute sha256 ledger s call = .ok (r, s')) : Effect sha256 ledger s call r s' := by
  cases call with
  | init admin feeCollector validatorThreshold chainId =>
    simp only [execute, init, Except.bind_eq_ok, require_eq_ok, exists_const] at h
    obtain ⟨_, ⟨-, h₁⟩, h⟩ := h
    obtain rfl := Except.ok.inj h₁
    obtain ⟨rfl, rfl⟩ := Prod.mk.inj (Except.ok.inj h)
    exact .administered rfl
  | deposit src asset amount destChain recipient =>
    simp only [execute, Except.bind_eq_ok] at h
    obtain ⟨⟨id, s₁⟩, hd, h⟩ := h
    obtain ⟨rfl, rfl⟩ := Prod.mk.inj (Except.ok.inj h)
    obtain ⟨hid, limits, hcounted, rfl⟩ := deposit_eq_ok hd
    exact .deposited hid hcounted
  | withdraw dst asset amount sourceChain nonce signatures =>
    simp only [execute, Except.bind_eq_ok] at h
    obtain ⟨⟨id, s₁⟩, hw, h⟩ := h
    obtain ⟨rfl, rfl⟩ := Prod.mk.inj (Except.ok.inj h)
    obtain ⟨-, hfresh, -, rfl⟩ := withdraw_eq_ok.mp hw
    exact .withdrew hfresh
  | addValidator validator =>
    simp only [execute, addValidator, getConfig, Except.bind_eq_ok] at h
    obtain ⟨_, ⟨_, -, h₁⟩, h⟩ := h
    obtain rfl := Except.ok.inj h₁
    obtain ⟨rfl, rfl⟩ := Prod.mk.inj (Except.ok.inj h)
    split
    · -- a registered validator stays where it is
      exact (.administered rfl :
        Effect sha256 ledger s (.addValidator validator) none
          { s with config := s.config, validators := s.validators })
    · exact .administered rfl
  | removeValidator validator =>
    simp only [execute, removeValidator, getConfig, Except.bind_eq_ok] at h
    obtain ⟨_, ⟨_, -, h₁⟩, h⟩ := h
    obtain rfl := Except.ok.inj h₁
    obtain ⟨rfl, rfl⟩ := Prod.mk.inj (Except.ok.inj h)
    exact .administered rfl
  | setRateLimit asset limit window =>
    simp only [execute, setRateLimit, getConfig, Except.bind_eq_ok] at h
    obtain ⟨_, ⟨_, -, h₁⟩, h⟩ := h
    obtain rfl := Except.ok.inj h₁
    obtain ⟨rfl, rfl⟩ := Prod.mk.inj (Except.ok.inj h)
    exact .limited
  | setPaused paused =>
    simp only [execute, setPaused, getConfig, Except.bind_eq_ok] at h
    obtain ⟨_, ⟨_, -, h₁⟩, h⟩ := h
    obtain rfl := Except.ok.inj h₁
    obtain ⟨rfl, rfl⟩ := Prod.mk.inj (Except.ok.inj h)
    exact .administered rfl

/-- What a deposit returns and writes. -/
theorem Effect.of_deposit {r : Option Hash}
    (h : Effect sha256 ledger s
      (.deposit src asset amount destChain recipient : Call Signature) r s') :
    r = some (sha256 (depositData src asset amount destChain recipient ledger.sequence)) ∧
      Counted ledger.timestamp asset amount s.rateLimits s'.rateLimits := by
  cases h with
  | administered hcall => cases hcall
  | deposited hid hcounted => exact ⟨by rw [hid], hcounted⟩

end Stellara.Bridge
