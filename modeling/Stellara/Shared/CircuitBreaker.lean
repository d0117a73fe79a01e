import Stellara.Host.Soroban

/-!
# The circuit breaker

The breaker counts the volume and the number of the calls reported to it in the current
period, and pauses the contract when either count reaches its maximum. An administrator can
set the pause level, and pause single functions.

## Main definitions

* `CircuitBreaker.Storage`: configuration, state and paused functions
* `CircuitBreaker.trackActivity`: report one call of a given volume
* `CircuitBreaker.requireNotPaused`: the guard of a function

## Main results

* `CircuitBreaker.trackActivity_eq_ok`: what a reported call leaves
* `CircuitBreaker.tracked_pauseLevel`: when it changes the pause level
-/

namespace Stellara

/-- Pause levels for graduated response. -/
inductive PauseLevel where
  | none
  /-- Specific functions paused. -/
  | partialPause
  /-- All non-admin functions paused. -/
  | full
deriving DecidableEq, Repr

/-- The thresholds that trigger the breaker, and the length of a period in seconds. -/
structure CircuitBreakerConfig where
  maxVolumePerPeriod : ℤ
  maxTxCountPerPeriod : ℕ
  periodDuration : ℕ
deriving DecidableEq, Repr

/-- The activity tracked in the current period, and the pause level. -/
structure CircuitBreakerState where
  currentPeriodStart : ℕ
  currentPeriodVolume : ℤ
  currentPeriodTxCount : ℕ
  lastTriggerTimestamp : ℕ
  pauseLevel : PauseLevel
deriving DecidableEq, Repr

namespace CircuitBreaker

/-- The entries `cb_config`, `cb_state` and `cb_p_fns` of a contract's storage. -/
structure Storage where
  config : Option CircuitBreakerConfig
  state : Option CircuitBreakerState
  pausedFuncs : Store Symbol Bool

/-- Nothing stored yet. -/
def Storage.empty : Storage := ⟨none, none, ∅⟩

/-- Initialize the circuit breaker. -/
def init (now : ℕ) (config : CircuitBreakerConfig) (s : Storage) : Storage :=
  { s with
    config := some config
    state := some ⟨now, 0, 0, 0, .none⟩ }

/-- The stored state, or the one of an idle breaker. -/
def getState (s : Storage) : CircuitBreakerState := s.state.getD ⟨0, 0, 0, 0, .none⟩

/-- Whether the single function `funcName` is paused. -/
def isFunctionPaused (s : Storage) (funcName : Symbol) : Bool :=
  (s.pausedFuncs.lookup funcName).getD false

variable {ε : Type}

/-- Check that a function is not paused. -/
def requireNotPaused (s : Storage) (funcName : Symbol) : Outcome ε Unit := do
  require ((getState s).pauseLevel ≠ .full) (.panic "CONTRACT_FULLY_PAUSED")
  require (¬ ((getState s).pauseLevel = .partialPause ∧ isFunctionPaused s funcName = true))
    (.panic "FUNCTION_PAUSED")

/-- Reset the period when its duration is exceeded. -/
def resetPeriod (now : ℕ) (config : CircuitBreakerConfig) (state : CircuitBreakerState) :
    CircuitBreakerState :=
  if state.currentPeriodStart + config.periodDuration ≤ now then
    { state with currentPeriodStart := now, currentPeriodVolume := 0, currentPeriodTxCount := 0 }
  else state

/-- Whether the tracked activity reaches one of the thresholds. -/
def triggered (config : CircuitBreakerConfig) (volume : ℤ) (txCount : ℕ) : Prop :=
  config.maxVolumePerPeriod ≤ volume ∨ config.maxTxCountPerPeriod ≤ txCount

instance (config : CircuitBreakerConfig) (volume : ℤ) (txCount : ℕ) :
    Decidable (triggered config volume txCount) := inferInstanceAs (Decidable (_ ∨ _))

/-- Track activity and trigger the breaker if a threshold is reached. -/
def trackActivity (now : ℕ) (volume : ℤ) (s : Storage) : Outcome ε Storage := do
  let config ← orAbort (.panic "CB_NOT_INIT") s.config
  let _ ← IntFormat.u64.checkedNat .overflow
    ((getState s).currentPeriodStart + config.periodDuration)
  let state := resetPeriod now config (getState s)
  let total ← IntFormat.i128.checked .overflow (state.currentPeriodVolume + volume)
  let count ← IntFormat.u64.checkedNat .overflow (state.currentPeriodTxCount + 1)
  -- the period may have been reset, and then the counts start from zero
  let state := { state with currentPeriodVolume := total, currentPeriodTxCount := count }
  if triggered config total count ∧ state.pauseLevel = .none then
    .ok { s with state := some { state with pauseLevel := .full, lastTriggerTimestamp := now } }
  else
    .ok { s with state := some state }

/-- The state after a reported call, when no operation overflows. -/
def tracked (now : ℕ) (volume : ℤ) (config : CircuitBreakerConfig) (state : CircuitBreakerState) :
    CircuitBreakerState :=
  let state := resetPeriod now config state
  let state := { state with
    currentPeriodVolume := state.currentPeriodVolume + volume
    currentPeriodTxCount := state.currentPeriodTxCount + 1 }
  if triggered config state.currentPeriodVolume state.currentPeriodTxCount ∧
      state.pauseLevel = .none then
    { state with pauseLevel := .full, lastTriggerTimestamp := now }
  else state

section Tracked

variable {now : ℕ} {volume : ℤ} {config : CircuitBreakerConfig} {state : CircuitBreakerState}

theorem resetPeriod_pauseLevel : (resetPeriod now config state).pauseLevel = state.pauseLevel := by
  unfold resetPeriod
  split <;> rfl

theorem tracked_currentPeriodStart : (tracked now volume config state).currentPeriodStart =
    (resetPeriod now config state).currentPeriodStart := by
  unfold tracked
  dsimp only
  split <;> rfl

theorem tracked_currentPeriodVolume : (tracked now volume config state).currentPeriodVolume =
    (resetPeriod now config state).currentPeriodVolume + volume := by
  unfold tracked
  dsimp only
  split <;> rfl

theorem tracked_currentPeriodTxCount : (tracked now volume config state).currentPeriodTxCount =
    (resetPeriod now config state).currentPeriodTxCount + 1 := by
  unfold tracked
  dsimp only
  split <;> rfl

/-- A reported call keeps the pause level, unless the level is none and a threshold is reached:
then the level is full. -/
theorem tracked_pauseLevel : (tracked now volume config state).pauseLevel =
    if state.pauseLevel = .none ∧
        triggered config (tracked now volume config state).currentPeriodVolume
          (tracked now volume config state).currentPeriodTxCount then
      .full
    else state.pauseLevel := by
  rw [tracked_currentPeriodVolume, tracked_currentPeriodTxCount]
  unfold tracked
  simp only [resetPeriod_pauseLevel]
  split <;> rename_i ht
  · rw [if_pos ⟨ht.2, ht.1⟩]
  · rw [if_neg fun h => ht ⟨h.2, h.1⟩]

end Tracked

/-- A reported call that returns leaves the tracked state and nothing else. -/
theorem trackActivity_eq_ok {now : ℕ} {volume : ℤ} {s s' : Storage}
    (h : (trackActivity now volume s : Outcome ε Storage) = .ok s') :
    ∃ config, s.config = some config ∧
      s' = { s with state := some (tracked now volume config (getState s)) } := by
  simp only [trackActivity, Except.bind_eq_ok, orAbort_eq_ok, IntFormat.checkedNat_eq_ok,
    IntFormat.checked_eq_ok] at h
  obtain ⟨config, hc, -, -, total, ⟨-, rfl⟩, count, ⟨-, rfl⟩, h⟩ := h
  refine ⟨config, hc, ?_⟩
  unfold tracked
  split at h <;> rename_i ht <;> obtain rfl := Except.ok.inj h
  · rw [if_pos ht]
  · rw [if_neg ht]

end CircuitBreaker

end Stellara
