import Mathlib.Data.Finset.Basic
import Mathlib.Data.Fintype.EquivFin
import Mathlib.Data.String.Basic
import Stellara.Shared.CircuitBreaker
import Stellara.Shared.Governance

/-!
# Runs of the circuit breaker

The breaker is tripped by the activity reported to it, and an administrator pauses single
functions and sets the pause level by hand. Both write the one pause level of the state. A
full pause lasts until an administrator sets the level; but a breaker whose level is partial
does not trip, and then every function that was not paused by name stays open.

## Main definitions

* `setPauseLevel`, `pauseFunction`, `unpauseFunction`: the calls of an administrator
* `contract`: the breaker as a transactional contract, with calls that it guards
* `ReachesThreshold`: the commits that report activity up to a threshold
* `Trips`: after such a commit nothing guarded returns until the level is set

## Main results

* `pauseFunction_eq_ok`, `unpauseFunction_eq_ok`: what a call leaves
* `execute_of_full`: a full pause lasts
* `trips_iff`: the breaker trips exactly when no threshold is reached at the partial level
-/

namespace Stellara.CircuitBreaker

open Governance (GovernanceRole GovernanceError)

/-- The entries of a contract's storage: those of its governance and of its breaker. -/
structure State where
  governance : Governance.State
  breaker : Storage

/-! ## The calls -/

/-- Set the pause level (admin only). -/
def setPauseLevel (admin : Address) (level : PauseLevel) (s : State) :
    Outcome GovernanceError State := do
  Governance.requireRole s.governance admin .admin
  let state := { getState s.breaker with pauseLevel := level }
  .ok { s with breaker := { s.breaker with state := some state } }

/-- Pause a specific function (admin only). -/
def pauseFunction (admin : Address) (funcName : Symbol) (s : State) :
    Outcome GovernanceError State := do
  Governance.requireRole s.governance admin .admin
  let breaker := { s.breaker with pausedFuncs := s.breaker.pausedFuncs.insert funcName true }
  let state := getState breaker
  if state.pauseLevel = .none then
    .ok { s with breaker :=
      { breaker with state := some { state with pauseLevel := .partialPause } } }
  else
    .ok { s with breaker := breaker }

/-- Unpause a specific function (admin only). The level is left for the admin to decide. -/
def unpauseFunction (admin : Address) (funcName : Symbol) (s : State) :
    Outcome GovernanceError State := do
  Governance.requireRole s.governance admin .admin
  .ok { s with breaker :=
    { s.breaker with pausedFuncs := s.breaker.pausedFuncs.erase funcName } }

/-- The calls of a contract with a breaker. -/
inductive Call where
  | trackActivity (volume : ℤ)
  | setPauseLevel (admin : Address) (level : PauseLevel)
  | pauseFunction (admin : Address) (funcName : Symbol)
  | unpauseFunction (admin : Address) (funcName : Symbol)
  /-- A call of the function `funcName`, which requires that it is not paused. -/
  | guarded (funcName : Symbol)
deriving DecidableEq, Repr

/-- The call sets the pause level. -/
def Call.setsPauseLevel : Call → Bool
  | .setPauseLevel _ _ => true
  | _ => false

/-- Execute a call. -/
def execute (now : ℕ) (s : State) : Call → Outcome GovernanceError (Unit × State)
  | .trackActivity volume => do
    let breaker ← trackActivity now volume s.breaker
    .ok ((), { s with breaker := breaker })
  | .setPauseLevel admin level => do .ok ((), ← setPauseLevel admin level s)
  | .pauseFunction admin funcName => do .ok ((), ← pauseFunction admin funcName s)
  | .unpauseFunction admin funcName => do .ok ((), ← unpauseFunction admin funcName s)
  | .guarded funcName => do
    requireNotPaused s.breaker funcName
    .ok ((), s)

/-- The breaker as a transactional contract. -/
def contract : Contract State Call Unit (Fault GovernanceError) where
  exec now call s := execute now s call

abbrev Log := List (Commit State Call Unit)

/-! ## What a call leaves -/

variable {s s' : State} {admin : Address} {funcName : Symbol} {level : PauseLevel}

/-- Pausing a function makes an open breaker partial, and no level lower. -/
theorem pauseFunction_eq_ok (h : pauseFunction admin funcName s = .ok s') :
    (getState s'.breaker).pauseLevel =
        (if (getState s.breaker).pauseLevel = .none then .partialPause
          else (getState s.breaker).pauseLevel) ∧
      isFunctionPaused s'.breaker funcName = true ∧ s'.governance = s.governance := by
  simp only [pauseFunction, Except.bind_eq_ok] at h
  obtain ⟨-, -, h⟩ := h
  split at h <;> rename_i hlevel <;> obtain rfl := Except.ok.inj h
  · refine ⟨(if_pos hlevel).symm, ?_, rfl⟩
    simp [isFunctionPaused]
  · refine ⟨(if_neg hlevel).symm, ?_, rfl⟩
    simp [isFunctionPaused]

theorem unpauseFunction_eq_ok (h : unpauseFunction admin funcName s = .ok s') :
    getState s'.breaker = getState s.breaker ∧ isFunctionPaused s'.breaker funcName = false ∧
      s'.governance = s.governance := by
  simp only [unpauseFunction, Except.bind_eq_ok] at h
  obtain ⟨-, -, h⟩ := h
  obtain rfl := Except.ok.inj h
  refine ⟨rfl, ?_, rfl⟩
  simp [isFunctionPaused]

/-! ## Thresholds -/

/-- The commit reports activity, and the activity of its period then is at a threshold. -/
def ReachesThreshold (c : Commit State Call Unit) : Prop :=
  (∃ volume, c.call = .trackActivity volume) ∧
    ∃ config, c.after.breaker.config = some config ∧
      triggered config (getState c.after.breaker).currentPeriodVolume
        (getState c.after.breaker).currentPeriodTxCount

/-- The breaker trips in a run: once a commit of the run has reached a threshold, no guarded
call returns, whatever is called afterwards, until an administrator sets the pause level. -/
def Trips (log : Log) : Prop :=
  ∀ c ∈ log, ReachesThreshold c →
    ∀ w' log', contract.Run ⟨c.time, c.after⟩ w' log' →
      (∀ d ∈ log', d.call.setsPauseLevel = false) →
      ∀ d ∈ log', ∀ funcName, d.call ≠ .guarded funcName

/-! ## A full pause lasts -/

/-- Nothing guarded returns while the level is full. -/
theorem not_requireNotPaused_of_full {b : Storage} {u : Unit}
    (hfull : (getState b).pauseLevel = .full) :
    (requireNotPaused b funcName : Outcome GovernanceError Unit) ≠ .ok u := by
  intro h
  simp only [requireNotPaused, Except.bind_eq_ok, require_eq_ok, exists_const] at h
  exact h.1 hfull

/-- A full pause lasts through every call that does not set the level, and no guarded call
returns meanwhile. -/
theorem execute_of_full {now : ℕ} {call : Call} {u : Unit}
    (hfull : (getState s.breaker).pauseLevel = .full) (hset : call.setsPauseLevel = false)
    (h : execute now s call = .ok (u, s')) :
    (getState s'.breaker).pauseLevel = .full ∧ ∀ funcName, call ≠ .guarded funcName := by
  have hne : (getState s.breaker).pauseLevel ≠ .none := by
    rw [hfull]
    decide
  cases call with
  | trackActivity volume =>
    simp only [execute, Except.bind_eq_ok] at h
    obtain ⟨b, hb, h⟩ := h
    obtain ⟨-, rfl⟩ := Prod.mk.inj (Except.ok.inj h)
    obtain ⟨config, -, rfl⟩ := trackActivity_eq_ok hb
    refine ⟨?_, fun _ => by simp⟩
    change (tracked now volume config (getState s.breaker)).pauseLevel = .full
    -- only an open breaker is tripped
    rw [tracked_pauseLevel, if_neg fun h => hne h.1]
    exact hfull
  | setPauseLevel admin level => cases hset
  | pauseFunction admin funcName =>
    simp only [execute, Except.bind_eq_ok] at h
    obtain ⟨s₁, h₁, h⟩ := h
    obtain ⟨-, rfl⟩ := Prod.mk.inj (Except.ok.inj h)
    refine ⟨?_, fun _ => by simp⟩
    -- and only an open one becomes partial
    rw [(pauseFunction_eq_ok h₁).1, if_neg hne]
    exact hfull
  | unpauseFunction admin funcName =>
    simp only [execute, Except.bind_eq_ok] at h
    obtain ⟨s₁, h₁, h⟩ := h
    obtain ⟨-, rfl⟩ := Prod.mk.inj (Except.ok.inj h)
    refine ⟨?_, fun _ => by simp⟩
    rw [(unpauseFunction_eq_ok h₁).1]
    exact hfull
  | guarded funcName =>
    simp only [execute, Except.bind_eq_ok] at h
    obtain ⟨u, hu, -⟩ := h
    exact absurd hu (not_requireNotPaused_of_full hfull)

/-- In a run from a full pause that never sets the level, nothing guarded returns. -/
theorem run_of_full {w w' : World State} {log : Log}
    (hfull : (getState w.store.breaker).pauseLevel = .full) (h : contract.Run w w' log)
    (hset : ∀ d ∈ log, d.call.setsPauseLevel = false) :
    ∀ d ∈ log, ∀ funcName, d.call ≠ .guarded funcName := by
  obtain ⟨-, hlasts⟩ := h.invariant_throughout
    (G := fun d : Commit State Call Unit => d.call.setsPauseLevel = false)
    (I := fun s => (getState s.breaker).pauseLevel = .full)
    (fun d hd hs he => (execute_of_full hs hd he).1) hfull hset
  intro d hd
  exact (execute_of_full (hlasts d hd).1 (hset d hd) (h.exec_of_mem d hd)).2

/-- When the breaker trips, no function is open right after a threshold is reached. -/
theorem Trips.not_requireNotPaused {log : Log} (h : Trips log) {c : Commit State Call Unit}
    (hc : c ∈ log) (hreach : ReachesThreshold c) (funcName : Symbol) :
    (requireNotPaused c.after.breaker funcName : Outcome GovernanceError Unit) ≠ .ok () := by
  intro hopen
  have hexec : contract.exec c.time (.guarded funcName) c.after = .ok ((), c.after) := by
    change execute c.time c.after (.guarded funcName) = _
    simp only [execute, hopen, Except.ok_bind]
  -- a guarded call right after the report would return
  have hrun : contract.Run ⟨c.time, c.after⟩ ⟨c.time, c.after⟩
      [⟨c.time, .guarded funcName, (), c.after, c.after⟩] := Contract.Run.commit .start le_rfl hexec
  refine h c hc hreach _ _ hrun ?_ _ (List.mem_singleton_self _) funcName rfl
  intro d hd
  obtain rfl := List.mem_singleton.mp hd
  rfl

/-! ## The partial level -/

/-- At the partial level some function is open: only finitely many are paused by name. -/
theorem exists_open {b : Storage} (hlevel : (getState b).pauseLevel = .partialPause) :
    ∃ funcName, (requireNotPaused b funcName : Outcome GovernanceError Unit) = .ok () := by
  obtain ⟨funcName, hnot⟩ := Infinite.exists_notMem_finset b.pausedFuncs.keys.toFinset
  rw [List.mem_toFinset] at hnot
  have hopen : isFunctionPaused b funcName = false := by
    rw [isFunctionPaused, AList.lookup_eq_none.mpr hnot]
    rfl
  refine ⟨funcName, ?_⟩
  simp [requireNotPaused, hlevel, hopen, require]

/-- **The breaker trips** in a run if and only if no commit of the run reaches a threshold at
the partial level. -/
theorem trips_iff {w₀ w : World State} {log : Log} (h : contract.Run w₀ w log) :
    Trips log ↔ ∀ c ∈ log, ReachesThreshold c →
      (getState c.before.breaker).pauseLevel ≠ .partialPause := by
  -- a report at a threshold trips an open breaker, and leaves the level otherwise
  have hafter : ∀ c ∈ log, ReachesThreshold c →
      (getState c.after.breaker).pauseLevel =
        if (getState c.before.breaker).pauseLevel = .none then .full
        else (getState c.before.breaker).pauseLevel := by
    rintro c hc ⟨⟨volume, hcall⟩, config, hconfig, htrig⟩
    have he : execute c.time c.before c.call = .ok (c.result, c.after) := h.exec_of_mem c hc
    rw [hcall] at he
    simp only [execute, Except.bind_eq_ok] at he
    obtain ⟨b, hb, he⟩ := he
    obtain ⟨-, hs⟩ := Prod.mk.inj (Except.ok.inj he)
    obtain ⟨config', hconfig', rfl⟩ := trackActivity_eq_ok hb
    rw [← hs] at hconfig htrig ⊢
    obtain rfl : config' = config := Option.some.inj (hconfig'.symm.trans hconfig)
    change (tracked c.time volume config' (getState c.before.breaker)).pauseLevel = _
    rw [tracked_pauseLevel]
    by_cases hnone : (getState c.before.breaker).pauseLevel = .none
    · rw [if_pos ⟨hnone, htrig⟩, if_pos hnone]
    · rw [if_neg fun h => hnone h.1, if_neg hnone]
  constructor
  · intro htrips c hc hreach hlevel
    -- the breaker stays partial, and then a function that was not paused by name is open
    have hpartial := hafter c hc hreach
    rw [hlevel, if_neg (by decide)] at hpartial
    obtain ⟨funcName, hopen⟩ := exists_open hpartial
    exact htrips.not_requireNotPaused hc hreach funcName hopen
  · intro hnot c hc hreach w' log' hrun hset
    refine run_of_full ?_ hrun hset
    rw [hafter c hc hreach]
    split
    · rfl
    · rename_i hnone
      have hpartial := hnot c hc hreach
      -- the level is neither none nor partial, so it is full already
      cases hlevel : (getState c.before.breaker).pauseLevel with
      | none => exact absurd hlevel hnone
      | partialPause => exact absurd hlevel hpartial
      | full => rfl

/-- A contract with the administrator 5, and its breaker initialized at time 0. -/
def sampleWorld : World State :=
  ⟨0, ⟨.initial ((∅ : Store Address GovernanceRole).insert ⟨5⟩ .admin),
    init 0 ⟨1000, 10, 3600⟩ .empty⟩⟩

/-- A report up to the volume threshold. -/
def sampleReport : List (ℕ × Call) := [(10, .trackActivity 1000)]

theorem trips_iff_sample : Trips (contract.play sampleWorld sampleReport).2 := by
  refine (trips_iff (Contract.run_play _ sampleWorld sampleReport (by decide))).mpr ?_
  have hopen : ∀ c ∈ (contract.play sampleWorld sampleReport).2,
      (getState c.before.breaker).pauseLevel ≠ .partialPause := by decide
  exact fun c hc _ => hopen c hc

/-- The same report, after the administrator paused one function. -/
def samplePartial : List (ℕ × Call) :=
  [(5, .pauseFunction ⟨5⟩ "withdraw"), (10, .trackActivity 1000)]

/-- After a function was paused by name, a report up to the threshold leaves another open. -/
theorem partial_pause_disables_trip :
    ¬ ∀ w log, contract.Run sampleWorld w log → Trips log := by
  intro hall
  have htrips := hall _ _ (Contract.run_play _ sampleWorld samplePartial (by decide))
  refine htrips.not_requireNotPaused (List.mem_cons_of_mem _ List.mem_cons_self) ?_ "trade" ?_
  · exact ⟨⟨1000, rfl⟩, ⟨1000, 10, 3600⟩, rfl, by decide⟩
  · decide

end Stellara.CircuitBreaker
