import Mathlib.Data.List.Basic
import Stellara.Lib.Contract

/-!
# The streams of the event monitor

The monitor has a stream of payments and a stream of offers, and remembers a function for each that
closes it. A stream that reports an error is restarted after five seconds if the monitoring goes on,
which opens a new stream and remembers its function in place of the old one; the old stream is not
closed. A start waits for the ledger before it opens its streams, and opens them whatever happened
in the meantime.

Every stream stays open until its own function is called. `stream` is taken to return.

## Main definitions

* `Streams`: the streams of a kind, and which of them the remembered function closes
* `StellarEventMonitorService`: the monitor, with the starts and the timers that are in progress
* `monitor`: the starts, stops, answers, errors and timers of a monitor as a contract
* `MonitorsOnce`: at most one stream of a kind is open, and none when the last request was a stop
* `OpensAlone`: no stream is opened beside another or after a stop, and a stop finds what is open

## Main results

* `Tracked.step`: what is remembered of the streams while no stream is opened beside another
* `monitorsOnce_iff`: the streams are as they should be exactly when all are opened alone
-/

namespace Stellara.Monitor

/-! ## The monitor -/

inductive StreamKind where
  | payment
  | offer
deriving DecidableEq, Repr

/-- The streams of a kind that are open, in the order in which they were opened. -/
structure Streams where
  /-- The stream that the remembered function closes. -/
  closer : Option ℕ
  opened : List ℕ
deriving DecidableEq, Repr

/-- Open a stream, and remember its function. -/
def Streams.start (id : ℕ) (s : Streams) : Streams := ⟨some id, s.opened ++ [id]⟩

/-- Call the remembered function, if any. -/
def Streams.stop (s : Streams) : Streams :=
  match s.closer with
  | some id => ⟨none, s.opened.filter (· ≠ id)⟩
  | none => s

structure StellarEventMonitorService where
  paymentStream : Streams
  offerStream : Streams
  isMonitoring : Bool
  lastLedgerSequence : ℕ
  /-- How many streams were opened so far. -/
  streamCount : ℕ
  /-- How many starts wait for the ledger. -/
  starting : ℕ
  /-- The timers that are set, with the times at which they are due. -/
  restarts : List (StreamKind × ℕ)
deriving DecidableEq, Repr

namespace StellarEventMonitorService

def new : StellarEventMonitorService := ⟨⟨none, []⟩, ⟨none, []⟩, false, 0, 0, 0, []⟩

/-- The streams of a kind. -/
def streams (kind : StreamKind) (s : StellarEventMonitorService) : Streams :=
  match kind with
  | .payment => s.paymentStream
  | .offer => s.offerStream

def startPaymentStream (s : StellarEventMonitorService) : StellarEventMonitorService :=
  { s with paymentStream := s.paymentStream.start s.streamCount, streamCount := s.streamCount + 1 }

def startOfferStream (s : StellarEventMonitorService) : StellarEventMonitorService :=
  { s with offerStream := s.offerStream.start s.streamCount, streamCount := s.streamCount + 1 }

/-- Start the stream of a kind. -/
def startStream (kind : StreamKind) (s : StellarEventMonitorService) : StellarEventMonitorService :=
  match kind with
  | .payment => s.startPaymentStream
  | .offer => s.startOfferStream

/-- What a start does until it waits for the ledger. -/
def startMonitoring (s : StellarEventMonitorService) : StellarEventMonitorService :=
  if s.isMonitoring then s else { s with isMonitoring := true, starting := s.starting + 1 }

/-- What a start does with the sequence of the ledger, or where there is none. -/
def ledgerAnswered (sequence : Option ℕ) (s : StellarEventMonitorService) :
    StellarEventMonitorService :=
  match sequence with
  | some sequence =>
    -- whether the monitoring still goes on is not asked again
    { s with lastLedgerSequence := sequence, starting := s.starting - 1 }.startPaymentStream
      |>.startOfferStream
  | none => { s with isMonitoring := false, starting := s.starting - 1 }

def stopMonitoring (s : StellarEventMonitorService) : StellarEventMonitorService :=
  if s.isMonitoring then
    { s with
      paymentStream := s.paymentStream.stop
      offerStream := s.offerStream.stop
      isMonitoring := false }
  else s

/-- How long an error waits for the restart. -/
def restartDelay : ℕ := 5000

/-- A stream of the kind reports an error. -/
def onerror (now : ℕ) (kind : StreamKind) (s : StellarEventMonitorService) :
    StellarEventMonitorService :=
  { s with restarts := s.restarts ++ [(kind, now + restartDelay)] }

/-- A timer fires. -/
def restart (timer : ℕ) (kind : StreamKind) (s : StellarEventMonitorService) :
    StellarEventMonitorService :=
  let fired := { s with restarts := s.restarts.eraseIdx timer }
  -- the stream that reported the error is not closed
  if s.isMonitoring then fired.startStream kind else fired

end StellarEventMonitorService

/-- What happens to a monitor. -/
inductive MonitorEvent where
  | startMonitoring
  /-- A start gets the sequence of the ledger, or an error. -/
  | ledgerAnswered (sequence : Option ℕ)
  | stopMonitoring
  /-- An open stream reports an error. -/
  | streamError (kind : StreamKind) (id : ℕ)
  | restartTimer (timer : ℕ)
deriving DecidableEq, Repr

open StellarEventMonitorService in
/-- An event; an error stands for one that is not possible. -/
def MonitorEvent.exec (now : ℕ) (event : MonitorEvent) (s : StellarEventMonitorService) :
    Except Unit (Unit × StellarEventMonitorService) :=
  match event with
  | .startMonitoring => .ok ((), s.startMonitoring)
  | .ledgerAnswered sequence =>
    if 0 < s.starting then .ok ((), s.ledgerAnswered sequence) else .error ()
  | .stopMonitoring => .ok ((), s.stopMonitoring)
  | .streamError kind id =>
    if id ∈ (s.streams kind).opened then .ok ((), s.onerror now kind) else .error ()
  | .restartTimer timer =>
    match s.restarts[timer]? with
    | some (kind, due) => if due ≤ now then .ok ((), s.restart timer kind) else .error ()
    | none => .error ()

/-- A monitor, with everything that can happen to it. -/
def monitor : Contract StellarEventMonitorService MonitorEvent Unit Unit where
  exec := MonitorEvent.exec

/-! ## One stream of a kind -/

abbrev MonitorLog := List (Commit StellarEventMonitorService MonitorEvent Unit)

/-- The last request to start or to stop was to stop. -/
def Stopped (log : MonitorLog) : Prop :=
  ((log.map (·.call)).filter fun event =>
    event = .startMonitoring ∨ event = .stopMonitoring).getLast? = some .stopMonitoring

instance : DecidablePred Stopped := fun _ => inferInstanceAs (Decidable (_ = _))

/-- No stream is open. -/
def StellarEventMonitorService.Closed (s : StellarEventMonitorService) : Prop :=
  ∀ kind, (s.streams kind).opened = []

/-- At most one stream of a kind is open, and none when the last request was to stop. -/
def MonitorsOnce (s : StellarEventMonitorService) (log : MonitorLog) : Prop :=
  (∀ kind, (s.streams kind).opened.length ≤ 1) ∧ (Stopped log → s.Closed)

/-- A start that gets its answer finds no stream open, and was not followed by a stop alone. A timer
that restarts a stream finds none of its kind open. A stop finds the monitoring on, or nothing open.
-/
def OpensAlone (past : MonitorLog) (c : Commit StellarEventMonitorService MonitorEvent Unit) :
    Prop :=
  match c.call with
  | .ledgerAnswered (some _) => c.before.Closed ∧ ¬ Stopped past
  | .restartTimer timer => ∀ kind due, c.before.restarts[timer]? = some (kind, due) →
      c.before.isMonitoring = true → (c.before.streams kind).opened = []
  | .stopMonitoring => c.before.isMonitoring = true ∨ c.before.Closed
  | _ => True

/-! ## What is remembered -/

variable {t : ℕ} {event : MonitorEvent} {u : Unit} {s s' : StellarEventMonitorService}
  {log past : MonitorLog} {kind kind' : StreamKind} {w : World StellarEventMonitorService}

theorem stopped_concat : Stopped (log ++ [⟨t, event, u, s, s'⟩]) ↔
    event = .stopMonitoring ∨ event ≠ .startMonitoring ∧ Stopped log := by
  unfold Stopped
  rw [List.map_append, List.filter_append, List.map_singleton]
  cases event with
  | startMonitoring => simp
  | stopMonitoring => simp
  | _ => simp

/-- The last request is still the last one after an event that is not a stop. -/
theorem stopped_before (h : Stopped (log ++ [⟨t, event, u, s, s'⟩]))
    (hne : event ≠ .stopMonitoring) : Stopped log :=
  ((stopped_concat.mp h).resolve_left hne).2

/-- While no stream is opened beside another, the remembered function closes what is open; and where
the last request was to stop, nothing is open and nothing is restarted. -/
structure Tracked (s : StellarEventMonitorService) (log : MonitorLog) : Prop where
  remembered : ∀ kind, (s.streams kind).opened = (s.streams kind).closer.toList
  stopped : Stopped log → s.isMonitoring = false ∧ s.Closed

theorem Tracked.length_le (h : Tracked s log) (kind : StreamKind) :
    (s.streams kind).opened.length ≤ 1 := by
  rw [h.remembered kind]
  cases (s.streams kind).closer <;> simp

theorem Tracked.monitorsOnce (h : Tracked s log) : MonitorsOnce s log :=
  ⟨h.length_le, fun hstopped => (h.stopped hstopped).2⟩

/-! ## The streams after an event -/

/-- A stream that is opened where none is open is the one that is remembered. -/
theorem Streams.opened_start {streams : Streams} {id : ℕ} (h : streams.opened = []) :
    (streams.start id).opened = (streams.start id).closer.toList := by
  rw [start, h]
  rfl

/-- A stream that is opened is alone where no other one is open. -/
theorem Streams.length_start_le {streams : Streams} {id : ℕ} :
    (streams.start id).opened.length ≤ 1 ↔ streams.opened = [] := by
  rw [start, List.length_append, List.length_singleton, ← List.length_eq_zero_iff]
  omega

/-- The remembered function closes what is open. -/
theorem Streams.stop_eq {streams : Streams} (h : streams.opened = streams.closer.toList) :
    streams.stop = ⟨none, []⟩ := by
  obtain ⟨closer, opened⟩ := streams
  obtain rfl : opened = closer.toList := h
  cases closer with
  | none => rfl
  | some id => simp [stop]

@[simp] theorem streams_startMonitoring : s.startMonitoring.streams kind = s.streams kind := by
  unfold StellarEventMonitorService.startMonitoring
  split
  · rfl
  · cases kind <;> rfl

@[simp] theorem streams_ledgerAnswered_none :
    (s.ledgerAnswered none).streams kind = s.streams kind := by
  cases kind <;> rfl

/-- A start opens a stream of each kind. -/
theorem streams_ledgerAnswered_some (s : StellarEventMonitorService) (kind : StreamKind)
    (sequence : ℕ) : ∃ id,
    (s.ledgerAnswered (some sequence)).streams kind = (s.streams kind).start id := by
  cases kind
  case payment => exact ⟨s.streamCount, rfl⟩
  case offer => exact ⟨s.streamCount + 1, rfl⟩

@[simp] theorem streams_onerror : (s.onerror t kind').streams kind = s.streams kind := by
  cases kind <;> rfl

theorem streams_stopMonitoring (h : s.isMonitoring = true) :
    s.stopMonitoring.streams kind = (s.streams kind).stop := by
  rw [StellarEventMonitorService.stopMonitoring, if_pos h]
  cases kind <;> rfl

theorem stopMonitoring_eq (h : s.isMonitoring = false) : s.stopMonitoring = s := by
  rw [StellarEventMonitorService.stopMonitoring, h]
  rfl

theorem isMonitoring_stopMonitoring : s.stopMonitoring.isMonitoring = false := by
  cases h : s.isMonitoring with
  | true =>
    rw [StellarEventMonitorService.stopMonitoring, if_pos h]
  | false => rw [stopMonitoring_eq h, h]

/-- A timer opens a stream of its kind while the monitoring goes on. -/
theorem streams_restart {timer : ℕ} (h : s.isMonitoring = true) :
    (s.restart timer kind').streams kind =
      if kind = kind' then (s.streams kind).start s.streamCount else s.streams kind := by
  unfold StellarEventMonitorService.restart
  rw [if_pos h]
  cases kind <;> cases kind' <;> rfl

theorem streams_restart_of_not {timer : ℕ} (h : s.isMonitoring = false) :
    (∀ kind, (s.restart timer kind').streams kind = s.streams kind) ∧
      (s.restart timer kind').isMonitoring = false := by
  unfold StellarEventMonitorService.restart
  rw [if_neg (by simp [h])]
  exact ⟨fun kind => by cases kind <;> rfl, h⟩

/-- What an event does, where it is possible. -/
inductive MonitorStep (t : ℕ) (s : StellarEventMonitorService) :
    MonitorEvent → StellarEventMonitorService → Prop
  | started : MonitorStep t s .startMonitoring s.startMonitoring
  | failed : 0 < s.starting → MonitorStep t s (.ledgerAnswered none) (s.ledgerAnswered none)
  | opened {sequence : ℕ} : 0 < s.starting →
      MonitorStep t s (.ledgerAnswered (some sequence)) (s.ledgerAnswered (some sequence))
  | stopped : MonitorStep t s .stopMonitoring s.stopMonitoring
  | erred {kind : StreamKind} {id : ℕ} : id ∈ (s.streams kind).opened →
      MonitorStep t s (.streamError kind id) (s.onerror t kind)
  | fired {timer due : ℕ} {kind : StreamKind} : s.restarts[timer]? = some (kind, due) → due ≤ t →
      MonitorStep t s (.restartTimer timer) (s.restart timer kind)

theorem monitorStep_of_exec (h : monitor.exec t event s = .ok (u, s')) :
    MonitorStep t s event s' := by
  cases event with
  | startMonitoring =>
    obtain ⟨-, rfl⟩ := Prod.mk.inj (Except.ok.inj h)
    exact .started
  | stopMonitoring =>
    obtain ⟨-, rfl⟩ := Prod.mk.inj (Except.ok.inj h)
    exact .stopped
  | ledgerAnswered sequence =>
    simp only [monitor, MonitorEvent.exec] at h
    split at h
    · rename_i hstarting
      obtain ⟨-, rfl⟩ := Prod.mk.inj (Except.ok.inj h)
      cases sequence with
      | none => exact .failed hstarting
      | some sequence => exact .opened hstarting
    · cases h
  | streamError kind id =>
    simp only [monitor, MonitorEvent.exec] at h
    split at h
    · rename_i hopened
      obtain ⟨-, rfl⟩ := Prod.mk.inj (Except.ok.inj h)
      exact .erred hopened
    · cases h
  | restartTimer timer =>
    simp only [monitor, MonitorEvent.exec] at h
    split at h
    · rename_i kind due htimer
      split at h
      · rename_i hdue
        obtain ⟨-, rfl⟩ := Prod.mk.inj (Except.ok.inj h)
        exact .fired htimer hdue
      · cases h
    · cases h

/-! ## Runs -/

/-- An event changes neither what is open nor what is remembered. -/
theorem Tracked.quiet (h : Tracked s past) (hstreams : ∀ kind, s'.streams kind = s.streams kind)
    (hstopped : Stopped log → Stopped past) (hmonitoring : s.isMonitoring = false →
      s'.isMonitoring = false) : Tracked s' log := by
  constructor
  · intro kind
    rw [hstreams]
    exact h.remembered kind
  · intro hlog
    obtain ⟨hoff, hclosed⟩ := h.stopped (hstopped hlog)
    refine ⟨hmonitoring hoff, fun kind => ?_⟩
    rw [hstreams]
    exact hclosed kind

/-- What is remembered stays right where streams are opened alone. -/
theorem Tracked.step (h : Tracked s past) (hstep : MonitorStep t s event s')
    (halone : OpensAlone past ⟨t, event, u, s, s'⟩) :
    Tracked s' (past ++ [⟨t, event, u, s, s'⟩]) := by
  cases hstep with
  | started =>
    refine ⟨fun kind => ?_, fun hstopped => ?_⟩
    · rw [streams_startMonitoring]
      exact h.remembered kind
    · -- the last request is the start
      rcases stopped_concat.mp hstopped with hstop | ⟨hstart, -⟩
      · cases hstop
      · exact absurd rfl hstart
  | failed =>
    exact h.quiet (fun _ => streams_ledgerAnswered_none)
      (fun hstopped => stopped_before hstopped (by simp)) (fun _ => rfl)
  | @opened sequence =>
    obtain ⟨hclosed, hopen⟩ := halone
    refine ⟨fun kind => ?_, fun hstopped => absurd (stopped_before hstopped (by simp)) hopen⟩
    obtain ⟨id, hstart⟩ := streams_ledgerAnswered_some s kind sequence
    rw [hstart]
    exact Streams.opened_start (hclosed kind)
  | stopped =>
    cases hmonitoring : s.isMonitoring with
    | true =>
      have hstop : ∀ kind, s.stopMonitoring.streams kind = ⟨none, []⟩ := fun kind =>
        (streams_stopMonitoring hmonitoring).trans (Streams.stop_eq (h.remembered kind))
      refine ⟨fun kind => ?_, fun _ => ⟨isMonitoring_stopMonitoring, fun kind => ?_⟩⟩
      · rw [hstop]
        rfl
      · rw [hstop]
    | false =>
      -- the stop returns at once, so that nothing may be open before it
      have hclosed : s.Closed := halone.resolve_left (by simp [hmonitoring])
      rw [stopMonitoring_eq hmonitoring]
      exact ⟨h.remembered, fun _ => ⟨hmonitoring, hclosed⟩⟩
  | erred =>
    exact h.quiet (fun _ => streams_onerror) (fun hstopped => stopped_before hstopped (by simp))
      (fun hoff => hoff)
  | fired htimer =>
    cases hmonitoring : s.isMonitoring with
    | true =>
      refine ⟨fun kind' => ?_, fun hstopped => ?_⟩
      · rw [streams_restart hmonitoring]
        split
        · rename_i heq
          subst heq
          exact Streams.opened_start (halone _ _ htimer hmonitoring)
        · exact h.remembered kind'
      · -- a stop turns the monitoring off, and only a start turns it on
        have hoff := (h.stopped (stopped_before hstopped (by simp))).1
        cases hmonitoring.symm.trans hoff
    | false =>
      obtain ⟨hstreams, hoff⟩ := streams_restart_of_not hmonitoring
      exact h.quiet hstreams (fun hstopped => stopped_before hstopped (by simp)) (fun _ => hoff)

/-- Where the streams are as they should be after an event, it opened its streams alone. -/
theorem opensAlone_of_monitorsOnce (hstep : MonitorStep t s event s')
    (hafter : MonitorsOnce s' (past ++ [⟨t, event, u, s, s'⟩])) :
    OpensAlone past ⟨t, event, u, s, s'⟩ := by
  obtain ⟨hlength, hclosed⟩ := hafter
  cases hstep with
  | @opened sequence =>
    refine ⟨fun kind => ?_, fun hstopped => ?_⟩
    · obtain ⟨id, hstart⟩ := streams_ledgerAnswered_some s kind sequence
      have hle := hlength kind
      rw [hstart] at hle
      exact Streams.length_start_le.mp hle
    · obtain ⟨id, hstart⟩ := streams_ledgerAnswered_some s .payment sequence
      have hnone := hclosed (stopped_concat.mpr (.inr ⟨by simp, hstopped⟩)) .payment
      rw [hstart] at hnone
      exact absurd hnone (List.append_ne_nil_of_right_ne_nil _ (List.cons_ne_nil _ _))
  | stopped =>
    cases hmonitoring : s.isMonitoring with
    | true => exact .inl hmonitoring
    | false =>
      have hnone := hclosed (stopped_concat.mpr (.inl rfl))
      rw [stopMonitoring_eq hmonitoring] at hnone
      exact .inr hnone
  | @fired timer due kind htimer =>
    -- a stream of the kind that is still open would be open beside the new one
    intro kind' due' htimer' hmonitoring
    obtain ⟨rfl, -⟩ := Prod.mk.inj (Option.some.inj (htimer.symm.trans htimer'))
    have hle := hlength kind
    rw [streams_restart hmonitoring, if_pos rfl] at hle
    exact Streams.length_start_le.mp hle
  | started | failed | erred => trivial

/-- **Streams of the monitor.** In every run, at most one stream of a kind is open at any time and
none after a last request to stop, exactly when all streams are opened alone and every stop finds
the monitoring on, or nothing open. -/
theorem monitorsOnce_iff {t₀ : ℕ} (h : monitor.Run ⟨t₀, .new⟩ w log) :
    (∀ past c, past ++ [c] <+: log → MonitorsOnce c.after (past ++ [c])) ↔
      ∀ past c, past ++ [c] <+: log → OpensAlone past c := by
  have hnew : Tracked .new [] :=
    ⟨fun kind => by cases kind <;> rfl, fun hstopped => by cases hstopped⟩
  -- as long as the streams are as they should be, the monitor remembers what is open
  refine h.prefix_iff
    (S := fun s log => (∀ past c, past ++ [c] <+: log → MonitorsOnce c.after (past ++ [c])) →
      Tracked s log)
    (I := fun _ log => ∀ past c, past ++ [c] <+: log → MonitorsOnce c.after (past ++ [c]))
    ⟨fun _ => hnew, by simp⟩ ?_
  intro c log htracked he
  rw [List.forall_prefix_concat]
  have hstep := monitorStep_of_exec he
  refine ⟨fun hall => ?_, and_congr_right fun hall => ?_⟩
  · exact (htracked hall.1).step hstep (opensAlone_of_monitorsOnce hstep hall.2)
  · exact ⟨opensAlone_of_monitorsOnce hstep, fun halone =>
      ((htracked hall).step hstep halone).monitorsOnce⟩

/-- A payment stream that reports an error is restarted, and then the monitoring is stopped. -/
def restartedStream : List (ℕ × MonitorEvent) :=
  [(0, .startMonitoring), (1, .ledgerAnswered (some 500)), (2, .streamError .payment 0),
    (5002, .restartTimer 0), (6000, .stopMonitoring)]

theorem monitorsOnce_iff_restarted :
    (∀ past c, past ++ [c] <+: (monitor.play ⟨0, .new⟩ restartedStream).2 →
        MonitorsOnce c.after (past ++ [c])) ↔
      ∀ past c, past ++ [c] <+: (monitor.play ⟨0, .new⟩ restartedStream).2 → OpensAlone past c :=
  monitorsOnce_iff (Contract.run_play _ _ restartedStream (by decide))

/-- The stream that reported the error is open beside its successor, and after the stop. -/
theorem two_payment_streams :
    ¬ ∀ w log, monitor.Run ⟨0, .new⟩ w log →
      ∀ past c, past ++ [c] <+: log → MonitorsOnce c.after (past ++ [c]) := by
  intro hall
  have honce := hall _ _ (Contract.run_play monitor ⟨0, .new⟩ restartedStream (by decide)) _
    ((monitor.play ⟨0, .new⟩ restartedStream).2.getLast (by decide))
    ⟨[], by rw [List.append_nil, List.dropLast_append_getLast]⟩
  exact absurd (honce.2 (by decide) .payment) (by decide)

end Stellara.Monitor
