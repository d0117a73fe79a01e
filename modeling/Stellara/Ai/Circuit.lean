import Stellara.Lib.Tasks

/-!
# The circuit breaker of the AI provider

The provider counts the failures of its requests. After five of them it rejects requests for a
minute, then lets requests through until one of them succeeds or fails. The requests are
concurrent: those that were sent before the breaker opened, or while it is half open, report their
successes and failures later, and each success closes the breaker.

What the breaker does is a function of the record of successes and failures: a request is let
through exactly when there were fewer than five failures since the last success, or when the last
failure is a minute old.

## Main definitions

* `checkCircuit`, `recordSuccess`, `recordFailure`: the circuit breaker
* `generateCalls`: the requests to the provider
* `failuresSinceSuccess`: the times of the failures since the last success, in the record of a run
* `AdmitsAt`: requests are let through at a time

## Main results

* `Follows.resume`: a request keeps the breaker in line with the record
* `breaker_iff`: which requests are let through, in every run
-/

namespace Stellara.Ai

/-! ## The breaker -/

inductive CircuitState where
  | closed
  | opened
  | halfOpen
deriving DecidableEq, Repr

structure CircuitBreakerState where
  failures : ℕ
  openedAt : Option ℕ
  state : CircuitState
deriving DecidableEq, Repr

/-- The breaker of a new provider. -/
def CircuitBreakerState.initial : CircuitBreakerState := ⟨0, none, .closed⟩

def failureThreshold : ℕ := 5

def halfOpenAfterMs : ℕ := 60000

/-- Reject the request while the breaker is open. -/
def checkCircuit (now : ℕ) (cb : CircuitBreakerState) : Except String CircuitBreakerState :=
  match cb.state with
  | .opened =>
    let elapsed : ℤ := now - cb.openedAt.getD 0
    if halfOpenAfterMs ≤ elapsed then .ok { cb with state := .halfOpen }
    else .error "Circuit breaker is open"
  | _ => .ok cb

def recordSuccess (_ : CircuitBreakerState) : CircuitBreakerState := ⟨0, none, .closed⟩

def recordFailure (now : ℕ) (cb : CircuitBreakerState) : CircuitBreakerState :=
  let failures := cb.failures + 1
  if failureThreshold ≤ failures then ⟨failures, some now, .opened⟩ else { cb with failures }

/-! ## Requests -/

/-- What the provider answers. -/
structure Generated where
  response : String
  tokensUsed : ℕ
deriving DecidableEq, Repr

/-- What comes back over HTTP: a completion with the tokens that it used, if they are given, a
response of another form, or an error. -/
inductive HttpReply where
  | completion (content : String) (totalTokens : Option ℕ)
  | malformed (message : String)
  | error (message : String)
deriving DecidableEq, Repr

inductive GenerateStage where
  | called
  | posted
  | returned (result : Generated)
  | thrown (message : String)
deriving DecidableEq, Repr

/-- A request to the provider. -/
structure GenerateCall where
  prompt : String
  stage : GenerateStage
deriving DecidableEq, Repr

/-- One step of a request. -/
def GenerateCall.resume (now : ℕ) (reply : HttpReply) (c : GenerateCall)
    (cb : CircuitBreakerState) : Option (GenerateCall × CircuitBreakerState) :=
  match c.stage with
  | .called =>
    match checkCircuit now cb with
    | .ok cb => some (⟨c.prompt, .posted⟩, cb)
    | .error message => some (⟨c.prompt, .thrown message⟩, cb)
  | .posted =>
    match reply with
    | .completion content totalTokens =>
      some (⟨c.prompt, .returned ⟨content, totalTokens.getD 0⟩⟩, recordSuccess cb)
    | .malformed message =>
      -- the success is recorded before the content is read, and reading it throws
      some (⟨c.prompt, .thrown message⟩, recordFailure now (recordSuccess cb))
    | .error message => some (⟨c.prompt, .thrown message⟩, recordFailure now cb)
  | .returned _ | .thrown _ => none

/-- The requests to a provider. -/
def generateCalls : Async CircuitBreakerState GenerateCall HttpReply where
  starts _ c := c.stage = .called
  resume now reply c cb := c.resume now reply cb

/-! ## The record -/

/-- The step reports to the breaker what came back. -/
def reported (c : Commit (Tasks CircuitBreakerState GenerateCall) (Move GenerateCall HttpReply) Unit) :
    Option HttpReply :=
  match c.call with
  | .start _ => none
  | .resume i reply =>
    match c.before.points[i]? with
    | some ⟨_, .posted⟩ => some reply
    | _ => none

/-- What a report leaves of the failures since the last success, with the last one first. -/
def afterReport (now : ℕ) (times : List ℕ) : Option HttpReply → List ℕ
  | none => times
  | some (.completion _ _) => []
  | some (.malformed _) => [now]
  | some (.error _) => now :: times

/-- The times of the failures since the last success, with the last one first. -/
def failuresSinceSuccess (log : Async.Log CircuitBreakerState GenerateCall HttpReply) : List ℕ :=
  log.foldl (fun times c => afterReport c.time times (reported c)) []

/-- With these failures since the last success, requests are let through at the time. -/
def AdmitsAt (now : ℕ) (times : List ℕ) : Prop :=
  times.length < failureThreshold ∨ ∃ last ∈ times.head?, last + halfOpenAfterMs ≤ now

/-- The breaker is in line with the failures since the last success. -/
def Follows (now : ℕ) (cb : CircuitBreakerState) (times : List ℕ) : Prop :=
  cb.failures = times.length ∧
    match cb.state with
    | .closed => times.length < failureThreshold
    | .opened => failureThreshold ≤ times.length ∧ cb.openedAt = times.head?
    | .halfOpen => failureThreshold ≤ times.length ∧ AdmitsAt now times

section Breaker

variable {now now' : ℕ} {cb cb' : CircuitBreakerState} {times : List ℕ} {reply : HttpReply}
  {c c' : GenerateCall} {message : String}

theorem AdmitsAt.mono (hle : now ≤ now') (h : AdmitsAt now times) : AdmitsAt now' times := by
  rcases h with hfew | ⟨last, hlast, hold⟩
  · exact .inl hfew
  · exact .inr ⟨last, hlast, hold.trans hle⟩

theorem Follows.mono (hle : now ≤ now') (h : Follows now cb times) : Follows now' cb times := by
  obtain ⟨failures, openedAt, state⟩ := cb
  cases state with
  | closed => exact h
  | opened => exact h
  | halfOpen => exact ⟨h.1, h.2.1, h.2.2.mono hle⟩

theorem follows_initial : Follows now .initial [] := ⟨rfl, Nat.zero_lt_succ 4⟩

theorem Follows.recordSuccess : Follows now (recordSuccess cb) [] := ⟨rfl, Nat.zero_lt_succ 4⟩

/-- Whatever the state was, the fifth failure opens the breaker, and so does every later one. -/
theorem Follows.recordFailure (h : Follows now cb times) :
    Follows now (recordFailure now cb) (now :: times) := by
  obtain ⟨hcount, hstate⟩ := h
  unfold Ai.recordFailure
  dsimp only
  split
  · rename_i hmany
    exact ⟨by rw [List.length_cons, hcount], by rw [List.length_cons, ← hcount]; exact hmany, rfl⟩
  · rename_i hfew
    refine ⟨by rw [List.length_cons, hcount], ?_⟩
    have hshort : times.length < failureThreshold := by omega
    cases hs : cb.state with
    | closed =>
      dsimp only
      rw [List.length_cons, ← hcount]
      omega
    | opened =>
      rw [hs] at hstate
      exact absurd hstate.1 (by omega)
    | halfOpen =>
      rw [hs] at hstate
      exact absurd hstate.1 (by omega)

/-- The breaker lets a request through exactly when the record admits it. -/
theorem Follows.checkCircuit (h : Follows now cb times) :
    (∃ cb', checkCircuit now cb = .ok cb' ∧ Follows now cb' times ∧ AdmitsAt now times) ∨
      checkCircuit now cb = .error "Circuit breaker is open" ∧ ¬ AdmitsAt now times := by
  obtain ⟨failures, openedAt, state⟩ := cb
  cases state with
  | closed => exact .inl ⟨_, rfl, h, .inl h.2⟩
  | halfOpen => exact .inl ⟨_, rfl, h, h.2.2⟩
  | opened =>
    obtain ⟨hcount, hmany, hopened⟩ := h
    obtain ⟨last, rest, rfl⟩ : ∃ last rest, times = last :: rest :=
      List.exists_cons_of_length_pos (lt_of_lt_of_le (by decide) hmany)
    obtain rfl : openedAt = some last := hopened
    -- the minute is counted from the last failure
    have hiff : AdmitsAt now (last :: rest) ↔ (halfOpenAfterMs : ℤ) ≤ now - last := by
      constructor
      · rintro (hfew | ⟨_, hlast, hold⟩)
        · exact absurd hmany (by omega)
        · obtain rfl := Option.some.inj hlast
          omega
      · exact fun hold => .inr ⟨last, rfl, by omega⟩
    simp only [Ai.checkCircuit, Option.getD_some]
    split
    · rename_i hold
      exact .inl ⟨_, rfl, ⟨hcount, hmany, hiff.mpr hold⟩, hiff.mpr hold⟩
    · rename_i hyoung
      exact .inr ⟨rfl, fun hadmits => hyoung (hiff.mp hadmits)⟩

/-- A request that is let through waits for its reply, and one that is rejected has thrown. -/
theorem resume_called (h : Follows now cb times) (hstage : c.stage = .called)
    (hq : c.resume now reply cb = some (c', cb')) : Follows now cb' times ∧
      (AdmitsAt now times ∧ c' = ⟨c.prompt, .posted⟩ ∨
        ¬ AdmitsAt now times ∧ c' = ⟨c.prompt, .thrown "Circuit breaker is open"⟩) := by
  unfold GenerateCall.resume at hq
  rw [hstage] at hq
  rcases h.checkCircuit with ⟨cb₁, hcheck, hfollows, hadmits⟩ | ⟨hcheck, hnot⟩
  · rw [hcheck] at hq
    obtain ⟨rfl, rfl⟩ := Prod.mk.inj (Option.some.inj hq)
    exact ⟨hfollows, .inl ⟨hadmits, rfl⟩⟩
  · rw [hcheck] at hq
    obtain ⟨rfl, rfl⟩ := Prod.mk.inj (Option.some.inj hq)
    exact ⟨h, .inr ⟨hnot, rfl⟩⟩

/-- A reply is reported, so that the breaker stays in line with the record. -/
theorem resume_posted (h : Follows now cb times) (hstage : c.stage = .posted)
    (hq : c.resume now reply cb = some (c', cb')) :
    Follows now cb' (afterReport now times (some reply)) := by
  unfold GenerateCall.resume at hq
  rw [hstage] at hq
  cases reply with
  | completion content totalTokens =>
    obtain ⟨-, rfl⟩ := Prod.mk.inj (Option.some.inj hq)
    exact .recordSuccess
  | malformed message =>
    obtain ⟨-, rfl⟩ := Prod.mk.inj (Option.some.inj hq)
    exact Follows.recordSuccess.recordFailure
  | error message =>
    obtain ⟨-, rfl⟩ := Prod.mk.inj (Option.some.inj hq)
    exact h.recordFailure

end Breaker

/-! ## Runs -/

section Runs

variable {t₀ : ℕ}

theorem failuresSinceSuccess_concat {log : Async.Log CircuitBreakerState GenerateCall HttpReply}
    {c : Commit (Tasks CircuitBreakerState GenerateCall) (Move GenerateCall HttpReply) Unit} :
    failuresSinceSuccess (log ++ [c]) =
      afterReport c.time (failuresSinceSuccess log) (reported c) := by
  rw [failuresSinceSuccess, List.foldl_append]
  rfl

/-- The request that goes on with the step is checked, and let through exactly when the failures
admit it; otherwise it throws. -/
def CheckedBy (times : List ℕ)
    (c : Commit (Tasks CircuitBreakerState GenerateCall) (Move GenerateCall HttpReply) Unit) :
    Prop :=
  ∀ i reply prompt, c.call = .resume i reply → c.before.points[i]? = some ⟨prompt, .called⟩ →
    (AdmitsAt c.time times ∧ c.after.points[i]? = some ⟨prompt, .posted⟩ ∨
      ¬ AdmitsAt c.time times ∧
        c.after.points[i]? = some ⟨prompt, .thrown "Circuit breaker is open"⟩)

/-- A move keeps the breaker in line with the record. -/
theorem Follows.step {t : ℕ} {w w' : Tasks CircuitBreakerState GenerateCall}
    {m : Move GenerateCall HttpReply} {times : List ℕ} (h : Follows t w.shared times)
    (hstep : generateCalls.Step t w m w') :
    Follows t w'.shared (afterReport t times (reported ⟨t, m, (), w, w'⟩)) ∧
      CheckedBy times ⟨t, m, (), w, w'⟩ := by
  cases hstep with
  | start hp => exact ⟨h, fun i reply prompt hcall => by cases hcall⟩
  | @resume i reply c c' cb' hp hq =>
    have hq : c.resume t reply w.shared = some (c', cb') := hq
    obtain ⟨prompt, stage⟩ := c
    cases stage with
    | called =>
      obtain ⟨hfollows, hchecked⟩ := resume_called h rfl hq
      refine ⟨?_, fun j reply' prompt' hcall hbefore => ?_⟩
      · rw [reported]
        dsimp only
        rw [hp]
        exact hfollows
      · obtain ⟨rfl, rfl⟩ := Move.resume.inj hcall
        obtain rfl := (GenerateCall.mk.inj (Option.some.inj (hp.symm.trans hbefore))).1
        dsimp only
        rw [getElem?_step_self hp]
        rcases hchecked with ⟨hadmits, rfl⟩ | ⟨hnot, rfl⟩
        · exact .inl ⟨hadmits, rfl⟩
        · exact .inr ⟨hnot, rfl⟩
    | posted =>
      refine ⟨?_, fun j reply' prompt' hcall hbefore => ?_⟩
      · rw [reported]
        dsimp only
        rw [hp]
        exact resume_posted h rfl hq
      · obtain ⟨rfl, rfl⟩ := Move.resume.inj hcall
        cases Option.some.inj (hp.symm.trans hbefore)
    | returned result => cases hq
    | thrown message => cases hq

/-- **The circuit breaker.** In every run of concurrent requests to a new provider, a request is let
through exactly when there were fewer than five failures since the last success, or the last failure
is a minute old. -/
theorem breaker_iff {w : World (Tasks CircuitBreakerState GenerateCall)}
    {log : Async.Log CircuitBreakerState GenerateCall HttpReply}
    (h : generateCalls.contract.Run ⟨t₀, ⟨.initial, []⟩⟩ w log) :
    ∀ past c, past ++ [c] <+: log → CheckedBy (failuresSinceSuccess past) c := by
  refine (h.invariant_log (I := fun t w log => Follows t w.shared (failuresSinceSuccess log) ∧
    ∀ past c, past ++ [c] <+: log → CheckedBy (failuresSinceSuccess past) c) ?_ ?_ ?_).2
  · exact ⟨follows_initial, fun past c hpast => absurd (List.prefix_nil.mp hpast) (by simp)⟩
  · exact fun t t' w log hle hs => ⟨hs.1.mono hle, hs.2⟩
  · intro t m r w w' log ih he
    obtain ⟨hfollows, hchecked⟩ := ih.1.step (Async.step_of_exec he)
    rw [failuresSinceSuccess_concat, List.forall_prefix_concat]
    exact ⟨hfollows, ih.2, hchecked⟩

/-- Requests one after the other, each at its time and with its reply. -/
def sequentialRequests (requests : List (ℕ × HttpReply)) : List (ℕ × Move GenerateCall HttpReply) :=
  requests.zipIdx.flatMap fun ((now, reply), i) =>
    [(now, .start ⟨"prompt", .called⟩), (now, .resume i reply), (now, .resume i reply)]

/-- Five failures open the breaker for a minute, and a success after it closes it. -/
theorem breaker_iff_five_failures :
    let run := generateCalls.contract.play ⟨0, ⟨.initial, []⟩⟩ (sequentialRequests
      [(1, .error "500"), (2, .error "500"), (3, .error "500"), (4, .malformed "no choices"),
        (5, .error "500"), (6, .error "500"), (7, .error "500"), (8, .error "500"),
        (9, .completion "late" none), (60007, .completion "early" none),
        (60008, .completion "text" (some 12)), (60009, .completion "text" none)])
    (run.1.store.points.map GenerateCall.stage).drop 8 =
        [.thrown "Circuit breaker is open", .thrown "Circuit breaker is open",
          .returned ⟨"text", 12⟩, .returned ⟨"text", 0⟩] ∧
      ∀ past c, past ++ [c] <+: run.2 → CheckedBy (failuresSinceSuccess past) c :=
  ⟨by decide, breaker_iff (Contract.run_play generateCalls.contract ⟨0, ⟨.initial, []⟩⟩ _
    (by decide))⟩

end Runs

end Stellara.Ai
