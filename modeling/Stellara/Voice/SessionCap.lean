import Stellara.Voice.Sessions

/-!
# At most three sessions

A request that creates a session counts those of the user that it finds through the set of their
ids, and saves the new one afterwards. The set expires an hour after the last creation, while
sessions that are used do not, and sessions that other requests create in between are not counted.
A user has at most three live sessions where there is room for the live sessions that were missed,
and where a change is not saved after its session has expired or was terminated while others took
its place.

## Main definitions

* `liveSessions`: the number of live sessions of a user
* `missed`: the number of those that were not counted
* `Capped`: the users have at most three live sessions each
* `HasRoom`: the session that is saved has room

## Main results

* `liveSessions_le`: the live sessions are those that were counted and those that were missed
* `capped_of_hasRoom`: the users have at most three live sessions at any time
-/

namespace Stellara.Voice

variable {now now' next i id : ℕ} {s s' : Redis} {p q : Point} {points : List Point}
  {session : VoiceSession} {owner : ℕ → String} {userId : String} {counted : List ℕ}
  {sessions : ExpiringStore ℕ VoiceSession}

/-! ## Properties -/

def liveSessions (now : ℕ) (userId : String) (sessions : ExpiringStore ℕ VoiceSession) : ℕ :=
  sessions.total fun _ e => if e.live now ∧ e.value.userId = userId then 1 else 0

/-- The number of live sessions of a user that were not counted. -/
def missed (now : ℕ) (userId : String) (counted : List ℕ)
    (sessions : ExpiringStore ℕ VoiceSession) : ℕ :=
  sessions.total fun id e =>
    if (e.live now ∧ e.value.userId = userId) ∧ id ∉ counted then 1 else 0

/-- From the time on no user has more than three live sessions. -/
def Capped (t : ℕ) (s : Redis) : Prop :=
  ∀ now userId, t ≤ now → liveSessions now userId s.sessions ≤ maxSessionsPerUser

/-- There is room for the session that is saved: a new one is saved while no live sessions were
missed in the count, or so few that there is room for them too, and a changed one while it is
still live, or while the user has less than three. -/
def HasRoom (now : ℕ) (_ : ℕ) (_ : ℕ) (p : Point) (w : Tasks Redis Point) : Prop :=
  match p with
  | .saveSession session counted =>
    0 < missed now session.userId counted w.shared.sessions →
      counted.length + missed now session.userId counted w.shared.sessions < maxSessionsPerUser
  | .saveEdit session _ => (getSession now session.id w.shared).isSome ∨
      liveSessions now session.userId w.shared.sessions < maxSessionsPerUser
  | _ => True

instance {w : Tasks Redis Point} : Decidable (HasRoom now next i p w) := by
  unfold HasRoom
  split <;> infer_instance

/-! ## The number of sessions -/

/-- A live session was counted or missed. -/
theorem liveSessions_le (now : ℕ) (userId : String) (counted : List ℕ)
    (sessions : ExpiringStore ℕ VoiceSession) :
    liveSessions now userId sessions ≤ counted.length + missed now userId counted sessions := by
  have hsplit : liveSessions now userId sessions ≤
      Store.total (fun id _ => if id ∈ counted then 1 else 0) sessions +
        missed now userId counted sessions := by
    -- the count of the sessions is compared entry by entry
    unfold liveSessions missed
    rw [← Store.total_add]
    refine Store.total_le_total fun id e _ => ?_
    by_cases hlive : e.live now = true ∧ e.value.userId = userId
    · by_cases hcounted : id ∈ counted <;> simp [hlive, hcounted]
    · simp [hlive]
  exact hsplit.trans (Nat.add_le_add_right (Store.total_mem_le counted) _)

/-- The sessions that are live were so before. -/
theorem liveSessions_antitone (hle : now ≤ now') :
    liveSessions now' userId sessions ≤ liveSessions now userId sessions := by
  refine Store.total_le_total fun id e _ => ?_
  by_cases hlive : e.live now' = true ∧ e.value.userId = userId
  · rw [if_pos hlive, if_pos ⟨Expiring.live_mono hle hlive.1, hlive.2⟩]
  · rw [if_neg hlive]
    exact Nat.zero_le _

theorem capped_iff : Capped now s ↔
    ∀ userId, liveSessions now userId s.sessions ≤ maxSessionsPerUser := by
  constructor
  · exact fun h userId => h now userId le_rfl
  · exact fun h now' userId hle => (liveSessions_antitone hle).trans (h userId)

/-- A saved session is live, in place of the one that was stored. -/
theorem liveSessions_save (now : ℕ) (userId : String) (session : VoiceSession) (s : Redis) :
    (s.sessions.lookup session.id).elim 0 (fun e =>
      if e.live now ∧ e.value.userId = userId then 1 else 0) +
        liveSessions now userId (saveSession now session s).sessions =
      (if session.userId = userId then 1 else 0) + liveSessions now userId s.sessions := by
  have hlive : Expiring.live now ⟨session, some (now + 1000 * session.ttl)⟩ = true := by
    simp [Expiring.live]
  have htotal := Store.total_insert_elim (m := s.sessions) (k := session.id)
    (v := ⟨session, some (now + 1000 * session.ttl)⟩) (f := fun _ e =>
      if e.live now = true ∧ e.value.userId = userId then 1 else 0)
  simp only [hlive, true_and] at htotal
  exact htotal

theorem liveSessions_save_le (now : ℕ) (userId : String) (session : VoiceSession) (s : Redis) :
    liveSessions now userId (saveSession now session s).sessions ≤
      (if session.userId = userId then 1 else 0) + liveSessions now userId s.sessions :=
  (Nat.le_add_left ..).trans_eq (liveSessions_save now userId session s)

theorem liveSessions_erase_le (now : ℕ) (userId : String) (id : ℕ)
    (sessions : ExpiringStore ℕ VoiceSession) :
    liveSessions now userId (sessions.erase id) ≤ liveSessions now userId sessions := by
  cases h : sessions.lookup id with
  | none => rw [Store.erase_eq_self h]
  | some e => exact (Nat.le_add_left ..).trans_eq (Store.total_erase h)

/-! ## Steps -/

/-- A request that is to save a new session found less than three. -/
structure Counted (w : Tasks Redis Point) : Prop where
  indexed : ∃ owner, Indexed owner w
  limit : ∀ session counted, .saveSession session counted ∈ w.points →
    counted.length < maxSessionsPerUser

theorem Counted.start (h : Counted ⟨s, points⟩) (hp : voiceRequests.starts s p = true) :
    Counted ⟨s, points ++ [p]⟩ := by
  refine ⟨h.indexed.imp fun _ hindexed => hindexed.start hp, fun session counted hin => ?_⟩
  rcases List.mem_append.mp hin with hold | hnew
  · exact h.limit session counted hold
  · rw [← List.mem_singleton.mp hnew] at hp
    cases hp

theorem Counted.step (h : Counted ⟨s, points⟩) (hp : points[i]? = some p)
    (hstep : Advance now s p q s') : Counted ⟨s', points.set i q⟩ := by
  obtain ⟨owner, hindexed⟩ := h.indexed
  refine ⟨hindexed.step hp hstep, fun session counted hin => ?_⟩
  rcases List.mem_or_eq_of_mem_set hin with hold | rfl
  · exact h.limit session counted hold
  · cases hstep with
    | create _ hcounted => exact hcounted
    | quiet _ _ _ hheld _ => cases hheld

/-- A new session has room where the check missed none, or where there is room for those too. -/
theorem Capped.saved (h : Capped now s) (hcounted : counted.length < maxSessionsPerUser)
    (hroom : 0 < missed now session.userId counted s.sessions →
      counted.length + missed now session.userId counted s.sessions < maxSessionsPerUser) :
    Capped now (saveSession now session s) := by
  rw [capped_iff]
  intro userId
  have hsave := liveSessions_save_le now userId session s
  by_cases huser : session.userId = userId
  · subst huser
    have hlive := liveSessions_le now session.userId counted s.sessions
    rw [if_pos rfl] at hsave
    -- where none was missed, the check found all of them
    by_cases hmissed : 0 < missed now session.userId counted s.sessions
    · have hfree := hroom hmissed
      omega
    · omega
  · rw [if_neg huser, Nat.zero_add] at hsave
    exact hsave.trans (capped_iff.mp h userId)

/-- A changed session takes the place of its old version where that is still live. -/
theorem Capped.edited (h : Capped now s) (hindexed : Indexed owner ⟨s, points⟩)
    (howned : Owned owner s.nextId session)
    (hroom : (getSession now session.id s).isSome ∨
      liveSessions now session.userId s.sessions < maxSessionsPerUser) :
    Capped now (saveSession now session s) := by
  rw [capped_iff]
  intro userId
  by_cases huser : session.userId = userId
  · subst huser
    rcases hroom with hlive | hfree
    · -- the old version of the session counts for the same user
      obtain ⟨stored, hread⟩ := Option.isSome_iff_exists.mp hlive
      obtain ⟨e, hlookup, halive, rfl⟩ := ExpiringStore.get_eq_some.mp hread
      obtain ⟨hid, hstored⟩ := hindexed.stored _ e hlookup
      have hsame : e.value.userId = session.userId := by
        rw [hstored.userId, hid, howned.userId]
      have hsave := liveSessions_save now session.userId session s
      rw [hlookup, Option.elim_some, if_pos ⟨halive, hsame⟩, if_pos rfl] at hsave
      rw [Nat.add_left_cancel hsave]
      exact capped_iff.mp h session.userId
    · have hsave := liveSessions_save_le now session.userId session s
      rw [if_pos rfl] at hsave
      omega
  · have hsave := liveSessions_save_le now userId session s
    rw [if_neg huser, Nat.zero_add] at hsave
    exact hsave.trans (capped_iff.mp h userId)

theorem Capped.step (h : Capped now s) (hcounted : Counted ⟨s, points⟩) (hp : points[i]? = some p)
    (hG : HasRoom now next i p ⟨s, points⟩) (hstep : Advance now s p q s') : Capped now s' := by
  have hmem := List.mem_of_getElem? hp
  cases hstep with
  | saved => exact h.saved (hcounted.limit _ _ hmem) hG
  | edited =>
    obtain ⟨owner, hindexed⟩ := hcounted.indexed
    exact h.edited hindexed (hindexed.held _ hmem _ rfl) hG
  | deleted =>
    rw [capped_iff]
    exact fun userId => (liveSessions_erase_le ..).trans (capped_iff.mp h userId)
  | quiet hsessions _ _ _ _ =>
    intro now' userId hle
    rw [hsessions]
    exact h now' userId hle
  | _ => exact h

/-! ## Runs -/

/-- **Voice sessions.** In a run in which every session that is saved has room, no user ever has
more than three live sessions. -/
theorem capped_of_hasRoom {t₀ : ℕ} {w : World (Tasks Redis Point)} {log : Async.Log Redis Point ℕ}
    (h : voiceRequests.contract.Run ⟨t₀, ⟨Redis.empty, []⟩⟩ w log)
    (hG : ∀ c ∈ log, Async.OnStep HasRoom c) :
    Capped w.now w.store.shared ∧ ∀ c ∈ log, Capped c.time c.after.shared := by
  have hempty : Counted ⟨Redis.empty, []⟩ :=
    ⟨⟨fun _ => "", fun _ _ hread => (by simp [Redis.empty] at hread),
      fun _ hp => absurd hp List.not_mem_nil⟩, fun _ _ hin => absurd hin List.not_mem_nil⟩
  obtain ⟨hend, hlog⟩ := Async.invariant_timed
    (I := fun t w => Counted w ∧ Capped t w.shared)
    (fun t t' w hle hI => ⟨hI.1, fun now userId hnow => hI.2 now userId (hle.trans hnow)⟩)
    (fun t s points p hI hp => ⟨hI.1.start hp, hI.2⟩)
    (fun t next i p q s s' points hI hp hg hq => by
      have hstep := advance_of_resume hq
      exact ⟨hI.1.step hp hstep, hI.2.step hI.1 hp hg hstep⟩)
    h ⟨hempty, fun _ _ _ => Nat.zero_le _⟩ hG
  exact ⟨hend.2, fun c hc => (hlog c hc).2.2⟩

/-- The request creates a session, alone. -/
def create (t task : ℕ) : List (ℕ × Move Point ℕ) :=
  (t, .start (.createSession "alice")) :: List.replicate 6 (t, .resume task 0)

/-- Three sessions are created, one is used, and the fourth one is refused. -/
def createThree : List (ℕ × Move Point ℕ) :=
  create 0 0 ++ create 1 1 ++ create 2 2 ++ [(3, .start (.edit 0 .updateLastPingAt)),
    (3, .resume 3 0), (3, .resume 3 0)] ++ create 4 4

theorem capped_of_hasRoom_sample :
    let run := voiceRequests.contract.play ⟨0, ⟨Redis.empty, []⟩⟩ createThree
    liveSessions 4 "alice" run.1.store.shared.sessions = 3 ∧
      Capped run.1.now run.1.store.shared ∧ ∀ c ∈ run.2, Capped c.time c.after.shared :=
  ⟨by decide, capped_of_hasRoom (Contract.run_play _ _ createThree (by decide)) (by decide)⟩

/-- Four sessions are created at once. -/
def createFour : List (ℕ × Move Point ℕ) :=
  List.replicate 4 (0, .start (.createSession "alice")) ++
    (List.range 4).map (fun task => (0, .resume task 0)) ++
    (List.range 4).map (fun task => (0, .resume task 0))

/-- The user has four sessions. -/
theorem four_sessions :
    ¬ ∀ w log, voiceRequests.contract.Run ⟨0, ⟨Redis.empty, []⟩⟩ w log →
      Capped w.now w.store.shared := by
  intro hall
  have hcapped := hall _ _ (Contract.run_play voiceRequests.contract ⟨0, ⟨Redis.empty, []⟩⟩
    createFour (by decide))
  exact absurd (hcapped 0 "alice" (by decide)) (by decide)

end Stellara.Voice
