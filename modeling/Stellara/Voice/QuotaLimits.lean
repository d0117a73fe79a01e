import Stellara.Voice.Quota

/-!
# Quotas hold

A request is let through after its checks and counted after it was answered, so that requests that
are in progress are not seen by the checks of others. The limits hold where each check that is
passed has room for those too, and where no counter expires that requests were counted in.

## Main definitions

* `letThrough`: the number of requests that have passed a check against a limit
* `held`: the number of those that have passed it, whatever the limit was
* `recorded`, `unrecorded`: the number of those that were counted, and that were not yet
* `Within`: no more requests are allowed than the limits admit
* `Admits`: a request passes a check only while its limit admits all of those that have passed it
* `UpToDate`: a check that is passed has room for the requests in progress, and the counters that
  are read or written have not expired

## Main results

* `Counted.step`: a counter is at least the number of requests that were counted in it
* `within_of_upToDate`: no more requests are allowed than the limits admit
-/

namespace Stellara.Quotas

variable {now next i limit : ℕ} {s s' : Redis} {p q : Point} {points : List Point}
  {key key' : QuotaKey} {w : Tasks Redis Point}

/-! ## Properties -/

/-- The request has passed the check of a counter. -/
def Point.holds (key : QuotaKey) (p : Point) : Bool := p.passed.any fun check => check.1 = key

/-- The request has passed the check of a counter against a limit, or a smaller one. -/
def Point.passes (key : QuotaKey) (limit : ℕ) (p : Point) : Bool :=
  p.passed.any fun check => check.1 = key ∧ check.2 ≤ limit

/-- The request has passed all checks. -/
def Point.isAllowed : Point → Bool
  | .allowed _ _ | .recording _ _ _ => true
  | _ => false

def allowed (key : QuotaKey) (limit : ℕ) (points : List Point) : ℕ :=
  points.countP fun p => p.isAllowed && p.passes key limit

def letThrough (key : QuotaKey) (limit : ℕ) (points : List Point) : ℕ :=
  points.countP (Point.passes key limit)

def held (key : QuotaKey) (points : List Point) : ℕ := points.countP (Point.holds key)

def recorded (key : QuotaKey) (points : List Point) : ℕ :=
  points.countP fun p => p.holds key && decide (key ∈ p.counted)

def unrecorded (key : QuotaKey) (points : List Point) : ℕ :=
  points.countP fun p => p.holds key && decide (key ∉ p.counted)

/-- Of the requests of a month, a session or a minute, at most so many are allowed against a
limit. -/
def Within (points : List Point) : Prop :=
  ∀ key limit, allowed key limit points ≤ limit

/-- When a request passes a check, the limit admits it and all requests that have passed the check
before, whatever the limits were for those. -/
def Admits (c : Commit (Tasks Redis Point) (Move Point ℕ) Unit) : Prop :=
  ∀ (i : ℕ) (p q : Point), c.before.points[i]? = some p → c.after.points[i]? = some q →
    ∀ check ∈ q.passed, check ∉ p.passed → held check.1 c.after.points ≤ check.2

/-- The counter has not expired, unless no request was counted in it. -/
def Unexpired (now : ℕ) (key : QuotaKey) (w : Tasks Redis Point) : Prop :=
  recorded key w.points = 0 ∨ ∀ e ∈ w.shared.counters.lookup key, e.live now = true

instance : Decidable (Unexpired now key w) :=
  inferInstanceAs (Decidable (_ ∨ ∀ e ∈ w.shared.counters.lookup key, e.live now = true))

/-- A check that is passed reads a counter that has not expired, and has room for the requests that
are not counted yet. -/
def ChecksAll (now : ℕ) (p : Point) (w : Tasks Redis Point) : Prop :=
  ∀ check ∈ p.checks, usage now check.1 w.shared < check.2 →
    Unexpired now check.1 w ∧ usage now check.1 w.shared + unrecorded check.1 w.points < check.2

instance : Decidable (ChecksAll now p w) :=
  inferInstanceAs (Decidable (∀ check ∈ p.checks, _ → Unexpired now check.1 w ∧ _))

/-- A counter that is increased has not expired, and the expiry that is set is not over. -/
def KeepsCount (now next : ℕ) (p : Point) (w : Tasks Redis Point) : Prop :=
  match p.serves next with
  | some (.incr key _) => Unexpired now key w
  | some (.expire _ ttlSeconds) => 0 < ttlSeconds
  | none => True

instance : Decidable (KeepsCount now next p w) := by
  unfold KeepsCount
  split <;> infer_instance

def UpToDate (now next : ℕ) (_ : ℕ) (p : Point) (w : Tasks Redis Point) : Prop :=
  ChecksAll now p w ∧ KeepsCount now next p w

instance : Decidable (UpToDate now next i p w) :=
  inferInstanceAs (Decidable (ChecksAll now p w ∧ KeepsCount now next p w))

/-! ## Counters -/

/-- What is stored in a counter, whether it has expired or not. -/
def stored (key : QuotaKey) (s : Redis) : ℕ := (s.counters.lookup key).elim 0 (·.value)

theorem usage_eq_stored (h : ∀ e ∈ s.counters.lookup key, e.live now = true) :
    usage now key s = stored key s := by
  unfold usage stored ExpiringStore.get ExpiringStore.find
  cases hread : s.counters.lookup key with
  | none => rfl
  | some e => rw [Option.filter_some_pos (h e hread), Option.map_some, Option.getD_some,
      Option.elim_some]

theorem stored_incr :
    stored key' (s.incr now key) = if key' = key then usage now key s + 1 else stored key' s := by
  unfold stored Redis.incr ExpiringStore.modify usage ExpiringStore.get
  cases ExpiringStore.find now key s.counters with
  | none =>
    simp only [Store.lookup_insert_ite]
    split <;> rfl
  | some e =>
    simp only [Store.lookup_insert_ite]
    split <;> rfl

theorem stored_expire {ttlSeconds : ℤ} (h : 0 < ttlSeconds) :
    stored key' (s.expire now key ttlSeconds) = stored key' s := by
  unfold stored Redis.expire ExpiringStore.expire
  rw [if_neg (by omega)]
  cases hfind : ExpiringStore.find now key s.counters with
  | none => rfl
  | some e =>
    simp only [Store.lookup_insert_ite]
    split
    · rename_i heq
      rw [heq, (ExpiringStore.find_eq_some.mp hfind).1]
      rfl
    · rfl

/-! ## Requests that were counted -/

/-- A counter is at least the number of requests that were counted in it. -/
def Counted (w : Tasks Redis Point) : Prop :=
  ∀ key, recorded key w.points ≤ stored key w.shared

theorem Counted.recorded_le_usage (h : Counted w) (hunexpired : Unexpired now key w) :
    recorded key w.points ≤ usage now key w.shared := by
  rcases hunexpired with hnone | hlive
  · rw [hnone]
    exact Nat.zero_le _
  · rw [usage_eq_stored hlive]
    exact h key

/-- The requests that have passed a check were counted or not. -/
theorem held_eq (key : QuotaKey) (points : List Point) :
    held key points = recorded key points + unrecorded key points := by
  have hsplit := List.countP_eq_countP_filter_add points (Point.holds key)
    fun p => decide (key ∈ p.counted)
  rw [held, hsplit, List.countP_filter, List.countP_filter]
  simp only [recorded, unrecorded, decide_not]

theorem letThrough_le_held (key : QuotaKey) (limit : ℕ) (points : List Point) :
    letThrough key limit points ≤ held key points := by
  refine List.countP_mono_left fun p _ hp => ?_
  obtain ⟨check, hcheck, hpasses⟩ := List.any_eq_true.mp hp
  have hkey : check.1 = key := (of_decide_eq_true hpasses).1
  exact List.any_eq_true.mpr ⟨check, hcheck, decide_eq_true hkey⟩

/-- A step that adds its request to no counter leaves the requests that were counted. -/
theorem recorded_step_le (hp : points[i]? = some p)
    (hpassed : q.passed = p.passed ∨ q.passed = []) (hcounted : q.counted = p.counted) :
    recorded key (points.set i q) ≤ recorded key points := by
  refine countP_step_le hp fun hq => ?_
  rw [Bool.and_eq_true, decide_eq_true_eq, hcounted] at hq
  rw [Bool.and_eq_true, decide_eq_true_eq]
  refine ⟨?_, hq.2⟩
  rcases hpassed with hsame | hnone
  · rw [Point.holds, ← hsame]
    exact hq.1
  · rw [Point.holds, hnone] at hq
    cases hq.1

theorem Counted.step (h : Counted ⟨s, points⟩) (hp : points[i]? = some p)
    (hG : KeepsCount now next p ⟨s, points⟩) (hstep : Advance now next s p q s') :
    Counted ⟨s', points.set i q⟩ := by
  intro key'
  cases hstep with
  | pass _ _ _ _ hcounted =>
    refine (countP_step_le hp fun hq => ?_).trans (h key')
    rw [hcounted] at hq
    simp at hq
  | @incr key ttlSeconds hserves hpassed hcounted =>
    simp only [KeepsCount, hserves] at hG
    simp only [stored_incr]
    split
    · -- the counter goes on from what it had counted, so it has not expired
      rename_i heq
      have husage := h.recorded_le_usage hG
      rw [heq]
      exact (countP_step_le_succ hp).trans (Nat.succ_le_succ husage)
    · rename_i hne
      refine (countP_step_le hp fun hq => ?_).trans (h key')
      have hholds : q.holds key' = p.holds key' := by rw [Point.holds, hpassed, Point.holds]
      rw [hcounted, hholds, Bool.and_eq_true, decide_eq_true_eq, List.mem_cons] at hq
      rw [Bool.and_eq_true, decide_eq_true_eq]
      exact ⟨hq.1, hq.2.resolve_left hne⟩
  | expire hserves hpassed hcounted =>
    simp only [KeepsCount, hserves] at hG
    simp only [stored_expire hG]
    exact (recorded_step_le hp (.inl hpassed) hcounted).trans (h key')
  | quiet hcounters hpassed hcounted =>
    have hstored : stored key' s' = stored key' s := by rw [stored, hcounters, stored]
    simp only [hstored]
    exact (recorded_step_le hp hpassed hcounted).trans (h key')

/-! ## Requests that were let through -/

/-- The requests that have passed a check are not more than the limit admits. -/
def Limited (points : List Point) : Prop :=
  ∀ key limit, letThrough key limit points ≤ limit

theorem letThrough_step_le (hp : points[i]? = some p)
    (hpassed : q.passed = p.passed ∨ q.passed = []) :
    letThrough key limit (points.set i q) ≤ letThrough key limit points := by
  refine countP_step_le hp fun hq => ?_
  rcases hpassed with hsame | hnone
  · rw [Point.passes, ← hsame]
    exact hq
  · rw [Point.passes, hnone] at hq
    cases hq

/-- A check that is passed has room for its request, beside all that have passed it before. -/
theorem held_step_le {check : QuotaKey × ℕ} (hcounted : Counted ⟨s, points⟩)
    (hp : points[i]? = some p) (hG : ChecksAll now p ⟨s, points⟩) (hchecks : p.checks = some check)
    (husage : usage now check.1 s < check.2) : held check.1 (points.set i q) ≤ check.2 := by
  obtain ⟨hunexpired, hroom⟩ := hG check hchecks husage
  -- they are those that the counter shows and those in progress
  have hrecorded := hcounted.recorded_le_usage hunexpired
  calc held check.1 (points.set i q)
      ≤ held check.1 points + 1 := countP_step_le_succ hp
    _ = recorded check.1 points + unrecorded check.1 points + 1 := by rw [held_eq]
    _ ≤ usage now check.1 s + unrecorded check.1 points + 1 := by
      simp only at hrecorded
      omega
    _ ≤ check.2 := by
      simp only at hroom
      omega

theorem Limited.step (h : Limited points) (hcounted : Counted ⟨s, points⟩)
    (hp : points[i]? = some p) (hG : ChecksAll now p ⟨s, points⟩)
    (hstep : Advance now next s p q s') : Limited (points.set i q) := by
  intro key limit
  cases hstep with
  | @pass check hchecks husage hpassed _ _ =>
    by_cases hcheck : check.1 = key ∧ check.2 ≤ limit
    · obtain ⟨rfl, hlimit⟩ := hcheck
      exact (letThrough_le_held ..).trans ((held_step_le hcounted hp hG hchecks husage).trans hlimit)
    · -- another counter was checked, or a larger limit
      refine (countP_step_le hp fun hq => ?_).trans (h key limit)
      rw [Point.passes, hpassed, List.any_append, Bool.or_eq_true] at hq
      rcases hq with hold | hnew
      · exact hold
      · obtain ⟨check', hmem, hpasses⟩ := List.any_eq_true.mp hnew
        obtain rfl := List.mem_singleton.mp hmem
        exact absurd (of_decide_eq_true hpasses) hcheck
  | incr _ hpassed _ => exact (letThrough_step_le hp (.inl hpassed)).trans (h key limit)
  | expire _ hpassed _ => exact (letThrough_step_le hp (.inl hpassed)).trans (h key limit)
  | quiet _ hpassed _ => exact (letThrough_step_le hp hpassed).trans (h key limit)

theorem Limited.within (h : Limited points) : Within points := by
  intro key limit
  refine (List.countP_mono_left fun p _ hp => ?_).trans (h key limit)
  exact (Bool.and_eq_true_iff.mp hp).2

/-- A step passes no check, or one that has room for all. -/
theorem admits_step {check : QuotaKey × ℕ} (hcounted : Counted ⟨s, points⟩)
    (hp : points[i]? = some p) (hG : ChecksAll now p ⟨s, points⟩)
    (hstep : Advance now next s p q s') (hmem : check ∈ q.passed) (hnew : check ∉ p.passed) :
    held check.1 (points.set i q) ≤ check.2 := by
  cases hstep with
  | @pass check' hchecks husage hpassed _ _ =>
    rw [hpassed, List.mem_append, List.mem_singleton] at hmem
    obtain rfl := hmem.resolve_left hnew
    exact held_step_le hcounted hp hG hchecks husage
  -- the other steps pass no check
  | incr _ hpassed _ => exact absurd (hpassed ▸ hmem) hnew
  | expire _ hpassed _ => exact absurd (hpassed ▸ hmem) hnew
  | quiet _ hpassed _ =>
    rcases hpassed with hsame | hnone
    · exact absurd (hsame ▸ hmem) hnew
    · rw [hnone] at hmem
      cases hmem

/-! ## Runs -/

theorem admits_of_exec {utcOffset : ℕ → ℕ → ℤ} {c : Commit (Tasks Redis Point) (Move Point ℕ) Unit}
    (hcounted : Counted c.before) (hG : Async.OnStep UpToDate c)
    (he : (quotaRequests utcOffset).contract.exec c.time c.call c.before = .ok (c.result, c.after)) :
    Admits c := by
  obtain ⟨t, call, r, ⟨s, points⟩, after⟩ := c
  have hstep : (quotaRequests utcOffset).Step t ⟨s, points⟩ call after := Async.step_of_exec he
  intro j p q hp hq check hmem hnew
  cases hstep with
  | start =>
    -- the tasks that there were stay as they are
    obtain ⟨hj, -⟩ := List.getElem?_eq_some_iff.mp hp
    dsimp only at hp hq
    rw [List.getElem?_append_left hj, hp] at hq
    exact absurd (Option.some.inj hq ▸ hmem) hnew
  | @resume i next p' q' s' hp' hq' =>
    rcases getElem?_step hq with ⟨-, hsame⟩ | ⟨rfl, rfl⟩
    · rw [hp] at hsame
      exact absurd (Option.some.inj hsame ▸ hmem) hnew
    · obtain rfl : p' = p := Option.some.inj (hp'.symm.trans hp)
      exact admits_step hcounted hp' (hG p' hp').1 (advance_of_resume hq') hmem hnew

theorem passed_of_starts {utcOffset : ℕ → ℕ → ℤ} (h : (quotaRequests utcOffset).starts s p = true) :
    p.passed = [] := by
  cases p <;> first | rfl | cases h

theorem Counted.start (h : Counted ⟨s, points⟩) (hp : p.passed = []) :
    Counted ⟨s, points ++ [p]⟩ := by
  intro key
  have hnone : (p.holds key && decide (key ∈ p.counted)) = false := by
    rw [Point.holds, hp]
    rfl
  have hstart : recorded key (points ++ [p]) = recorded key points := countP_start hnone
  exact hstart.trans_le (h key)

theorem Limited.start (h : Limited points) (hp : p.passed = []) : Limited (points ++ [p]) := by
  intro key limit
  have hnone : p.passes key limit = false := by
    rw [Point.passes, hp]
    rfl
  rw [letThrough, countP_start hnone]
  exact h key limit

/-- **Quotas.** In a run in which every check that is passed has room for the requests in
progress, and no counter expires in which requests were counted, no more requests of a month, a
session or a minute are ever allowed than the limit in force admits; and a request passes a check
only while its limit admits all that have passed it, also where the limit was larger before. -/
theorem within_of_upToDate {utcOffset : ℕ → ℕ → ℤ} {t₀ : ℕ} {w : World (Tasks Redis Point)}
    {log : Async.Log Redis Point ℕ}
    (h : (quotaRequests utcOffset).contract.Run ⟨t₀, ⟨Redis.empty, []⟩⟩ w log)
    (hG : ∀ c ∈ log, Async.OnStep UpToDate c) :
    Within w.store.points ∧ (∀ c ∈ log, Within c.after.points) ∧ ∀ c ∈ log, Admits c := by
  obtain ⟨hend, hlog⟩ := Async.invariant (I := fun w => Counted w ∧ Limited w.points)
    (fun s points p hI hp =>
      ⟨hI.1.start (passed_of_starts hp), hI.2.start (passed_of_starts hp)⟩)
    (fun t next i p q s s' points hI hp hg hq => by
      have hstep := advance_of_resume hq
      exact ⟨hI.1.step hp hg.2 hstep, hI.2.step hI.1 hp hg.1 hstep⟩)
    h ⟨fun _ => Nat.zero_le _, fun _ _ => Nat.zero_le _⟩ hG
  exact ⟨hend.2.within, fun c hc => (hlog c hc).2.2.within, fun c hc =>
    admits_of_exec (hlog c hc).1.1 (hG c hc) (h.exec_of_mem c hc)⟩

/-- The monthly limit of the user is set to 1. -/
def limitToOne : List (ℕ × Move Point ℕ) :=
  (0, .start (.setUserMonthlyQuota "alice" 1)) :: List.replicate 2 (0, .resume 0 0)

/-- The request is checked. -/
def check (t task : ℕ) : List (ℕ × Move Point ℕ) :=
  (t, .start (.enforceQuota "alice" "call" ⟨none, none, none⟩)) ::
    List.replicate 8 (t, .resume task 0)

/-- A request is allowed and recorded, and another one is refused. -/
def oneAfterAnother : List (ℕ × Move Point ℕ) :=
  limitToOne ++ check 1 1 ++ List.replicate 7 (2, .resume 1 0) ++ check 3 2

theorem within_of_upToDate_sample :
    let run := (quotaRequests fun _ _ => 0).contract.play ⟨0, ⟨Redis.empty, []⟩⟩ oneAfterAnother
    allowed (.monthly "alice" 1970 1) 1 run.1.store.points = 1 ∧ Within run.1.store.points ∧
      (∀ c ∈ run.2, Within c.after.points) ∧ ∀ c ∈ run.2, Admits c :=
  ⟨by decide, within_of_upToDate (Contract.run_play _ _ oneAfterAnother (by decide)) (by decide)⟩

/-- Two requests are checked at once. -/
def bothAtOnce : List (ℕ × Move Point ℕ) := limitToOne ++ check 1 1 ++ check 1 2

/-- Two requests are allowed in a month of which the limit is 1. -/
theorem two_allowed :
    ¬ ∀ utcOffset w log, (quotaRequests utcOffset).contract.Run ⟨0, ⟨Redis.empty, []⟩⟩ w log →
      Within w.store.points := by
  intro hall
  have hwithin := hall (fun _ _ => 0) _ _ (Contract.run_play (quotaRequests fun _ _ => 0).contract
    ⟨0, ⟨Redis.empty, []⟩⟩ bothAtOnce (by decide))
  exact absurd (hwithin (.monthly "alice" 1970 1) 1) (by decide)

end Stellara.Quotas
