import Mathlib.Data.List.Perm.Subperm
import Stellara.Lib.Expiry
import Stellara.Lib.Tasks

/-!
# The sliding window of the rate limit

The requests of a key are limited in every window of time by a sorted set, which has the time of
each request that was allowed as a member. A call removes the members that are out of its window,
counts the others, and adds its own time unless they reach the limit. These are commands of their
own, with those of other calls in between, and calls of one millisecond share a member. So a window
has no more allowed calls than the limit where every call that is let through finds the earlier ones
of its window in the set, each as a member of its own.

All commands to Redis are taken to succeed.

## Main definitions

* `zRemRangeByScore`, `zCard`, `zAdd`: the commands on the sorted set
* `RateLimitCall`, `rateLimitCalls`: the calls of `checkRateLimit` for one key, limit and window
* `WithinLimit`: no window has more allowed calls than the limit
* `CountsAll`: a call that is let through counts the calls of its window

## Main results

* `withinLimit_of_countsAll`: the limit is kept where every call counts the others
-/

namespace Stellara.Auth

/-! ## Sorted sets -/

/-- The members of a sorted set, with their scores. -/
abbrev SortedSet := Store String ℕ

/-- The sorted sets, by their keys. -/
abbrev SortedSets := ExpiringStore String SortedSet

/-- Remove the members whose score is in a range. A set without members is removed. -/
def zRemRangeByScore (now : ℕ) (key : String) (lo hi : ℤ) (m : SortedSets) : SortedSets :=
  match m.find now key with
  | some e =>
    let out := e.value.keys.filter fun member =>
      ∃ score ∈ e.value.lookup member, lo ≤ score ∧ (score : ℤ) ≤ hi
    let set := out.foldl (fun set member => set.erase member) e.value
    if set.keys = [] then m.erase key else AList.insert key ⟨set, e.deadline⟩ m
  | none => m

/-- The members of a set. -/
def zMembers (now : ℕ) (key : String) (m : SortedSets) : List String :=
  match m.get now key with
  | some set => set.keys
  | none => []

/-- How many members a set has. -/
def zCard (now : ℕ) (key : String) (m : SortedSets) : ℕ := (zMembers now key m).length

/-- Add a member, or change its score. -/
def zAdd (now : ℕ) (key : String) (score : ℕ) (member : String) (m : SortedSets) : SortedSets :=
  m.modify now key fun set => (set.getD ∅).insert member score

/-- The lowest score of a set. -/
def zLowest (now : ℕ) (key : String) (m : SortedSets) : Option ℕ :=
  match m.get now key with
  | some set => (set.entries.map Sigma.snd).min?
  | none => none

/-! ## Calls -/

/-- What a call returns. -/
structure RateLimitResult where
  allowed : Bool
  remaining : ℕ
  resetAt : ℕ
deriving DecidableEq, Repr

/-- What a call is about to do. -/
inductive RateLimitStage where
  | removeOld
  | count
  | readOldest
  | add (requestCount : ℕ)
  | setExpiration (requestCount : ℕ)
  | returned (result : RateLimitResult)
deriving DecidableEq, Repr

/-- A call, with the time it was made at. -/
structure RateLimitCall where
  now : ℕ
  stage : RateLimitStage
deriving DecidableEq, Repr

section Calls

variable (key : String) (limit windowSeconds : ℕ)

def redisKey : String := "rate_limit:" ++ key

/-- The length of the window in milliseconds. -/
def windowMs : ℕ := windowSeconds * 1000

/-- One step of a call, at the time of Redis. -/
def RateLimitCall.resume (t : ℕ) (c : RateLimitCall) (m : SortedSets) :
    Option (RateLimitCall × SortedSets) :=
  match c.stage with
  | .removeOld =>
    let windowStart : ℤ := c.now - windowMs windowSeconds
    some (⟨c.now, .count⟩, zRemRangeByScore t (redisKey key) 0 windowStart m)
  | .count =>
    let requestCount := zCard t (redisKey key) m
    if limit ≤ requestCount then some (⟨c.now, .readOldest⟩, m)
    else some (⟨c.now, .add requestCount⟩, m)
  | .readOldest =>
    let resetTime := match zLowest t (redisKey key) m with
      | some oldest => oldest + windowMs windowSeconds
      | none => c.now + windowMs windowSeconds
    some (⟨c.now, .returned ⟨false, 0, resetTime⟩⟩, m)
  | .add requestCount =>
    -- the member is the time itself, which calls of one millisecond share
    some (⟨c.now, .setExpiration requestCount⟩,
      zAdd t (redisKey key) c.now (toString c.now) m)
  | .setExpiration requestCount =>
    some (⟨c.now, .returned ⟨true, limit - requestCount - 1, c.now + windowMs windowSeconds⟩⟩,
      m.expire t (windowMs windowSeconds) (redisKey key))
  | .returned _ => none

/-- The calls for one key, limit and window, made at any times. -/
def rateLimitCalls : Async SortedSets RateLimitCall Unit where
  starts _ c := c.stage = .removeOld
  resume t _ c m := c.resume key limit windowSeconds t m

/-! ## The limit -/

/-- The call returned that the request is allowed. -/
def RateLimitCall.isAllowed (c : RateLimitCall) : Bool :=
  match c.stage with
  | .returned result => result.allowed
  | _ => false

/-- The call got past the count. -/
def RateLimitCall.isLetThrough (c : RateLimitCall) : Bool :=
  match c.stage with
  | .add _ | .setExpiration _ => true
  | .returned result => result.allowed
  | _ => false

/-- The time is in the window that begins after `t`. -/
def InWindow (t : ℤ) (now : ℕ) : Prop := t < now ∧ now ≤ t + windowMs windowSeconds

instance (t : ℤ) (now : ℕ) : Decidable (InWindow windowSeconds t now) :=
  inferInstanceAs (Decidable (_ ∧ _))

/-- How many calls of a window were let through. -/
def letThroughIn (t : ℤ) (points : List RateLimitCall) : ℕ :=
  points.countP fun c => c.isLetThrough ∧ InWindow windowSeconds t c.now

/-- No window has more allowed calls than the limit. -/
def WithinLimit (w : Tasks SortedSets RateLimitCall) : Prop :=
  ∀ t, (w.points.countP fun c => c.isAllowed ∧ InWindow windowSeconds t c.now) ≤ limit

/-- The members of the calls that were let through, of those that can share a window with a call at
the time `now`. -/
def membersNear (now : ℕ) (points : List RateLimitCall) : List String :=
  (points.filter fun c => c.isLetThrough ∧ now < c.now + windowMs windowSeconds ∧
    c.now < now + windowMs windowSeconds).map fun c => toString c.now

/-- A call that is let through finds the calls that can share a window with it in the set, each as a
member of its own. -/
def CountsAll (t : ℕ) (_ : Unit) (_ : ℕ) (c : RateLimitCall) (w : Tasks SortedSets RateLimitCall) :
    Prop :=
  c.stage = .count → zCard t (redisKey key) w.shared < limit →
    (membersNear windowSeconds c.now w.points).Nodup ∧
      ∀ member ∈ membersNear windowSeconds c.now w.points,
        member ∈ zMembers t (redisKey key) w.shared

instance {t : ℕ} {u : Unit} {i : ℕ} {c : RateLimitCall} {w : Tasks SortedSets RateLimitCall} :
    Decidable (CountsAll key limit windowSeconds t u i c w) := by
  unfold CountsAll
  infer_instance

end Calls

/-! ## Counting -/

section Counting

variable {key : String} {limit windowSeconds now : ℕ} {t : ℤ} {points : List RateLimitCall}
  {m m' : SortedSets} {c c' : RateLimitCall}

theorem isLetThrough_of_isAllowed (h : c.isAllowed = true) : c.isLetThrough = true := by
  obtain ⟨now, stage⟩ := c
  cases stage with
  | returned result => exact h
  | _ => cases h

/-- The calls of a window that were let through are near each call of the window. -/
theorem letThroughIn_le_membersNear (points : List RateLimitCall)
    (h : InWindow windowSeconds t now) :
    letThroughIn windowSeconds t points ≤ (membersNear windowSeconds now points).length := by
  rw [membersNear, List.length_map, ← List.countP_eq_length_filter, letThroughIn]
  refine List.countP_mono_left fun c _ hc => ?_
  simp only [decide_eq_true_eq] at hc ⊢
  obtain ⟨hthrough, hwindow⟩ := hc
  unfold InWindow at h hwindow
  exact ⟨hthrough, by omega, by omega⟩

/-- Members of their own are counted. -/
theorem length_le_zCard {members : List String} (hnodup : members.Nodup)
    (hmem : ∀ member ∈ members, member ∈ zMembers now key m) : members.length ≤ zCard now key m :=
  (List.subperm_of_subset hnodup hmem).length_le

/-- A call is let through by its count, and by no other of its steps. -/
theorem resume_letThrough (h : c.resume key limit windowSeconds now m = some (c', m')) :
    c'.now = c.now ∧ (c'.isLetThrough = true → c.isLetThrough = true ∨
      c.stage = .count ∧ zCard now (redisKey key) m < limit) := by
  obtain ⟨made, stage⟩ := c
  cases stage with
  | removeOld =>
    cases h
    exact ⟨rfl, fun hthrough => by cases hthrough⟩
  | count =>
    simp only [RateLimitCall.resume] at h
    split at h
    · cases h
      exact ⟨rfl, fun hthrough => by cases hthrough⟩
    · cases h
      exact ⟨rfl, fun _ => .inr ⟨rfl, not_le.mp ‹_›⟩⟩
  | readOldest =>
    cases h
    exact ⟨rfl, fun hthrough => by cases hthrough⟩
  | add requestCount =>
    cases h
    exact ⟨rfl, fun _ => .inl rfl⟩
  | setExpiration requestCount =>
    cases h
    exact ⟨rfl, fun _ => .inl rfl⟩
  | returned result => cases h

/-- A step keeps the limit, if a call that is let through by it counts the others. -/
theorem letThroughIn_step {i : ℕ} (hlimit : letThroughIn windowSeconds t points ≤ limit)
    (hp : points[i]? = some c) (hG : CountsAll key limit windowSeconds now () i c ⟨m, points⟩)
    (hq : c.resume key limit windowSeconds now m = some (c', m')) :
    letThroughIn windowSeconds t (points.set i c') ≤ limit := by
  obtain ⟨hnow, hthrough⟩ := resume_letThrough hq
  by_cases hnew : c.stage = .count ∧ zCard now (redisKey key) m < limit
  · obtain ⟨hstage, hcard⟩ := hnew
    obtain ⟨hnodup, hmem⟩ := hG hstage hcard
    by_cases hwindow : InWindow windowSeconds t c.now
    · -- the calls of the window are among those that were counted
      have hnear := letThroughIn_le_membersNear points hwindow
      have hcounted := length_le_zCard hnodup hmem
      have hstep := countP_step_le_succ (q := c') hp
        (P := fun c => c.isLetThrough ∧ InWindow windowSeconds t c.now)
      unfold letThroughIn at *
      dsimp only at hcounted
      omega
    · -- the call is let through, but in other windows
      refine (countP_step_le hp fun hin => ?_).trans hlimit
      simp only [decide_eq_true_eq] at hin
      rw [hnow] at hin
      exact absurd hin.2 hwindow
  · refine (countP_step_le hp fun hin => ?_).trans hlimit
    simp only [decide_eq_true_eq] at hin ⊢
    rw [hnow] at hin
    exact ⟨(hthrough hin.1).resolve_right hnew, hin.2⟩

end Counting

/-! ## Runs -/

section Runs

variable {key : String} {limit windowSeconds t₀ : ℕ}

/-- **The sliding window.** In a run in which every call that is let through counts the others of
its window, no window ever has more allowed calls than the limit. -/
theorem withinLimit_of_countsAll {w : World (Tasks SortedSets RateLimitCall)}
    {log : Async.Log SortedSets RateLimitCall Unit}
    (h : (rateLimitCalls key limit windowSeconds).contract.Run ⟨t₀, ⟨∅, []⟩⟩ w log)
    (hG : ∀ c ∈ log, Async.OnStep (CountsAll key limit windowSeconds) c) :
    WithinLimit limit windowSeconds w.store ∧
      ∀ c ∈ log, WithinLimit limit windowSeconds c.after := by
  have hwithin : ∀ w : Tasks SortedSets RateLimitCall,
      (∀ t, letThroughIn windowSeconds t w.points ≤ limit) → WithinLimit limit windowSeconds w := by
    intro w hw t
    refine (List.countP_mono_left fun c _ hc => ?_).trans (hw t)
    simp only [decide_eq_true_eq] at hc ⊢
    exact ⟨isLetThrough_of_isAllowed hc.1, hc.2⟩
  -- a call that starts was not let through yet
  have hstart : ∀ (m : SortedSets) (points : List RateLimitCall) (c : RateLimitCall),
      (∀ t, letThroughIn windowSeconds t points ≤ limit) →
      (rateLimitCalls key limit windowSeconds).starts m c = true →
      ∀ t, letThroughIn windowSeconds t (points ++ [c]) ≤ limit := by
    intro m points c hI hc t
    obtain ⟨now, stage⟩ := c
    obtain rfl : stage = .removeOld := of_decide_eq_true hc
    rw [letThroughIn, countP_start (by rfl)]
    exact hI t
  obtain ⟨hend, hlog⟩ := Async.invariant
    (I := fun w => ∀ t, letThroughIn windowSeconds t w.points ≤ limit) hstart
    (fun _ u i _ _ _ _ _ hI hp hstep hq t => letThroughIn_step (hI t) hp hstep hq)
    h (fun _ => Nat.zero_le _) hG
  exact ⟨hwithin _ hend, fun c hc => hwithin _ (hlog c hc).2⟩

/-- The calls are made one after the other, at the times of the list. -/
def sequentialCalls (times : List ℕ) : List (ℕ × Move RateLimitCall Unit) :=
  times.zipIdx.flatMap fun (now, i) =>
    (now, .start ⟨now, .removeOld⟩) :: List.replicate 4 (now, .resume i ())

/-- Two calls fill a window of a second, the third one is rejected, and the fourth one is made when
the first one is out of its window. -/
theorem withinLimit_of_countsAll_sequential :
    let run := (rateLimitCalls "ip:1:login" 2 1).contract.play ⟨0, ⟨∅, []⟩⟩
      (sequentialCalls [1, 2, 3, 1001])
    run.1.store.points.map RateLimitCall.isAllowed = [true, true, false, true] ∧
      WithinLimit 2 1 run.1.store ∧ ∀ c ∈ run.2, WithinLimit 2 1 c.after :=
  ⟨by decide, withinLimit_of_countsAll
    (Contract.run_play (rateLimitCalls "ip:1:login" 2 1).contract _
      (sequentialCalls [1, 2, 3, 1001]) (by decide)) (by decide)⟩

/-- Three calls of one millisecond are one member, and are all allowed where the limit is two. -/
theorem one_member_for_all :
    ¬ ∀ key limit windowSeconds w log,
      (rateLimitCalls key limit windowSeconds).contract.Run ⟨0, ⟨∅, []⟩⟩ w log →
        WithinLimit limit windowSeconds w.store := by
  intro hall
  have hwithin := hall "ip:1:login" 2 1 _ _ (Contract.run_play
    (rateLimitCalls "ip:1:login" 2 1).contract ⟨0, ⟨∅, []⟩⟩ (sequentialCalls [1, 1, 1]) (by decide))
  exact absurd (hwithin 0) (by decide)

/-- Two calls at once are both counted before one of them is a member. -/
example : ((rateLimitCalls "ip:1:login" 1 1).contract.play ⟨0, ⟨∅, []⟩⟩
    [(1, .start ⟨1, .removeOld⟩), (2, .start ⟨2, .removeOld⟩), (2, .resume 0 ()), (2, .resume 1 ()),
      (2, .resume 0 ()), (2, .resume 1 ()), (2, .resume 0 ()), (2, .resume 1 ()), (2, .resume 0 ()),
      (2, .resume 1 ())]).1.store.points.map RateLimitCall.isAllowed = [true, true] := by
  decide

end Runs

end Stellara.Auth
