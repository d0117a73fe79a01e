import Stellara.Lib.FixedWindow
import Stellara.Throttle.Requests

/-!
# Throttled requests

The counter of a path and an identifier is incremented by one command, so that concurrent requests
get different values. It expires a minute after its first request set the expiry, which is later
than a minute after the request was counted. So the requests that are let through in a minute are
those of at most two lifetimes of the counter, whatever the order of the commands. And a ban lasts
four minutes at least, since a later one that replaces it lasts no shorter.

## Main definitions

* `counted`: the value with which a step counts a request
* `letThrough`: the times at which the requests that are let through were counted
* `Counts`: the calls that a counter has counted, with its periods
* `BansLast`: the requests of a banned identifier are rejected

## Main results

* `Counts.count`, `Counts.expire`: what the commands on a counter keep
* `letThrough_bounded`: how many requests are let through in a minute
* `ban_lasts`: how long an identifier is banned
-/

namespace Stellara.Throttle

abbrev GuardLog := Async.Log Counters GuardCall Unit

abbrev GuardCommit := Commit (Tasks Counters GuardCall) (Move GuardCall Unit) Unit

section Definitions

variable (path identifier : String)

/-- The value with which the step counts a request of the path and the identifier. -/
def counted (c : GuardCommit) : Option ℕ :=
  match c.call with
  | .start _ => none
  | .resume i _ =>
    if c.before.points[i]? = some ⟨path, identifier, .count⟩ then
      some (incr c.time (rateKey path identifier) c.before.shared).1
    else none

/-- The time of the step, if it lets a request through. -/
def letThroughAt (c : GuardCommit) : Option ℕ :=
  if ∃ n ∈ counted path identifier c, n ≤ (configOf path).limit then some c.time else none

/-- The times at which the requests that are let through were counted. -/
def letThrough (log : GuardLog) : List ℕ := log.filterMap (letThroughAt path identifier)

/-- The request was counted with the value. -/
def CountedAs (log : GuardLog) (i n : ℕ) (c : GuardCall) : Prop :=
  ∃ step ∈ log, step.call = .resume i () ∧ counted c.path c.identifier step = some n

/-- What is known of the value with which a request was counted. -/
def FollowsCount (log : GuardLog) (i : ℕ) (c : GuardCall) : Prop :=
  match c.stage with
  | .expire => CountedAs log i 1 c
  | .readTtl current => CountedAs log i current c
  | .allowed _ => ∃ n ≤ (configOf c.path).limit, CountedAs log i n c
  | _ => True

/-- The counter has counted the calls, each in the period of its start. -/
structure Counts (limit now : ℕ) (entry : Option (Expiring ℕ)) (calls : List (ℕ × ℕ)) : Prop where
  periods : Periods 60000 limit calls
  past : ∀ c ∈ calls, c.1 ≤ now
  empty : entry = none → calls = []
  last : ∀ e ∈ entry, ∃ start ≤ now,
    (∀ c ∈ calls, c.2 = start ∨ c.1 ≤ start ∧ c.2 + 60000 ≤ start) ∧
      (calls.countP fun c => c.2 = start) ≤ e.value ∧
      ∀ deadline ∈ e.deadline, start + 60000 ≤ deadline ∧ ∀ c ∈ calls, c.1 ≤ deadline

end Definitions

/-! ## Counters -/

section Counters

variable {limit now now' : ℕ} {calls : List (ℕ × ℕ)} {key : String} {m : Counters}
  {entry : Option (Expiring ℕ)} {added : List ℕ}

theorem Counts.mono (h : Counts limit now entry calls) (hle : now ≤ now') :
    Counts limit now' entry calls where
  periods := h.periods
  past c hc := (h.past c hc).trans hle
  empty := h.empty
  last e he := by
    obtain ⟨start, hstart, hlast⟩ := h.last e he
    exact ⟨start, hstart.trans hle, hlast⟩

/-- The expiry is set to a minute from now, which is no earlier than the start of the period. -/
theorem Counts.expire (h : Counts limit now (m.lookup key) calls) :
    Counts limit now ((m.expire now 60000 key).lookup key) calls := by
  unfold ExpiringStore.expire
  split
  · rename_i e hfind
    obtain ⟨hstored, -⟩ := ExpiringStore.find_eq_some.mp hfind
    rw [Store.lookup_insert_ite, if_pos rfl]
    refine ⟨h.periods, h.past, fun hnone => (by cases hnone), fun e' he' => ?_⟩
    obtain rfl := Option.some.inj he'
    obtain ⟨start, hstart, hlater, hfew, -⟩ := h.last e hstored
    refine ⟨start, hstart, hlater, hfew, fun deadline hdeadline => ?_⟩
    obtain rfl := Option.some.inj hdeadline
    exact ⟨by omega, fun c hc => (h.past c hc).trans (Nat.le_add_right now 60000)⟩
  · exact h

/-- No period is over before its minute. -/
theorem Counts.over (h : Counts limit now (m.lookup key) calls) (hfind : m.find now key = none) :
    ∀ c ∈ calls, c.1 ≤ now ∧ c.2 + 60000 ≤ now := by
  intro c hc
  cases hlookup : m.lookup key with
  | none =>
    rw [h.empty hlookup] at hc
    cases hc
  | some e =>
    have hdead : e.live now = false := by
      rw [ExpiringStore.find, hlookup, Option.filter_some] at hfind
      split at hfind
      · cases hfind
      · rename_i hnot
        exact Bool.eq_false_iff.mpr hnot
    obtain ⟨start, hstart, hlater, -, hdeadline⟩ := h.last e hlookup
    cases hd : e.deadline with
    | none =>
      rw [Expiring.live, hd] at hdead
      cases hdead
    | some deadline =>
      rw [Expiring.live, hd, Option.all_some, decide_eq_false_iff_not] at hdead
      obtain ⟨hwide, -⟩ := hdeadline deadline hd
      refine ⟨h.past c hc, ?_⟩
      rcases hlater c hc with hown | ⟨-, hold⟩ <;> omega

/-- A request is counted in the period that is not over, or starts a new one; it joins the calls or
does not. -/
theorem Counts.count (h : Counts limit now (m.lookup key) calls)
    (hadded : added = [] ∨ added = [now] ∧ (incr now key m).1 ≤ limit) :
    ∃ calls', calls'.map Prod.fst = calls.map Prod.fst ++ added ∧
      Counts limit now ((incr now key m).2.lookup key) calls' := by
  cases hfind : m.find now key with
  | some e =>
    have hvalue : (incr now key m).1 = e.value + 1 := by
      simp only [incr, ExpiringStore.get, hfind, Option.map_some, Option.getD_some]
    have hentry : (incr now key m).2.lookup key = some ⟨e.value + 1, e.deadline⟩ := by
      simp only [incr, ExpiringStore.modify, hfind, Store.lookup_insert_ite, if_true,
        Option.getD_some]
    obtain ⟨hstored, hlive⟩ := ExpiringStore.find_eq_some.mp hfind
    obtain ⟨start, hstart, hlater, hfew, hdeadline⟩ := h.last e hstored
    rcases hadded with rfl | ⟨rfl, hlimit⟩
    · refine ⟨calls, (List.append_nil _).symm, h.periods, h.past, fun hnone => ?_, fun e' he' => ?_⟩
      · rw [hentry] at hnone
        cases hnone
      · obtain rfl := Option.some.inj (hentry.symm.trans he')
        exact ⟨start, hstart, hlater, hfew.trans (Nat.le_succ _), hdeadline⟩
    · refine ⟨calls ++ [(now, start)], (by rw [List.map_append]; rfl),
        h.periods.concat hstart hlater (by omega), ?_, fun hnone => ?_, fun e' he' => ?_⟩
      · rw [List.forall_mem_append, List.forall_mem_singleton]
        exact ⟨h.past, le_rfl⟩
      · rw [hentry] at hnone
        cases hnone
      · obtain rfl := Option.some.inj (hentry.symm.trans he')
        refine ⟨start, hstart, ?_, ?_, fun deadline hd => ⟨(hdeadline deadline hd).1, ?_⟩⟩
        · rw [List.forall_mem_append, List.forall_mem_singleton]
          exact ⟨hlater, .inl rfl⟩
        · rw [List.countP_append, List.countP_singleton]
          simp only [decide_true, if_true]
          omega
        · rw [List.forall_mem_append, List.forall_mem_singleton]
          refine ⟨(hdeadline deadline hd).2, ?_⟩
          rw [Option.mem_def] at hd
          rw [Expiring.live, hd, Option.all_some, decide_eq_true_eq] at hlive
          exact hlive
  | none =>
    have hvalue : (incr now key m).1 = 1 := by
      simp only [incr, ExpiringStore.get, hfind, Option.map_none, Option.getD_none]
    have hentry : (incr now key m).2.lookup key = some ⟨1, none⟩ := by
      simp only [incr, ExpiringStore.modify, hfind, Store.lookup_insert_ite, if_true,
        Option.getD_none]
    have hover := h.over hfind
    have hnone : (calls.countP fun c => c.2 = now) = 0 := by
      refine List.countP_eq_zero.mpr fun c hc => ?_
      have := (hover c hc).2
      simp only [decide_eq_true_eq]
      omega
    rcases hadded with rfl | ⟨rfl, hlimit⟩
    · refine ⟨calls, (List.append_nil _).symm, h.periods, h.past, fun hnone => ?_, fun e' he' => ?_⟩
      · rw [hentry] at hnone
        cases hnone
      · obtain rfl := Option.some.inj (hentry.symm.trans he')
        exact ⟨now, le_rfl, fun c hc => .inr (hover c hc), (by rw [hnone]; exact Nat.zero_le _),
          fun _ hd => by cases hd⟩
    · refine ⟨calls ++ [(now, now)], (by rw [List.map_append]; rfl),
        h.periods.concat le_rfl (fun c hc => .inr (hover c hc)) (by omega), ?_, fun hnone => ?_,
        fun e' he' => ?_⟩
      · rw [List.forall_mem_append, List.forall_mem_singleton]
        exact ⟨h.past, le_rfl⟩
      · rw [hentry] at hnone
        cases hnone
      · obtain rfl := Option.some.inj (hentry.symm.trans he')
        refine ⟨now, le_rfl, ?_, ?_, fun _ hd => by cases hd⟩
        · rw [List.forall_mem_append, List.forall_mem_singleton]
          exact ⟨fun c hc => .inr (hover c hc), .inl rfl⟩
        · rw [List.countP_append, List.countP_singleton, hnone]
          simp

end Counters

/-! ## Steps -/

section Steps

variable {path identifier : String} {now i : ℕ} {c c' : GuardCall} {m m' : Counters}
  {points : List GuardCall} {log log' : GuardLog} {w w' : Tasks Counters GuardCall}

theorem letThrough_concat {step : GuardCommit} : letThrough path identifier (log ++ [step]) =
    letThrough path identifier log ++ (letThroughAt path identifier step).toList := by
  rw [letThrough, List.filterMap_append]
  cases h : letThroughAt path identifier step with
  | none => rw [List.filterMap_cons_none h]; rfl
  | some time => rw [List.filterMap_cons_some h]; rfl

theorem counted_resume (hp : points[i]? = some c) :
    counted path identifier ⟨now, .resume i (), (), ⟨m, points⟩, w'⟩ =
      if c = ⟨path, identifier, .count⟩ then some (incr now (rateKey path identifier) m).1
      else none := by
  simp only [counted, hp, Option.some.injEq]

theorem letThroughAt_of_counted_eq_none {step : GuardCommit}
    (h : counted path identifier step = none) : letThroughAt path identifier step = none := by
  rw [letThroughAt, h, if_neg (by simp)]

theorem letThroughAt_eq_some {step : GuardCommit} {time : ℕ}
    (h : letThroughAt path identifier step = some time) : time = step.time ∧
      ∃ n, counted path identifier step = some n ∧ n ≤ (configOf path).limit := by
  unfold letThroughAt at h
  split at h
  · rename_i hn
    exact ⟨(Option.some.inj h).symm, hn⟩
  · cases h

theorem CountedAs.mono {n : ℕ} (hsub : log ⊆ log') (hpath : c'.path = c.path)
    (hidentifier : c'.identifier = c.identifier) (h : CountedAs log i n c) :
    CountedAs log' i n c' := by
  obtain ⟨step, hstep, hcall, hcounted⟩ := h
  exact ⟨step, hsub hstep, hcall, by rw [hpath, hidentifier, hcounted]⟩

theorem FollowsCount.mono (hsub : log ⊆ log') (h : FollowsCount log i c) :
    FollowsCount log' i c := by
  obtain ⟨path, identifier, stage⟩ := c
  cases stage with
  | expire => exact CountedAs.mono hsub rfl rfl h
  | readTtl current => exact CountedAs.mono hsub rfl rfl h
  | allowed headers =>
    obtain ⟨n, hn, hcounted⟩ := h
    exact ⟨n, hn, hcounted.mono hsub rfl rfl⟩
  | _ => trivial

/-- The request goes on with the value with which it was counted. -/
theorem FollowsCount.resume (h : FollowsCount log i c) (hp : points[i]? = some c)
    (hq : c.resume now m = some (c', m')) :
    FollowsCount (log ++ [⟨now, .resume i (), (), ⟨m, points⟩, ⟨m', points.set i c'⟩⟩]) i c' := by
  have hsub : ∀ step : GuardCommit, log ⊆ log ++ [step] := fun step =>
    List.subset_append_left log [step]
  have hlast : ∀ step : GuardCommit, step ∈ log ++ [step] := fun step =>
    List.mem_append_right _ (List.mem_singleton_self step)
  obtain ⟨path, identifier, stage⟩ := c
  cases stage with
  | checkBan =>
    simp only [GuardCall.resume] at hq
    split at hq <;>
    · cases hq
      trivial
  | count =>
    simp only [GuardCall.resume] at hq
    split at hq
    · rename_i hone
      cases hq
      exact ⟨_, hlast _, rfl, by rw [counted_resume hp, if_pos rfl, hone]⟩
    · cases hq
      exact ⟨_, hlast _, rfl, by rw [counted_resume hp, if_pos rfl]⟩
  | expire =>
    cases hq
    exact CountedAs.mono (hsub _) rfl rfl h
  | readTtl current =>
    simp only [GuardCall.resume] at hq
    split at hq
    · cases hq
      trivial
    · rename_i hle
      cases hq
      exact ⟨current, not_lt.mp hle, CountedAs.mono (hsub _) rfl rfl h⟩
  | registerViolation headers =>
    simp only [GuardCall.resume] at hq
    split at hq
    · cases hq
      trivial
    · split at hq <;>
      · cases hq
        trivial
  | expireViolations headers =>
    cases hq
    trivial
  | ban violations headers =>
    simp only [GuardCall.resume] at hq
    split at hq <;>
    · cases hq
      trivial
  | _ => cases hq

/-- The counter has counted the requests that were let through, and the others go on with their
values. -/
structure Limited (path identifier : String) (now : ℕ) (w : Tasks Counters GuardCall)
    (log : GuardLog) : Prop where
  counts : ∃ calls, calls.map Prod.fst = letThrough path identifier log ∧
    Counts (configOf path).limit now (w.shared.lookup (rateKey path identifier)) calls
  follows : ∀ i c, w.points[i]? = some c → FollowsCount log i c

/-- A move keeps the limit. -/
theorem Limited.step {t : ℕ} {move : Move GuardCall Unit} (h : Limited path identifier t w log)
    (hstep : guardCalls.Step t w move w') :
    Limited path identifier t w' (log ++ [⟨t, move, (), w, w'⟩]) := by
  obtain ⟨⟨calls, hcalls, hcounts⟩, hfollows⟩ := h
  cases hstep with
  | @start c hc =>
    refine ⟨⟨calls, ?_, hcounts⟩, fun j d hd => ?_⟩
    · rw [letThrough_concat, letThroughAt_of_counted_eq_none (by rfl), Option.toList_none,
        List.append_nil]
      exact hcalls
    · rcases getElem?_start hd with hold | ⟨-, rfl⟩
      · exact (hfollows j d hold).mono (List.subset_append_left _ _)
      · obtain ⟨path', identifier', stage⟩ := d
        obtain rfl : stage = .checkBan := of_decide_eq_true hc
        trivial
  | @resume i u c c' m' hp hq =>
    obtain ⟨m, points⟩ := w
    refine ⟨?_, fun j d hd => ?_⟩
    · rw [letThrough_concat]
      rcases (writes_of_resume hq).rateKey path identifier with
        ⟨-, -, rfl⟩ | ⟨hstage, rfl⟩ | ⟨hother, hsame⟩
      · -- a request is counted, of this path and identifier or of others with the same key
        rw [← hcalls]
        refine hcounts.count ?_
        cases hthrough : letThroughAt path identifier ⟨t, .resume i u, (), ⟨m, points⟩, _⟩ with
        | none => exact .inl rfl
        | some time =>
          obtain ⟨rfl, n, hn, hle⟩ := letThroughAt_eq_some hthrough
          rw [counted_resume hp] at hn
          split at hn
          · obtain rfl := Option.some.inj hn
            exact .inr ⟨rfl, hle⟩
          · cases hn
      · have hnone : ∀ w', counted path identifier ⟨t, .resume i u, (), ⟨m, points⟩, w'⟩ = none := by
          intro w'
          rw [counted_resume hp, if_neg]
          rintro rfl
          exact hstage rfl
        rw [letThroughAt_of_counted_eq_none (hnone _), Option.toList_none, List.append_nil]
        exact ⟨calls, hcalls, hcounts.expire⟩
      · have hnone : ∀ w', counted path identifier ⟨t, .resume i u, (), ⟨m, points⟩, w'⟩ = none := by
          intro w'
          rw [counted_resume hp, if_neg]
          rintro rfl
          exact hother rfl rfl
        rw [letThroughAt_of_counted_eq_none (hnone _), Option.toList_none, List.append_nil]
        refine ⟨calls, hcalls, ?_⟩
        dsimp only
        rw [hsame]
        exact hcounts
    · rcases getElem?_step hd with ⟨-, hold⟩ | ⟨rfl, rfl⟩
      · exact (hfollows j d hold).mono (List.subset_append_left _ _)
      · exact (hfollows j c hp).resume hp hq

end Steps

/-! ## Runs -/

section Runs

variable {path identifier : String} {t₀ : ℕ} {w w₀ : World (Tasks Counters GuardCall)}
  {log : GuardLog}

theorem limited_of_run (h : guardCalls.contract.Run ⟨t₀, ⟨∅, []⟩⟩ w log) :
    Limited path identifier w.now w.store log := by
  refine h.invariant_log (I := fun t w log => Limited path identifier t w log) ⟨⟨[], rfl, ?_⟩, ?_⟩
    (fun t t' w log hle hs => ?_) fun t move r w w' log hs he => hs.step (Async.step_of_exec he)
  · exact ⟨periods_nil, by simp, fun _ => rfl, fun e he => by cases he⟩
  · exact fun i c hc => by cases hc
  · obtain ⟨calls, hcalls, hcounts⟩ := hs.counts
    exact ⟨⟨calls, hcalls, hcounts.mono hle⟩, hs.follows⟩

/-- **The limit.** In every run, whatever the order of the commands, at most twice the limit of
requests of a path and an identifier that are counted in one minute are let through. Every request
that is allowed was counted with a value that is at most the limit. -/
theorem letThrough_bounded (h : guardCalls.contract.Run ⟨t₀, ⟨∅, []⟩⟩ w log)
    (path identifier : String) :
    (∀ t, ((letThrough path identifier log).countP fun time => t < time ∧
        time ≤ t + (configOf path).window * 1000) ≤ 2 * (configOf path).limit) ∧
      ∀ i headers, w.store.points[i]? = some ⟨path, identifier, .allowed headers⟩ →
        ∃ n ≤ (configOf path).limit, ∃ step ∈ log, step.call = .resume i () ∧
          counted path identifier step = some n ∧
          letThroughAt path identifier step = some step.time := by
  have hlimited : Limited path identifier w.now w.store log := limited_of_run h
  obtain ⟨⟨calls, hcalls, hcounts⟩, hfollows⟩ := hlimited
  refine ⟨fun t => ?_, fun i headers hpoint => ?_⟩
  · rw [← hcalls, List.countP_map, configOf_window]
    exact hcounts.periods.countP_le t
  · obtain ⟨n, hn, step, hstep, hcall, hcounted⟩ := hfollows i _ hpoint
    refine ⟨n, hn, step, hstep, hcall, hcounted, ?_⟩
    rw [letThroughAt, if_pos ⟨n, hcounted, hn⟩]

/-! ## Bans -/

/-- The identifier is banned until a time at least. -/
def BannedUntil (time : ℕ) (identifier : String) (m : Counters) : Prop :=
  ∃ e, m.lookup (buildBanKey identifier) = some e ∧ ∀ deadline ∈ e.deadline, time ≤ deadline

/-- The requests that are about to ban their identifiers have enough violations. -/
def Violated (points : List GuardCall) : Prop :=
  ∀ c ∈ points, ∀ violations headers, c.stage = .ban violations headers → maxViolations ≤ violations

/-- A ban from the third violation on lasts no shorter than the one of the third. -/
theorem banSeconds_mono {violations : ℕ} (h : maxViolations ≤ violations) :
    banSeconds maxViolations ≤ banSeconds violations :=
  Nat.mul_le_mul_left _ (Nat.pow_le_pow_right (by decide) (Nat.sub_le_sub_right h 1))

theorem BannedUntil.writes {time now : ℕ} {c : GuardCall} {m m' : Counters}
    (h : BannedUntil time identifier m) (hwrites : Writes now c m m')
    (hviolated : ∀ violations headers, c.stage = .ban violations headers →
      maxViolations ≤ violations) (hle : time ≤ now + banSeconds maxViolations * 1000) :
    BannedUntil time identifier m' := by
  rcases hwrites.banKey identifier with ⟨violations, headers, hstage, rfl⟩ | hsame
  · refine ⟨⟨1, some (now + banSeconds violations * 1000)⟩, ?_, fun deadline hdeadline => ?_⟩
    · rw [ExpiringStore.setEx, Store.lookup_insert_ite, if_pos rfl]
    · obtain rfl := Option.some.inj hdeadline
      have hmono := Nat.mul_le_mul_right 1000 (banSeconds_mono (hviolated violations headers hstage))
      exact hle.trans (Nat.add_le_add_left hmono now)
  · obtain ⟨e, he, hdeadline⟩ := h
    exact ⟨e, hsame.trans he, hdeadline⟩

theorem Violated.resume {points : List GuardCall} {i now : ℕ} {c c' : GuardCall} {m m' : Counters}
    (h : Violated points) (hq : c.resume now m = some (c', m')) : Violated (points.set i c') := by
  refine forall_mem_step h fun violations headers hstage => ?_
  obtain ⟨path, identifier, stage⟩ := c
  cases stage with
  | registerViolation headers' =>
    simp only [GuardCall.resume] at hq
    split at hq
    · cases hq
      cases hstage
    · split at hq
      · rename_i hmany
        cases hq
        obtain ⟨rfl, -⟩ := GuardStage.ban.inj hstage
        exact hmany
      · cases hq
        cases hstage
  | expire =>
    cases hq
    cases hstage
  | expireViolations headers' =>
    cases hq
    cases hstage
  | allowed headers' => cases hq
  | exceeded headers' => cases hq
  | banned => cases hq
  | failed headers' => cases hq
  | _ =>
    simp only [GuardCall.resume] at hq
    split at hq <;>
    · cases hq
      cases hstage

theorem Violated.move {w w' : Tasks Counters GuardCall} {t : ℕ} {move : Move GuardCall Unit}
    (h : Violated w.points) (hstep : guardCalls.Step t w move w') : Violated w'.points := by
  cases hstep with
  | @start c hc =>
    refine forall_mem_start h fun violations headers hstage => ?_
    have hstart : c.stage = .checkBan := of_decide_eq_true hc
    rw [hstart] at hstage
    cases hstage
  | resume hp hq => exact h.resume hq

/-- While it is banned, a request of the identifier is rejected. -/
theorem BannedUntil.resume {time now i : ℕ} {w w' : Tasks Counters GuardCall}
    (h : BannedUntil time identifier w.shared) (hle : now ≤ time)
    (hstep : guardCalls.Step now w (.resume i ()) w')
    (hp : w.points[i]? = some ⟨path, identifier, .checkBan⟩) :
    w'.points[i]? = some ⟨path, identifier, .banned⟩ := by
  obtain ⟨e, he, hdeadline⟩ := h
  cases hstep with
  | @resume _ _ c c' m' hp' hq =>
    obtain rfl := Option.some.inj (hp.symm.trans hp')
    have hlive : e.live now = true := by
      rw [Expiring.live]
      cases hd : e.deadline with
      | none => rfl
      | some deadline => exact decide_eq_true (hle.trans (hdeadline deadline hd))
    have hget : ExpiringStore.get now (buildBanKey identifier) w.shared = some e.value :=
      ExpiringStore.get_eq_some.mpr ⟨e, he, hlive, rfl⟩
    simp only [guardCalls, GuardCall.resume, hget] at hq
    cases hq
    exact getElem?_step_self hp

/-- Once a request has banned its identifier, every request of the identifier that looks for a ban
within the time of the third violation's ban is rejected. -/
def BansLast (log : GuardLog) : Prop :=
  ∀ past step rest i path identifier violations headers, log = past ++ step :: rest →
    step.call = .resume i () →
    step.before.points[i]? = some ⟨path, identifier, .ban violations headers⟩ →
    step.after.points[i]? = some ⟨path, identifier, .exceeded headers⟩ →
    ∀ later ∈ rest, later.time ≤ step.time + banSeconds maxViolations * 1000 →
      ∀ j path', later.call = .resume j () →
        later.before.points[j]? = some ⟨path', identifier, .checkBan⟩ →
        later.after.points[j]? = some ⟨path', identifier, .banned⟩

/-- **Bans.** In every run, bans last: other violations that are registered in the meantime do not
make them shorter. -/
theorem ban_lasts (h : guardCalls.contract.Run ⟨t₀, ⟨∅, []⟩⟩ w log) : BansLast log := by
  intro past step rest i path identifier violations headers hlog hcall hbefore hafter
  have hmem : step ∈ log := by
    rw [hlog]
    exact List.mem_append_right _ List.mem_cons_self
  obtain ⟨hviolated, hviolated'⟩ := h.invariant_of_mem (I := fun w => Violated w.points)
    (fun t move r w w' hI he => hI.move (Async.step_of_exec he))
    (fun c hc => absurd hc List.not_mem_nil) step hmem
  have hbanned : BannedUntil (step.time + banSeconds maxViolations * 1000) identifier
      step.after.shared := by
    have hmany := Nat.mul_le_mul_right 1000 (banSeconds_mono
      (hviolated _ (List.mem_of_getElem? hbefore) violations headers rfl))
    obtain ⟨time, call, result, before, after⟩ := step
    dsimp only at hcall hbefore hafter ⊢
    subst hcall
    have hstep : guardCalls.Step time before (.resume i ()) after :=
      Async.step_of_exec (h.exec_of_mem _ hmem)
    cases hstep with
    | @resume _ _ c c' m' hp hq =>
      obtain rfl := Option.some.inj (hbefore.symm.trans hp)
      have hc' := Option.some.inj ((getElem?_step_self hp).symm.trans hafter)
      simp only [guardCalls, GuardCall.resume] at hq
      split at hq
      · rename_i m₁ hset
        obtain ⟨-, rfl⟩ := Prod.mk.inj (Option.some.inj hq)
        unfold setEx at hset
        split at hset
        · obtain rfl := Option.some.inj hset
          refine ⟨⟨1, some (time + banSeconds violations * 1000)⟩, ?_, fun deadline hdeadline => ?_⟩
          · rw [ExpiringStore.setEx, Store.lookup_insert_ite, if_pos rfl]
          · obtain rfl := Option.some.inj hdeadline
            exact Nat.add_le_add_left hmany time
        · cases hset
      · obtain ⟨rfl, -⟩ := Prod.mk.inj (Option.some.inj hq)
        cases hc'
  refine ((h.from_commit hlog).invariant_and_mem
    (I := fun t w _ => step.time ≤ t ∧ Violated w.points ∧
      BannedUntil (step.time + banSeconds maxViolations * 1000) identifier w.shared)
    ⟨le_rfl, hviolated', hbanned⟩ (fun _ _ _ _ hle hI => by exact ⟨hI.1.trans hle, hI.2⟩) ?_).2
  intro t move r w w' _ hI he
  have hstep : guardCalls.Step t w move w' := Async.step_of_exec he
  refine ⟨⟨hI.1, hI.2.1.move hstep, ?_⟩, fun hle j path' hcall' hbefore' => ?_⟩
  · cases hstep with
    | start hc => exact hI.2.2
    | @resume j u c c' m' hp hq =>
      exact hI.2.2.writes (writes_of_resume hq) (hI.2.1 c (List.mem_of_getElem? hp))
        (Nat.add_le_add_right hI.1 _)
  · dsimp only at hcall'
    subst hcall'
    exact hI.2.2.resume hle hstep hbefore'

/-- Requests of one identifier, one after the other at the times of the list. -/
def sequentialGuards (path : String) (times : List ℕ) : List (ℕ × Move GuardCall Unit) :=
  times.zipIdx.flatMap fun (now, i) =>
    (now, .start ⟨path, "10.0.0.1", .checkBan⟩) :: List.replicate 6 (now, .resume i ())

/-- The sixth login of a minute is rejected, and the eighth one is the last before the ban. -/
theorem letThrough_bounded_logins :
    let run := guardCalls.contract.play ⟨0, ⟨∅, []⟩⟩
      (sequentialGuards "/auth/login" [1, 2, 3, 4, 5, 6, 7, 8, 9])
    (run.1.store.points.map GuardCall.stage).drop 4 =
        [.allowed ⟨5, 0, 60⟩, .exceeded ⟨5, 0, 60⟩, .exceeded ⟨5, 0, 60⟩, .exceeded ⟨5, 0, 60⟩,
          .banned] ∧
      ((∀ t, ((letThrough "/auth/login" "10.0.0.1" run.2).countP fun time => t < time ∧
          time ≤ t + (configOf "/auth/login").window * 1000) ≤
            2 * (configOf "/auth/login").limit) ∧
        ∀ i headers, run.1.store.points[i]? = some ⟨"/auth/login", "10.0.0.1", .allowed headers⟩ →
          ∃ n ≤ (configOf "/auth/login").limit, ∃ step ∈ run.2, step.call = .resume i () ∧
            counted "/auth/login" "10.0.0.1" step = some n ∧
            letThroughAt "/auth/login" "10.0.0.1" step = some step.time) :=
  ⟨by decide, letThrough_bounded (Contract.run_play guardCalls.contract ⟨0, ⟨∅, []⟩⟩
    (sequentialGuards "/auth/login" [1, 2, 3, 4, 5, 6, 7, 8, 9]) (by decide)) _ _⟩

theorem ban_lasts_logins :
    let run := guardCalls.contract.play ⟨0, ⟨∅, []⟩⟩
      (sequentialGuards "/auth/login" [1, 2, 3, 4, 5, 6, 7, 8, 9, 240008, 240009])
    (run.1.store.points.map GuardCall.stage).drop 8 =
        [.banned, .banned, .allowed ⟨5, 4, 60⟩] ∧ BansLast run.2 :=
  ⟨by decide, ban_lasts (Contract.run_play guardCalls.contract ⟨0, ⟨∅, []⟩⟩
    (sequentialGuards "/auth/login" [1, 2, 3, 4, 5, 6, 7, 8, 9, 240008, 240009]) (by decide))⟩

/-- Ten logins in five milliseconds, at the end of one lifetime of the counter and at the start of
the next one, are all let through. -/
example : letThrough "/auth/login" "10.0.0.1" (guardCalls.contract.play ⟨0, ⟨∅, []⟩⟩
    (sequentialGuards "/auth/login" [1, 60000, 60000, 60000, 60000, 60002, 60003, 60003, 60004,
      60004])).2 = [1, 60000, 60000, 60000, 60000, 60002, 60003, 60003, 60004, 60004] := by
  decide

end Runs

end Stellara.Throttle
