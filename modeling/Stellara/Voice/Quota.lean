import Stellara.Lib.Expiry
import Stellara.Lib.Tasks

/-!
# Quotas of requests

A request to the language model is let through if the counters of its user's month, of its session
and of its user's minute are below their limits, and is added to the three counters after it was
answered. The counters are keys of a Redis database that get their expiry when they are counted
for the first time. The monthly limit of a user can be set in another key.

Each command is a step of its own. Ids have no colons, so that keys are equal only where their
parts are. Times are in milliseconds, and `utcOffset` is by how much the local time is ahead of
the universal one at the start of a month.

## Main definitions

* `QuotaKey`, `Redis`: the counters and the limits
* `monthKey`, `sessionKey`, `rpmKey`, `getMonthExpiry`: the counters of a request, and the expiry
  of a month
* `Point.resume`, `quotaRequests`: `enforceQuota`, `recordRequest` and `setUserMonthlyQuota`, one
  command after the other
* `Advance now s p q s'`: what a step does to the counters

## Main results

* `advance_of_resume`: what a step does
-/

namespace Stellara.Quotas

/-! ## Dates -/

/-- The year and the month of a time. -/
def utcMonth (time : ℕ) : ℕ × ℕ :=
  -- days are counted from the first of March of a leap year, the last day of which is the leap day
  let days := time / 86400000 + 719468
  let dayOfEra := days % 146097
  let yearOfEra := (dayOfEra - dayOfEra / 1460 + dayOfEra / 36524 - dayOfEra / 146096) / 365
  let dayOfYear := dayOfEra - (365 * yearOfEra + yearOfEra / 4 - yearOfEra / 100)
  let month := (5 * dayOfYear + 2) / 153
  let year := days / 146097 * 400 + yearOfEra
  if month < 10 then (year, month + 3) else (year + 1, month - 9)

/-- The time at which a month starts. The months of a year are 1, 2, …, and 13 is the first one of
the next year. -/
def monthStart (year month : ℕ) : ℕ :=
  let year := if month ≤ 2 then year - 1 else year
  let monthsFromMarch := (month + 9) % 12
  let days := year / 400 * 146097 + (year % 400 * 365 + year % 400 / 4 - year % 400 / 100) +
    (153 * monthsFromMarch + 2) / 5
  (days - 719468) * 86400000

example : utcMonth 951868799999 = (2000, 2) ∧ monthStart 2000 3 = 951868800000 := by decide

/-! ## The database -/

inductive QuotaKey where
  | monthly (userId : String) (year month : ℕ)
  | session (sessionId : String)
  | rpm (userId : String) (minute : ℕ)
deriving DecidableEq, Repr

structure Redis where
  counters : ExpiringStore QuotaKey ℕ
  /-- The monthly limits that were set, by the user. -/
  limits : ExpiringStore String ℕ
deriving DecidableEq

def Redis.empty : Redis := ⟨∅, ∅⟩

/-- The value of a counter. -/
def usage (now : ℕ) (key : QuotaKey) (s : Redis) : ℕ :=
  (ExpiringStore.get now key s.counters).getD 0

def Redis.incr (now : ℕ) (key : QuotaKey) (s : Redis) : Redis :=
  { s with counters := ExpiringStore.modify now key (fun value => value.getD 0 + 1) s.counters }

/-- A key that is to expire at once is deleted. -/
def Redis.expire (now : ℕ) (key : QuotaKey) (ttlSeconds : ℤ) (s : Redis) : Redis :=
  { s with
    counters :=
      if ttlSeconds ≤ 0 then s.counters.erase key
      else ExpiringStore.expire now (1000 * ttlSeconds.toNat) key s.counters }

/-! ## Requests -/

structure QuotaConfig where
  monthlyLimit : ℕ
  perSessionLimit : ℕ
  requestsPerMinute : ℕ
deriving DecidableEq, Repr

def defaultConfig : QuotaConfig := ⟨1000, 100, 20⟩

/-- The limits that a caller gives. -/
structure PartialQuotaConfig where
  monthlyLimit : Option ℕ
  perSessionLimit : Option ℕ
  requestsPerMinute : Option ℕ
deriving DecidableEq, Repr

def PartialQuotaConfig.merged (config : PartialQuotaConfig) : QuotaConfig where
  monthlyLimit := config.monthlyLimit.getD defaultConfig.monthlyLimit
  perSessionLimit := config.perSessionLimit.getD defaultConfig.perSessionLimit
  requestsPerMinute := config.requestsPerMinute.getD defaultConfig.requestsPerMinute

structure QuotaStatus where
  monthlyUsage : ℕ
  monthlyLimit : ℕ
  sessionUsage : ℕ
  sessionLimit : ℕ
  requestsThisMinute : ℕ
  requestsPerMinuteLimit : ℕ
deriving DecidableEq, Repr

/-- A request whose quota is checked, with the time of that and the monthly limit in force. -/
structure Request where
  userId : String
  sessionId : String
  config : QuotaConfig
  now : ℕ
  effectiveLimit : ℕ
deriving DecidableEq, Repr

def monthKey (userId : String) (now : ℕ) : QuotaKey :=
  .monthly userId (utcMonth now).1 (utcMonth now).2

def sessionKey (sessionId : String) : QuotaKey := .session sessionId

def rpmKey (userId : String) (now : ℕ) : QuotaKey := .rpm userId (now / 60000)

/-- The time until the next month starts by the local time, in seconds and rounded up. -/
def getMonthExpiry (utcOffset : ℕ → ℕ → ℤ) (now : ℕ) : ℤ :=
  let (year, month) := utcMonth now
  let nextMonth : ℤ := monthStart year (month + 1) - utcOffset year (month + 1)
  (nextMonth - now + 999) / 1000

/-- A command of `incrementWithExpiry`; a counter gets its expiry when it becomes 1. -/
inductive Command where
  | incr (key : QuotaKey) (ttlSeconds : ℤ)
  | expire (key : QuotaKey) (ttlSeconds : ℤ)
deriving DecidableEq, Repr

/-- The first commands of `recordRequest`. -/
def recordRequest (utcOffset : ℕ → ℕ → ℤ) (now : ℕ) (request : Request) : List Command :=
  [.incr (monthKey request.userId now) (getMonthExpiry utcOffset now),
    .incr (sessionKey request.sessionId) 604800, .incr (rpmKey request.userId now) 60]

inductive QuotaError where
  | monthlyExceeded (usage limit : ℕ)
  | sessionExceeded (usage limit : ℕ)
  | rateExceeded (limit : ℕ)
deriving DecidableEq, Repr

def QuotaError.message : QuotaError → String
  | .monthlyExceeded usage limit =>
    s!"Monthly LLM quota exceeded ({usage}/{limit}). " ++
      "Please try again next month or contact support."
  | .sessionExceeded usage limit =>
    s!"Session LLM quota exceeded ({usage}/{limit}). Please start a new session."
  | .rateExceeded limit => s!"Rate limit exceeded. Maximum {limit} requests per minute."

/-- What a request is about to do. -/
inductive Point where
  | enforceQuota (userId sessionId : String) (config : PartialQuotaConfig)
  | getCustomLimit (request : Request)
  | checkMonthlyQuota (request : Request)
  | checkSessionQuota (request : Request)
  | checkRequestsPerMinute (request : Request)
  /-- `getQuotaStatus`, one counter after the other. -/
  | getMonthlyUsage (request : Request)
  | getSessionUsage (request : Request) (monthlyUsage : ℕ)
  | getRpmUsage (request : Request) (monthlyUsage sessionUsage : ℕ)
  /-- The request is let through, and is recorded next. -/
  | allowed (request : Request) (status : QuotaStatus)
  /-- The commands of `recordRequest` that remain, and the counters to which the request was
  added. -/
  | recording (request : Request) (commands : List Command) (counted : List QuotaKey)
  | exceeded (e : QuotaError)
  | setUserMonthlyQuota (userId : String) (limit : ℕ)
  | setLimit (userId : String) (limit : ℕ) (ttlSeconds : ℤ)
  | limitSet
deriving DecidableEq, Repr

/-- From outside comes which of the commands that a request has in progress is served next. -/
def Point.resume (utcOffset : ℕ → ℕ → ℤ) (now next : ℕ) (s : Redis) : Point → Option (Point × Redis)
  | .enforceQuota userId sessionId config =>
    some (.getCustomLimit ⟨userId, sessionId, config.merged, now, config.merged.monthlyLimit⟩, s)
  | .getCustomLimit request =>
    let customLimit := ExpiringStore.get now request.userId s.limits
    some (.checkMonthlyQuota { request with
      effectiveLimit := customLimit.getD request.config.monthlyLimit }, s)
  | .checkMonthlyQuota request =>
    let usage := usage now (monthKey request.userId request.now) s
    if request.effectiveLimit ≤ usage then
      some (.exceeded (.monthlyExceeded usage request.effectiveLimit), s)
    else some (.checkSessionQuota request, s)
  | .checkSessionQuota request =>
    let usage := usage now (sessionKey request.sessionId) s
    if request.config.perSessionLimit ≤ usage then
      some (.exceeded (.sessionExceeded usage request.config.perSessionLimit), s)
    else some (.checkRequestsPerMinute request, s)
  | .checkRequestsPerMinute request =>
    let usage := usage now (rpmKey request.userId request.now) s
    if request.config.requestsPerMinute ≤ usage then
      some (.exceeded (.rateExceeded request.config.requestsPerMinute), s)
    else some (.getMonthlyUsage request, s)
  | .getMonthlyUsage request =>
    some (.getSessionUsage request (usage now (monthKey request.userId request.now) s), s)
  | .getSessionUsage request monthlyUsage =>
    some (.getRpmUsage request monthlyUsage (usage now (sessionKey request.sessionId) s), s)
  | .getRpmUsage request monthlyUsage sessionUsage =>
    some (.allowed request ⟨monthlyUsage, request.config.monthlyLimit, sessionUsage,
      request.config.perSessionLimit, usage now (rpmKey request.userId request.now) s,
      request.config.requestsPerMinute⟩, s)
  | .allowed request _ => some (.recording request (recordRequest utcOffset now request) [], s)
  | .recording request commands counted =>
    match commands[next]? with
    | some (.incr key ttlSeconds) =>
      let newValue := usage now key s + 1
      some (.recording request
        (if newValue = 1 then commands.set next (.expire key ttlSeconds)
          else commands.eraseIdx next)
        (key :: counted), s.incr now key)
    | some (.expire key ttlSeconds) =>
      some (.recording request (commands.eraseIdx next) counted, s.expire now key ttlSeconds)
    | none => none
  | .setUserMonthlyQuota userId limit =>
    -- the current usage is read as well, which a warning reports
    some (.setLimit userId limit (getMonthExpiry utcOffset now), s)
  | .setLimit userId limit ttlSeconds =>
    -- a time that is not positive is an error, which is logged
    if ttlSeconds ≤ 0 then some (.limitSet, s)
    else some (.limitSet, { s with
      limits := ExpiringStore.setEx now (1000 * ttlSeconds.toNat) userId limit s.limits })
  | _ => none

def quotaRequests (utcOffset : ℕ → ℕ → ℤ) : Async Redis Point ℕ where
  starts _
    | .enforceQuota _ _ _ | .setUserMonthlyQuota _ _ => true
    | _ => false
  resume now next p s := p.resume utcOffset now next s

/-! ## Steps -/

/-- The counters that are checked for a request, with their limits. -/
def Request.checks (request : Request) : List (QuotaKey × ℕ) :=
  [(monthKey request.userId request.now, request.effectiveLimit),
    (sessionKey request.sessionId, request.config.perSessionLimit),
    (rpmKey request.userId request.now, request.config.requestsPerMinute)]

/-- The checks that a request has passed. -/
def Point.passed : Point → List (QuotaKey × ℕ)
  | .checkSessionQuota request => request.checks.take 1
  | .checkRequestsPerMinute request => request.checks.take 2
  | .getMonthlyUsage request | .getSessionUsage request _ | .getRpmUsage request _ _
  | .allowed request _ | .recording request _ _ => request.checks
  | _ => []

/-- The counters to which a request was added. -/
def Point.counted : Point → List QuotaKey
  | .recording _ _ counted => counted
  | _ => []

/-- The counter that is checked next, with its limit. -/
def Point.checks : Point → Option (QuotaKey × ℕ)
  | .checkMonthlyQuota request => request.checks[0]?
  | .checkSessionQuota request => request.checks[1]?
  | .checkRequestsPerMinute request => request.checks[2]?
  | _ => none

/-- The command on a counter that is served next. -/
def Point.serves (next : ℕ) : Point → Option Command
  | .recording _ commands _ => commands[next]?
  | _ => none

/-- What a step does to the counters, and to the checks that its request has passed. -/
inductive Advance (now next : ℕ) (s : Redis) : Point → Point → Redis → Prop
  | pass {p q : Point} {check : QuotaKey × ℕ} : p.checks = some check →
      usage now check.1 s < check.2 → q.passed = p.passed ++ [check] → p.counted = [] →
      q.counted = [] → Advance now next s p q s
  | incr {p q : Point} {key : QuotaKey} {ttlSeconds : ℤ} :
      p.serves next = some (.incr key ttlSeconds) → q.passed = p.passed →
      q.counted = key :: p.counted → Advance now next s p q (s.incr now key)
  | expire {p q : Point} {key : QuotaKey} {ttlSeconds : ℤ} :
      p.serves next = some (.expire key ttlSeconds) → q.passed = p.passed → q.counted = p.counted →
      Advance now next s p q (s.expire now key ttlSeconds)
  | quiet {p q : Point} {s' : Redis} : s'.counters = s.counters →
      q.passed = p.passed ∨ q.passed = [] → q.counted = p.counted → Advance now next s p q s'

theorem advance_of_resume {utcOffset : ℕ → ℕ → ℤ} {now next : ℕ} {s s' : Redis} {p q : Point}
    (h : p.resume utcOffset now next s = some (q, s')) : Advance now next s p q s' := by
  cases p with
  | checkMonthlyQuota request | checkSessionQuota request | checkRequestsPerMinute request =>
    simp only [Point.resume] at h
    split at h <;> obtain ⟨rfl, rfl⟩ := Prod.mk.inj (Option.some.inj h)
    · exact .quiet rfl (.inr rfl) rfl
    · exact .pass rfl (Nat.lt_of_not_le ‹_›) rfl rfl rfl
  | recording request commands counted =>
    simp only [Point.resume] at h
    split at h
    · rename_i key ttlSeconds hnext
      obtain ⟨rfl, rfl⟩ := Prod.mk.inj (Option.some.inj h)
      exact .incr hnext rfl rfl
    · rename_i key ttlSeconds hnext
      obtain ⟨rfl, rfl⟩ := Prod.mk.inj (Option.some.inj h)
      exact .expire hnext rfl rfl
    · cases h
  | setLimit userId limit ttlSeconds =>
    simp only [Point.resume] at h
    split at h <;> obtain ⟨rfl, rfl⟩ := Prod.mk.inj (Option.some.inj h)
    · exact .quiet rfl (.inl rfl) rfl
    · exact .quiet rfl (.inl rfl) rfl
  | exceeded e => cases h
  | limitSet => cases h
  | _ =>
    obtain ⟨rfl, rfl⟩ := Prod.mk.inj (Option.some.inj h)
    exact .quiet rfl (.inl rfl) rfl

end Stellara.Quotas
