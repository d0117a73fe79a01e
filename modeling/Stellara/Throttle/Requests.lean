import Mathlib.Data.List.Infix
import Stellara.Lib.Expiry
import Stellara.Lib.Tasks

/-!
# The throttle guard

Every request to the backend passes a guard. It is rejected while its identifier, a user or an
address, is banned. Otherwise it is counted under its path and identifier, in a counter that expires
a minute after it was started, and rejected where the counter is above the limit. Such a request is
also counted as a violation, and from the third violation within an hour on the identifier is
banned, each time twice as long. All counters are in Redis, and each command is a step of its own.

## Main definitions

* `incr`, `ttl`: the commands on counters
* `buildBanKey`, `rateKey`, `violationsKey`: the keys of a request
* `GuardCall.resume`, `guardCalls`: the requests that pass the guard

## Main results

* `rateKey_ne_ban`, `rateKey_ne_violations`, `buildBanKey_ne_violations`: the kinds of keys are apart
* `writes_of_resume`: what a step writes
* `Writes.rateKey`, `Writes.banKey`: what that is for one counter, and for one ban
-/

namespace Stellara.Throttle

/-! ## Redis -/

/-- Counters and bans, by their keys. The value of a ban is one. -/
abbrev Counters := ExpiringStore String ℕ

/-- Increment a counter, and return its value. -/
def incr (now : ℕ) (key : String) (m : Counters) : ℕ × Counters :=
  ((ExpiringStore.get now key m).getD 0 + 1, m.modify now key fun value => value.getD 0 + 1)

/-- The seconds until an entry expires; negative numbers stand for no entry and no expiry. -/
def ttl (now : ℕ) (key : String) (m : Counters) : ℤ :=
  match m.find now key with
  | none => -2
  | some e =>
    match e.deadline with
    | none => -1
    | some deadline => (((deadline - now + 500) / 1000 : ℕ) : ℤ)

/-- Store a value for some seconds; `none` where the expiry is out of the range of Redis. -/
def setEx (now seconds : ℕ) (key : String) (value : ℕ) (m : Counters) : Option Counters :=
  if now + seconds * 1000 ≤ 9223372036854775807 then some (m.setEx now (seconds * 1000) key value)
  else none

/-! ## The guard -/

/-- The settings `RATE_LIMITS`: a limit for each window, in seconds. -/
structure RateLimit where
  limit : ℕ
  window : ℕ
deriving DecidableEq, Repr

def globalLimit : RateLimit := ⟨100, 60⟩

def authLimit : RateLimit := ⟨5, 60⟩

def maxViolations : ℕ := 3

def baseBanSeconds : ℕ := 60

def violationsSeconds : ℕ := 3600

def buildBanKey (identifier : String) : String := "ban:" ++ identifier

def rateKey (path identifier : String) : String := "rate:" ++ path ++ ":" ++ identifier

def violationsKey (identifier : String) : String := "violations:" ++ identifier

def banSeconds (violations : ℕ) : ℕ := baseBanSeconds * 2 ^ (violations - 1)

/-- The headers that a request gets, unless it is banned. -/
structure Headers where
  limit : ℕ
  remaining : ℕ
  reset : ℤ
deriving DecidableEq, Repr

/-- What the guard is about to do for a request. -/
inductive GuardStage where
  | checkBan
  | count
  | expire
  | readTtl (current : ℕ)
  | registerViolation (headers : Headers)
  | expireViolations (headers : Headers)
  | ban (violations : ℕ) (headers : Headers)
  | allowed (headers : Headers)
  | exceeded (headers : Headers)
  | banned
  /-- The command of the ban failed. -/
  | failed (headers : Headers)
deriving DecidableEq, Repr

structure GuardCall where
  path : String
  identifier : String
  stage : GuardStage
deriving DecidableEq, Repr

/-- The text has the other one in it. -/
def includes (text part : String) : Bool := part.toList <:+: text.toList

/-- The limit of the path. -/
def configOf (path : String) : RateLimit := if includes path "/auth" then authLimit else globalLimit

/-- One step of the guard. -/
def GuardCall.resume (now : ℕ) (c : GuardCall) (m : Counters) : Option (GuardCall × Counters) :=
  let config := configOf c.path
  let key := rateKey c.path c.identifier
  match c.stage with
  | .checkBan =>
    match ExpiringStore.get now (buildBanKey c.identifier) m with
    | some _ => some ({ c with stage := .banned }, m)
    | none => some ({ c with stage := .count }, m)
  | .count =>
    let (current, m) := incr now key m
    if current = 1 then some ({ c with stage := .expire }, m)
    else some ({ c with stage := .readTtl current }, m)
  | .expire => some ({ c with stage := .readTtl 1 }, m.expire now (config.window * 1000) key)
  | .readTtl current =>
    let headers : Headers := ⟨config.limit, config.limit - current, ttl now key m⟩
    if config.limit < current then some ({ c with stage := .registerViolation headers }, m)
    else some ({ c with stage := .allowed headers }, m)
  | .registerViolation headers =>
    let (violations, m) := incr now (violationsKey c.identifier) m
    if violations = 1 then some ({ c with stage := .expireViolations headers }, m)
    else if maxViolations ≤ violations then
      some ({ c with stage := .ban violations headers }, m)
    else some ({ c with stage := .exceeded headers }, m)
  | .expireViolations headers =>
    some ({ c with stage := .exceeded headers },
      m.expire now (violationsSeconds * 1000) (violationsKey c.identifier))
  | .ban violations headers =>
    match setEx now (banSeconds violations) (buildBanKey c.identifier) 1 m with
    | some m => some ({ c with stage := .exceeded headers }, m)
    | none => some ({ c with stage := .failed headers }, m)
  | .allowed _ | .exceeded _ | .banned | .failed _ => none

/-- The requests that pass the guard. -/
def guardCalls : Async Counters GuardCall Unit where
  starts _ c := c.stage = .checkBan
  resume now _ c m := c.resume now m

/-! ## Keys -/

section Keys

variable {path identifier identifier' key : String}

/-- The keys of the three kinds begin with different characters. -/
theorem rateKey_ne_ban : rateKey path identifier ≠ buildBanKey identifier' := by
  intro h
  have hhead := congrArg (fun text => text.toList.head?) h
  simp only [rateKey, buildBanKey, String.toList_append, List.append_assoc] at hhead
  exact absurd (Option.some.inj hhead) (by decide)

theorem rateKey_ne_violations : rateKey path identifier ≠ violationsKey identifier' := by
  intro h
  have hhead := congrArg (fun text => text.toList.head?) h
  simp only [rateKey, violationsKey, String.toList_append, List.append_assoc] at hhead
  exact absurd (Option.some.inj hhead) (by decide)

theorem buildBanKey_ne_violations : buildBanKey identifier ≠ violationsKey identifier' := by
  intro h
  have hhead := congrArg (fun text => text.toList.head?) h
  simp only [buildBanKey, violationsKey, String.toList_append] at hhead
  exact absurd (Option.some.inj hhead) (by decide)

end Keys

/-! ## Steps -/

section Steps

variable {now : ℕ} {c c' : GuardCall} {m m' : Counters} {path identifier key : String}

theorem configOf_window (path : String) : (configOf path).window = 60 := by
  unfold configOf
  split <;> rfl

/-- What a step does to the counters and bans. -/
inductive Writes (now : ℕ) (c : GuardCall) (m : Counters) : Counters → Prop
  | nothing : c.stage ≠ .count → Writes now c m m
  | count : c.stage = .count → Writes now c m (incr now (rateKey c.path c.identifier) m).2
  | expire : c.stage ≠ .count →
      Writes now c m (m.expire now 60000 (rateKey c.path c.identifier))
  | countViolation : c.stage ≠ .count →
      Writes now c m (incr now (violationsKey c.identifier) m).2
  | expireViolations : c.stage ≠ .count →
      Writes now c m (m.expire now (violationsSeconds * 1000) (violationsKey c.identifier))
  | ban {violations : ℕ} {headers : Headers} : c.stage = .ban violations headers →
      Writes now c m (m.setEx now (banSeconds violations * 1000) (buildBanKey c.identifier) 1)

theorem writes_of_resume (h : c.resume now m = some (c', m')) : Writes now c m m' := by
  obtain ⟨path, identifier, stage⟩ := c
  cases stage with
  | checkBan =>
    simp only [GuardCall.resume] at h
    split at h <;>
    · obtain ⟨-, rfl⟩ := Prod.mk.inj (Option.some.inj h)
      exact .nothing fun hstage => by cases hstage
  | count =>
    simp only [GuardCall.resume] at h
    split at h <;>
    · obtain ⟨-, rfl⟩ := Prod.mk.inj (Option.some.inj h)
      exact .count rfl
  | expire =>
    obtain ⟨-, rfl⟩ := Prod.mk.inj (Option.some.inj h)
    dsimp only
    rw [configOf_window]
    exact .expire fun hstage => by cases hstage
  | readTtl current =>
    simp only [GuardCall.resume] at h
    split at h <;>
    · obtain ⟨-, rfl⟩ := Prod.mk.inj (Option.some.inj h)
      exact .nothing fun hstage => by cases hstage
  | registerViolation headers =>
    simp only [GuardCall.resume] at h
    split at h
    · obtain ⟨-, rfl⟩ := Prod.mk.inj (Option.some.inj h)
      exact .countViolation fun hstage => by cases hstage
    · split at h <;>
      · obtain ⟨-, rfl⟩ := Prod.mk.inj (Option.some.inj h)
        exact .countViolation fun hstage => by cases hstage
  | expireViolations headers =>
    obtain ⟨-, rfl⟩ := Prod.mk.inj (Option.some.inj h)
    exact .expireViolations fun hstage => by cases hstage
  | ban violations headers =>
    simp only [GuardCall.resume] at h
    split at h
    · rename_i m₁ hset
      obtain ⟨-, rfl⟩ := Prod.mk.inj (Option.some.inj h)
      unfold setEx at hset
      split at hset
      · obtain rfl := Option.some.inj hset
        exact .ban rfl
      · cases hset
    · obtain ⟨-, rfl⟩ := Prod.mk.inj (Option.some.inj h)
      exact .nothing fun hstage => by cases hstage
  | _ => cases h

/-- A step counts a request in the counter of a path and an identifier, lets the counter expire, or
leaves it. -/
theorem Writes.rateKey (h : Writes now c m m') (path identifier : String) :
    (c.stage = .count ∧ Throttle.rateKey c.path c.identifier = Throttle.rateKey path identifier ∧
        m' = (incr now (Throttle.rateKey path identifier) m).2) ∨
      c.stage ≠ .count ∧ m' = m.expire now 60000 (Throttle.rateKey path identifier) ∨
      (c.stage = .count → Throttle.rateKey c.path c.identifier ≠ Throttle.rateKey path identifier) ∧
        m'.lookup (Throttle.rateKey path identifier) =
          m.lookup (Throttle.rateKey path identifier) := by
  by_cases hkey : Throttle.rateKey c.path c.identifier = Throttle.rateKey path identifier
  · cases h with
    | nothing hstage => exact .inr (.inr ⟨fun hcount => absurd hcount hstage, rfl⟩)
    | count hstage => exact .inl ⟨hstage, hkey, by rw [hkey]⟩
    | expire hstage => exact .inr (.inl ⟨hstage, by rw [hkey]⟩)
    | countViolation hstage =>
      exact .inr (.inr ⟨fun hcount => absurd hcount hstage,
        ExpiringStore.lookup_modify_ne rateKey_ne_violations⟩)
    | expireViolations hstage =>
      exact .inr (.inr ⟨fun hcount => absurd hcount hstage,
        ExpiringStore.lookup_expire_ne rateKey_ne_violations⟩)
    | ban hstage =>
      refine .inr (.inr ⟨fun hcount => ?_, ExpiringStore.lookup_setEx_ne rateKey_ne_ban⟩)
      rw [hstage] at hcount
      cases hcount
  · refine .inr (.inr ⟨fun _ => hkey, ?_⟩)
    cases h with
    | nothing => rfl
    | count => exact ExpiringStore.lookup_modify_ne (Ne.symm hkey)
    | expire => exact ExpiringStore.lookup_expire_ne (Ne.symm hkey)
    | countViolation => exact ExpiringStore.lookup_modify_ne rateKey_ne_violations
    | expireViolations => exact ExpiringStore.lookup_expire_ne rateKey_ne_violations
    | ban => exact ExpiringStore.lookup_setEx_ne rateKey_ne_ban

/-- A step bans an identifier, or leaves its ban. -/
theorem Writes.banKey (h : Writes now c m m') (identifier : String) :
    (∃ violations headers, c.stage = .ban violations headers ∧
        m' = m.setEx now (banSeconds violations * 1000) (buildBanKey identifier) 1) ∨
      m'.lookup (buildBanKey identifier) = m.lookup (buildBanKey identifier) := by
  cases h with
  | nothing => exact .inr rfl
  | count => exact .inr (ExpiringStore.lookup_modify_ne (Ne.symm rateKey_ne_ban))
  | expire => exact .inr (ExpiringStore.lookup_expire_ne (Ne.symm rateKey_ne_ban))
  | countViolation => exact .inr (ExpiringStore.lookup_modify_ne buildBanKey_ne_violations)
  | expireViolations => exact .inr (ExpiringStore.lookup_expire_ne buildBanKey_ne_violations)
  | @ban violations headers hstage =>
    by_cases hkey : buildBanKey c.identifier = buildBanKey identifier
    · exact .inl ⟨violations, headers, hstage, by rw [hkey]⟩
    · exact .inr (ExpiringStore.lookup_setEx_ne (Ne.symm hkey))

end Steps

end Stellara.Throttle
