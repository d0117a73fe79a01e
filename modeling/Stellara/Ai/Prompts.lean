import Stellara.Ai.Circuit
import Stellara.Lib.WriteLog

/-!
# Prompts to the AI service

A prompt is answered from a cache, or by the provider behind its circuit breaker. Where the provider
fails, a cached answer of an older time or a fixed text stands in for it. The answer is stored under
the digest of the prompt, and the usage of the user is recorded. Prompts are handled concurrently,
and a command to Redis can fail.

So a cached answer was obtained for a prompt of the same digest, at a time when the provider
completed that prompt or failed on it. The cache that stands in for the provider is looked up under
keys that nothing writes, so that an answer that is not cached is the completion of its own prompt,
or the fixed text.

## Main definitions

* `AiState`, `buildKey`, `assertQuota`, `recordUsage`: the service
* `PromptCall.resume`, `promptCalls`: the prompts
* `Completed past prompt content`: the provider completed the prompt with the content
* `Obtained past prompt response`: the response stands for the prompt
* `writesOf`: the writes to the cache in the record of a run
* `NoFallback`: no look into the cache that stands in for the provider finds anything

## Main results

* `Answers.step`: what a step keeps of the answers that are under way
* `answer_provenance`: where the answers of every run come from
-/

namespace Stellara.Ai

/-! ## The service -/

structure QuotaRecord where
  requestCount : ℕ
  tokenCount : ℕ
deriving DecidableEq, Repr

/-- The cache, the monthly quotas and the breaker of the provider. -/
structure AiState where
  cache : ExpiringStore String String
  quotas : Store String QuotaRecord
  cb : CircuitBreakerState

/-- The service when it starts. -/
def AiState.initial : AiState := ⟨∅, ∅, .initial⟩

def maxRequests : ℕ := 1000

/-- How long an answer is cached in Redis, in milliseconds. -/
def ttl : ℕ := 3600 * 1000

/-- What answers where the provider cannot. -/
def unavailable : String := "AI service is temporarily unavailable. Please try again later."

/-- A request with a prompt, and with a user if one is given. -/
structure AiRequestDto where
  prompt : String
  userId : Option String
deriving DecidableEq, Repr

structure PromptResponse where
  response : String
  cached : Bool
  degraded : Bool
deriving DecidableEq, Repr

inductive PromptStage where
  | called
  | readCache
  | generating (stage : GenerateStage)
  | readFallback
  | storing (result : Generated)
  | recording (result : Generated)
  | returned (answer : PromptResponse)
  | thrown (message : String)
deriving DecidableEq, Repr

/-- A prompt that is handled. -/
structure PromptCall where
  dto : AiRequestDto
  stage : PromptStage
deriving DecidableEq, Repr

/-- What a step meets outside: the failure of a command to Redis, if it fails, and what the provider
replies. -/
structure Outside where
  redisError : Option String
  reply : HttpReply
deriving DecidableEq, Repr

section Prompts

-- the digest of a text in hexadecimal, the month of a time, and whether the cache is in Redis;
-- otherwise it is a map, whose entries do not expire
variable (sha256 : String → String) (month : ℕ → String) (redis : Bool)

def buildKey (input model : String) : String := "ai:" ++ model ++ ":" ++ sha256 input

def quotaKey (now : ℕ) (userId : String) : String := userId ++ ":" ++ month now

/-- The user of a request; the empty string is none. -/
def AiRequestDto.user (dto : AiRequestDto) : Option String := dto.userId.filter (· ≠ "")

/-- Reject a request of a user whose quota of the month is used up. -/
def assertQuota (now : ℕ) (userId : String) (quotas : Store String QuotaRecord) :
    Except String Unit :=
  match quotas.lookup (quotaKey month now userId) with
  | some quota =>
    if maxRequests ≤ quota.requestCount then .error "Monthly AI usage quota exceeded" else .ok ()
  | none => .ok ()

def recordUsage (now : ℕ) (userId : String) (tokens : ℕ) (quotas : Store String QuotaRecord) :
    Store String QuotaRecord :=
  let key := quotaKey month now userId
  let existing := (quotas.lookup key).getD ⟨0, 0⟩
  quotas.insert key ⟨existing.requestCount + 1, existing.tokenCount + tokens⟩

/-- The write of an answer to the cache. -/
def cacheWrite (now : ℕ) (prompt response : String) : Write String String :=
  ⟨now, buildKey sha256 prompt "gpt-4", response, if redis then some ttl else none⟩

/-- What a look into the cache finds; the empty string is nothing. -/
def cacheGet (now : ℕ) (key : String) (s : AiState) : Option String :=
  (ExpiringStore.get now key s.cache).filter (· ≠ "")

/-- The failure of a command to the cache; a map has none. -/
def Outside.cacheError (outside : Outside) : Option String :=
  if redis then outside.redisError else none

/-- One step of a prompt. -/
def PromptCall.resume (now : ℕ) (outside : Outside) (c : PromptCall) (s : AiState) :
    Option (PromptCall × AiState) :=
  match c.stage with
  | .called =>
    match c.dto.user with
    | some userId =>
      match assertQuota month now userId s.quotas with
      | .ok () => some (⟨c.dto, .readCache⟩, s)
      | .error message => some (⟨c.dto, .thrown message⟩, s)
    | none => some (⟨c.dto, .readCache⟩, s)
  | .readCache =>
    match outside.cacheError redis with
    | some message => some (⟨c.dto, .thrown message⟩, s)
    | none =>
      match cacheGet now (buildKey sha256 c.dto.prompt "gpt-4") s with
      | some cached => some (⟨c.dto, .returned ⟨cached, true, false⟩⟩, s)
      | none => some (⟨c.dto, .generating .called⟩, s)
  | .generating stage =>
    match GenerateCall.resume now outside.reply ⟨c.dto.prompt, stage⟩ s.cb with
    | some (⟨_, .returned result⟩, cb) => some (⟨c.dto, .storing result⟩, { s with cb })
    | some (⟨_, .thrown _⟩, cb) => some (⟨c.dto, .readFallback⟩, { s with cb })
    | some (⟨_, stage⟩, cb) => some (⟨c.dto, .generating stage⟩, { s with cb })
    | none => none
  | .readFallback =>
    match outside.cacheError redis with
    | some _ => some (⟨c.dto, .returned ⟨unavailable, false, true⟩⟩, s)
    | none =>
      match cacheGet now (buildKey sha256 c.dto.prompt "fallback") s with
      | some cached => some (⟨c.dto, .storing ⟨cached, 0⟩⟩, s)
      | none => some (⟨c.dto, .storing ⟨unavailable, 0⟩⟩, s)
  | .storing result =>
    match outside.cacheError redis with
    | some _ => some (⟨c.dto, .returned ⟨unavailable, false, true⟩⟩, s)
    | none =>
      some (⟨c.dto, .recording result⟩,
        { s with cache := (cacheWrite sha256 redis now c.dto.prompt result.response).apply s.cache })
  | .recording result =>
    let quotas := match c.dto.user with
      | some userId => recordUsage month now userId result.tokensUsed s.quotas
      | none => s.quotas
    some (⟨c.dto, .returned ⟨result.response, false, false⟩⟩, { s with quotas })
  | .returned _ | .thrown _ => none

/-- The prompts to a service. -/
def promptCalls : Async AiState PromptCall Outside where
  starts _ c := c.stage = .called
  resume now outside c s := c.resume sha256 month redis now outside s

/-! ## The record -/

abbrev PromptCommit := Commit (Tasks AiState PromptCall) (Move PromptCall Outside) Unit

/-- The request goes on with this step, and meets this outside. -/
def StepOf (step : PromptCommit) (c : PromptCall) (outside : Outside) : Prop :=
  ∃ i, step.call = .resume i outside ∧ step.before.points[i]? = some c

/-- The provider completed the prompt with the content. -/
def Completed (past : List PromptCommit) (prompt content : String) : Prop :=
  ∃ step ∈ past, ∃ userId redisError tokens,
    StepOf step ⟨⟨prompt, userId⟩, .generating .posted⟩ ⟨redisError, .completion content tokens⟩

/-- The response is a completion of the prompt, or the text that stands in for one. -/
def Obtained (past : List PromptCommit) (prompt response : String) : Prop :=
  response = unavailable ∨ Completed past prompt response

/-- What a step writes to the cache. -/
def writeOf (step : PromptCommit) : Option (Write String String) :=
  match step.call with
  | .start _ => none
  | .resume i outside =>
    match step.before.points[i]?, outside.cacheError redis with
    | some ⟨dto, .storing result⟩, none =>
      some (cacheWrite sha256 redis step.time dto.prompt result.response)
    | _, _ => none

/-- The writes to the cache, in order. -/
def writesOf (log : List PromptCommit) : List (Write String String) :=
  log.filterMap (writeOf sha256 redis)

/-- A result that is under way was obtained for the prompt. -/
def UnderWay (past : List PromptCommit) (c : PromptCall) : Prop :=
  match c.stage with
  | .generating (.returned _) => False
  | .storing result | .recording result => Obtained past c.dto.prompt result.response
  | _ => True

/-- The cache holds what was written, and what is written or under way was obtained. -/
structure Answers (w : Tasks AiState PromptCall) (past : List PromptCommit) : Prop where
  stored : WrittenBy (fun _ => True) (writesOf sha256 redis past) w.shared.cache
  written : ∀ write ∈ writesOf sha256 redis past, ∃ prompt time,
    write = cacheWrite sha256 redis time prompt write.value ∧ Obtained past prompt write.value
  underWay : ∀ c ∈ w.points, UnderWay past c

/-- Nothing is found, at any time and for any prompt, in the cache that stands in for the provider. -/
def NoFallback (s : AiState) : Prop :=
  ∀ now prompt, cacheGet now (buildKey sha256 prompt "fallback") s = none

/-- Where an answer of a prompt comes from. -/
def Justified (past : List PromptCommit) (now : ℕ) (dto : AiRequestDto) (answer : PromptResponse) :
    Prop :=
  if answer.cached then
    ∃ prompt time, cacheWrite sha256 redis time prompt answer.response ∈ writesOf sha256 redis past ∧
      sha256 prompt = sha256 dto.prompt ∧ (redis = true → now ≤ time + ttl) ∧
      Obtained past prompt answer.response
  else Obtained past dto.prompt answer.response

end Prompts

section Steps

variable {sha256 : String → String} {month : ℕ → String} {redis : Bool} {now : ℕ}
  {outside : Outside} {past past' : List PromptCommit} {step : PromptCommit} {c c' : PromptCall}
  {s s' : AiState} {prompt prompt' response : String}

/-! ## Keys -/

theorem buildKey_toList (input model : String) :
    (buildKey sha256 input model).toList =
      "ai:".toList ++ model.toList ++ ':' :: (sha256 input).toList := by
  have hcolon : ":".toList = [':'] := rfl
  simp only [buildKey, String.toList_append, hcolon, List.append_assoc, List.cons_append,
    List.nil_append]

theorem sha256_eq_of_buildKey {model : String}
    (h : buildKey sha256 prompt model = buildKey sha256 prompt' model) :
    sha256 prompt = sha256 prompt' := by
  have htext := congrArg String.toList h
  rw [buildKey_toList, buildKey_toList] at htext
  exact String.ext (List.cons.inj (List.append_cancel_left htext)).2

/-- The keys of the two models differ in their fourth characters. -/
theorem buildKey_fallback_ne :
    buildKey sha256 prompt "gpt-4" ≠ buildKey sha256 prompt' "fallback" := by
  intro h
  have htext := congrArg (fun text => text.toList[3]?) h
  simp only [buildKey_toList] at htext
  exact absurd (Option.some.inj htext) (by decide)

/-! ## Answers under way -/

theorem Completed.mono (hsub : past ⊆ past') (h : Completed past prompt response) :
    Completed past' prompt response := by
  obtain ⟨step, hstep, hcompletion⟩ := h
  exact ⟨step, hsub hstep, hcompletion⟩

theorem Obtained.mono (hsub : past ⊆ past') (h : Obtained past prompt response) :
    Obtained past' prompt response :=
  h.imp_right (Completed.mono hsub)

theorem UnderWay.mono (hsub : past ⊆ past') (h : UnderWay past c) : UnderWay past' c := by
  obtain ⟨dto, stage⟩ := c
  cases stage with
  | generating stage =>
    cases stage with
    | returned result => exact h
    | _ => trivial
  | storing result => exact Obtained.mono hsub h
  | recording result => exact Obtained.mono hsub h
  | _ => trivial

theorem writesOf_concat : writesOf sha256 redis (past ++ [step]) =
    writesOf sha256 redis past ++ (writeOf sha256 redis step).toList := by
  rw [writesOf, List.filterMap_append]
  cases h : writeOf sha256 redis step with
  | none => rw [List.filterMap_cons_none h]; rfl
  | some write => rw [List.filterMap_cons_some h]; rfl

/-- The provider returns what a reply completes the prompt with. -/
theorem reply_of_returned {reply : HttpReply} {stage : GenerateStage} {prompt' : String}
    {result : Generated} {cb cb' : CircuitBreakerState}
    (h : GenerateCall.resume now reply ⟨prompt, stage⟩ cb = some (⟨prompt', .returned result⟩, cb')) :
    stage = .posted ∧ ∃ tokens, reply = .completion result.response tokens := by
  cases stage with
  | called =>
    simp only [GenerateCall.resume] at h
    split at h <;> cases h
  | posted =>
    cases reply with
    | completion content tokens =>
      simp only [GenerateCall.resume] at h
      cases h
      exact ⟨rfl, tokens, rfl⟩
    | malformed message => cases h
    | error message => cases h
  | returned result => cases h
  | thrown message => cases h

/-! ## Steps -/

section Step

variable {i : ℕ} {points : List PromptCall} {w' : Tasks AiState PromptCall}

/-- The step in which a request at this point goes on. -/
theorem stepOf_resume (hp : points[i]? = some c) :
    StepOf ⟨now, .resume i outside, (), ⟨s, points⟩, w'⟩ c outside :=
  ⟨i, rfl, hp⟩

/-- A request that does not store anything writes nothing. -/
theorem writeOf_eq_none (hp : points[i]? = some c) (hstage : ∀ result, c.stage ≠ .storing result) :
    writeOf sha256 redis ⟨now, .resume i outside, (), ⟨s, points⟩, w'⟩ = none := by
  obtain ⟨dto, stage⟩ := c
  simp only [writeOf, hp]
  split
  · rename_i hc _
    exact absurd (PromptCall.mk.inj (Option.some.inj hc)).2 (hstage _)
  · rfl

variable (sha256 redis) in
/-- What is written or under way after a step, and the answer that it returns. -/
structure Advances (step : PromptCommit) (past : List PromptCommit) (c' : PromptCall) : Prop where
  stored : WrittenBy (fun _ => True)
    (writesOf sha256 redis past ++ (writeOf sha256 redis step).toList) step.after.shared.cache
  written : ∀ write ∈ writeOf sha256 redis step, ∃ prompt time,
    write = cacheWrite sha256 redis time prompt write.value ∧ Obtained past prompt write.value
  underWay : UnderWay (past ++ [step]) c'
  justified : ∀ answer, c'.stage = .returned answer →
    Justified sha256 redis past step.time c'.dto answer

/-- A step that neither writes nor returns an answer. -/
theorem Advances.quiet (h : Answers sha256 redis ⟨s, points⟩ past) (hcache : s'.cache = s.cache)
    (hwrite : writeOf sha256 redis
      ⟨now, .resume i outside, (), ⟨s, points⟩, ⟨s', points.set i c'⟩⟩ = none)
    (hunderWay : UnderWay
      (past ++ [⟨now, .resume i outside, (), ⟨s, points⟩, ⟨s', points.set i c'⟩⟩]) c')
    (hjustified : ∀ answer, c'.stage = .returned answer →
      Justified sha256 redis past now c'.dto answer) :
    Advances sha256 redis
      ⟨now, .resume i outside, (), ⟨s, points⟩, ⟨s', points.set i c'⟩⟩ past c' where
  stored := by
    rw [hwrite]
    dsimp only
    rw [Option.toList_none, List.append_nil, hcache]
    exact h.stored
  written := by
    rw [hwrite]
    exact fun write hmem => absurd hmem (Option.not_mem_none write)
  underWay := hunderWay
  justified := hjustified

/-- A cached answer was written for a prompt of the same digest. -/
theorem Answers.justified_cached (h : Answers sha256 redis ⟨s, points⟩ past) {dto : AiRequestDto}
    (hget : cacheGet now (buildKey sha256 dto.prompt "gpt-4") s = some response) :
    Justified sha256 redis past now dto ⟨response, true, false⟩ := by
  obtain ⟨hread, -⟩ := Option.filter_eq_some_iff.mp hget
  obtain ⟨write, hmem, hkey, hvalue, hcovers⟩ := h.stored.get trivial hread
  obtain ⟨prompt, time, hwrite, hobtained⟩ := h.written write hmem
  subst hvalue
  rw [hwrite] at hmem hkey hcovers
  refine ⟨prompt, time, hmem, sha256_eq_of_buildKey hkey, fun hredis => ?_, hobtained⟩
  exact hcovers ttl (by rw [cacheWrite, if_pos hredis]; rfl)

/-- Nothing is cached for the case that the provider fails. -/
theorem Answers.noFallback (h : Answers sha256 redis w' past) : NoFallback sha256 w'.shared := by
  intro now prompt
  refine Option.eq_none_iff_forall_ne_some.mpr fun response hget => ?_
  obtain ⟨hread, -⟩ := Option.filter_eq_some_iff.mp hget
  -- whatever is stored was written under the key of an answer, which is never this one
  obtain ⟨write, hmem, hkey, -, -⟩ := h.stored.get trivial hread
  obtain ⟨prompt', time, hwrite, -⟩ := h.written write hmem
  rw [hwrite] at hkey
  exact buildKey_fallback_ne hkey

/-- A step of a request. -/
theorem Answers.resume (h : Answers sha256 redis ⟨s, points⟩ past) (hp : points[i]? = some c)
    (hq : c.resume sha256 month redis now outside s = some (c', s')) :
    c'.dto = c.dto ∧ Advances sha256 redis
      ⟨now, .resume i outside, (), ⟨s, points⟩, ⟨s', points.set i c'⟩⟩ past c' := by
  have hunderWay : UnderWay past c := h.underWay c (List.mem_of_getElem? hp)
  have hsub : ∀ step : PromptCommit, past ⊆ past ++ [step] := fun step =>
    List.subset_append_left past [step]
  obtain ⟨dto, stage⟩ := c
  cases stage with
  | called =>
    have hnone : ∀ w', writeOf sha256 redis ⟨now, .resume i outside, (), ⟨s, points⟩, w'⟩ = none :=
      fun w' => writeOf_eq_none hp fun _ hstage => by cases hstage
    simp only [PromptCall.resume] at hq
    split at hq
    · split at hq
      · cases hq
        exact ⟨rfl, .quiet h rfl (hnone _) trivial fun _ hanswer => by cases hanswer⟩
      · cases hq
        exact ⟨rfl, .quiet h rfl (hnone _) trivial fun _ hanswer => by cases hanswer⟩
    · cases hq
      exact ⟨rfl, .quiet h rfl (hnone _) trivial fun _ hanswer => by cases hanswer⟩
  | readCache =>
    have hnone : ∀ w', writeOf sha256 redis ⟨now, .resume i outside, (), ⟨s, points⟩, w'⟩ = none :=
      fun w' => writeOf_eq_none hp fun _ hstage => by cases hstage
    simp only [PromptCall.resume] at hq
    split at hq
    · cases hq
      exact ⟨rfl, .quiet h rfl (hnone _) trivial fun _ hanswer => by cases hanswer⟩
    · split at hq
      · rename_i hget
        cases hq
        refine ⟨rfl, .quiet h rfl (hnone _) trivial fun answer hanswer => ?_⟩
        obtain rfl := PromptStage.returned.inj hanswer
        exact h.justified_cached hget
      · cases hq
        exact ⟨rfl, .quiet h rfl (hnone _) trivial fun _ hanswer => by cases hanswer⟩
  | generating stage =>
    have hnone : ∀ w', writeOf sha256 redis ⟨now, .resume i outside, (), ⟨s, points⟩, w'⟩ = none :=
      fun w' => writeOf_eq_none hp fun _ hstage => by cases hstage
    simp only [PromptCall.resume] at hq
    split at hq
    · rename_i result cb hreturned
      cases hq
      obtain ⟨rfl, tokens, hreply⟩ := reply_of_returned hreturned
      refine ⟨rfl, .quiet h rfl (hnone _) (.inr ⟨_, List.mem_append_right _
        (List.mem_singleton_self _), dto.userId, outside.redisError, tokens, ?_⟩)
        fun _ hanswer => by cases hanswer⟩
      rw [← hreply]
      exact stepOf_resume hp
    · cases hq
      exact ⟨rfl, .quiet h rfl (hnone _) trivial fun _ hanswer => by cases hanswer⟩
    · rename_i stage' cb hnot _ _
      cases hq
      refine ⟨rfl, .quiet h rfl (hnone _) ?_ fun _ hanswer => by cases hanswer⟩
      cases stage' with
      | returned result => exact absurd rfl (hnot result)
      | _ => trivial
    · cases hq
  | readFallback =>
    have hnone : ∀ w', writeOf sha256 redis ⟨now, .resume i outside, (), ⟨s, points⟩, w'⟩ = none :=
      fun w' => writeOf_eq_none hp fun _ hstage => by cases hstage
    simp only [PromptCall.resume] at hq
    have hmiss : cacheGet now (buildKey sha256 dto.prompt "fallback") s = none :=
      h.noFallback now dto.prompt
    rw [hmiss] at hq
    split at hq
    · cases hq
      refine ⟨rfl, .quiet h rfl (hnone _) trivial fun answer hanswer => ?_⟩
      obtain rfl := PromptStage.returned.inj hanswer
      exact .inl rfl
    · cases hq
      exact ⟨rfl, .quiet h rfl (hnone _) (.inl rfl) fun _ hanswer => by cases hanswer⟩
  | storing result =>
    simp only [PromptCall.resume] at hq
    split at hq
    · rename_i herror
      cases hq
      have hnone : ∀ w',
          writeOf sha256 redis ⟨now, .resume i outside, (), ⟨s, points⟩, w'⟩ = none := by
        intro w'
        simp only [writeOf, hp, herror]
      refine ⟨rfl, .quiet h rfl (hnone _) trivial fun answer hanswer => ?_⟩
      obtain rfl := PromptStage.returned.inj hanswer
      exact .inl rfl
    · rename_i hok
      cases hq
      have hsome : ∀ w', writeOf sha256 redis ⟨now, .resume i outside, (), ⟨s, points⟩, w'⟩ =
          some (cacheWrite sha256 redis now dto.prompt result.response) := by
        intro w'
        simp only [writeOf, hp, hok]
      refine ⟨rfl, ?_, ?_, Obtained.mono (hsub _) hunderWay, fun _ hanswer => by cases hanswer⟩
      · rw [hsome]
        exact h.stored.write _
      · rw [hsome]
        intro write hwrite
        obtain rfl := Option.some.inj hwrite
        exact ⟨dto.prompt, now, rfl, hunderWay⟩
  | recording result =>
    have hnone : ∀ w', writeOf sha256 redis ⟨now, .resume i outside, (), ⟨s, points⟩, w'⟩ = none :=
      fun w' => writeOf_eq_none hp fun _ hstage => by cases hstage
    cases hq
    refine ⟨rfl, .quiet h rfl (hnone _) trivial fun answer hanswer => ?_⟩
    obtain rfl := PromptStage.returned.inj hanswer
    exact hunderWay
  | returned answer => cases hq
  | thrown message => cases hq

end Step

end Steps

/-! ## Runs -/

section Runs

variable {sha256 : String → String} {month : ℕ → String} {redis : Bool} {t₀ : ℕ}

/-- The answer that a step returns is justified by the steps before it. -/
def JustifiedBy (sha256 : String → String) (redis : Bool) (past : List PromptCommit)
    (step : PromptCommit) : Prop :=
  ∀ c outside i answer, step.call = .resume i outside → step.before.points[i]? = some c →
    step.after.points[i]? = some ⟨c.dto, .returned answer⟩ →
      Justified sha256 redis past step.time c.dto answer

/-- A move keeps the answers, and justifies the one that it returns. -/
theorem Answers.step {t : ℕ} {w w' : Tasks AiState PromptCall} {m : Move PromptCall Outside}
    {past : List PromptCommit} (h : Answers sha256 redis w past)
    (hstep : (promptCalls sha256 month redis).Step t w m w') :
    Answers sha256 redis w' (past ++ [⟨t, m, (), w, w'⟩]) ∧
      JustifiedBy sha256 redis past ⟨t, m, (), w, w'⟩ := by
  cases hstep with
  | @start c hc =>
    obtain ⟨dto, stage⟩ := c
    obtain rfl : stage = .called := of_decide_eq_true hc
    refine ⟨⟨?_, ?_, ?_⟩, fun _ _ _ _ hcall => by cases hcall⟩
    · rw [writesOf_concat]
      dsimp only [writeOf]
      rw [Option.toList_none, List.append_nil]
      exact h.stored
    · rw [writesOf_concat]
      dsimp only [writeOf]
      rw [Option.toList_none, List.append_nil]
      intro write hwrite
      obtain ⟨prompt, time, heq, hobtained⟩ := h.written write hwrite
      exact ⟨prompt, time, heq, hobtained.mono (List.subset_append_left past _)⟩
    · refine forall_mem_start (fun c hc => ?_) trivial
      exact (h.underWay c hc).mono (List.subset_append_left past _)
  | @resume i outside c c' s' hp hq =>
    obtain ⟨s, points⟩ := w
    obtain ⟨hdto, hadvances⟩ := h.resume hp hq
    refine ⟨⟨?_, ?_, ?_⟩, ?_⟩
    · rw [writesOf_concat]
      exact hadvances.stored
    · rw [writesOf_concat]
      intro write hwrite
      rcases List.mem_append.mp hwrite with hold | hnew
      · obtain ⟨prompt, time, heq, hobtained⟩ := h.written write hold
        exact ⟨prompt, time, heq, hobtained.mono (List.subset_append_left past _)⟩
      · obtain ⟨prompt, time, heq, hobtained⟩ := hadvances.written write (Option.mem_toList.mp hnew)
        exact ⟨prompt, time, heq, hobtained.mono (List.subset_append_left past _)⟩
    · refine forall_mem_step (fun c hc => ?_) hadvances.underWay
      exact (h.underWay c hc).mono (List.subset_append_left past _)
    · intro d outside' j answer hcall hbefore hafter
      obtain ⟨rfl, rfl⟩ := Move.resume.inj hcall
      obtain rfl := Option.some.inj (hp.symm.trans hbefore)
      have hnext := Option.some.inj ((getElem?_step_self hp).symm.trans hafter)
      subst hnext
      exact hadvances.justified answer rfl

/-- **Where answers come from.** In every run, a cached answer was obtained for a prompt of the same
digest and, in Redis, was stored at most an hour before; every other one was obtained for its own
prompt. An answer is obtained when the provider completes the prompt with it; otherwise it is the
fixed text: no look into the cache that stands in for the provider finds anything. -/
theorem answer_provenance {w : World (Tasks AiState PromptCall)} {log : List PromptCommit}
    (h : (promptCalls sha256 month redis).contract.Run ⟨t₀, ⟨.initial, []⟩⟩ w log) :
    ∀ past step, past ++ [step] <+: log →
      JustifiedBy sha256 redis past step ∧ NoFallback sha256 step.before.shared := by
  refine (h.invariant_log (I := fun _ w log => Answers sha256 redis w log ∧
    ∀ past step, past ++ [step] <+: log →
      JustifiedBy sha256 redis past step ∧ NoFallback sha256 step.before.shared) ⟨⟨?_, ?_, ?_⟩, ?_⟩
    (fun _ _ _ _ _ hs => hs) ?_).2
  · exact writtenBy_empty
  · exact fun write hwrite => absurd hwrite List.not_mem_nil
  · exact fun c hc => absurd hc List.not_mem_nil
  · exact fun past step hpast => absurd (List.prefix_nil.mp hpast) (by simp)
  · intro t m r w w' log ih he
    obtain ⟨hanswers, hjustified⟩ := ih.1.step (Async.step_of_exec he)
    exact ⟨hanswers, List.forall_prefix_concat.mpr ⟨ih.2, hjustified, ih.1.noFallback⟩⟩

/-- A failure of the provider is answered by the fixed text, which is cached for the prompt, and
another prompt is completed. -/
theorem answer_provenance_outage :
    let digest := fun prompt => if prompt = "hello" then
        "2cf24dba5fb0a30e26e83b2ac5b9e29e1b161e5c1fa7425e73043362938b9824"
      else "b49f425a7e1f9cff3856329ada223f2f9d368f15a00cf48df16ca95986137fe8"
    let month := fun _ => "1970-01"
    let hello : PromptCall := ⟨⟨"hello", some "user"⟩, .called⟩
    let goOn := fun (now i : ℕ) reply =>
      List.replicate 7 ((now, .resume i ⟨none, reply⟩) : ℕ × Move PromptCall Outside)
    let run := (promptCalls digest month true).contract.play ⟨0, ⟨.initial, []⟩⟩
      ([(1, .start hello)] ++ goOn 1 0 (.error "503") ++ [(2, .start hello)] ++
        goOn 2 1 (.completion "Hi." (some 3)) ++
        [(3, .start ⟨⟨"bye", none⟩, .called⟩)] ++ goOn 3 2 (.completion "Bye." (some 3)))
    run.1.store.points.map PromptCall.stage =
        [.returned ⟨unavailable, false, false⟩, .returned ⟨unavailable, true, false⟩,
          .returned ⟨"Bye.", false, false⟩] ∧
      ∀ past step, past ++ [step] <+: run.2 →
        JustifiedBy digest true past step ∧ NoFallback digest step.before.shared :=
  ⟨by decide, answer_provenance (Contract.run_play (promptCalls _ _ true).contract
    ⟨0, ⟨.initial, []⟩⟩ _ (by decide))⟩

end Runs

end Stellara.Ai
