import Mathlib.Logic.Relation
import Stellara.Auth.RefreshTokens

/-!
# Rotation of refresh tokens

What is to hold of the exchanges of refresh tokens, and the runs in which it does. Two exchanges
of a token that overlap both issue a new one, and so does an exchange that a logout falls into,
after the logout.

## Main definitions

* `Rotated`, `Descends`: the new tokens that a token was exchanged for, directly or through others
* `ExchangedOnce`, `ExchangesUnrevoked`, `LoggedOut`: the three properties
* `Separate`: a token is checked, or its user logged out, while no exchange of it is under way
* `Retired`: tokens that are revoked and no longer exchanged, with all that descend from them

## Main results

* `Retired.step`: no step brings a retired token back
* `rotation_of_separate`: the three properties where all steps are separate
-/

namespace Stellara.RefreshTokens

variable {w w' : Tasks RefreshTokenRepository Point} {now : ℕ} {input : Input} {i : ℕ} {p q : Point}
  {points : List Point} {repository repository' : RefreshTokenRepository}

/-! ## Properties -/

/-- Every token was exchanged by at most one request. -/
def ExchangedOnce (w : Tasks RefreshTokenRepository Point) : Prop :=
  ∀ (id new new' : String) (i j : ℕ), w.points[i]? = some (.issued (some id) new) →
    w.points[j]? = some (.issued (some id) new') → i = j

/-- The token that the step takes for its exchange is not revoked yet. -/
def ExchangesUnrevoked (_ : ℕ) (_ : Input) (_ : ℕ) (p : Point)
    (w : Tasks RefreshTokenRepository Point) : Prop :=
  ∀ id r, p = .revokeRefreshToken id r →
    ∃ r', w.shared.lookup id = some r' ∧ r'.revoked = false

/-- One token was exchanged for the other. -/
def Rotated (w : Tasks RefreshTokenRepository Point) (id new : String) : Prop :=
  .issued (some id) new ∈ w.points

/-- A token is another one, or was obtained from it through rotations. -/
def Descends (w : Tasks RefreshTokenRepository Point) : String → String → Prop :=
  Relation.ReflTransGen (Rotated w)

/-- The tokens of a user. -/
def tokensOf (userId : String) (repository : RefreshTokenRepository) : Set String :=
  {id | ∃ r, repository.lookup id = some r ∧ r.userId = userId}

/-- The commit logs the user out. -/
def IsLogout (userId : String)
    (c : Commit (Tasks RefreshTokenRepository Point) (Move Point Input) Unit) : Prop :=
  ∃ i input, c.call = .resume i input ∧
    c.before.points[i]? = some (.revokeAllUserRefreshTokens userId)

/-- After a logout all tokens of the user from before, and all that descend from them, are
revoked. -/
def LoggedOut (w : Tasks RefreshTokenRepository Point)
    (log : Async.Log RefreshTokenRepository Point Input) : Prop :=
  ∀ c ∈ log, ∀ userId, IsLogout userId c → ∀ id ∈ tokensOf userId c.before.shared,
    ∀ id', Descends w id id' → ∃ r, w.shared.lookup id' = some r ∧ r.revoked = true

/-- A token passes the check while no request is about to revoke it for its exchange, and a user is
logged out while no exchange of a token of the user is under way. -/
def Separate (t : ℕ) (input : Input) (_ : ℕ) (p : Point)
    (w : Tasks RefreshTokenRepository Point) : Prop :=
  (∀ id ∈ p.checks t input w.shared, ∀ q ∈ w.points, ¬ q.Revokes id) ∧
  ∀ userId ∈ p.logsOut, ∀ q ∈ w.points, q.exchangesFor ≠ some userId

instance : Decidable (Separate now input i p w) := instDecidableAnd

/-! ## Exchanges -/

/-- What is stored of a token while and after it is exchanged. -/
def Backed (repository : RefreshTokenRepository) : Point → Prop
  | .revokeRefreshToken id r => ∃ r', repository.lookup id = some r' ∧ r'.userId = r.userId ∧
      r'.revoked = false
  | .generateRefreshToken (some id) userId => ∃ r, repository.lookup id = some r ∧
      r.userId = userId ∧ r.revoked = true
  | .issued (some id) new => ∃ r r', repository.lookup id = some r ∧ r.revoked = true ∧
      repository.lookup new = some r' ∧ r'.userId = r.userId
  | _ => True

/-- Two requests do not exchange one token. -/
def Exclusive (p q : Point) : Prop :=
  ∀ id, p.exchanges = some id → q.exchanges ≠ some id

theorem Exclusive.symm (h : Exclusive p q) : Exclusive q p :=
  fun id hq hp => h id hp hq

structure Sound (w : Tasks RefreshTokenRepository Point) : Prop where
  once : Apart Exclusive w.points
  backed : ∀ p ∈ w.points, Backed w.shared p

theorem sound_nil (repository : RefreshTokenRepository) : Sound ⟨repository, []⟩ :=
  ⟨apart_nil, fun _ hp => absurd hp List.not_mem_nil⟩

theorem exchanges_of_starts (h : tokenRequests.starts repository p = true) :
    p.exchanges = none ∧ Backed repository p := by
  cases p with
  | generateRefreshToken id userId =>
    cases id with
    | none => exact ⟨rfl, trivial⟩
    | some id => cases h
  | refreshAccessToken token => exact ⟨rfl, trivial⟩
  | revokeAllUserRefreshTokens userId => exact ⟨rfl, trivial⟩
  | _ => cases h

theorem Sound.start (h : Sound ⟨repository, points⟩)
    (hp : tokenRequests.starts repository p = true) : Sound ⟨repository, points ++ [p]⟩ := by
  obtain ⟨hnone, hbacked⟩ := exchanges_of_starts hp
  have hexclusive : ∀ q, Exclusive p q := fun q id hid => by
    rw [hnone] at hid
    cases hid
  exact ⟨h.once.start fun q _ => ⟨hexclusive q, (hexclusive q).symm⟩,
    forall_mem_start h.backed hbacked⟩

/-- A step gives a task no other token to exchange, unless it checks one. -/
theorem Advance.exchanges (h : Advance now repository p q repository') {id : String}
    (hq : q.exchanges = some id) :
    p.exchanges = some id ∨ ∃ token r, p = .refreshAccessToken token ∧
      q = .revokeRefreshToken id r ∧ repository.lookup id = some r ∧ r.revoked = false := by
  cases h with
  | check hread hrevoked =>
    obtain rfl := Option.some.inj hq
    exact .inr ⟨_, _, rfl, rfl, hread, hrevoked⟩
  | revoke => exact .inl hq
  | issue _ _ => exact .inl hq
  | _ => cases hq

/-- A token that is being exchanged is still unrevoked, and one that has been is revoked. -/
theorem Backed.revoked {id : String} {r : RefreshToken} (h : Backed repository p)
    (hp : p.exchanges = some id) (hread : repository.lookup id = some r) :
    r.revoked = true ∨ ∃ r', p = .revokeRefreshToken id r' := by
  cases p with
  | revokeRefreshToken id' r' =>
    obtain rfl := Option.some.inj hp
    exact .inr ⟨r', rfl⟩
  | generateRefreshToken id' userId =>
    obtain rfl : id' = some id := hp
    obtain ⟨r', hr', -, hrevoked⟩ := h
    obtain rfl := Option.some.inj (hread.symm.trans hr')
    exact .inl hrevoked
  | issued id' new =>
    obtain rfl : id' = some id := hp
    obtain ⟨r', _, hr', hrevoked, -⟩ := h
    obtain rfl := Option.some.inj (hread.symm.trans hr')
    exact .inl hrevoked
  | _ => cases hp

theorem Sound.exclusive_step (h : Sound ⟨repository, points⟩) (hp : points[i]? = some p)
    (hG : Separate now input i p ⟨repository, points⟩)
    (hq : p.resume now input repository = some (q, repository')) {j : ℕ} {s : Point} (hj : j ≠ i)
    (hs : points[j]? = some s) : Exclusive q s := by
  intro id hid hsid
  have hmem := List.mem_of_getElem? hs
  rcases (advance_of_resume hq).exchanges hid with hown | ⟨token, r, rfl, rfl, hread, hrevoked⟩
  · exact h.once i j _ _ (Ne.symm hj) hp hs id hown hsid
  · rcases (h.backed s hmem).revoked hsid hread with hrevoked' | ⟨r', rfl⟩
    · rw [hrevoked'] at hrevoked
      cases hrevoked
    · -- the step passed the check of a token that another request is about to revoke
      simp only [Point.resume] at hq
      split at hq
      · rename_i hcheck
        obtain ⟨heq, -⟩ := Prod.mk.inj (Option.some.inj hq)
        obtain ⟨rfl, rfl⟩ := Point.revokeRefreshToken.inj heq
        exact hG.1 _ (by simp [Point.checks, hcheck]) _ hmem rfl
      · cases hq

/-- What is stored of another task's token survives a step. -/
theorem Backed.step {s : Point} (h : Backed repository s)
    (hstep : Advance now repository p q repository')
    (hother : ∀ id r, s = .revokeRefreshToken id r → p.exchanges ≠ some id)
    (hlogout : ∀ userId, p = .revokeAllUserRefreshTokens userId →
      ∀ id r, s = .revokeRefreshToken id r → r.userId ≠ userId) : Backed repository' s := by
  cases s with
  | revokeRefreshToken id r =>
    -- the token is to stay unrevoked, which only another exchange or a logout could change
    obtain ⟨r', hread, huser, hunrevoked⟩ := h
    cases hstep with
    | @revoke id' r₀ =>
      have hne : id ≠ id' := by
        rintro rfl
        exact hother id r rfl rfl
      exact ⟨r', by simp [lookup_updateRevoked, hread, hne], huser, hunrevoked⟩
    | issue hfree _ =>
      exact ⟨r', Store.lookup_insert_of_free hfree hread, huser, hunrevoked⟩
    | @logout userId =>
      have hne : r'.userId ≠ userId := by
        rw [huser]
        exact hlogout userId rfl id r rfl
      exact ⟨r', by simp [lookup_updateUserRevoked, hread, hne], huser, hunrevoked⟩
    | _ => exact ⟨r', hread, huser, hunrevoked⟩
  | generateRefreshToken id userId =>
    cases id with
    | none => trivial
    | some id =>
      -- a revoked token stays revoked in every step
      obtain ⟨r, hread, huser, hrevoked⟩ := h
      obtain ⟨r', hread', huser', hrevoked'⟩ := hstep.lookup hread
      exact ⟨r', hread', huser'.trans huser, hrevoked' hrevoked⟩
  | issued id new =>
    cases id with
    | none => trivial
    | some id =>
      obtain ⟨r, rnew, hread, hrevoked, hnew, huser⟩ := h
      obtain ⟨r', hread', huser', hrevoked'⟩ := hstep.lookup hread
      obtain ⟨rnew', hnew', husernew, -⟩ := hstep.lookup hnew
      exact ⟨r', rnew', hread', hrevoked' hrevoked, hnew', by rw [husernew, huser', huser]⟩
  | _ => trivial

/-- What is stored of the token of the task that makes the step. -/
theorem Advance.backed (h : Advance now repository p q repository') (hp : Backed repository p) :
    Backed repository' q := by
  cases h with
  | check hread hrevoked => exact ⟨_, hread, rfl, hrevoked⟩
  | @revoke id r =>
    obtain ⟨r', hread, huser, -⟩ := hp
    refine ⟨RefreshTokens.revoke now r', ?_, huser, rfl⟩
    simp [lookup_updateRevoked, hread]
  | @issue id userId new r hfree hr =>
    cases id with
    | none => trivial
    | some id =>
      obtain ⟨r', hread, huser, hrevoked⟩ := hp
      refine ⟨r', r, ?_, hrevoked, ?_, hr.trans huser.symm⟩
      · exact Store.lookup_insert_of_free hfree hread
      · rw [Store.lookup_insert_ite, if_pos rfl]
  | _ => trivial

theorem Sound.step (h : Sound ⟨repository, points⟩) (hp : points[i]? = some p)
    (hG : Separate now input i p ⟨repository, points⟩)
    (hq : p.resume now input repository = some (q, repository')) :
    Sound ⟨repository', points.set i q⟩ := by
  have hstep := advance_of_resume hq
  constructor
  · refine h.once.set fun j s hj hs => ?_
    have hexclusive := h.exclusive_step hp hG hq hj hs
    exact ⟨hexclusive, hexclusive.symm⟩
  · intro s hs
    obtain ⟨j, hs⟩ := List.getElem?_of_mem hs
    rcases getElem?_step hs with ⟨hj, hs⟩ | ⟨-, rfl⟩
    · refine (h.backed s (List.mem_of_getElem? hs)).step hstep ?_ ?_
      · rintro id r rfl hown
        exact h.once j i _ _ hj hs hp id rfl hown
      · rintro userId rfl id r rfl huser
        exact hG.2 userId rfl _ (List.mem_of_getElem? hs) (congrArg some huser)
    · exact hstep.backed (h.backed p (List.mem_of_getElem? hp))

/-! ## Retired tokens -/

/-- Tokens that are revoked and no longer exchanged, with all that they were exchanged for. -/
structure Retired (ids : Set String) (w : Tasks RefreshTokenRepository Point) : Prop where
  revoked : ∀ id ∈ ids, ∃ r, w.shared.lookup id = some r ∧ r.revoked = true
  closed : ∀ id ∈ ids, ∀ new, Rotated w id new → new ∈ ids
  done : ∀ id ∈ ids, (∀ r, .revokeRefreshToken id r ∉ w.points) ∧
    ∀ userId, .generateRefreshToken (some id) userId ∉ w.points

variable {ids : Set String}

theorem Retired.of_descends (h : Retired ids w) {id id' : String} (hid : id ∈ ids)
    (hdesc : Descends w id id') : id' ∈ ids := by
  induction hdesc with
  | refl => exact hid
  | tail _ hrot ih => exact h.closed _ ih _ hrot

theorem Retired.start (h : Retired ids ⟨repository, points⟩)
    (hp : tokenRequests.starts repository p = true) : Retired ids ⟨repository, points ++ [p]⟩ := by
  have hnone := (exchanges_of_starts hp).1
  have hold : ∀ s id, s.exchanges = some id → s ∈ points ++ [p] → s ∈ points := by
    intro s id hs hmem
    rcases List.mem_append.mp hmem with hmem | hmem
    · exact hmem
    · rw [List.mem_singleton.mp hmem, hnone] at hs
      cases hs
  refine ⟨h.revoked, fun id hid new hrot => h.closed id hid new (hold _ id rfl hrot), ?_⟩
  intro id hid
  obtain ⟨hrevoke, hgenerate⟩ := h.done id hid
  exact ⟨fun r hr => hrevoke r (hold _ id rfl hr), fun userId hr =>
    hgenerate userId (hold _ id rfl hr)⟩

/-- The task that makes the step exchanges no retired token after it. -/
theorem Retired.exchanges (h : Retired ids ⟨repository, points⟩) (hp : points[i]? = some p)
    (hstep : Advance now repository p q repository') {id : String} (hid : id ∈ ids)
    (hq : q.exchanges = some id) : False := by
  have hmem := List.mem_of_getElem? hp
  obtain ⟨r, hread, hrevoked⟩ := h.revoked id hid
  cases hstep with
  | check hread' hrevoked' =>
    obtain rfl := Option.some.inj hq
    obtain rfl := Option.some.inj (hread.symm.trans hread')
    rw [hrevoked] at hrevoked'
    cases hrevoked'
  | revoke =>
    obtain rfl := Option.some.inj hq
    exact (h.done _ hid).1 _ hmem
  | issue _ _ =>
    obtain rfl := hq
    exact (h.done id hid).2 _ hmem
  | _ => cases hq

/-- No step brings a retired token back. -/
theorem Retired.step (h : Retired ids ⟨repository, points⟩) (hp : points[i]? = some p)
    (hstep : Advance now repository p q repository') :
    Retired ids ⟨repository', points.set i q⟩ := by
  have hold : ∀ s, ∀ id ∈ ids, s.exchanges = some id → s ∈ points.set i q → s ∈ points := by
    intro s id hid hs hmem
    apply mem_of_mem_step hmem
    rintro rfl
    exact h.exchanges hp hstep hid hs
  constructor
  · intro id hid
    obtain ⟨r, hread, hrevoked⟩ := h.revoked id hid
    obtain ⟨r', hread', -, hkeep⟩ := hstep.lookup hread
    exact ⟨r', hread', hkeep hrevoked⟩
  · intro id hid new hrot
    exact h.closed id hid new (hold _ id hid rfl hrot)
  · intro id hid
    obtain ⟨hrevoke, hgenerate⟩ := h.done id hid
    exact ⟨fun r hr => hrevoke r (hold _ id hid rfl hr), fun userId hr =>
      hgenerate userId (hold _ id hid rfl hr)⟩

/-- A logout that falls into no exchange retires the tokens of the user. -/
theorem Sound.retired {userId : String} (h : Sound ⟨repository, points⟩)
    (hG : Separate now input i (.revokeAllUserRefreshTokens userId) ⟨repository, points⟩) :
    Retired (tokensOf userId repository)
      ⟨updateUserRevoked now userId repository, points.set i (.loggedOut userId)⟩ := by
  have hfree := hG.2 userId rfl
  have hold : ∀ s id, s.exchanges = some id → s ∈ points.set i (.loggedOut userId) →
      s ∈ points := by
    intro s id hs hmem
    apply mem_of_mem_step hmem
    rintro rfl
    cases hs
  constructor
  · rintro id ⟨r, hread, huser⟩
    refine ⟨_, by rw [lookup_updateUserRevoked, hread]; rfl, ?_⟩
    dsimp only
    split
    · rfl
    · rename_i hrevoked
      simpa [huser] using hrevoked
  · -- a token that was issued for one of the user is of the user
    rintro id ⟨r, hread, huser⟩ new hrot
    obtain ⟨r₀, r', hread₀, -, hnew, huser'⟩ := h.backed _ (hold _ id rfl hrot)
    obtain rfl := Option.some.inj (hread.symm.trans hread₀)
    exact ⟨r', hnew, huser'.trans huser⟩
  · rintro id ⟨r, hread, huser⟩
    constructor
    · intro r₀ hr₀
      have hmem := hold _ id rfl hr₀
      obtain ⟨r', hread', huser', -⟩ := h.backed _ hmem
      obtain rfl := Option.some.inj (hread.symm.trans hread')
      exact hfree _ hmem (congrArg some (huser'.symm.trans huser))
    · intro userId' hr₀
      have hmem := hold _ id rfl hr₀
      obtain ⟨r', hread', huser', -⟩ := h.backed _ hmem
      obtain rfl := Option.some.inj (hread.symm.trans hread')
      exact hfree _ hmem (congrArg some (huser'.symm.trans huser))

/-! ## Runs -/

theorem Sound.exchangedOnce (h : Sound w) : ExchangedOnce w := by
  intro id new new' i j hi hj
  by_contra hne
  exact h.once i j _ _ hne hi hj id rfl rfl

theorem Sound.exchangesUnrevoked (h : Sound w) (hp : w.points[i]? = some p) :
    ExchangesUnrevoked now input i p w := by
  rintro id r rfl
  obtain ⟨r', hread, -, hunrevoked⟩ := h.backed _ (List.mem_of_getElem? hp)
  exact ⟨r', hread, hunrevoked⟩

/-- The tokens of a user that was logged out are retired. -/
theorem retired_of_run {w₀ w : World (Tasks RefreshTokenRepository Point)}
    {log : Async.Log RefreshTokenRepository Point Input}
    (h : tokenRequests.contract.Run w₀ w log) (h₀ : Sound w₀.store)
    (hG : ∀ c ∈ log, Async.OnStep Separate c) :
    ∀ c ∈ log, ∀ userId, IsLogout userId c →
      Retired (tokensOf userId c.before.shared) w.store := by
  -- a logout retires the tokens of the user, and every later step keeps them retired
  refine (h.invariant_log (I := fun _ s log => (∀ c ∈ log, Async.OnStep Separate c) →
    Sound s ∧ ∀ c ∈ log, ∀ userId, IsLogout userId c →
      Retired (tokensOf userId c.before.shared) s) (fun _ => ⟨h₀, by simp⟩)
    (fun _ _ _ _ _ hs => by exact hs) ?_ hG).2
  intro t call r before after log ih he hG
  obtain ⟨hsound, hretired⟩ := ih fun c hc => hG c (List.mem_append_left _ hc)
  have hlast := hG _ (List.mem_append_right _ (List.mem_singleton_self _))
  have hmove := Async.step_of_exec he
  cases hmove with
  | start hp =>
    refine ⟨hsound.start hp, fun c hc userId hlogout => ?_⟩
    rcases List.mem_append.mp hc with hold | hnew
    · exact (hretired c hold userId hlogout).start hp
    · obtain rfl := List.mem_singleton.mp hnew
      obtain ⟨i, input, hcall, -⟩ := hlogout
      cases hcall
  | @resume i input p q repository' hp hq =>
    have hstep := advance_of_resume hq
    refine ⟨hsound.step hp (hlast p hp) hq, fun c hc userId hlogout => ?_⟩
    rcases List.mem_append.mp hc with hold | hnew
    · exact (hretired c hold userId hlogout).step hp hstep
    · obtain rfl := List.mem_singleton.mp hnew
      obtain ⟨i', input', hcall, hpoint⟩ := hlogout
      obtain ⟨rfl, rfl⟩ := Move.resume.inj hcall
      obtain rfl := Option.some.inj (hp.symm.trans hpoint)
      cases hstep with
      | logout => exact hsound.retired (hlast _ hp)

/-- **Rotation.** In a run in which no exchange of a token is under way when the token is checked or
its user logged out, every token is exchanged at most once and not once it is revoked, and from a
logout on all tokens of the user from before it are revoked, with all that descend from them. -/
theorem rotation_of_separate {t₀ : ℕ} {repository : RefreshTokenRepository}
    {w : World (Tasks RefreshTokenRepository Point)}
    {log : Async.Log RefreshTokenRepository Point Input}
    (h : tokenRequests.contract.Run ⟨t₀, ⟨repository, []⟩⟩ w log)
    (hG : ∀ c ∈ log, Async.OnStep Separate c) :
    ExchangedOnce w.store ∧ (∀ c ∈ log, Async.OnStep ExchangesUnrevoked c) ∧
      LoggedOut w.store log := by
  obtain ⟨hend, hlog⟩ := Async.invariant (I := Sound) (fun _ _ _ hs hp => hs.start hp)
    (fun _ _ _ _ _ _ _ _ hs hp hg hq => hs.step hp hg hq) h (sound_nil repository) hG
  refine ⟨hend.exchangedOnce, fun c hc => ?_, fun c hc userId hlogout id hid id' hdesc => ?_⟩
  · have hbefore := (hlog c hc).1
    unfold Async.OnStep
    split
    · trivial
    · exact fun p hp => hbefore.exchangesUnrevoked hp
  · have hretired := retired_of_run h (sound_nil repository) hG c hc userId hlogout
    exact hretired.revoked id' (hretired.of_descends hid hdesc)

/-- A token is exchanged, its user logged out, and the new token presented. -/
def exchangeThenLogout : List (ℕ × Move Point Input) :=
  [(0, .start (.generateRefreshToken none "alice")), (0, .resume 0 ⟨true, "id0", "t0"⟩),
    (1, .start (.refreshAccessToken "t0")), (1, .resume 1 ⟨true, "", ""⟩),
    (2, .resume 1 ⟨true, "", ""⟩), (3, .resume 1 ⟨true, "id1", "t1"⟩),
    (4, .start (.revokeAllUserRefreshTokens "alice")), (4, .resume 2 ⟨true, "", ""⟩),
    (5, .start (.refreshAccessToken "t1")), (5, .resume 3 ⟨true, "", ""⟩)]

theorem rotation_of_separate_sample :
    let run := tokenRequests.contract.play ⟨0, ⟨∅, []⟩⟩ exchangeThenLogout
    ExchangedOnce run.1.store ∧ (∀ c ∈ run.2, Async.OnStep ExchangesUnrevoked c) ∧
      LoggedOut run.1.store run.2 :=
  rotation_of_separate (Contract.run_play _ _ exchangeThenLogout (by decide)) (by decide)

/-- A token is exchanged by two requests at once, and its user logged out before they store the new
ones. -/
def exchangesAroundLogout : List (ℕ × Move Point Input) :=
  [(0, .start (.generateRefreshToken none "alice")), (0, .resume 0 ⟨true, "id0", "t0"⟩),
    (1, .start (.refreshAccessToken "t0")), (1, .start (.refreshAccessToken "t0")),
    (1, .resume 1 ⟨true, "", ""⟩), (1, .resume 2 ⟨true, "", ""⟩), (2, .resume 1 ⟨true, "", ""⟩),
    (3, .start (.revokeAllUserRefreshTokens "alice")), (3, .resume 3 ⟨true, "", ""⟩),
    (4, .resume 2 ⟨true, "", ""⟩), (5, .resume 1 ⟨true, "id1", "t1"⟩),
    (5, .resume 2 ⟨true, "id2", "t2"⟩)]

/-- The token is exchanged twice, once after it was revoked, and the new ones outlive the logout. -/
theorem exchanged_twice_after_logout :
    ¬ ∀ w log, tokenRequests.contract.Run ⟨0, ⟨∅, []⟩⟩ w log →
      ExchangedOnce w.store ∧ (∀ c ∈ log, Async.OnStep ExchangesUnrevoked c) ∧
        LoggedOut w.store log := by
  intro hall
  obtain ⟨honce, -, -⟩ := hall _ _
    (Contract.run_play tokenRequests.contract ⟨0, ⟨∅, []⟩⟩ exchangesAroundLogout (by decide))
  have h₁ : (tokenRequests.contract.play ⟨0, ⟨∅, []⟩⟩ exchangesAroundLogout).1.store.points[1]? =
      some (.issued (some "id0") "id1") := by decide
  have h₂ : (tokenRequests.contract.play ⟨0, ⟨∅, []⟩⟩ exchangesAroundLogout).1.store.points[2]? =
      some (.issued (some "id0") "id2") := by decide
  cases honce "id0" "id1" "id2" 1 2 h₁ h₂

end Stellara.RefreshTokens
