import Stellara.Auth.ApiTokens

/-!
# Validated API tokens

Validations read the table once and then compare what they read, while tokens are created, used and
revoked. A validation that accepts a text returns the user and the role of a token that was created
for them, whose hash the text matches, and that was not revoked when the table was read and not
expired when it was compared. A token that is revoked stays so, so that a validation that reads the
table after a revocation never returns it.

## Main definitions

* `Issued hash points id r`: the row is one of a token that a request created
* `ReadAt`, `Accepted`: what a validation has read and checked, in the record of a run
* `Sound`: what is known of the rows and of the requests under way
* `Withdrawn`: the token is revoked once the commit is done

## Main results

* `Sound.step`: what a step keeps of that
* `validated_sound`: what a validation that accepts a text has checked
* `revoked_never_validated`: no validation that reads later returns a revoked token
-/

namespace Stellara.ApiTokens

abbrev TokenLog := Async.Log ApiTokenRepository Point Input

/-! ## The record -/

/-- The row is one of a token that a request created, and whose hash it stored. -/
def Issued (hash : String → String → String) (points : List Point) (id : String) (r : ApiToken) :
    Prop :=
  ∃ plainToken salt apiToken, .created plainToken id apiToken ∈ points ∧
    apiToken.token = hash plainToken salt ∧ r.Same apiToken

/-- The request read the row, which was not revoked, and its user. -/
def ReadAt (log : TokenLog) (i : ℕ) (plainToken : String) (tokenRecord : TokenRecord) : Prop :=
  ∃ c ∈ log, ∃ input, c.call = .resume i input ∧
    c.before.points[i]? = some (.validateApiToken plainToken) ∧
    c.before.shared.lookup tokenRecord.id = some tokenRecord.row ∧
    tokenRecord.row.revoked = false ∧
    (tokenRecord.isActive = true → tokenRecord.row.userId ∈ input.active)

/-- The request read the row, and compared and checked it later: the row matched the text, and had not
expired at the comparison. -/
def Accepted (compare : String → String → Bool) (log : TokenLog) (i : ℕ) (plainToken : String)
    (tokenRecord : TokenRecord) : Prop :=
  ReadAt log i plainToken tokenRecord ∧ tokenRecord.isActive = true ∧
    compare plainToken tokenRecord.row.token = true ∧
    ∃ c ∈ log, ∃ input records k, c.call = .resume i input ∧
      c.before.points[i]? = some (.compareTokens plainToken records k) ∧
      records[k]? = some tokenRecord ∧ ∀ expiresAt ∈ tokenRecord.row.expiresAt, c.time ≤ expiresAt

section Record

variable {hash : String → String → String} {compare : String → String → Bool}
  {addDays : ℕ → ℕ → ℕ} {defaultDays t : ℕ}
  {points points' : List Point} {id : String} {r r' : ApiToken} {log log' : TokenLog} {i : ℕ}
  {plainToken : String} {tokenRecord : TokenRecord}

theorem Issued.mono (h : Issued hash points id r)
    (hkeep : ∀ plainToken apiToken, .created plainToken id apiToken ∈ points →
      .created plainToken id apiToken ∈ points') : Issued hash points' id r := by
  obtain ⟨plainToken, salt, apiToken, hmem, htoken, hsame⟩ := h
  exact ⟨plainToken, salt, apiToken, hkeep _ _ hmem, htoken, hsame⟩

theorem Issued.of_same (h : Issued hash points id r) (hsame : r'.Same r) :
    Issued hash points id r' := by
  obtain ⟨plainToken, salt, apiToken, hmem, htoken, hr⟩ := h
  exact ⟨plainToken, salt, apiToken, hmem, htoken, hsame.trans hr⟩

theorem ReadAt.mono (hsub : log ⊆ log') (h : ReadAt log i plainToken tokenRecord) :
    ReadAt log' i plainToken tokenRecord := by
  obtain ⟨c, hc, hread⟩ := h
  exact ⟨c, hsub hc, hread⟩

theorem Accepted.mono (hsub : log ⊆ log') (h : Accepted compare log i plainToken tokenRecord) :
    Accepted compare log' i plainToken tokenRecord := by
  obtain ⟨hread, hactive, hmatch, c, hc, hchecked⟩ := h
  exact ⟨hread.mono hsub, hactive, hmatch, c, hsub hc, hchecked⟩

end Record

/-- What is known of the request `i` at a point. -/
def Following (hash : String → String → String) (compare : String → String → Bool)
    (points : List Point) (log : TokenLog) (i : ℕ) : Point → Prop
  | .saveToken plainToken apiToken => ∃ salt, apiToken.token = hash plainToken salt
  | .compareTokens plainToken records _ => ∀ tokenRecord ∈ records,
      Issued hash points tokenRecord.id tokenRecord.row ∧ ReadAt log i plainToken tokenRecord
  | .updateLastUsed plainToken tokenRecord _ =>
    Issued hash points tokenRecord.id tokenRecord.row ∧
      Accepted compare log i plainToken tokenRecord
  | .validated plainToken userId role tokenId => ∃ tokenRecord : TokenRecord,
      tokenRecord.id = tokenId ∧ tokenRecord.row.userId = userId ∧ tokenRecord.row.role = role ∧
        Issued hash points tokenRecord.id tokenRecord.row ∧
        Accepted compare log i plainToken tokenRecord
  | _ => True

/-- Every row is one of a token that was created, and the requests have read and checked what they
go on with. -/
structure Sound (hash : String → String → String) (compare : String → String → Bool)
    (w : Tasks ApiTokenRepository Point) (log : TokenLog) : Prop where
  rows : ∀ id r, w.shared.lookup id = some r → Issued hash w.points id r
  following : ∀ i p, w.points[i]? = some p → Following hash compare w.points log i p

section Steps

variable {hash : String → String → String} {compare : String → String → Bool}
  {addDays : ℕ → ℕ → ℕ} {defaultDays t : ℕ}
  {points points' : List Point} {log log' : TokenLog} {i j : ℕ} {p q : Point} {input : Input}
  {tokens tokens' : ApiTokenRepository} {w w' : Tasks ApiTokenRepository Point}
  {m : Move Point Input}

theorem Following.mono (hsub : log ⊆ log')
    (hkeep : ∀ plainToken id apiToken, .created plainToken id apiToken ∈ points →
      .created plainToken id apiToken ∈ points') (h : Following hash compare points log i p) :
    Following hash compare points' log' i p := by
  cases p with
  | compareTokens plainToken records k =>
    exact fun tokenRecord hmem => ⟨(h tokenRecord hmem).1.mono fun _ _ => hkeep _ _ _,
      (h tokenRecord hmem).2.mono hsub⟩
  | updateLastUsed plainToken tokenRecord time =>
    exact ⟨h.1.mono fun _ _ => hkeep _ _ _, h.2.mono hsub⟩
  | validated plainToken userId role tokenId =>
    obtain ⟨tokenRecord, hid, huser, hrole, hissued, haccepted⟩ := h
    exact ⟨tokenRecord, hid, huser, hrole, hissued.mono fun _ _ => hkeep _ _ _,
      haccepted.mono hsub⟩
  | saveToken plainToken apiToken => exact h
  | _ => trivial

/-- A request that goes on was not done with a creation. -/
theorem created_mem_set (hp : points[i]? = some p)
    (hq : p.resume hash compare addDays defaultDays t input tokens = some (q, tokens')) :
    ∀ plainToken id apiToken, .created plainToken id apiToken ∈ points →
      .created plainToken id apiToken ∈ points.set i q := by
  intro plainToken id apiToken hmem
  obtain ⟨j, hj⟩ := List.mem_iff_getElem?.mp hmem
  have hne : j ≠ i := by
    rintro rfl
    obtain rfl := Option.some.inj (hp.symm.trans hj)
    cases hq
  exact List.mem_of_getElem? ((getElem?_step_ne hne).trans hj)

/-- What is known of a request after its step. -/
theorem Sound.advance (h : Sound hash compare ⟨tokens, points⟩ log) (hp : points[i]? = some p)
    (hadvance : Advance hash compare t input.active tokens p q tokens') :
    Following hash compare points
      (log ++ [⟨t, .resume i input, (), ⟨tokens, points⟩, ⟨tokens', points.set i q⟩⟩]) i q := by
  have hfollowing := h.following i p hp
  have hlast : ∀ c : Commit (Tasks ApiTokenRepository Point) (Move Point Input) Unit,
      c ∈ log ++ [c] := fun c => List.mem_append_right _ (List.mem_singleton_self c)
  cases hadvance with
  | @hash userId name role plainToken salt days expiresAt => exact ⟨salt, rfl⟩
  | @read plainToken records hrecords =>
    intro tokenRecord hmem
    obtain ⟨hstored, hunrevoked, hactive⟩ := hrecords tokenRecord hmem
    exact ⟨h.rows _ _ hstored, _, hlast _, input, rfl, hp, hstored, hunrevoked, hactive⟩
  | @next plainToken records k =>
    exact fun tokenRecord hmem => ⟨(hfollowing tokenRecord hmem).1,
      (hfollowing tokenRecord hmem).2.mono (List.subset_append_left _ _)⟩
  | @accept plainToken records k tokenRecord hrecord hmatch hcheck =>
    obtain ⟨hissued, hread⟩ := hfollowing tokenRecord (List.mem_of_getElem? hrecord)
    simp only [checkToken, Except.bind_eq_ok, require_eq_ok, exists_const] at hcheck
    exact ⟨hissued, hread.mono (List.subset_append_left _ _), hcheck.2, hmatch, _, hlast _, input,
      records, k, rfl, hp, hrecord, hcheck.1⟩
  | @use plainToken tokenRecord time =>
    exact ⟨tokenRecord, rfl, rfl, rfl, hfollowing.1,
      hfollowing.2.mono (List.subset_append_left _ _)⟩
  | _ => trivial

/-- A move keeps what is known. -/
theorem Sound.step (h : Sound hash compare w log)
    (hstep : (apiTokenRequests hash compare addDays defaultDays).Step t w m w') :
    Sound hash compare w' (log ++ [⟨t, m, (), w, w'⟩]) := by
  cases hstep with
  | @start p hp =>
    have hkeep : ∀ plainToken id apiToken, .created plainToken id apiToken ∈ w.points →
        .created plainToken id apiToken ∈ w.points ++ [p] :=
      fun _ _ _ hmem => List.mem_append_left _ hmem
    refine ⟨fun id r hread => (h.rows id r hread).mono fun _ _ => hkeep _ _ _, fun j q hj => ?_⟩
    rcases getElem?_start hj with hold | ⟨-, rfl⟩
    · exact (h.following j q hold).mono (List.subset_append_left _ _) hkeep
    · -- nothing has to be known of a request that starts
      cases q with
      | createApiToken userId name role days => trivial
      | validateApiToken plainToken => trivial
      | revokeApiToken tokenId userId => trivial
      | revokeAllUserApiTokens userId => trivial
      | _ => cases hp
  | @resume i input p q tokens' hp hq =>
    obtain ⟨tokens, points⟩ := w
    have hadvance := advance_of_resume hq
    have hkeep := created_mem_set hp hq
    refine ⟨fun id r hread => ?_, fun j q' hj => ?_⟩
    · rcases hadvance.lookup hread with ⟨plainToken, -, rfl, rfl⟩ | ⟨r₀, hread₀, hsame, -⟩
      · obtain ⟨salt, htoken⟩ := h.following i _ hp
        exact ⟨plainToken, salt, r, List.mem_of_getElem? (getElem?_step_self hp), htoken, .refl r⟩
      · exact ((h.rows id r₀ hread₀).of_same hsame).mono fun _ _ => hkeep _ _ _
    · rcases getElem?_step hj with ⟨-, hold⟩ | ⟨rfl, rfl⟩
      · exact (h.following j q' hold).mono (List.subset_append_left _ _) hkeep
      · exact (h.advance hp hadvance).mono (List.Subset.refl _) hkeep

/-! ## Revocations -/

/-- The rows that requests are about to revoke are stored, and those that they revoked are
revoked. -/
structure Revoking (w : Tasks ApiTokenRepository Point) : Prop where
  stored : ∀ id, .setRevoked id ∈ w.points → (w.shared.lookup id).isSome
  revoked : ∀ id, .revoked id ∈ w.points → Revoked id w.shared

theorem Revoking.step (h : Revoking w)
    (hstep : (apiTokenRequests hash compare addDays defaultDays).Step t w m w') : Revoking w' := by
  cases hstep with
  | @start p hp =>
    refine ⟨fun id hmem => ?_, fun id hmem => ?_⟩
    · rcases List.mem_append.mp hmem with hold | hnew
      · exact h.stored id hold
      · obtain rfl := List.mem_singleton.mp hnew
        cases hp
    · rcases List.mem_append.mp hmem with hold | hnew
      · exact h.revoked id hold
      · obtain rfl := List.mem_singleton.mp hnew
        cases hp
  | @resume i input p q tokens' hp hq =>
    have hadvance := advance_of_resume hq
    refine ⟨fun id hmem => ?_, fun id hmem => ?_⟩
    · rcases List.mem_or_eq_of_mem_set hmem with hold | rfl
      · exact hadvance.isSome_lookup (h.stored id hold)
      · -- the row was found for its user
        cases p with
        | revokeApiToken tokenId userId =>
          simp only [apiTokenRequests, Point.resume] at hq
          split at hq
          · rename_i r hfound
            cases hq
            exact Option.isSome_iff_exists.mpr ⟨r, (Option.filter_eq_some_iff.mp hfound).1⟩
          · cases hq
        | _ => cases hadvance
    · rcases List.mem_or_eq_of_mem_set hmem with hold | rfl
      · exact hadvance.revoked (h.revoked id hold)
      · cases hadvance with
        | revoke =>
          obtain ⟨r, hr⟩ := Option.isSome_iff_exists.mp (h.stored id (List.mem_of_getElem? hp))
          refine ⟨{ r with revoked := true }, ?_, rfl⟩
          rw [updateRevoked, Store.lookup_mapValues, hr, Option.map_some, if_pos rfl]

/-- The tokens that a user has are revoked at once. -/
theorem revoked_of_revokeAll {id userId : String} {r : ApiToken}
    (hstep : (apiTokenRequests hash compare addDays defaultDays).Step t w (.resume i input) w')
    (hp : w.points[i]? = some (.revokeAllUserApiTokens userId))
    (hread : w.shared.lookup id = some r) (huser : r.userId = userId) : Revoked id w'.shared := by
  cases hstep with
  | @resume _ _ p q tokens' hp' hq =>
    obtain rfl := Option.some.inj (hp.symm.trans hp')
    cases hq
    by_cases hr : r.revoked = false
    · refine ⟨{ r with revoked := true }, ?_, rfl⟩
      rw [updateUserRevoked, Store.lookup_mapValues, hread, Option.map_some, if_pos ⟨huser, hr⟩]
    · refine ⟨r, ?_, by simpa using hr⟩
      rw [updateUserRevoked, Store.lookup_mapValues, hread, Option.map_some,
        if_neg fun hboth => hr hboth.2]

/-- The request has not read the table. -/
def Unread (points : List Point) (i : ℕ) : Prop :=
  points[i]? = none ∨ ∃ plainToken, points[i]? = some (.validateApiToken plainToken)

/-- The request goes on without the token. -/
def Point.Without (id : String) : Point → Prop
  | .compareTokens _ records _ => ∀ tokenRecord ∈ records, tokenRecord.id ≠ id
  | .updateLastUsed _ tokenRecord _ => tokenRecord.id ≠ id
  | .validated _ _ _ tokenId => tokenId ≠ id
  | _ => True

theorem without_of_starts {id : String}
    (h : (apiTokenRequests hash compare addDays defaultDays).starts tokens p = true) :
    p.Without id := by
  cases p with
  | compareTokens plainToken records k => cases h
  | updateLastUsed plainToken tokenRecord time => cases h
  | validated plainToken userId role tokenId => cases h
  | _ => trivial

/-- A request that goes on without a token that is revoked never gets it. -/
theorem Advance.without {id : String} {active : List String}
    (h : Advance hash compare t active tokens p q tokens') (hrevoked : Revoked id tokens)
    (hp : p.Without id) : q.Without id := by
  cases h with
  | read hrecords =>
    rintro tokenRecord hmem rfl
    obtain ⟨hstored, hunrevoked, -⟩ := hrecords tokenRecord hmem
    obtain ⟨r, hr, hrevoked⟩ := hrevoked
    obtain rfl := Option.some.inj (hr.symm.trans hstored)
    rw [hrevoked] at hunrevoked
    cases hunrevoked
  | next => exact hp
  | accept hrecord _ _ => exact hp _ (List.mem_of_getElem? hrecord)
  | use => exact hp
  | _ => trivial

end Steps

/-! ## Runs -/

section Runs

variable {hash : String → String → String} {compare : String → String → Bool}
  {addDays : ℕ → ℕ → ℕ} {defaultDays t₀ : ℕ}
  {w w₀ : World (Tasks ApiTokenRepository Point)} {log : TokenLog}

/-- After a commit that leaves a token revoked, a request that goes on without it never returns
it. -/
theorem without_of_revoked {id : String} {i : ℕ}
    (h : (apiTokenRequests hash compare addDays defaultDays).contract.Run w₀ w log)
    (hrevoked : Revoked id w₀.store.shared)
    (hi : ∀ p, w₀.store.points[i]? = some p → p.Without id) :
    ∀ p, w.store.points[i]? = some p → p.Without id := by
  refine (h.invariant (I := fun w => Revoked id w.shared ∧
    ∀ p, w.points[i]? = some p → p.Without id) ?_ ⟨hrevoked, hi⟩).2
  intro t m r w w' hI he
  have hstep : (apiTokenRequests hash compare addDays defaultDays).Step t w m w' :=
    Async.step_of_exec he
  cases hstep with
  | @start p hp =>
    refine ⟨hI.1, fun q hq => ?_⟩
    rcases getElem?_start hq with hold | ⟨-, rfl⟩
    · exact hI.2 q hold
    · exact without_of_starts hp
  | @resume j input p q tokens' hp hq =>
    have hadvance := advance_of_resume hq
    refine ⟨hadvance.revoked hI.1, fun p' hp' => ?_⟩
    rcases getElem?_step hp' with ⟨-, hold⟩ | ⟨rfl, rfl⟩
    · exact hI.2 p' hold
    · exact hadvance.without hI.1 (hI.2 p hp)

/-- A revocation of the token has returned, or the commit revokes all tokens of its user. -/
def Withdrawn (id : String)
    (c : Commit (Tasks ApiTokenRepository Point) (Move Point Input) Unit) : Prop :=
  .revoked id ∈ c.after.points ∨
    ∃ i input userId r, c.call = .resume i input ∧
      c.before.points[i]? = some (.revokeAllUserApiTokens userId) ∧
      c.before.shared.lookup id = some r ∧ r.userId = userId

/-- **Revoked tokens.** Once a revocation of a token has returned, or all tokens of its user were
revoked, a validation that has not read the table yet never returns the token. -/
theorem revoked_never_validated
    (h : (apiTokenRequests hash compare addDays defaultDays).contract.Run ⟨t₀, ⟨∅, []⟩⟩ w log) :
    ∀ past c rest id, log = past ++ c :: rest → Withdrawn id c →
      ∀ i, Unread c.after.points i → ∀ plainToken userId role,
        w.store.points[i]? ≠ some (.validated plainToken userId role id) := by
  intro past c rest id hlog hwithdrawn i hunread plainToken userId role hpoint
  have hmem : c ∈ log := by
    rw [hlog]
    exact List.mem_append_right _ List.mem_cons_self
  have hrevoking : Revoking c.after := (h.invariant_of_mem (I := Revoking)
    (fun t m r w w' hI he => hI.step (Async.step_of_exec he))
    ⟨fun _ hmem => absurd hmem List.not_mem_nil, fun _ hmem => absurd hmem List.not_mem_nil⟩
    c hmem).2
  have hrevoked : Revoked id c.after.shared := by
    rcases hwithdrawn with hdone | ⟨j, input, user, r, hcall, hbefore, hread, huser⟩
    · exact hrevoking.revoked id hdone
    · have hexec := h.exec_of_mem c hmem
      rw [hcall] at hexec
      exact revoked_of_revokeAll (Async.step_of_exec hexec) hbefore hread huser
  refine without_of_revoked (h.from_commit hlog) hrevoked (i := i) ?_ _ hpoint rfl
  intro p hp
  dsimp only at hp
  rcases hunread with hnone | ⟨text, hsome⟩
  · rw [hnone] at hp
    cases hp
  · rw [hsome] at hp
    cases hp
    trivial

/-- A token is created, validated and revoked, and validated again. -/
def tokenLife : List (ℕ × Move Point Input) :=
  let uuids := ("123e4567-e89b-12d3-a456-426614174000", "9b2b0f5e-0c1d-4a57-8f3a-2d1c5f6a7b80")
  let text := "stl_123e4567e89b12d3a4564266141740009b2b0f5e0c1d4a578f3a2d1c5f6a7b80"
  let input : Input := ⟨uuids, "salt", "token", ["token"], ["alice"]⟩
  [(1, .start (.createApiToken "alice" "ci" "worker" none)), (2, .resume 0 input),
    (3, .resume 0 input), (4, .start (.validateApiToken text)), (5, .resume 1 input),
    (6, .resume 1 input), (7, .resume 1 input), (8, .start (.revokeApiToken "token" "alice")),
    (9, .resume 2 input), (10, .resume 2 input), (11, .start (.validateApiToken text)),
    (12, .resume 3 { input with order := [] }), (13, .resume 3 input)]

/-- A hash that shows the text, for the runs below. -/
def plainHash (text salt : String) : String := salt ++ "$" ++ text

def plainCompare (text hash : String) : Bool :=
  (hash.toList.dropWhile (· ≠ '$')).drop 1 = text.toList

/-- Days of 24 hours, as in the universal time. -/
def plainDays (now days : ℕ) : ℕ := now + days * 24 * 60 * 60 * 1000

theorem revoked_never_validated_tokenLife :
    let run :=
      (apiTokenRequests plainHash plainCompare plainDays 90).contract.play ⟨0, ⟨∅, []⟩⟩ tokenLife
    run.1.store.points[3]? = some (.rejected .invalid) ∧
      ∀ past c rest id, run.2 = past ++ c :: rest → Withdrawn id c →
        ∀ i, Unread c.after.points i → ∀ plainToken userId role,
          run.1.store.points[i]? ≠ some (.validated plainToken userId role id) :=
  ⟨by decide, revoked_never_validated (Contract.run_play (apiTokenRequests _ _ _ 90).contract
    ⟨0, ⟨∅, []⟩⟩ tokenLife (by decide))⟩

end Runs

end Stellara.ApiTokens
