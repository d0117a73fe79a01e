import Stellara.Lib.Store
import Stellara.Lib.Tasks

/-!
# Refresh tokens

A refresh token is exchanged for a new pair of an access token and a refresh token: a request reads
the record of the token, which has to be unrevoked, then revokes it, and then stores the new one. A
logout revokes all tokens of a user at once, and a login stores a first one. Each access to the
table is a step of its own.

## Main definitions

* `RefreshToken`: the rows of the table
* `Point.resume`, `tokenRequests`: the requests, one access to the table after the other
* `Point.exchanges`: the token that a request exchanges, from its check on

## Main results

* `advance_of_resume`: what a step does
-/

namespace Stellara.RefreshTokens

structure RefreshToken where
  token : String
  userId : String
  expiresAt : ℕ
  revoked : Bool
  revokedAt : Option ℕ
deriving DecidableEq, Repr

/-- The table, by the ids of the rows. The token is a unique column. -/
abbrev RefreshTokenRepository := Store String RefreshToken

inductive UnauthorizedException where
  | invalidRefreshToken
  | refreshTokenRevoked
  | refreshTokenExpired
  | userInactive
deriving DecidableEq, Repr

def UnauthorizedException.message : UnauthorizedException → String
  | .invalidRefreshToken => "Invalid refresh token"
  | .refreshTokenRevoked => "Refresh token has been revoked"
  | .refreshTokenExpired => "Refresh token expired"
  | .userInactive => "User account is inactive"

/-- What comes from outside: whether the user of a token that is read is active, and the id and the
UUID of a token that is stored. -/
structure Input where
  isActive : Bool
  id : String
  token : String
deriving DecidableEq, Repr

def expirationDays : ℕ := 7

/-! ## The repository -/

def findOne (token : String) (repository : RefreshTokenRepository) :
    Option (String × RefreshToken) :=
  repository.find? fun _ r => r.token = token

/-- The save of a new row; `none` where its id or its token is taken. -/
def save (id : String) (r : RefreshToken) (repository : RefreshTokenRepository) :
    Option RefreshTokenRepository :=
  if (repository.lookup id).isSome ∨ (findOne r.token repository).isSome then none
  else some (repository.insert id r)

def revoke (now : ℕ) (r : RefreshToken) : RefreshToken :=
  { r with revoked := true, revokedAt := some now }

def updateRevoked (now : ℕ) (id : String) (repository : RefreshTokenRepository) :
    RefreshTokenRepository :=
  repository.mapValues fun id' r => if id' = id then revoke now r else r

def updateUserRevoked (now : ℕ) (userId : String) (repository : RefreshTokenRepository) :
    RefreshTokenRepository :=
  repository.mapValues fun _ r =>
    if r.userId = userId ∧ r.revoked = false then revoke now r else r

/-! ## Requests -/

/-- What a request is about to do. -/
inductive Point where
  | refreshAccessToken (refreshToken : String)
  /-- The record that was read passed the checks. -/
  | revokeRefreshToken (tokenId : String) (tokenRecord : RefreshToken)
  /-- A login, or the second half of an exchange of a token. -/
  | generateRefreshToken (tokenId : Option String) (userId : String)
  | revokeAllUserRefreshTokens (userId : String)
  /-- The new token, and the one that it was exchanged for. -/
  | issued (tokenId : Option String) (newId : String)
  | loggedOut (userId : String)
  | rejected (e : UnauthorizedException)
  /-- The new token could not be stored. -/
  | failed
deriving DecidableEq, Repr

/-- The checks of a record that was read. -/
def checkToken (now : ℕ) (isActive : Bool) (tokenRecord : Option (String × RefreshToken)) :
    Except UnauthorizedException (String × RefreshToken) := do
  let tokenRecord ← orAbort .invalidRefreshToken tokenRecord
  require (tokenRecord.2.revoked = false) .refreshTokenRevoked
  require (now ≤ tokenRecord.2.expiresAt) .refreshTokenExpired
  require (isActive = true) .userInactive
  .ok tokenRecord

def Point.resume (now : ℕ) (input : Input) (repository : RefreshTokenRepository) :
    Point → Option (Point × RefreshTokenRepository)
  | .refreshAccessToken refreshToken =>
    match checkToken now input.isActive (findOne refreshToken repository) with
    | .ok (tokenId, tokenRecord) => some (.revokeRefreshToken tokenId tokenRecord, repository)
    | .error e => some (.rejected e, repository)
  | .revokeRefreshToken tokenId tokenRecord =>
    some (.generateRefreshToken (some tokenId) tokenRecord.userId,
      updateRevoked now tokenId repository)
  | .generateRefreshToken tokenId userId =>
    let expiresAt := now + expirationDays * 24 * 60 * 60 * 1000
    match save input.id ⟨input.token, userId, expiresAt, false, none⟩ repository with
    | some repository' => some (.issued tokenId input.id, repository')
    | none => some (.failed, repository)
  | .revokeAllUserRefreshTokens userId =>
    some (.loggedOut userId, updateUserRevoked now userId repository)
  | _ => none

/-- The requests: exchanges, logins and logouts. -/
def tokenRequests : Async RefreshTokenRepository Point Input where
  starts _
    | .refreshAccessToken _ => true
    | .generateRefreshToken none _ => true
    | .revokeAllUserRefreshTokens _ => true
    | _ => false
  resume now input p repository := p.resume now input repository

/-- The token that the request exchanges, from the check of the token on. -/
def Point.exchanges : Point → Option String
  | .revokeRefreshToken tokenId _ => some tokenId
  | .generateRefreshToken tokenId _ => tokenId
  | .issued tokenId _ => tokenId
  | _ => none

/-- The token that passes the check in the step. -/
def Point.checks (now : ℕ) (input : Input) (repository : RefreshTokenRepository) :
    Point → Option String
  | .refreshAccessToken refreshToken =>
    match checkToken now input.isActive (findOne refreshToken repository) with
    | .ok (tokenId, _) => some tokenId
    | .error _ => none
  | _ => none

/-- The request is about to revoke the token for its exchange. -/
def Point.Revokes (tokenId : String) : Point → Prop
  | .revokeRefreshToken tokenId' _ => tokenId' = tokenId
  | _ => False

instance (tokenId : String) : DecidablePred (Point.Revokes tokenId)
  | .revokeRefreshToken _ _ => instDecidableEqString _ _
  | .refreshAccessToken _ | .generateRefreshToken _ _ | .revokeAllUserRefreshTokens _
  | .issued _ _ | .loggedOut _ | .rejected _ | .failed => instDecidableFalse

/-- The user whose token the request is exchanging. -/
def Point.exchangesFor : Point → Option String
  | .revokeRefreshToken _ tokenRecord => some tokenRecord.userId
  | .generateRefreshToken (some _) userId => some userId
  | _ => none

/-- The user whose tokens the step revokes. -/
def Point.logsOut : Point → Option String
  | .revokeAllUserRefreshTokens userId => some userId
  | _ => none

/-! ## Steps -/

section Steps

variable {now : ℕ} {input : Input} {repository repository' : RefreshTokenRepository} {p q : Point}
  {id id' token userId : String} {r r' : RefreshToken}

/-- What a step does. -/
inductive Advance (now : ℕ) (repository : RefreshTokenRepository) :
    Point → Point → RefreshTokenRepository → Prop
  | check {token tokenId : String} {r : RefreshToken} : repository.lookup tokenId = some r →
      r.revoked = false →
      Advance now repository (.refreshAccessToken token) (.revokeRefreshToken tokenId r) repository
  | reject {token : String} {e : UnauthorizedException} :
      Advance now repository (.refreshAccessToken token) (.rejected e) repository
  | revoke {tokenId : String} {r : RefreshToken} :
      Advance now repository (.revokeRefreshToken tokenId r)
        (.generateRefreshToken (some tokenId) r.userId) (updateRevoked now tokenId repository)
  | issue {tokenId : Option String} {userId newId : String} {r : RefreshToken} :
      repository.lookup newId = none → r.userId = userId →
      Advance now repository (.generateRefreshToken tokenId userId) (.issued tokenId newId)
        (repository.insert newId r)
  | fail {tokenId : Option String} {userId : String} :
      Advance now repository (.generateRefreshToken tokenId userId) .failed repository
  | logout {userId : String} :
      Advance now repository (.revokeAllUserRefreshTokens userId) (.loggedOut userId)
        (updateUserRevoked now userId repository)

theorem checkToken_eq_ok {isActive : Bool} {tokenRecord : Option (String × RefreshToken)}
    (h : checkToken now isActive tokenRecord = .ok (id, r)) :
    tokenRecord = some (id, r) ∧ r.revoked = false := by
  simp only [checkToken, Except.bind_eq_ok, orAbort_eq_ok, require_eq_ok, exists_const] at h
  obtain ⟨⟨id₀, r₀⟩, hread, hrevoked, -, -, h⟩ := h
  obtain ⟨rfl, rfl⟩ := Prod.mk.inj (Except.ok.inj h)
  exact ⟨hread, hrevoked⟩

theorem save_eq_some (h : save id r repository = some repository') :
    repository.lookup id = none ∧ repository' = repository.insert id r := by
  unfold save at h
  split at h
  · cases h
  · rename_i hfree
    rw [not_or] at hfree
    exact ⟨Option.not_isSome_iff_eq_none.mp hfree.1, (Option.some.inj h).symm⟩

theorem advance_of_resume (h : p.resume now input repository = some (q, repository')) :
    Advance now repository p q repository' := by
  cases p with
  | refreshAccessToken token =>
    simp only [Point.resume] at h
    split at h
    · rename_i id r hcheck
      obtain ⟨rfl, rfl⟩ := Prod.mk.inj (Option.some.inj h)
      obtain ⟨hread, hrevoked⟩ := checkToken_eq_ok hcheck
      exact .check (Store.find?_eq_some hread).1 hrevoked
    · obtain ⟨rfl, rfl⟩ := Prod.mk.inj (Option.some.inj h)
      exact .reject
  | revokeRefreshToken id r =>
    obtain ⟨rfl, rfl⟩ := Prod.mk.inj (Option.some.inj h)
    exact .revoke
  | generateRefreshToken id userId =>
    simp only [Point.resume] at h
    split at h
    · rename_i hsave
      obtain ⟨rfl, rfl⟩ := Prod.mk.inj (Option.some.inj h)
      obtain ⟨hfree, rfl⟩ := save_eq_some hsave
      exact .issue hfree rfl
    · obtain ⟨rfl, rfl⟩ := Prod.mk.inj (Option.some.inj h)
      exact .fail
  | revokeAllUserRefreshTokens userId =>
    obtain ⟨rfl, rfl⟩ := Prod.mk.inj (Option.some.inj h)
    exact .logout
  | _ => cases h

theorem lookup_updateRevoked : (updateRevoked now id repository).lookup id' =
    (repository.lookup id').map fun r => if id' = id then revoke now r else r :=
  Store.lookup_mapValues

theorem lookup_updateUserRevoked : (updateUserRevoked now userId repository).lookup id =
    (repository.lookup id).map fun r =>
      if r.userId = userId ∧ r.revoked = false then revoke now r else r :=
  Store.lookup_mapValues

/-- A row stays, with its user, and a revoked one stays revoked. -/
theorem Advance.lookup (h : Advance now repository p q repository')
    (hread : repository.lookup id = some r) :
    ∃ r', repository'.lookup id = some r' ∧ r'.userId = r.userId ∧
      (r.revoked = true → r'.revoked = true) := by
  cases h with
  | revoke =>
    rw [lookup_updateRevoked, hread]
    refine ⟨_, rfl, ?_⟩
    dsimp only
    split <;> simp [RefreshTokens.revoke]
  | issue hfree _ =>
    exact ⟨r, Store.lookup_insert_of_free hfree hread, rfl, fun hr => hr⟩
  | logout =>
    rw [lookup_updateUserRevoked, hread]
    refine ⟨_, rfl, ?_⟩
    dsimp only
    split <;> simp [RefreshTokens.revoke]
  | _ => exact ⟨r, hread, rfl, fun hr => hr⟩

end Steps

end Stellara.RefreshTokens
