import Stellara.Auth.Nonces
import Stellara.Auth.RefreshTokens
import Stellara.Auth.Wallets

/-!
# Sessions

The endpoints of the authentication API as one system. A wallet logs in by a signature of a nonce,
as the user to whom it is bound, or as a new one; the login returns an access token and a refresh
token. The refresh token is exchanged for another pair. Behind the guard, a request with an access
token binds or unbinds a wallet of its user, or logs the user out. Each access to a table is a step
of its own.

An access token is a text that the server signs. Its signature is taken to be unforgeable: a token
passes the check of the signature if it was signed before.

## Main definitions

* `AccessToken`, `Tables`: the signed tokens, and the tables
* `Point.resume`, `authRequests`: the requests, one access to a table after the other
* `WentOn log p P`: in the record of a run, a request went on from the point
-/

namespace Stellara.Sessions

open Auth (LoginNonce NonceRepository WalletDto signedMessage)
open RefreshTokens (RefreshToken RefreshTokenRepository)

/-- The payload of an access token, with its times in seconds. -/
structure AccessToken where
  sub : String
  iat : ℕ
  exp : ℕ
deriving DecidableEq, Repr

/-- `JWT_ACCESS_EXPIRATION`, by default 15 minutes. -/
def accessExpiration : ℕ := 15 * 60

inductive AuditMetadata where
  | wallet (publicKey : String)
  | expiresAt (time : ℕ)
deriving DecidableEq, Repr

structure AuditLog where
  actionType : String
  actorId : String
  entityId : String
  metadata : Option AuditMetadata
deriving DecidableEq, Repr

structure Tables where
  nonces : NonceRepository
  wallets : Wallets.Tables
  refreshTokens : RefreshTokenRepository
  /-- The access tokens that were signed so far. -/
  signed : List AccessToken
  auditLogs : List AuditLog

def Tables.empty : Tables := ⟨∅, ⟨[], ∅, []⟩, ∅, [], []⟩

/-- What comes from outside: the UUID of a nonce or of a refresh token, the id of a new row or the
choice of the database between rows, and whether a user that is read is active. -/
structure Input where
  uuid : String
  id : String
  isActive : Bool
deriving DecidableEq, Repr

/-! ## Tables -/

def Tables.logAction (s : Tables) (log : AuditLog) : Tables :=
  { s with auditLogs := s.auditLogs ++ [log] }

def deleteExpired (now : ℕ) (nonces : NonceRepository) : NonceRepository :=
  let expired := nonces.keys.filter fun nonce =>
    (nonces.lookup nonce).any fun l => l.expiresAt < now
  expired.foldl (fun nonces nonce => nonces.erase nonce) nonces

def updateLastUsed (now : ℕ) (publicKey : String) (wallets : Wallets.Tables) : Wallets.Tables :=
  { wallets with
    bindings := wallets.bindings.mapValues fun _ b =>
      if b.publicKey = publicKey then { b with lastUsed := now } else b }

/-! ## Requests -/

/-- What a wallet signs a nonce for. -/
inductive Purpose where
  | login
  | bind (userId : String)
deriving DecidableEq, Repr

/-- The requests behind the guard. -/
inductive Action where
  | bindWallet (dto : WalletDto)
  | unbindWallet (publicKey : String)
  | logout
deriving DecidableEq, Repr

/-- What a request is about to do. -/
inductive Point where
  | requestNonce (publicKey : String)
  | nonceReturned (loginNonce : Option LoginNonce)
  | cleanupExpiredNonces
  /-- `walletLogin` and `bindWallet`, from their start. -/
  | validateNonce (purpose : Purpose) (dto : WalletDto)
  | verifySignature (purpose : Purpose) (dto : WalletDto)
  | markNonceUsed (purpose : Purpose) (dto : WalletDto)
  | findUserByWallet (dto : WalletDto)
  | creating (dto : WalletDto) (p : Wallets.Point)
  | auditUserCreated (dto : WalletDto) (userId : String)
  | updateLastUsed (dto : WalletDto) (userId : String)
  /-- The guard. -/
  | guarded (token : AccessToken) (action : Action)
  | findUser (userId : String) (action : Action)
  | binding (dto : WalletDto) (userId : String) (p : Wallets.Point)
  | unbinding (p : Wallets.Point)
  | revokeAllUserRefreshTokens (userId : String)
  | refreshAccessToken (refreshToken : String)
  | revokeRefreshToken (tokenId : String) (tokenRecord : RefreshToken)
  | auditTokenRevoked (tokenId userId : String)
  /-- The end of a login, or of an exchange of a refresh token. -/
  | generateAccessToken (tokenId : Option String) (userId : String)
  | generateRefreshToken (tokenId : Option String) (userId : String) (accessToken : AccessToken)
  | auditTokenCreated (tokenId : Option String) (userId : String) (accessToken : AccessToken)
      (newId : String) (expiresAt : ℕ)
  | auditTokenRefreshed (tokenId userId : String) (accessToken : AccessToken) (newId : String)
  | issued (userId : String) (accessToken : AccessToken) (newId : String)
  | done
  | rejected (message : String)
  /-- A row could not be stored. -/
  | failed
deriving DecidableEq, Repr

/-- What a request does that passed the guard. -/
def Action.start (userId : String) : Action → Point
  | .bindWallet dto => .validateNonce (.bind userId) dto
  | .unbindWallet publicKey => .unbinding (.findOwn publicKey userId)
  | .logout => .revokeAllUserRefreshTokens userId

/-- What a request does that proved to hold the key of its wallet. -/
def Purpose.next (dto : WalletDto) : Purpose → Point
  | .login => .findUserByWallet dto
  | .bind userId => .binding dto userId (.findExisting dto.publicKey userId false)

/-- The end of a request to the wallet service, or where it goes on. -/
def afterWallets (goOn : Wallets.Point → Point) (last : Point) : Wallets.Point → Point
  | .bound _ | .unbound => last
  | .rejected e => .rejected e.message
  | .failed => .failed
  | p => goOn p

/-- The user of a wallet that is being bound. -/
def userOf : Wallets.Point → String
  | .findExisting _ userId _ | .clearPrimaries _ userId | .saveBinding _ userId _ => userId
  | _ => ""

section Requests

variable (verifySignature : String → String → String → Bool)

def Point.resume (now : ℕ) (input : Input) (s : Tables) : Point → Option (Point × Tables)
  | .requestNonce publicKey =>
    match Auth.generateNonce now input.uuid publicKey s.nonces with
    | some (loginNonce, nonces) => some (.nonceReturned (some loginNonce), { s with nonces })
    | none => some (.nonceReturned none, s)
  | .cleanupExpiredNonces => some (.done, { s with nonces := deleteExpired now s.nonces })
  | .validateNonce purpose dto =>
    match Auth.validateNonce now dto.nonce dto.publicKey s.nonces with
    | .ok _ => some (.verifySignature purpose dto, s)
    | .error e => some (.rejected e.message, s)
  | .verifySignature purpose dto =>
    if verifySignature dto.publicKey dto.signature (signedMessage dto.nonce) then
      some (.markNonceUsed purpose dto, s)
    else some (.rejected Auth.LoginError.invalidSignature.message, s)
  | .markNonceUsed purpose dto =>
    some (purpose.next dto, { s with nonces := Auth.markNonceUsed dto.nonce s.nonces })
  | .findUserByWallet dto =>
    match s.wallets.bindings.find? fun _ b => b.publicKey = dto.publicKey with
    | some (_, b) => some (.updateLastUsed dto b.userId, s)
    | none => some (.creating dto (.createUserWithWallet dto.publicKey), s)
  | .creating dto p =>
    (p.resume now input.id s.wallets).map fun (q, wallets) =>
      (afterWallets (.creating dto) (.auditUserCreated dto (userOf p)) q, { s with wallets })
  | .auditUserCreated dto userId =>
    some (.updateLastUsed dto userId,
      s.logAction ⟨"USER_CREATED", userId, userId, some (.wallet dto.publicKey)⟩)
  | .updateLastUsed dto userId =>
    some (.generateAccessToken none userId,
      { s with wallets := Sessions.updateLastUsed now dto.publicKey s.wallets })
  | .guarded token action =>
    if token ∈ s.signed ∧ now / 1000 < token.exp then some (.findUser token.sub action, s)
    else some (.rejected "Unauthorized", s)
  | .findUser userId action =>
    if userId ∉ s.wallets.users then some (.rejected "User not found", s)
    else if input.isActive then some (action.start userId, s)
    else some (.rejected "User account is inactive", s)
  | .binding dto userId p =>
    (p.resume now input.id s.wallets).map fun (q, wallets) =>
      (afterWallets (.binding dto userId) .done q, { s with wallets })
  | .unbinding p =>
    (p.resume now input.id s.wallets).map fun (q, wallets) =>
      (afterWallets .unbinding .done q, { s with wallets })
  | .revokeAllUserRefreshTokens userId =>
    some (.done,
      { s with refreshTokens := RefreshTokens.updateUserRevoked now userId s.refreshTokens })
  | .refreshAccessToken refreshToken =>
    match RefreshTokens.checkToken now input.isActive
        (RefreshTokens.findOne refreshToken s.refreshTokens) with
    | .ok (tokenId, tokenRecord) => some (.revokeRefreshToken tokenId tokenRecord, s)
    | .error e => some (.rejected e.message, s)
  | .revokeRefreshToken tokenId tokenRecord =>
    some (.auditTokenRevoked tokenId tokenRecord.userId,
      { s with refreshTokens := RefreshTokens.updateRevoked now tokenId s.refreshTokens })
  | .auditTokenRevoked tokenId userId =>
    -- the actor is the token, not its user
    some (.generateAccessToken (some tokenId) userId,
      s.logAction ⟨"REFRESH_TOKEN_REVOKED", tokenId, tokenId, none⟩)
  | .generateAccessToken tokenId userId =>
    let accessToken : AccessToken := ⟨userId, now / 1000, now / 1000 + accessExpiration⟩
    some (.generateRefreshToken tokenId userId accessToken,
      { s with signed := s.signed ++ [accessToken] })
  | .generateRefreshToken tokenId userId accessToken =>
    let expiresAt := now + RefreshTokens.expirationDays * 24 * 60 * 60 * 1000
    match RefreshTokens.save input.id ⟨input.uuid, userId, expiresAt, false, none⟩
        s.refreshTokens with
    | some refreshTokens =>
      some (.auditTokenCreated tokenId userId accessToken input.id expiresAt,
        { s with refreshTokens })
    | none => some (.failed, s)
  | .auditTokenCreated tokenId userId accessToken newId expiresAt =>
    let s' := s.logAction ⟨"REFRESH_TOKEN_CREATED", userId, newId, some (.expiresAt expiresAt)⟩
    match tokenId with
    | some tokenId => some (.auditTokenRefreshed tokenId userId accessToken newId, s')
    | none => some (.issued userId accessToken newId, s')
  | .auditTokenRefreshed tokenId userId accessToken newId =>
    some (.issued userId accessToken newId,
      s.logAction ⟨"ACCESS_TOKEN_REFRESHED", userId, tokenId, none⟩)
  | _ => none

end Requests

/-! ## The record of a run -/

abbrev AuthLog := Async.Log Tables Point Input

/-- A request went on from the point, at a time, with an input and tables that meet `P`. -/
def WentOn (log : AuthLog) (p : Point) (P : ℕ → Input → Tables → Prop) : Prop :=
  ∃ c ∈ log, ∃ i input, c.call = .resume i input ∧ c.before.points[i]? = some p ∧
    P c.time input c.before.shared

theorem WentOn.mono {log log' : AuthLog} {p : Point} {P : ℕ → Input → Tables → Prop}
    (hsub : log ⊆ log') (h : WentOn log p P) : WentOn log' p P := by
  obtain ⟨c, hc, hwent⟩ := h
  exact ⟨c, hsub hc, hwent⟩

end Stellara.Sessions
