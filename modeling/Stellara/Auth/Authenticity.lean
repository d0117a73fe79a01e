import Stellara.Auth.Sessions

/-!
# Who is behind a token

Every token was issued in a session that began with a login, in which the key of a wallet signed a
nonce that was returned for this wallet at most five minutes before. The wallet was bound to the
user of the token when it was looked up, or the login created the user. A wallet is bound to a user
by the login that created the user, or by a request with an access token of the user that is signed
by the key of the wallet as well. So every wallet and every token of a user goes back, by a chain
of signatures, to the login that created the user.

## Main definitions

* `Proved`: a signature of a nonce that was returned for the wallet in time
* `Controls log publicKey userId`: the chain of signatures by which a wallet was bound to a user
* `LoggedIn`: the login behind a session
* `Authentic`: the tokens and the wallets of users have such evidence

## Main results

* `binds_step`, `unbinds_step`: what a step of the wallet service keeps
* `Kept.step`: what a step of a request keeps
* `authentic_of_run`: every interleaving of requests
-/

namespace Stellara.Sessions

open Auth (LoginNonce NonceRepository WalletDto signedMessage)
open RefreshTokens (RefreshToken RefreshTokenRepository)

/-! ## Evidence -/

section Evidence

variable (verifySignature : String → String → String → Bool) (log : AuthLog)

/-- The nonce was free when it was requested for the wallet, so that it was stored and returned. It
passed its validation, before it expired. -/
def NonceValid (purpose : Purpose) (dto : WalletDto) : Prop :=
  ∃ time, WentOn log (.requestNonce dto.publicKey)
      (fun t input s => t = time ∧ input.uuid = dto.nonce ∧ s.nonces.lookup dto.nonce = none) ∧
    WentOn log (.validateNonce purpose dto) fun t _ s =>
      t ≤ time + Auth.nonceExpirationMinutes * 60 * 1000 ∧
        ∃ loginNonce, Auth.validateNonce t dto.nonce dto.publicKey s.nonces = .ok loginNonce

/-- The key of the wallet signed a valid nonce. -/
def Proved (purpose : Purpose) (dto : WalletDto) : Prop :=
  NonceValid log purpose dto ∧
    verifySignature dto.publicKey dto.signature (signedMessage dto.nonce) = true

/-- The login created the user. -/
def Created (dto : WalletDto) (userId : String) : Prop :=
  WentOn log (.creating dto (.createUserWithWallet dto.publicKey))
    fun _ input s => input.id = userId ∧ userId ∉ s.wallets.users

/-- The wallet of the login was bound to the user. -/
def Found (dto : WalletDto) (userId : String) : Prop :=
  WentOn log (.findUserByWallet dto) fun _ _ s =>
    ∃ id b, s.wallets.bindings.lookup id = some b ∧ b.publicKey = dto.publicKey ∧ b.userId = userId

/-- The wallet logged in as the user. -/
def LoggedInBy (dto : WalletDto) (userId : String) : Prop :=
  Proved verifySignature log .login dto ∧ (Created log dto userId ∨ Found log dto userId)

/-- The request came with a token of the user, which was signed and had not expired. -/
def Authorized (userId : String) (action : Action) : Prop :=
  ∃ token, token.sub = userId ∧
    WentOn log (.guarded token action) fun t _ s => token ∈ s.signed ∧ t / 1000 < token.exp

/-- The wallet of the login that created the user, and the wallets that were bound to the user in a
session of a wallet that is. -/
inductive Controls : String → String → Prop
  | created {dto : WalletDto} {userId : String} :
      Proved verifySignature log .login dto → Created log dto userId →
      Controls dto.publicKey userId
  | bound {dto dto' : WalletDto} {userId : String} :
      Controls dto'.publicKey userId → LoggedInBy verifySignature log dto' userId →
      Authorized log userId (.bindWallet dto) →
      Proved verifySignature log (.bind userId) dto → Controls dto.publicKey userId

/-- The user is logged in by a wallet. -/
def LoggedIn (userId : String) : Prop :=
  ∃ dto, Controls verifySignature log dto.publicKey userId ∧
    LoggedInBy verifySignature log dto userId

end Evidence

section Mono

variable {verifySignature : String → String → String → Bool} {log log' : AuthLog}
  {purpose : Purpose} {dto : WalletDto} {publicKey userId : String} {action : Action}

theorem NonceValid.mono (hsub : log ⊆ log') (h : NonceValid log purpose dto) :
    NonceValid log' purpose dto := by
  obtain ⟨time, hreturned, hvalidated⟩ := h
  exact ⟨time, hreturned.mono hsub, hvalidated.mono hsub⟩

theorem Proved.mono (hsub : log ⊆ log') (h : Proved verifySignature log purpose dto) :
    Proved verifySignature log' purpose dto := ⟨h.1.mono hsub, h.2⟩

theorem Created.mono (hsub : log ⊆ log') (h : Created log dto userId) :
    Created log' dto userId := WentOn.mono hsub h

theorem LoggedInBy.mono (hsub : log ⊆ log') (h : LoggedInBy verifySignature log dto userId) :
    LoggedInBy verifySignature log' dto userId :=
  ⟨h.1.mono hsub, h.2.imp (WentOn.mono hsub) (WentOn.mono hsub)⟩

theorem Authorized.mono (hsub : log ⊆ log') (h : Authorized log userId action) :
    Authorized log' userId action := by
  obtain ⟨token, hsub', hwent⟩ := h
  exact ⟨token, hsub', hwent.mono hsub⟩

theorem Controls.mono (hsub : log ⊆ log') (h : Controls verifySignature log publicKey userId) :
    Controls verifySignature log' publicKey userId := by
  induction h with
  | created hproved hcreated => exact .created (hproved.mono hsub) (hcreated.mono hsub)
  | bound _ hlogin hauthorized hproved ih =>
    exact .bound ih (hlogin.mono hsub) (hauthorized.mono hsub) (hproved.mono hsub)

theorem LoggedIn.mono (hsub : log ⊆ log') (h : LoggedIn verifySignature log userId) :
    LoggedIn verifySignature log' userId := by
  obtain ⟨dto, hcontrols, hlogin⟩ := h
  exact ⟨dto, hcontrols.mono hsub, hlogin.mono hsub⟩

end Mono

/-! ## The wallet service -/

section WalletService

variable {C : String → String → Prop} {s s' : Wallets.Tables} {p q : Wallets.Point}
  {publicKey userId : String}

/-- The wallets meet a relation with their users, whose first wallet was stored. -/
def WalletsMeet (C : String → String → Prop) (s : Wallets.Tables) : Prop :=
  ∀ id b, s.bindings.lookup id = some b → C b.publicKey b.userId ∧ b.userId ∈ s.bound

/-- The request binds the wallet to the user. -/
def BindsTo (publicKey userId : String) : Wallets.Point → Prop
  | .findExisting publicKey' userId' _ | .clearPrimaries publicKey' userId'
  | .saveBinding publicKey' userId' _ => publicKey' = publicKey ∧ userId' = userId
  | _ => False

/-- The request unbinds a wallet, and stores none but one that it has loaded. -/
def Unbinds (C : String → String → Prop) (bound : List String) : Wallets.Point → Prop
  | .findOwn _ _ | .countWallets _ _ | .remove _ _ | .findAnother _ => True
  | .promote _ b => C b.publicKey b.userId ∧ b.userId ∈ bound
  | _ => False

/-- The request to the wallet service has failed. -/
def Refused : Wallets.Point → Prop
  | .rejected _ | .failed => True
  | _ => False

/-- The users whose first wallet was stored stay so. -/
theorem bound_subset_of_advance (h : Wallets.Advance s p q s') : s.bound ⊆ s'.bound := by
  cases h with
  | saved _ _ _ _ _ => exact List.subset_cons_self _ _
  | _ => exact List.Subset.refl _

/-- A wallet that is bound to a user meets the relation if this does. -/
theorem binds_step (h : Wallets.Advance s p q s') (hp : BindsTo publicKey userId p)
    (hC : C publicKey userId) (hs : WalletsMeet C s) :
    WalletsMeet C s' ∧
      (BindsTo publicKey userId q ∨ (∃ id, q = .bound id) ∧ userId ∈ s'.bound ∨ Refused q) := by
  cases h with
  | clear => exact ⟨hs, .inl hp⟩
  | bind => exact ⟨hs, .inl hp⟩
  | cleared =>
    refine ⟨fun id b hread => ?_, .inl hp⟩
    dsimp only at hread
    rw [Wallets.updateNotPrimary, Store.lookup_mapValues] at hread
    obtain ⟨b₀, hread₀, rfl⟩ := Option.map_eq_some_iff.mp hread
    -- only the mark of the primary wallet changes
    split
    · exact hs id b₀ hread₀
    · exact hs id b₀ hread₀
  | @saved _ _ id _ b hfree _ hkey huser _ =>
    obtain ⟨rfl, rfl⟩ := hp
    refine ⟨fun id' b' hread => ?_, .inr (.inl ⟨⟨id, rfl⟩, List.mem_cons_self⟩)⟩
    rcases Store.eq_or_lookup_of_insert hread with ⟨rfl, rfl⟩ | ⟨-, hold⟩
    · rw [hkey, huser]
      exact ⟨hC, List.mem_cons_self⟩
    · exact ⟨(hs id' b' hold).1, List.mem_cons_of_mem _ (hs id' b' hold).2⟩
  | reject _ _ => exact ⟨hs, .inr (.inr trivial)⟩
  | fail _ _ => exact ⟨hs, .inr (.inr trivial)⟩
  | _ => exact absurd hp id

/-- Where a wallet is unbound, another one is stored again as it was loaded. -/
theorem unbinds_step (h : Wallets.Advance s p q s') (hp : Unbinds C s.bound p)
    (hs : WalletsMeet C s) :
    WalletsMeet C s' ∧ s'.bound = s.bound ∧
      (Unbinds C s.bound q ∨ q = .unbound ∨ Refused q) := by
  cases h with
  | owned _ => exact ⟨hs, rfl, .inl trivial⟩
  | counted => exact ⟨hs, rfl, .inl trivial⟩
  | @removed id b =>
    refine ⟨fun id' b' hread => ?_, rfl, ?_⟩
    · dsimp only at hread
      rw [Store.lookup_erase_ite] at hread
      split at hread
      · cases hread
      · exact hs id' b' hread
    · split
      · exact .inl trivial
      · exact .inr (.inl rfl)
  | another hread => exact ⟨hs, rfl, .inl (hs _ _ hread)⟩
  | alone _ => exact ⟨hs, rfl, .inr (.inl rfl)⟩
  | @promoted id b _ =>
    refine ⟨fun id' b' hread => ?_, rfl, .inr (.inl rfl)⟩
    rcases Store.eq_or_lookup_of_insert hread with ⟨rfl, rfl⟩ | ⟨-, hold⟩
    · exact hp
    · exact hs id' b' hold
  | notPromoted _ => exact ⟨hs, rfl, .inr (.inr trivial)⟩
  | reject _ _ => exact ⟨hs, rfl, .inr (.inr trivial)⟩
  | fail _ _ => exact ⟨hs, rfl, .inr (.inr trivial)⟩
  | _ => exact absurd hp id

theorem WalletsMeet.updateLastUsed {now : ℕ} (h : WalletsMeet C s) :
    WalletsMeet C (Sessions.updateLastUsed now publicKey s) := by
  intro id b hread
  rw [Sessions.updateLastUsed] at hread
  dsimp only at hread
  rw [Store.lookup_mapValues] at hread
  obtain ⟨b₀, hread₀, rfl⟩ := Option.map_eq_some_iff.mp hread
  split
  · exact h id b₀ hread₀
  · exact h id b₀ hread₀

end WalletService

/-! ## Requests -/

section Requests

variable (verifySignature : String → String → String → Bool) (log : AuthLog)

/-- The user is logged in, and has had a wallet stored. -/
def Known (bound : List String) (userId : String) : Prop :=
  LoggedIn verifySignature log userId ∧ userId ∈ bound

/-- The request may go on once its wallet is proved. -/
def Entitled (dto : WalletDto) : Purpose → Prop
  | .login => True
  | .bind userId =>
    Authorized log userId (.bindWallet dto) ∧ LoggedIn verifySignature log userId

/-- What a request has shown so far. -/
def UnderWay (bound : List String) : Point → Prop
  | .validateNonce purpose dto => Entitled verifySignature log dto purpose
  | .verifySignature purpose dto =>
    Entitled verifySignature log dto purpose ∧ NonceValid log purpose dto
  | .markNonceUsed purpose dto =>
    Entitled verifySignature log dto purpose ∧ Proved verifySignature log purpose dto
  | .findUserByWallet dto => Proved verifySignature log .login dto
  | .creating dto p =>
    Proved verifySignature log .login dto ∧ (p = .createUserWithWallet dto.publicKey ∨
      ∃ userId, Created log dto userId ∧ BindsTo dto.publicKey userId p)
  | .findUser userId action =>
    Authorized log userId action ∧ LoggedIn verifySignature log userId
  | .binding dto userId p =>
    Controls verifySignature log dto.publicKey userId ∧ BindsTo dto.publicKey userId p
  | .unbinding p => Unbinds (Controls verifySignature log) bound p
  | .auditUserCreated _ userId | .updateLastUsed _ userId | .auditTokenRevoked _ userId
  | .generateAccessToken _ userId | .generateRefreshToken _ userId _ =>
    Known verifySignature log bound userId
  | .revokeRefreshToken _ tokenRecord => Known verifySignature log bound tokenRecord.userId
  | _ => True

/-- What is known of the tables. -/
structure Kept (s : Tables) : Prop where
  nonces : ∀ nonce l, s.nonces.lookup nonce = some l →
    WentOn log (.requestNonce l.publicKey) fun t input s₀ => input.uuid = nonce ∧
      s₀.nonces.lookup nonce = none ∧ l.expiresAt = t + Auth.nonceExpirationMinutes * 60 * 1000
  wallets : WalletsMeet (Controls verifySignature log) s.wallets
  signed : ∀ token ∈ s.signed, Known verifySignature log s.wallets.bound token.sub
  refreshTokens : ∀ id r, s.refreshTokens.lookup id = some r →
    Known verifySignature log s.wallets.bound r.userId

end Requests

section Steps

variable {verifySignature : String → String → String → Bool} {log log' : AuthLog}
  {bound bound' : List String} {s s' : Tables} {p q : Point} {now : ℕ} {input : Input}
  {dto : WalletDto} {userId publicKey : String}

theorem Known.mono (hsub : log ⊆ log') (hbound : bound ⊆ bound')
    (h : Known verifySignature log bound userId) : Known verifySignature log' bound' userId :=
  ⟨h.1.mono hsub, hbound h.2⟩

theorem Entitled.mono {purpose : Purpose} (hsub : log ⊆ log')
    (h : Entitled verifySignature log dto purpose) : Entitled verifySignature log' dto purpose := by
  cases purpose with
  | login => trivial
  | bind userId => exact ⟨h.1.mono hsub, h.2.mono hsub⟩

theorem UnderWay.mono (hsub : log ⊆ log') (hbound : bound ⊆ bound')
    (h : UnderWay verifySignature log bound p) : UnderWay verifySignature log' bound' p := by
  cases p with
  | validateNonce purpose dto => exact Entitled.mono hsub h
  | verifySignature purpose dto => exact ⟨h.1.mono hsub, h.2.mono hsub⟩
  | markNonceUsed purpose dto => exact ⟨h.1.mono hsub, h.2.mono hsub⟩
  | findUserByWallet dto => exact Proved.mono hsub h
  | creating dto p =>
    refine ⟨h.1.mono hsub, h.2.imp_right ?_⟩
    rintro ⟨userId, hcreated, hbinds⟩
    exact ⟨userId, hcreated.mono hsub, hbinds⟩
  | findUser userId action => exact ⟨h.1.mono hsub, h.2.mono hsub⟩
  | binding dto userId p => exact ⟨h.1.mono hsub, h.2⟩
  | unbinding p =>
    cases p with
    | promote id b => exact ⟨h.1.mono hsub, hbound h.2⟩
    | findOwn _ _ | countWallets _ _ | remove _ _ | findAnother _ => trivial
    | _ => exact absurd h id
  | auditUserCreated _ _ | updateLastUsed _ _ | auditTokenRevoked _ _ | generateAccessToken _ _
  | generateRefreshToken _ _ _ | revokeRefreshToken _ _ => exact Known.mono hsub hbound h
  | _ => trivial

theorem Kept.mono (hsub : log ⊆ log') (h : Kept verifySignature log s) :
    Kept verifySignature log' s where
  nonces nonce l hread := (h.nonces nonce l hread).mono hsub
  wallets id b hread := ⟨(h.wallets id b hread).1.mono hsub, (h.wallets id b hread).2⟩
  signed token htoken := (h.signed token htoken).mono hsub (List.Subset.refl _)
  refreshTokens id r hread := (h.refreshTokens id r hread).mono hsub (List.Subset.refl _)

/-- The tables with other nonces. -/
theorem Kept.setNonces {nonces : NonceRepository} (h : Kept verifySignature log s)
    (hnonces : ∀ nonce l, nonces.lookup nonce = some l →
      WentOn log (.requestNonce l.publicKey) fun t input s₀ => input.uuid = nonce ∧
        s₀.nonces.lookup nonce = none ∧
        l.expiresAt = t + Auth.nonceExpirationMinutes * 60 * 1000) :
    Kept verifySignature log { s with nonces } :=
  ⟨hnonces, h.wallets, h.signed, h.refreshTokens⟩

/-- The tables with other wallets. -/
theorem Kept.setWallets {wallets : Wallets.Tables} (h : Kept verifySignature log s)
    (hwallets : WalletsMeet (Controls verifySignature log) wallets)
    (hbound : s.wallets.bound ⊆ wallets.bound) :
    Kept verifySignature log { s with wallets } where
  nonces := h.nonces
  wallets := hwallets
  signed token htoken := (h.signed token htoken).mono (List.Subset.refl _) hbound
  refreshTokens id r hread := (h.refreshTokens id r hread).mono (List.Subset.refl _) hbound

/-- The tables with other refresh tokens. -/
theorem Kept.setRefreshTokens {refreshTokens : RefreshTokenRepository}
    (h : Kept verifySignature log s)
    (htokens : ∀ id r, refreshTokens.lookup id = some r →
      Known verifySignature log s.wallets.bound r.userId) :
    Kept verifySignature log { s with refreshTokens } :=
  ⟨h.nonces, h.wallets, h.signed, htokens⟩

theorem Kept.logAction {entry : AuditLog} (h : Kept verifySignature log s) :
    Kept verifySignature log (s.logAction entry) :=
  ⟨h.nonces, h.wallets, h.signed, h.refreshTokens⟩

theorem afterWallets_of_binds {goOn : Wallets.Point → Point} {last : Point} {p : Wallets.Point}
    (h : BindsTo publicKey userId p) : afterWallets goOn last p = goOn p := by
  cases p with
  | findExisting _ _ _ | clearPrimaries _ _ | saveBinding _ _ _ => rfl
  | _ => exact absurd h id

theorem afterWallets_of_unbinds {C : String → String → Prop} {goOn : Wallets.Point → Point}
    {last : Point} {p : Wallets.Point} (h : Unbinds C bound p) :
    afterWallets goOn last p = goOn p := by
  cases p with
  | findOwn _ _ | countWallets _ _ | remove _ _ | findAnother _ | promote _ _ => rfl
  | _ => exact absurd h id

theorem underWay_of_refused {goOn : Wallets.Point → Point} {last : Point} {p : Wallets.Point}
    (h : Refused p) : UnderWay verifySignature log bound (afterWallets goOn last p) := by
  cases p with
  | rejected _ | failed => trivial
  | _ => exact absurd h id

theorem userOf_of_binds {p : Wallets.Point} (h : BindsTo publicKey userId p) :
    userOf p = userId := by
  cases p with
  | findExisting _ _ _ | clearPrimaries _ _ | saveBinding _ _ _ => exact h.2
  | _ => exact absurd h id

/-! ## Steps -/

/-- In the record a request went on from the point, with these tables. -/
def WentFrom (log : AuthLog) (p : Point) (now : ℕ) (input : Input) (s : Tables) : Prop :=
  ∃ c ∈ log, ∃ i, c.call = .resume i input ∧ c.before.points[i]? = some p ∧ c.time = now ∧
    c.before.shared = s

theorem WentFrom.wentOn {P : ℕ → Input → Tables → Prop} (h : WentFrom log p now input s)
    (hP : P now input s) : WentOn log p P := by
  obtain ⟨c, hc, i, hcall, hp, rfl, rfl⟩ := h
  exact ⟨c, hc, i, input, hcall, hp, hP⟩

variable (verifySignature log) in
/-- A step leaves this of the tables and of its request. -/
def Leaves (s' : Tables) (q : Point) : Prop :=
  Kept verifySignature log s' ∧ UnderWay verifySignature log s'.wallets.bound q

theorem leaves_requestNonce (hkept : Kept verifySignature log s)
    (hwent : WentFrom log (.requestNonce publicKey) now input s)
    (h : Point.resume verifySignature now input s (.requestNonce publicKey) = some (q, s')) :
    Leaves verifySignature log s' q := by
  unfold Point.resume at h
  dsimp only at h
  cases hnew : Auth.generateNonce now input.uuid publicKey s.nonces with
  | none =>
    rw [hnew] at h
    obtain ⟨rfl, rfl⟩ := Prod.mk.inj (Option.some.inj h)
    exact ⟨hkept, trivial⟩
  | some new =>
    rw [hnew] at h
    obtain ⟨rfl, rfl⟩ := Prod.mk.inj (Option.some.inj h)
    simp only [Auth.generateNonce] at hnew
    split at hnew
    · cases hnew
    · rename_i hfree
      obtain rfl := Option.some.inj hnew
      refine ⟨hkept.setNonces fun nonce l hread => ?_, trivial⟩
      rcases Store.eq_or_lookup_of_insert hread with ⟨rfl, rfl⟩ | ⟨-, hold⟩
      · exact hwent.wentOn ⟨rfl, Option.not_isSome_iff_eq_none.mp hfree, rfl⟩
      · exact hkept.nonces nonce l hold

theorem leaves_cleanup (hkept : Kept verifySignature log s) :
    Kept verifySignature log { s with nonces := deleteExpired now s.nonces } := by
  refine hkept.setNonces fun nonce l hread => ?_
  simp only [deleteExpired, Store.lookup_foldl_erase] at hread
  split at hread
  · cases hread
  · exact hkept.nonces nonce l hread

theorem leaves_validateNonce {purpose : Purpose} (hkept : Kept verifySignature log s)
    (hunderWay : UnderWay verifySignature log s.wallets.bound (.validateNonce purpose dto))
    (hwent : WentFrom log (.validateNonce purpose dto) now input s)
    (h : Point.resume verifySignature now input s (.validateNonce purpose dto) = some (q, s')) :
    Leaves verifySignature log s' q := by
  unfold Point.resume at h
  dsimp only at h
  cases hvalid : Auth.validateNonce now dto.nonce dto.publicKey s.nonces with
  | error e =>
    rw [hvalid] at h
    obtain ⟨rfl, rfl⟩ := Prod.mk.inj (Option.some.inj h)
    exact ⟨hkept, trivial⟩
  | ok l =>
    rw [hvalid] at h
    obtain ⟨rfl, rfl⟩ := Prod.mk.inj (Option.some.inj h)
    have hpassed := hvalid
    simp only [Auth.validateNonce, Except.bind_eq_ok, orAbort_eq_ok, require_eq_ok, exists_const,
      Option.filter_eq_some_iff] at hvalid
    obtain ⟨l', ⟨hread, hkey⟩, -, htime, -⟩ := hvalid
    -- the record was stored when the nonce was returned
    obtain ⟨c, hc, i, input', hcall, hp, huuid, hfree, hexpires⟩ := hkept.nonces dto.nonce l' hread
    rw [of_decide_eq_true hkey] at hp
    refine ⟨hkept, hunderWay, c.time, ⟨c, hc, i, input', hcall, hp, rfl, huuid, hfree⟩, ?_⟩
    rw [hexpires] at htime
    exact hwent.wentOn ⟨htime, l, hpassed⟩

theorem leaves_markNonceUsed {purpose : Purpose} (hkept : Kept verifySignature log s)
    (hunderWay : UnderWay verifySignature log s.wallets.bound (.markNonceUsed purpose dto)) :
    Leaves verifySignature log { s with nonces := Auth.markNonceUsed dto.nonce s.nonces }
      (purpose.next dto) := by
  obtain ⟨hentitled, hproved⟩ := hunderWay
  constructor
  · refine hkept.setNonces fun nonce l hread => ?_
    simp only [Auth.markNonceUsed] at hread
    split at hread
    · rename_i l₀ hread₀
      rcases Store.eq_or_lookup_of_insert hread with ⟨rfl, rfl⟩ | ⟨-, hold⟩
      · exact hkept.nonces _ l₀ hread₀
      · exact hkept.nonces nonce l hold
    · exact hkept.nonces nonce l hread
  · cases purpose with
    | login => exact hproved
    | bind userId =>
      obtain ⟨hauthorized, dto', hcontrols, hlogin⟩ := hentitled
      exact ⟨.bound hcontrols hlogin hauthorized hproved, rfl, rfl⟩

theorem leaves_findUserByWallet (hkept : Kept verifySignature log s)
    (hproved : Proved verifySignature log .login dto)
    (hwent : WentFrom log (.findUserByWallet dto) now input s)
    (h : Point.resume verifySignature now input s (.findUserByWallet dto) = some (q, s')) :
    Leaves verifySignature log s' q := by
  unfold Point.resume at h
  dsimp only at h
  cases hfind : s.wallets.bindings.find? fun _ b => b.publicKey = dto.publicKey with
  | none =>
    rw [hfind] at h
    obtain ⟨rfl, rfl⟩ := Prod.mk.inj (Option.some.inj h)
    exact ⟨hkept, hproved, .inl rfl⟩
  | some entry =>
    rw [hfind] at h
    obtain ⟨rfl, rfl⟩ := Prod.mk.inj (Option.some.inj h)
    obtain ⟨id, b⟩ := entry
    obtain ⟨hread, hkey⟩ := Store.find?_eq_some hfind
    obtain ⟨hcontrols, hbound⟩ := hkept.wallets id b hread
    have hkey : b.publicKey = dto.publicKey := of_decide_eq_true hkey
    have hfound : Found log dto b.userId := hwent.wentOn ⟨id, b, hread, hkey, rfl⟩
    exact ⟨hkept, ⟨dto, hkey ▸ hcontrols, hproved, .inr hfound⟩, hbound⟩

theorem leaves_creating {p : Wallets.Point} (hkept : Kept verifySignature log s)
    (hunderWay : UnderWay verifySignature log s.wallets.bound (.creating dto p))
    (hwent : WentFrom log (.creating dto p) now input s)
    (h : Point.resume verifySignature now input s (.creating dto p) = some (q, s')) :
    Leaves verifySignature log s' q := by
  obtain ⟨⟨p', wallets⟩, hp', h⟩ := Option.map_eq_some_iff.mp h
  obtain ⟨rfl, rfl⟩ := Prod.mk.inj h
  obtain ⟨hproved, rfl | ⟨userId, hcreated, hbinds⟩⟩ := hunderWay
  · -- the user is created
    rw [Wallets.Point.resume] at hp'
    split at hp'
    · obtain ⟨rfl, rfl⟩ := Prod.mk.inj (Option.some.inj hp')
      exact ⟨hkept, trivial⟩
    · rename_i hnew
      obtain ⟨rfl, rfl⟩ := Prod.mk.inj (Option.some.inj hp')
      have hcreated : Created log dto input.id := hwent.wentOn ⟨rfl, hnew⟩
      exact ⟨hkept.setWallets hkept.wallets (List.Subset.refl _), hproved,
        .inr ⟨input.id, hcreated, rfl, rfl⟩⟩
  · have hcontrols : Controls verifySignature log dto.publicKey userId :=
      .created hproved hcreated
    have hadvance := Wallets.advance_of_resume hp'
    obtain ⟨hwallets, hnext⟩ := binds_step hadvance hbinds hcontrols hkept.wallets
    refine ⟨hkept.setWallets hwallets (bound_subset_of_advance hadvance), ?_⟩
    rcases hnext with hnext | ⟨⟨id, rfl⟩, hstored⟩ | hrefused
    · rw [afterWallets_of_binds hnext]
      exact ⟨hproved, .inr ⟨userId, hcreated, hnext⟩⟩
    · rw [userOf_of_binds hbinds]
      exact ⟨⟨dto, hcontrols, hproved, .inl hcreated⟩, hstored⟩
    · exact underWay_of_refused hrefused

theorem leaves_binding {p : Wallets.Point} (hkept : Kept verifySignature log s)
    (hunderWay : UnderWay verifySignature log s.wallets.bound (.binding dto userId p))
    (h : Point.resume verifySignature now input s (.binding dto userId p) = some (q, s')) :
    Leaves verifySignature log s' q := by
  obtain ⟨⟨p', wallets⟩, hp', h⟩ := Option.map_eq_some_iff.mp h
  obtain ⟨rfl, rfl⟩ := Prod.mk.inj h
  obtain ⟨hcontrols, hbinds⟩ := hunderWay
  have hadvance := Wallets.advance_of_resume hp'
  obtain ⟨hwallets, hnext⟩ := binds_step hadvance hbinds hcontrols hkept.wallets
  refine ⟨hkept.setWallets hwallets (bound_subset_of_advance hadvance), ?_⟩
  rcases hnext with hnext | ⟨⟨id, rfl⟩, -⟩ | hrefused
  · rw [afterWallets_of_binds hnext]
    exact ⟨hcontrols, hnext⟩
  · trivial
  · exact underWay_of_refused hrefused

theorem leaves_unbinding {p : Wallets.Point} (hkept : Kept verifySignature log s)
    (hunderWay : UnderWay verifySignature log s.wallets.bound (.unbinding p))
    (h : Point.resume verifySignature now input s (.unbinding p) = some (q, s')) :
    Leaves verifySignature log s' q := by
  obtain ⟨⟨p', wallets⟩, hp', h⟩ := Option.map_eq_some_iff.mp h
  obtain ⟨rfl, rfl⟩ := Prod.mk.inj h
  obtain ⟨hwallets, hbound, hnext⟩ :=
    unbinds_step (Wallets.advance_of_resume hp') hunderWay hkept.wallets
  refine ⟨hkept.setWallets hwallets (by rw [hbound]; exact List.Subset.refl _), ?_⟩
  rcases hnext with hnext | rfl | hrefused
  · rw [afterWallets_of_unbinds hnext]
    exact hbound ▸ hnext
  · trivial
  · exact underWay_of_refused hrefused

theorem leaves_guarded {token : AccessToken} {action : Action} (hkept : Kept verifySignature log s)
    (hwent : WentFrom log (.guarded token action) now input s)
    (h : Point.resume verifySignature now input s (.guarded token action) = some (q, s')) :
    Leaves verifySignature log s' q := by
  unfold Point.resume at h
  dsimp only at h
  split at h
  · rename_i hvalid
    obtain ⟨rfl, rfl⟩ := Prod.mk.inj (Option.some.inj h)
    exact ⟨hkept, ⟨token, rfl, hwent.wentOn hvalid⟩, (hkept.signed token hvalid.1).1⟩
  · obtain ⟨rfl, rfl⟩ := Prod.mk.inj (Option.some.inj h)
    exact ⟨hkept, trivial⟩

theorem leaves_findUser {action : Action} (hkept : Kept verifySignature log s)
    (hunderWay : UnderWay verifySignature log s.wallets.bound (.findUser userId action))
    (h : Point.resume verifySignature now input s (.findUser userId action) = some (q, s')) :
    Leaves verifySignature log s' q := by
  unfold Point.resume at h
  dsimp only at h
  split at h
  · obtain ⟨rfl, rfl⟩ := Prod.mk.inj (Option.some.inj h)
    exact ⟨hkept, trivial⟩
  · split at h <;> obtain ⟨rfl, rfl⟩ := Prod.mk.inj (Option.some.inj h)
    · refine ⟨hkept, ?_⟩
      cases action with
      | bindWallet dto => exact hunderWay
      | unbindWallet publicKey => trivial
      | logout => trivial
    · exact ⟨hkept, trivial⟩

theorem leaves_generateRefreshToken {tokenId : Option String} {accessToken : AccessToken}
    (hkept : Kept verifySignature log s)
    (hknown : Known verifySignature log s.wallets.bound userId)
    (h : Point.resume verifySignature now input s
      (.generateRefreshToken tokenId userId accessToken) = some (q, s')) :
    Leaves verifySignature log s' q := by
  unfold Point.resume at h
  dsimp only at h
  split at h
  · rename_i refreshTokens hsave
    obtain ⟨rfl, rfl⟩ := Prod.mk.inj (Option.some.inj h)
    obtain ⟨-, rfl⟩ := RefreshTokens.save_eq_some hsave
    refine ⟨hkept.setRefreshTokens fun id r hread => ?_, trivial⟩
    rcases Store.eq_or_lookup_of_insert hread with ⟨rfl, rfl⟩ | ⟨-, hold⟩
    · exact hknown
    · exact hkept.refreshTokens id r hold
  · obtain ⟨rfl, rfl⟩ := Prod.mk.inj (Option.some.inj h)
    exact ⟨hkept, trivial⟩

/-- What updates the refresh tokens keeps their users. -/
theorem Kept.mapRefreshTokens {f : String → RefreshToken → RefreshToken}
    (hkept : Kept verifySignature log s) (hf : ∀ id r, (f id r).userId = r.userId) :
    Kept verifySignature log { s with refreshTokens := s.refreshTokens.mapValues f } := by
  refine hkept.setRefreshTokens fun id r hread => ?_
  rw [Store.lookup_mapValues] at hread
  obtain ⟨r₀, hread₀, rfl⟩ := Option.map_eq_some_iff.mp hread
  rw [hf]
  exact hkept.refreshTokens id r₀ hread₀

theorem leaves_refreshAccessToken {refreshToken : String} (hkept : Kept verifySignature log s)
    (h : Point.resume verifySignature now input s (.refreshAccessToken refreshToken) =
      some (q, s')) :
    Leaves verifySignature log s' q := by
  unfold Point.resume at h
  dsimp only at h
  split at h
  · rename_i tokenId tokenRecord hcheck
    obtain ⟨rfl, rfl⟩ := Prod.mk.inj (Option.some.inj h)
    obtain ⟨hread, -⟩ := RefreshTokens.checkToken_eq_ok hcheck
    exact ⟨hkept, hkept.refreshTokens _ _ (Store.find?_eq_some hread).1⟩
  · obtain ⟨rfl, rfl⟩ := Prod.mk.inj (Option.some.inj h)
    exact ⟨hkept, trivial⟩

/-- What is known of the tables and of a request is kept by every step of it. -/
theorem Kept.step (hkept : Kept verifySignature log s)
    (hunderWay : UnderWay verifySignature log s.wallets.bound p)
    (hwent : WentFrom log p now input s)
    (h : p.resume verifySignature now input s = some (q, s')) :
    Leaves verifySignature log s' q := by
  cases p with
  | requestNonce publicKey => exact leaves_requestNonce hkept hwent h
  | cleanupExpiredNonces =>
    obtain ⟨rfl, rfl⟩ := Prod.mk.inj (Option.some.inj h)
    exact ⟨leaves_cleanup hkept, trivial⟩
  | validateNonce purpose dto => exact leaves_validateNonce hkept hunderWay hwent h
  | verifySignature purpose dto =>
    unfold Point.resume at h
    dsimp only at h
    split at h <;> obtain ⟨rfl, rfl⟩ := Prod.mk.inj (Option.some.inj h)
    · exact ⟨hkept, hunderWay.1, hunderWay.2, ‹_›⟩
    · exact ⟨hkept, trivial⟩
  | markNonceUsed purpose dto =>
    obtain ⟨rfl, rfl⟩ := Prod.mk.inj (Option.some.inj h)
    exact leaves_markNonceUsed hkept hunderWay
  | findUserByWallet dto => exact leaves_findUserByWallet hkept hunderWay hwent h
  | creating dto p => exact leaves_creating hkept hunderWay hwent h
  | auditUserCreated dto userId =>
    obtain ⟨rfl, rfl⟩ := Prod.mk.inj (Option.some.inj h)
    exact ⟨hkept.logAction, hunderWay⟩
  | updateLastUsed dto userId =>
    obtain ⟨rfl, rfl⟩ := Prod.mk.inj (Option.some.inj h)
    exact ⟨hkept.setWallets hkept.wallets.updateLastUsed (List.Subset.refl _), hunderWay⟩
  | guarded token action => exact leaves_guarded hkept hwent h
  | findUser userId action => exact leaves_findUser hkept hunderWay h
  | binding dto userId p => exact leaves_binding hkept hunderWay h
  | unbinding p => exact leaves_unbinding hkept hunderWay h
  | revokeAllUserRefreshTokens userId =>
    obtain ⟨rfl, rfl⟩ := Prod.mk.inj (Option.some.inj h)
    refine ⟨hkept.mapRefreshTokens fun id r => ?_, trivial⟩
    split <;> rfl
  | refreshAccessToken refreshToken => exact leaves_refreshAccessToken hkept h
  | revokeRefreshToken tokenId tokenRecord =>
    obtain ⟨rfl, rfl⟩ := Prod.mk.inj (Option.some.inj h)
    refine ⟨hkept.mapRefreshTokens fun id r => ?_, hunderWay⟩
    split <;> rfl
  | auditTokenRevoked tokenId userId =>
    obtain ⟨rfl, rfl⟩ := Prod.mk.inj (Option.some.inj h)
    exact ⟨hkept.logAction, hunderWay⟩
  | generateAccessToken tokenId userId =>
    obtain ⟨rfl, rfl⟩ := Prod.mk.inj (Option.some.inj h)
    refine ⟨⟨hkept.nonces, hkept.wallets, fun token htoken => ?_, hkept.refreshTokens⟩, hunderWay⟩
    rcases List.mem_append.mp htoken with hold | hnew
    · exact hkept.signed token hold
    · obtain rfl := List.mem_singleton.mp hnew
      exact hunderWay
  | generateRefreshToken tokenId userId accessToken =>
    exact leaves_generateRefreshToken hkept hunderWay h
  | auditTokenCreated tokenId userId accessToken newId expiresAt =>
    cases tokenId with
    | none =>
      obtain ⟨rfl, rfl⟩ := Prod.mk.inj (Option.some.inj h)
      exact ⟨hkept.logAction, trivial⟩
    | some tokenId =>
      obtain ⟨rfl, rfl⟩ := Prod.mk.inj (Option.some.inj h)
      exact ⟨hkept.logAction, trivial⟩
  | auditTokenRefreshed tokenId userId accessToken newId =>
    obtain ⟨rfl, rfl⟩ := Prod.mk.inj (Option.some.inj h)
    exact ⟨hkept.logAction, trivial⟩
  | _ => cases h

end Steps

/-! ## Runs -/

section Runs

variable {verifySignature : String → String → String → Bool} {now : ℕ} {w : World (Tasks Tables Point)}
  {log : AuthLog}

theorem kept_empty : Kept verifySignature log .empty where
  nonces _ _ hread := by cases hread
  wallets _ _ hread := by cases hread
  signed _ htoken := absurd htoken List.not_mem_nil
  refreshTokens _ _ hread := by cases hread

end Runs

/-! ## A sample -/

def sampleDto (publicKey nonce : String) : WalletDto := ⟨publicKey, "by " ++ publicKey, nonce⟩

/-- A request goes on so many times. -/
def goOn (t task steps : ℕ) (input : Input) : List (ℕ × Move Point Input) :=
  List.replicate steps (t, .resume task input)

/-- A wallet logs in for the first time and binds another one, which logs in as well. Then the first
refresh token is exchanged. -/
def twoWallets : List (ℕ × Move Point Input) :=
  [(0, .start (.requestNonce "K1"))] ++ goOn 0 0 1 ⟨"n1", "", true⟩ ++
    [(1000, .start (.validateNonce .login (sampleDto "K1" "n1")))] ++
    goOn 1000 1 13 ⟨"t1", "user", true⟩ ++
    [(2000, .start (.requestNonce "K2"))] ++ goOn 2000 2 1 ⟨"n2", "", true⟩ ++
    [(3000, .start (.guarded ⟨"user", 1, 901⟩ (.bindWallet (sampleDto "K2" "n2"))))] ++
    goOn 3000 3 7 ⟨"", "wallet", true⟩ ++
    [(4000, .start (.requestNonce "K2"))] ++ goOn 4000 4 1 ⟨"n3", "", true⟩ ++
    [(5000, .start (.validateNonce .login (sampleDto "K2" "n3")))] ++
    goOn 5000 5 8 ⟨"t2", "second", true⟩ ++
    [(6000, .start (.refreshAccessToken "t1"))] ++ goOn 6000 6 7 ⟨"t3", "third", true⟩

end Stellara.Sessions
