import Stellara.Lib.Store
import Stellara.Lib.Tasks

/-!
# API tokens

An API token is stored as a bcrypt hash. A request that validates a token reads all rows that are
not revoked, with their users, and compares the token with one hash after the other, each comparison
a step of its own. The first one that matches decides: it is rejected if it expired or if its user
is inactive, otherwise the time of its use is stored. Tokens are created and revoked at any time in
between.

## Main definitions

* `ApiToken`: the rows of the table
* `findUnrevoked`: the rows that a validation compares
* `Point.resume`, `apiTokenRequests`: the requests, one access to the table or comparison after the
  other

## Main results

* `advance_of_resume`: what a step does
* `Advance.lookup`: what a step keeps of a row
-/

namespace Stellara.ApiTokens

structure ApiToken where
  token : String
  name : String
  role : String
  userId : String
  expiresAt : Option ℕ
  revoked : Bool
  lastUsedAt : Option ℕ
deriving DecidableEq, Repr

/-- The table, by the ids of the rows. The hash is a unique column. -/
abbrev ApiTokenRepository := Store String ApiToken

inductive ApiTokenError where
  | expired
  | userInactive
  | invalid
  | notFound
deriving DecidableEq, Repr

def ApiTokenError.message : ApiTokenError → String
  | .expired => "API token expired"
  | .userInactive => "User account is inactive"
  | .invalid => "Invalid API token"
  | .notFound => "API token not found"

/-- A row that was read, with whether its user was active. -/
structure TokenRecord where
  id : String
  row : ApiToken
  isActive : Bool
deriving DecidableEq, Repr

/-- What comes from outside: the UUIDs of a token and the salt of its hash, the id of a row that is
stored, and for a read the order of the rows and the users that are active. -/
structure Input where
  uuids : String × String
  salt : String
  id : String
  order : List String
  active : List String
deriving DecidableEq, Repr

/-! ## The repository -/

/-- The save of a new row; `none` where its id or its hash is taken. -/
def save (id : String) (r : ApiToken) (tokens : ApiTokenRepository) : Option ApiTokenRepository :=
  if (tokens.lookup id).isSome ∨ (tokens.find? fun _ r' => r'.token = r.token).isSome then none
  else some (tokens.insert id r)

/-- The ids of the rows that are not revoked. -/
def unrevokedIds (tokens : ApiTokenRepository) : List String :=
  (tokens.entries.filter fun e => !e.2.revoked).map Sigma.fst

/-- The rows that are not revoked, with their users, in some order. -/
def findUnrevoked (order active : List String) (tokens : ApiTokenRepository) :
    Option (List TokenRecord) :=
  if order.Perm (unrevokedIds tokens) then
    some (order.filterMap fun id =>
      (tokens.lookup id).map fun r => ⟨id, r, decide (r.userId ∈ active)⟩)
  else none

def updateLastUsedAt (id : String) (time : ℕ) (tokens : ApiTokenRepository) : ApiTokenRepository :=
  tokens.mapValues fun id' r => if id' = id then { r with lastUsedAt := some time } else r

def updateRevoked (id : String) (tokens : ApiTokenRepository) : ApiTokenRepository :=
  tokens.mapValues fun id' r => if id' = id then { r with revoked := true } else r

def updateUserRevoked (userId : String) (tokens : ApiTokenRepository) : ApiTokenRepository :=
  tokens.mapValues fun _ r =>
    if r.userId = userId ∧ r.revoked = false then { r with revoked := true } else r

/-! ## Requests -/

/-- What a request is about to do, or what it returned. -/
inductive Point where
  | createApiToken (userId name role : String) (expiresInDays : Option ℕ)
  | saveToken (plainToken : String) (apiToken : ApiToken)
  /-- The token was stored as this row. -/
  | created (plainToken id : String) (apiToken : ApiToken)
  | validateApiToken (plainToken : String)
  | compareTokens (plainToken : String) (tokens : List TokenRecord) (i : ℕ)
  | updateLastUsed (plainToken : String) (tokenRecord : TokenRecord) (time : ℕ)
  | validated (plainToken userId role tokenId : String)
  | revokeApiToken (tokenId userId : String)
  | setRevoked (tokenId : String)
  | revokeAllUserApiTokens (userId : String)
  | revoked (tokenId : String)
  | revokedAll (userId : String)
  | rejected (e : ApiTokenError)
  /-- The new token could not be stored. -/
  | failed
deriving DecidableEq, Repr

/-- The text `stl_` and two UUIDs, without the dashes. -/
def plainToken (uuids : String × String) : String :=
  String.ofList (("stl_" ++ uuids.1 ++ uuids.2).toList.filter (· ≠ '-'))

/-- The checks of a token whose hash matched. -/
def checkToken (now : ℕ) (tokenRecord : TokenRecord) : Except ApiTokenError Unit := do
  require (∀ expiresAt ∈ tokenRecord.row.expiresAt, now ≤ expiresAt) .expired
  require (tokenRecord.isActive = true) .userInactive

section Requests

-- bcrypt's hash of a text with a salt, its comparison of a text with a hash, the time that is a
-- number of days of the calendar later, in the local time of the server, and the days that a token is
-- valid by default
variable (hash : String → String → String) (compare : String → String → Bool)
  (addDays : ℕ → ℕ → ℕ) (defaultDays : ℕ)

/-- The days that a token is valid; no number of days, and zero, is the default. -/
def validDays (expiresInDays : Option ℕ) : ℕ := (expiresInDays.filter (· ≠ 0)).getD defaultDays

def Point.resume (now : ℕ) (input : Input) (tokens : ApiTokenRepository) :
    Point → Option (Point × ApiTokenRepository)
  | .createApiToken userId name role expiresInDays =>
    let token := plainToken input.uuids
    let apiToken : ApiToken := ⟨hash token input.salt, name, role, userId,
      some (addDays now (validDays defaultDays expiresInDays)), false, none⟩
    some (.saveToken token apiToken, tokens)
  | .saveToken plainToken apiToken =>
    match save input.id apiToken tokens with
    | some tokens' => some (.created plainToken input.id apiToken, tokens')
    | none => some (.failed, tokens)
  | .validateApiToken plainToken =>
    (findUnrevoked input.order input.active tokens).map fun records =>
      (.compareTokens plainToken records 0, tokens)
  | .compareTokens plainToken records i =>
    match records[i]? with
    | some tokenRecord =>
      if compare plainToken tokenRecord.row.token then
        match checkToken now tokenRecord with
        | .ok () => some (.updateLastUsed plainToken tokenRecord now, tokens)
        | .error e => some (.rejected e, tokens)
      else some (.compareTokens plainToken records (i + 1), tokens)
    | none => some (.rejected .invalid, tokens)
  | .updateLastUsed plainToken tokenRecord time =>
    some (.validated plainToken tokenRecord.row.userId tokenRecord.row.role tokenRecord.id,
      updateLastUsedAt tokenRecord.id time tokens)
  | .revokeApiToken tokenId userId =>
    match (tokens.lookup tokenId).filter (·.userId = userId) with
    | some _ => some (.setRevoked tokenId, tokens)
    | none => some (.rejected .notFound, tokens)
  | .setRevoked tokenId => some (.revoked tokenId, updateRevoked tokenId tokens)
  | .revokeAllUserApiTokens userId => some (.revokedAll userId, updateUserRevoked userId tokens)
  | _ => none

/-- The requests: tokens are created, validated and revoked. -/
def apiTokenRequests : Async ApiTokenRepository Point Input where
  starts _
    | .createApiToken _ _ _ _ => true
    | .validateApiToken _ => true
    | .revokeApiToken _ _ => true
    | .revokeAllUserApiTokens _ => true
    | _ => false
  resume now input p tokens := p.resume hash compare addDays defaultDays now input tokens

end Requests

/-! ## Steps -/

section Steps

variable {hash : String → String → String} {compare : String → String → Bool}
  {addDays : ℕ → ℕ → ℕ} {defaultDays now : ℕ} {input : Input} {tokens tokens' : ApiTokenRepository}
  {p q : Point}
  {id id' userId : String} {order active : List String} {records : List TokenRecord}
  {r r' : ApiToken} {tokenRecord : TokenRecord}

/-- What a step does. -/
inductive Advance (hash : String → String → String) (compare : String → String → Bool) (now : ℕ)
    (active : List String) (tokens : ApiTokenRepository) : Point → Point → ApiTokenRepository → Prop
  | hash {userId name role plainToken salt : String} {days expiresAt : Option ℕ} :
      Advance hash compare now active tokens (.createApiToken userId name role days)
        (.saveToken plainToken ⟨hash plainToken salt, name, role, userId, expiresAt, false, none⟩)
        tokens
  | create {plainToken id : String} {r : ApiToken} : tokens.lookup id = none →
      Advance hash compare now active tokens (.saveToken plainToken r) (.created plainToken id r)
        (tokens.insert id r)
  | fail {plainToken : String} {r : ApiToken} :
      Advance hash compare now active tokens (.saveToken plainToken r) .failed tokens
  | read {plainToken : String} {records : List TokenRecord} :
      (∀ tokenRecord ∈ records, tokens.lookup tokenRecord.id = some tokenRecord.row ∧
        tokenRecord.row.revoked = false ∧
        (tokenRecord.isActive = true → tokenRecord.row.userId ∈ active)) →
      Advance hash compare now active tokens (.validateApiToken plainToken)
        (.compareTokens plainToken records 0) tokens
  | next {plainToken : String} {records : List TokenRecord} {i : ℕ} :
      Advance hash compare now active tokens (.compareTokens plainToken records i)
        (.compareTokens plainToken records (i + 1)) tokens
  | accept {plainToken : String} {records : List TokenRecord} {i : ℕ} {tokenRecord : TokenRecord} :
      records[i]? = some tokenRecord → compare plainToken tokenRecord.row.token = true →
      checkToken now tokenRecord = .ok () →
      Advance hash compare now active tokens (.compareTokens plainToken records i)
        (.updateLastUsed plainToken tokenRecord now) tokens
  | reject {p : Point} {e : ApiTokenError} :
      Advance hash compare now active tokens p (.rejected e) tokens
  | use {plainToken : String} {tokenRecord : TokenRecord} {time : ℕ} :
      Advance hash compare now active tokens (.updateLastUsed plainToken tokenRecord time)
        (.validated plainToken tokenRecord.row.userId tokenRecord.row.role tokenRecord.id)
        (updateLastUsedAt tokenRecord.id time tokens)
  | findToRevoke {tokenId userId : String} :
      Advance hash compare now active tokens (.revokeApiToken tokenId userId)
        (.setRevoked tokenId) tokens
  | revoke {tokenId : String} :
      Advance hash compare now active tokens (.setRevoked tokenId) (.revoked tokenId)
        (updateRevoked tokenId tokens)
  | revokeAll {userId : String} :
      Advance hash compare now active tokens (.revokeAllUserApiTokens userId) (.revokedAll userId)
        (updateUserRevoked userId tokens)

theorem save_eq_some (h : save id r tokens = some tokens') :
    tokens.lookup id = none ∧ tokens' = tokens.insert id r := by
  unfold save at h
  split at h
  · cases h
  · rename_i hfree
    rw [not_or] at hfree
    exact ⟨Option.not_isSome_iff_eq_none.mp hfree.1, (Option.some.inj h).symm⟩

/-- A row that is read is stored, is not revoked, and has its user as the database has it. -/
theorem mem_findUnrevoked (h : findUnrevoked order active tokens = some records)
    (hmem : tokenRecord ∈ records) : tokens.lookup tokenRecord.id = some tokenRecord.row ∧
      tokenRecord.row.revoked = false ∧
      (tokenRecord.isActive = true → tokenRecord.row.userId ∈ active) := by
  unfold findUnrevoked at h
  split at h
  · rename_i hperm
    obtain rfl := Option.some.inj h
    obtain ⟨id, hid, hrow⟩ := List.mem_filterMap.mp hmem
    obtain ⟨r, hr, rfl⟩ := Option.map_eq_some_iff.mp hrow
    -- the id is the one of a row that is not revoked
    obtain ⟨e, he, rfl⟩ := List.mem_map.mp (hperm.subset hid)
    obtain ⟨hentry, hunrevoked⟩ := List.mem_filter.mp he
    have hstored : tokens.lookup e.1 = some e.2 := AList.mem_lookup_iff.mpr hentry
    obtain rfl : e.2 = r := Option.some.inj (hstored.symm.trans hr)
    exact ⟨hr, by simpa using hunrevoked, fun hactive => of_decide_eq_true hactive⟩
  · cases h

theorem advance_of_resume
    (h : p.resume hash compare addDays defaultDays now input tokens = some (q, tokens')) :
    Advance hash compare now input.active tokens p q tokens' := by
  cases p with
  | createApiToken userId name role days =>
    obtain ⟨rfl, rfl⟩ := Prod.mk.inj (Option.some.inj h)
    exact .hash
  | saveToken plainToken r =>
    simp only [Point.resume] at h
    split at h
    · rename_i hsave
      obtain ⟨rfl, rfl⟩ := Prod.mk.inj (Option.some.inj h)
      obtain ⟨hfree, rfl⟩ := save_eq_some hsave
      exact .create hfree
    · obtain ⟨rfl, rfl⟩ := Prod.mk.inj (Option.some.inj h)
      exact .fail
  | validateApiToken plainToken =>
    obtain ⟨records, hfind, heq⟩ := Option.map_eq_some_iff.mp h
    obtain ⟨rfl, rfl⟩ := Prod.mk.inj heq
    exact .read fun tokenRecord hmem => mem_findUnrevoked hfind hmem
  | compareTokens plainToken records i =>
    simp only [Point.resume] at h
    split at h
    · rename_i tokenRecord hrecord
      split at h
      · rename_i hmatch
        split at h
        · rename_i hcheck
          obtain ⟨rfl, rfl⟩ := Prod.mk.inj (Option.some.inj h)
          exact .accept hrecord hmatch hcheck
        · obtain ⟨rfl, rfl⟩ := Prod.mk.inj (Option.some.inj h)
          exact .reject
      · obtain ⟨rfl, rfl⟩ := Prod.mk.inj (Option.some.inj h)
        exact .next
    · obtain ⟨rfl, rfl⟩ := Prod.mk.inj (Option.some.inj h)
      exact .reject
  | updateLastUsed plainToken tokenRecord time =>
    obtain ⟨rfl, rfl⟩ := Prod.mk.inj (Option.some.inj h)
    exact .use
  | revokeApiToken tokenId userId =>
    simp only [Point.resume] at h
    split at h
    · obtain ⟨rfl, rfl⟩ := Prod.mk.inj (Option.some.inj h)
      exact .findToRevoke
    · obtain ⟨rfl, rfl⟩ := Prod.mk.inj (Option.some.inj h)
      exact .reject
  | setRevoked tokenId =>
    obtain ⟨rfl, rfl⟩ := Prod.mk.inj (Option.some.inj h)
    exact .revoke
  | revokeAllUserApiTokens userId =>
    obtain ⟨rfl, rfl⟩ := Prod.mk.inj (Option.some.inj h)
    exact .revokeAll
  | _ => cases h

/-- The rows are for the same token: they differ in whether it is revoked, and in its last use. -/
structure ApiToken.Same (r r' : ApiToken) : Prop where
  token : r.token = r'.token
  role : r.role = r'.role
  userId : r.userId = r'.userId
  expiresAt : r.expiresAt = r'.expiresAt

theorem ApiToken.Same.refl (r : ApiToken) : r.Same r := ⟨rfl, rfl, rfl, rfl⟩

theorem ApiToken.Same.trans {r r' r'' : ApiToken} (h : r.Same r') (h' : r'.Same r'') : r.Same r'' :=
  ⟨h.token.trans h'.token, h.role.trans h'.role, h.userId.trans h'.userId,
    h.expiresAt.trans h'.expiresAt⟩

/-- A row is new, or one that was stored before, and that stays revoked if it was. -/
theorem Advance.lookup (h : Advance hash compare now active tokens p q tokens')
    (hread : tokens'.lookup id = some r') :
    (∃ plainToken, tokens.lookup id = none ∧ p = .saveToken plainToken r' ∧
        q = .created plainToken id r') ∨
      ∃ r, tokens.lookup id = some r ∧ r'.Same r ∧ (r.revoked = true → r'.revoked = true) := by
  cases h with
  | @create plainToken newId r hfree =>
    rcases Store.eq_or_lookup_of_insert hread with ⟨rfl, rfl⟩ | ⟨-, hold⟩
    · exact .inl ⟨plainToken, hfree, rfl, rfl⟩
    · exact .inr ⟨r', hold, .refl r', fun hr => hr⟩
  | use =>
    rw [updateLastUsedAt, Store.lookup_mapValues] at hread
    obtain ⟨r, hr, rfl⟩ := Option.map_eq_some_iff.mp hread
    refine .inr ⟨r, hr, ?_⟩
    split
    · exact ⟨⟨rfl, rfl, rfl, rfl⟩, fun hrevoked => hrevoked⟩
    · exact ⟨.refl r, fun hrevoked => hrevoked⟩
  | revoke =>
    rw [updateRevoked, Store.lookup_mapValues] at hread
    obtain ⟨r, hr, rfl⟩ := Option.map_eq_some_iff.mp hread
    refine .inr ⟨r, hr, ?_⟩
    split
    · exact ⟨⟨rfl, rfl, rfl, rfl⟩, fun _ => rfl⟩
    · exact ⟨.refl r, fun hrevoked => hrevoked⟩
  | revokeAll =>
    rw [updateUserRevoked, Store.lookup_mapValues] at hread
    obtain ⟨r, hr, rfl⟩ := Option.map_eq_some_iff.mp hread
    refine .inr ⟨r, hr, ?_⟩
    split
    · exact ⟨⟨rfl, rfl, rfl, rfl⟩, fun _ => rfl⟩
    · exact ⟨.refl r, fun hrevoked => hrevoked⟩
  | _ => exact .inr ⟨r', hread, .refl r', fun hr => hr⟩

/-- A row that is stored stays. -/
theorem Advance.isSome_lookup (h : Advance hash compare now active tokens p q tokens')
    (hread : (tokens.lookup id).isSome) : (tokens'.lookup id).isSome := by
  cases h with
  | create _ => exact Store.isSome_insert.mpr (.inr hread)
  | use =>
    rw [updateLastUsedAt, Store.lookup_mapValues, Option.isSome_map]
    exact hread
  | revoke =>
    rw [updateRevoked, Store.lookup_mapValues, Option.isSome_map]
    exact hread
  | revokeAll =>
    rw [updateUserRevoked, Store.lookup_mapValues, Option.isSome_map]
    exact hread
  | _ => exact hread

/-- The token is stored, and it is revoked. -/
def Revoked (id : String) (tokens : ApiTokenRepository) : Prop :=
  ∃ r, tokens.lookup id = some r ∧ r.revoked = true

theorem Advance.revoked (h : Advance hash compare now active tokens p q tokens')
    (hrevoked : Revoked id tokens) : Revoked id tokens' := by
  obtain ⟨r, hread, hr⟩ := hrevoked
  obtain ⟨r', hread'⟩ := Option.isSome_iff_exists.mp
    (h.isSome_lookup (Option.isSome_iff_exists.mpr ⟨r, hread⟩))
  rcases h.lookup hread' with ⟨-, hfree, -, -⟩ | ⟨r₀, hread₀, -, hkeep⟩
  · rw [hread] at hfree
    cases hfree
  · obtain rfl := Option.some.inj (hread.symm.trans hread₀)
    exact ⟨r', hread', hkeep hr⟩

end Steps

end Stellara.ApiTokens
