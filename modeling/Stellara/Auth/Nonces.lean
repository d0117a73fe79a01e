import Mathlib.Tactic.Tauto
import Stellara.Lib.Store
import Stellara.Lib.Tasks

/-!
# Login nonces

A wallet logs in, or is bound to an account, by a signature of a nonce that was issued to it. A
request reads the record of the nonce, which has to be unused, then has its signature verified, and
then marks the nonce as used. Each of these is a step of its own, and other requests take theirs in
between.

The signature check is an arbitrary predicate.

## Main definitions

* `LoginNonce`, `WalletDto`: the stored nonces, and what a request presents
* `generateNonce`, `validateNonce`, `markNonceUsed`: the nonce service
* `Request.resume`, `requests`: the requests `walletLogin` and `bindWallet` up to their token issue
  or wallet binding, and `requestNonce`
* `SingleUse`: no two requests were authenticated by one nonce
* `Separate`: a request reads no nonce that another one has read and is still to mark

## Main results

* `single_use_iff`: nonces authenticate at most one request where no requests overlap, and
  requests that overlap are both authenticated in the end
-/

namespace Stellara.Auth

/-! ## Nonces -/

structure LoginNonce where
  nonce : String
  publicKey : String
  expiresAt : ℕ
  used : Bool
deriving DecidableEq, Repr

/-- The stored nonces. The nonce is a unique column. -/
abbrev NonceRepository := Store String LoginNonce

inductive LoginError where
  | invalidNonce
  | nonceAlreadyUsed
  | nonceExpired
  | invalidSignature
deriving DecidableEq, Repr

def LoginError.message : LoginError → String
  | .invalidNonce => "Invalid nonce"
  | .nonceAlreadyUsed => "Nonce already used"
  | .nonceExpired => "Nonce expired"
  | .invalidSignature => "Invalid signature"

def nonceExpirationMinutes : ℕ := 5

/-- A nonce of a fresh UUID; `none` where the UUID is not unique. -/
def generateNonce (now : ℕ) (uuid publicKey : String) (nonces : NonceRepository) :
    Option (LoginNonce × NonceRepository) :=
  let loginNonce : LoginNonce := ⟨uuid, publicKey, now + nonceExpirationMinutes * 60 * 1000, false⟩
  if (nonces.lookup uuid).isSome then none else some (loginNonce, nonces.insert uuid loginNonce)

def validateNonce (now : ℕ) (nonce publicKey : String) (nonces : NonceRepository) :
    Except LoginError LoginNonce := do
  let loginNonce ← orAbort .invalidNonce
    ((nonces.lookup nonce).filter fun l => l.publicKey = publicKey)
  require (loginNonce.used = false) .nonceAlreadyUsed
  require (now ≤ loginNonce.expiresAt) .nonceExpired
  .ok loginNonce

def markNonceUsed (nonce : String) (nonces : NonceRepository) : NonceRepository :=
  match nonces.lookup nonce with
  | some loginNonce => nonces.insert nonce { loginNonce with used := true }
  | none => nonces

theorem validateNonce_eq_ok {now : ℕ} {nonce publicKey : String} {nonces : NonceRepository}
    {loginNonce : LoginNonce} (h : validateNonce now nonce publicKey nonces = .ok loginNonce) :
    nonces.lookup nonce = some loginNonce ∧ loginNonce.used = false := by
  simp only [validateNonce, Except.bind_eq_ok, orAbort_eq_ok, require_eq_ok, exists_const,
    Option.filter_eq_some_iff] at h
  obtain ⟨l, ⟨hread, -⟩, hused, -, h⟩ := h
  obtain rfl := Except.ok.inj h
  exact ⟨hread, hused⟩

/-! ## Requests -/

/-- What a request presents. -/
structure WalletDto where
  publicKey : String
  signature : String
  nonce : String
deriving DecidableEq, Repr

inductive Endpoint where
  | walletLogin
  | bindWallet (userId : ℕ)
deriving DecidableEq, Repr

/-- What a request is about to do. -/
inductive Stage where
  | validateNonce
  | verifySignature
  | markNonceUsed
  /-- The request goes on to the token issue, or to the wallet binding. -/
  | authenticated
  | rejected (e : LoginError)
deriving DecidableEq, Repr

structure Request where
  endpoint : Endpoint
  dto : WalletDto
  stage : Stage
deriving DecidableEq, Repr

inductive Point where
  | generateNonce (publicKey : String)
  /-- The answer to a request for a nonce, if it got one. -/
  | generated (loginNonce : Option LoginNonce)
  | request (r : Request)
deriving DecidableEq, Repr

def signedMessage (nonce : String) : String :=
  "Sign this message to authenticate with Stellara: " ++ nonce

section Requests

variable (verifySignature : String → String → String → Bool)

/-- The signature that the request presents is valid. -/
def Request.Signed (r : Request) : Prop :=
  verifySignature r.dto.publicKey r.dto.signature (signedMessage r.dto.nonce) = true

instance (r : Request) : Decidable (r.Signed verifySignature) := instDecidableEqBool _ _

def Request.resume (now : ℕ) (r : Request) (nonces : NonceRepository) :
    Option (Request × NonceRepository) :=
  match r.stage with
  | .validateNonce =>
    match Auth.validateNonce now r.dto.nonce r.dto.publicKey nonces with
    | .ok _ => some ({ r with stage := .verifySignature }, nonces)
    | .error e => some ({ r with stage := .rejected e }, nonces)
  | .verifySignature =>
    if r.Signed verifySignature then some ({ r with stage := .markNonceUsed }, nonces)
    else some ({ r with stage := .rejected .invalidSignature }, nonces)
  | .markNonceUsed =>
    some ({ r with stage := .authenticated }, Auth.markNonceUsed r.dto.nonce nonces)
  | .authenticated => none
  | .rejected _ => none

/-- The requests; what comes from outside is the UUID of a new nonce. -/
def requests : Async NonceRepository Point String where
  starts _
    | .generateNonce _ => true
    | .generated _ => false
    | .request r => r.stage = .validateNonce
  resume now uuid
    | .generateNonce publicKey, nonces =>
      match generateNonce now uuid publicKey nonces with
      | some (loginNonce, nonces') => some (.generated loginNonce, nonces')
      | none => some (.generated none, nonces)
    | .generated _, _ => none
    | .request r, nonces =>
      (r.resume verifySignature now nonces).map fun p => (.request p.1, p.2)

/-! ## Single use -/

/-- A request that presented the nonce got past the checks. -/
def Authenticated (w : Tasks NonceRepository Point) (i : ℕ) (nonce : String) : Prop :=
  ∃ r, w.points[i]? = some (.request r) ∧ r.dto.nonce = nonce ∧ r.stage = .authenticated

/-- Every nonce authenticates at most one request. -/
def SingleUse (w : Tasks NonceRepository Point) : Prop :=
  ∀ nonce i j, Authenticated w i nonce → Authenticated w j nonce → i = j

/-- The request read its nonce as unused, will not fail for its signature, and has not marked the
nonce yet. -/
def Request.Pending (r : Request) : Prop :=
  r.Signed verifySignature ∧ (r.stage = .verifySignature ∨ r.stage = .markNonceUsed)

/-- A signed request that is to read its nonce as valid overlaps with no other one that presented
this nonce. -/
def Separate (t : ℕ) (_ : String) (_ : ℕ) (p : Point) (w : Tasks NonceRepository Point) : Prop :=
  ∀ r loginNonce, p = .request r → r.stage = .validateNonce → r.Signed verifySignature →
    validateNonce t r.dto.nonce r.dto.publicKey w.shared = .ok loginNonce →
    ∀ r', .request r' ∈ w.points → r'.dto.nonce = r.dto.nonce → ¬ r'.Pending verifySignature

/-- The request got past the nonce check, and will not fail for its signature. -/
def Request.Past (r : Request) : Prop :=
  r.Signed verifySignature ∧
    (r.stage = .verifySignature ∨ r.stage = .markNonceUsed ∨ r.stage = .authenticated)

end Requests

/-! ## Steps -/

section Steps

variable {verifySignature : String → String → String → Bool} {now : ℕ} {uuid nonce : String}
  {nonces nonces' : NonceRepository} {p q : Point} {r r' : Request} {l : LoginNonce}

/-- What a step does. -/
inductive Advance (verifySignature : String → String → String → Bool) (now : ℕ) (uuid : String)
    (nonces : NonceRepository) : Point → Point → NonceRepository → Prop
  | generate {publicKey : String} {l : LoginNonce} : nonces.lookup uuid = none →
      Advance verifySignature now uuid nonces (.generateNonce publicKey) (.generated (some l))
        (nonces.insert uuid l)
  | refuse {publicKey : String} :
      Advance verifySignature now uuid nonces (.generateNonce publicKey) (.generated none) nonces
  | read {r : Request} {l : LoginNonce} : r.stage = .validateNonce →
      validateNonce now r.dto.nonce r.dto.publicKey nonces = .ok l →
      Advance verifySignature now uuid nonces (.request r)
        (.request { r with stage := .verifySignature }) nonces
  | verify {r : Request} : r.stage = .verifySignature → r.Signed verifySignature →
      Advance verifySignature now uuid nonces (.request r)
        (.request { r with stage := .markNonceUsed }) nonces
  | mark {r : Request} : r.stage = .markNonceUsed →
      Advance verifySignature now uuid nonces (.request r)
        (.request { r with stage := .authenticated }) (markNonceUsed r.dto.nonce nonces)
  | reject {r : Request} {e : LoginError} :
      (r.Signed verifySignature → r.stage = .validateNonce ∧
        ∀ l, validateNonce now r.dto.nonce r.dto.publicKey nonces ≠ .ok l) →
      Advance verifySignature now uuid nonces (.request r)
        (.request { r with stage := .rejected e }) nonces

theorem advance_of_resume
    (h : (requests verifySignature).resume now uuid p nonces = some (q, nonces')) :
    Advance verifySignature now uuid nonces p q nonces' := by
  cases p with
  | generateNonce publicKey =>
    simp only [requests, generateNonce] at h
    split at h
    · rename_i l nonces₁ hnew
      split at hnew
      · cases hnew
      · rename_i hfree
        obtain ⟨rfl, rfl⟩ := Prod.mk.inj (Option.some.inj hnew)
        obtain ⟨rfl, rfl⟩ := Prod.mk.inj (Option.some.inj h)
        exact .generate (Option.not_isSome_iff_eq_none.mp hfree)
    · obtain ⟨rfl, rfl⟩ := Prod.mk.inj (Option.some.inj h)
      exact .refuse
  | generated l => cases h
  | request r =>
    obtain ⟨⟨r', nonces₁⟩, hr, h⟩ := Option.map_eq_some_iff.mp h
    obtain ⟨rfl, rfl⟩ := Prod.mk.inj h
    unfold Request.resume at hr
    split at hr
    · rename_i hstage
      split at hr
      · obtain ⟨rfl, rfl⟩ := Prod.mk.inj (Option.some.inj hr)
        exact .read hstage ‹_›
      · rename_i e hinvalid
        obtain ⟨rfl, rfl⟩ := Prod.mk.inj (Option.some.inj hr)
        refine .reject fun _ => ⟨hstage, fun l hvalid => ?_⟩
        rw [hvalid] at hinvalid
        cases hinvalid
    · rename_i hstage
      split at hr
      · obtain ⟨rfl, rfl⟩ := Prod.mk.inj (Option.some.inj hr)
        exact .verify hstage ‹_›
      · obtain ⟨rfl, rfl⟩ := Prod.mk.inj (Option.some.inj hr)
        exact .reject fun hsigned => absurd hsigned ‹_›
    · rename_i hstage
      obtain ⟨rfl, rfl⟩ := Prod.mk.inj (Option.some.inj hr)
      exact .mark hstage
    · cases hr
    · cases hr

theorem lookup_markNonceUsed (h : nonces.lookup nonce = some l) (k : String) :
    (markNonceUsed nonce nonces).lookup k =
      if k = nonce then some { l with used := true } else nonces.lookup k := by
  rw [markNonceUsed, h]
  exact Store.lookup_insert_ite ..

/-- A stored nonce stays, and a used one stays used. -/
theorem Advance.lookup (h : Advance verifySignature now uuid nonces p q nonces')
    (hread : nonces.lookup nonce = some l) :
    ∃ l', nonces'.lookup nonce = some l' ∧ (l.used = true → l'.used = true) := by
  cases h with
  | generate hfree =>
    exact ⟨l, Store.lookup_insert_of_free hfree hread, id⟩
  | @mark r hstage =>
    cases hown : nonces.lookup r.dto.nonce with
    | none =>
      rw [markNonceUsed, hown]
      exact ⟨l, hread, id⟩
    | some l₀ =>
      rw [lookup_markNonceUsed hown]
      split
      · exact ⟨_, rfl, fun _ => rfl⟩
      · exact ⟨l, hread, id⟩
  | _ => exact ⟨l, hread, id⟩

/-- A request that is past the checks stays so. -/
theorem Advance.past (h : Advance verifySignature now uuid nonces (.request r) q nonces')
    (hpast : r.Past verifySignature) :
    ∃ r', q = .request r' ∧ r'.dto = r.dto ∧ r'.Past verifySignature := by
  obtain ⟨hsigned, hstages⟩ := hpast
  cases h with
  | read hstage _ => simp [hstage] at hstages
  | verify _ _ => exact ⟨_, rfl, rfl, hsigned, .inr (.inl rfl)⟩
  | mark _ => exact ⟨_, rfl, rfl, hsigned, .inr (.inr rfl)⟩
  | reject hreason => simp [(hreason hsigned).1] at hstages

/-- A request that is past the checks was so before the step, or has just read its nonce. -/
theorem Advance.past_before (h : Advance verifySignature now uuid nonces p (.request r') nonces')
    (hpast : r'.Past verifySignature) :
    ∃ r, p = .request r ∧ r'.dto = r.dto ∧ (r.Past verifySignature ∨
      r.stage = .validateNonce ∧ r'.stage = .verifySignature ∧
        ∃ l, validateNonce now r.dto.nonce r.dto.publicKey nonces = .ok l) := by
  cases h with
  | @read r l hstage hvalid => exact ⟨r, rfl, rfl, .inr ⟨hstage, rfl, l, hvalid⟩⟩
  | @verify r hstage hsigned => exact ⟨r, rfl, rfl, .inl ⟨hsigned, .inl hstage⟩⟩
  | @mark r hstage => exact ⟨r, rfl, rfl, .inl ⟨hpast.1, .inr (.inl hstage)⟩⟩
  | reject _ => simp [Request.Past] at hpast

/-- Only a request with a valid signature comes to mark its nonce. -/
theorem Advance.signed (h : Advance verifySignature now uuid nonces p (.request r') nonces')
    (hstage : r'.stage = .markNonceUsed ∨ r'.stage = .authenticated) :
    r'.Signed verifySignature ∨
      ∃ r, p = .request r ∧ r'.dto = r.dto ∧ r.stage = .markNonceUsed := by
  cases h with
  | read _ _ => simp at hstage
  | verify _ hsigned => exact .inl hsigned
  | @mark r hmark => exact .inr ⟨r, rfl, rfl, hmark⟩
  | reject _ => simp at hstage

/-- A request is authenticated in the step that marks its nonce. -/
theorem Advance.marked (h : Advance verifySignature now uuid nonces p (.request r') nonces')
    (hstage : r'.stage = .authenticated) (hread : nonces.lookup r'.dto.nonce = some l) :
    ∃ l', nonces'.lookup r'.dto.nonce = some l' ∧ l'.used = true := by
  cases h with
  | mark _ => exact ⟨_, (lookup_markNonceUsed hread _).trans (if_pos rfl), rfl⟩
  | _ => cases hstage

end Steps

/-! ## Runs -/

section Runs

variable {verifySignature : String → String → String → Bool}

/-- Two requests do not both get past the checks of one nonce. -/
def Exclusive (verifySignature : String → String → String → Bool) (p q : Point) : Prop :=
  ∀ r r', p = .request r → q = .request r' → r'.dto.nonce = r.dto.nonce →
    r.Past verifySignature → ¬ r'.Past verifySignature

theorem Exclusive.symm {p q : Point} (h : Exclusive verifySignature p q) :
    Exclusive verifySignature q p :=
  fun r r' hr hr' hnonce hpast hpast' => h r' r hr' hr hnonce.symm hpast' hpast

/-- At most one request is past the checks of a nonce, and the nonce of an authenticated request is
marked as used. -/
structure Sound (verifySignature : String → String → String → Bool)
    (w : Tasks NonceRepository Point) : Prop where
  once : Apart (Exclusive verifySignature) w.points
  stored : ∀ r, .request r ∈ w.points → r.Past verifySignature →
    ∃ l, w.shared.lookup r.dto.nonce = some l ∧ (r.stage = .authenticated → l.used = true)
  signed : ∀ r, .request r ∈ w.points → r.stage = .markNonceUsed ∨ r.stage = .authenticated →
    r.Signed verifySignature

variable {nonces nonces' : NonceRepository} {points : List Point} {p q : Point} {now i : ℕ}
  {uuid : String}

theorem stage_of_starts {r : Request}
    (hp : (requests verifySignature).starts nonces (.request r) = true) :
    r.stage = .validateNonce := by
  simpa [requests] using hp

theorem Sound.start (h : Sound verifySignature ⟨nonces, points⟩)
    (hp : (requests verifySignature).starts nonces p = true) :
    Sound verifySignature ⟨nonces, points ++ [p]⟩ := by
  have hfresh : ∀ r, p = .request r → r.stage = .validateNonce := by
    rintro r rfl
    exact stage_of_starts hp
  have hexclusive : ∀ q, Exclusive verifySignature p q := by
    rintro q r r' hr _ _ ⟨-, hstages⟩
    simp [hfresh r hr] at hstages
  refine ⟨h.once.start fun q _ => ⟨hexclusive q, (hexclusive q).symm⟩, ?_, ?_⟩
  · intro r hr hpast
    rcases List.mem_append.mp hr with hold | hnew
    · exact h.stored r hold hpast
    · -- a request that starts is past no checks
      have hstages := hpast.2
      simp [hfresh r (List.mem_singleton.mp hnew).symm] at hstages
  · intro r hr hstage
    rcases List.mem_append.mp hr with hold | hnew
    · exact h.signed r hold hstage
    · simp [hfresh r (List.mem_singleton.mp hnew).symm] at hstage

/-- After a step that is separate from the others still only one request is past the checks. -/
theorem Sound.exclusive_step (h : Sound verifySignature ⟨nonces, points⟩) (hp : points[i]? = some p)
    (hG : Separate verifySignature now uuid i p ⟨nonces, points⟩)
    (hstep : Advance verifySignature now uuid nonces p q nonces') {j : ℕ} {s : Point} (hj : j ≠ i)
    (hs : points[j]? = some s) : Exclusive verifySignature q s := by
  rintro r' r'' rfl rfl hnonce hpast' hpast''
  obtain ⟨r, rfl, hdto, hpast | ⟨hstage, -, l, hvalid⟩⟩ := hstep.past_before hpast'
  · exact h.once i j _ _ (Ne.symm hj) hp hs r r'' rfl rfl (hdto ▸ hnonce) hpast hpast''
  · have hsigned : r.Signed verifySignature := by
      have hsigned' := hpast'.1
      unfold Request.Signed at hsigned' ⊢
      rwa [hdto] at hsigned'
    have hnot := hG r l rfl hstage hsigned hvalid r'' (List.mem_of_getElem? hs) (hdto ▸ hnonce)
    -- the other request has marked the nonce, so it was not read as unused
    have hauth : r''.stage = .authenticated := by
      have hstages := hpast''.2
      have hsigned'' := hpast''.1
      unfold Request.Pending at hnot
      tauto
    obtain ⟨l', hl', hused⟩ := h.stored r'' (List.mem_of_getElem? hs) hpast''
    obtain ⟨hl, hunused⟩ := validateNonce_eq_ok hvalid
    rw [hnonce, hdto] at hl'
    obtain rfl := Option.some.inj (hl.symm.trans hl')
    rw [hused hauth] at hunused
    cases hunused

theorem Sound.step (h : Sound verifySignature ⟨nonces, points⟩) (hp : points[i]? = some p)
    (hG : Separate verifySignature now uuid i p ⟨nonces, points⟩)
    (hstep : Advance verifySignature now uuid nonces p q nonces') :
    Sound verifySignature ⟨nonces', points.set i q⟩ := by
  constructor
  · refine h.once.set fun j s hj hs => ?_
    have hexclusive := h.exclusive_step hp hG hstep hj hs
    exact ⟨hexclusive, hexclusive.symm⟩
  · intro r hr hpast
    rcases List.mem_or_eq_of_mem_set hr with hold | rfl
    · obtain ⟨l, hl, hused⟩ := h.stored r hold hpast
      obtain ⟨l', hl', hkeep⟩ := hstep.lookup hl
      exact ⟨l', hl', fun hauth => hkeep (hused hauth)⟩
    · have hread : ∃ l, nonces.lookup r.dto.nonce = some l := by
        obtain ⟨r₀, rfl, hdto, hpast₀ | ⟨-, -, l, hvalid⟩⟩ := hstep.past_before hpast
        · obtain ⟨l, hl, -⟩ := h.stored r₀ (List.mem_of_getElem? hp) hpast₀
          exact ⟨l, hdto ▸ hl⟩
        · exact ⟨l, hdto ▸ (validateNonce_eq_ok hvalid).1⟩
      obtain ⟨l, hl⟩ := hread
      obtain ⟨l', hl', -⟩ := hstep.lookup hl
      refine ⟨l', hl', fun hauth => ?_⟩
      obtain ⟨l'', hl'', hused⟩ := hstep.marked hauth hl
      obtain rfl := Option.some.inj (hl'.symm.trans hl'')
      exact hused
  · intro r hr hstage
    rcases List.mem_or_eq_of_mem_set hr with hold | rfl
    · exact h.signed r hold hstage
    · rcases hstep.signed hstage with hsigned | ⟨r₀, rfl, hdto, hmark⟩
      · exact hsigned
      · have hsigned := h.signed r₀ (List.mem_of_getElem? hp) (.inl hmark)
        unfold Request.Signed at hsigned ⊢
        rwa [hdto]

theorem Sound.singleUse {w : Tasks NonceRepository Point} (h : Sound verifySignature w) :
    SingleUse w := by
  rintro nonce i j ⟨r, hr, rfl, hstage⟩ ⟨r', hr', hnonce, hstage'⟩
  by_contra hne
  refine h.once i j _ _ hne hr hr' r r' rfl rfl hnonce ?_ ?_
  · exact ⟨h.signed r (List.mem_of_getElem? hr) (.inr hstage), .inr (.inr hstage)⟩
  · exact ⟨h.signed r' (List.mem_of_getElem? hr') (.inr hstage'), .inr (.inr hstage')⟩

/-- A request that is past the checks stays so in every step. -/
theorem past_step (hp : points[i]? = some p)
    (hstep : Advance verifySignature now uuid nonces p q nonces') {j : ℕ} {r : Request}
    (hr : points[j]? = some (.request r)) (hpast : r.Past verifySignature) :
    ∃ r', (points.set i q)[j]? = some (.request r') ∧ r'.dto = r.dto ∧
      r'.Past verifySignature := by
  by_cases hj : j = i
  · subst hj
    obtain rfl := Option.some.inj (hp.symm.trans hr)
    obtain ⟨r', rfl, hdto, hpast'⟩ := hstep.past hpast
    exact ⟨r', getElem?_step_self hp, hdto, hpast'⟩
  · exact ⟨r, (getElem?_step_ne hj).trans hr, rfl, hpast⟩

/-- Two requests that are past the checks of one nonce stay so. -/
theorem apart_before_step (hp : points[i]? = some p)
    (hstep : Advance verifySignature now uuid nonces p q nonces')
    (h : Apart (Exclusive verifySignature) (points.set i q)) :
    Apart (Exclusive verifySignature) points := by
  rintro j k _ _ hne hj hk r r' rfl rfl hnonce hpast hpast'
  obtain ⟨r₁, hr₁, hdto₁, hpast₁⟩ := past_step hp hstep hj hpast
  obtain ⟨r₂, hr₂, hdto₂, hpast₂⟩ := past_step hp hstep hk hpast'
  exact h j k _ _ hne hr₁ hr₂ r₁ r₂ rfl rfl (by rw [hdto₁, hdto₂, hnonce]) hpast₁ hpast₂

/-- A step that is not separate from the others leaves two requests past the checks of one nonce. -/
theorem not_apart_of_not_separate (hp : points[i]? = some p)
    (hG : ¬ Separate verifySignature now uuid i p ⟨nonces, points⟩)
    (hstep : Advance verifySignature now uuid nonces p q nonces') :
    ¬ Apart (Exclusive verifySignature) (points.set i q) := by
  intro h
  refine hG fun r l hr hstage hsigned hvalid r' hr' hnonce hpending => ?_
  subst hr
  obtain ⟨j, hj⟩ := List.getElem?_of_mem hr'
  have hne : j ≠ i := by
    rintro rfl
    obtain rfl := Point.request.inj (Option.some.inj (hp.symm.trans hj))
    simp [Request.Pending, hstage] at hpending
  have hpast' : r'.Past verifySignature := ⟨hpending.1, by
    rcases hpending.2 with hs | hs
    · exact .inl hs
    · exact .inr (.inl hs)⟩
  cases hstep with
  | read _ _ =>
    exact h i j _ _ (Ne.symm hne) (getElem?_step_self hp) ((getElem?_step_ne hne).trans hj) _ r'
      rfl rfl hnonce ⟨hsigned, .inl rfl⟩ hpast'
  | verify hs _ => rw [hs] at hstage; cases hstage
  | mark hs => rw [hs] at hstage; cases hstage
  | reject hreason => exact (hreason hsigned).2 l hvalid

/-- Where all tasks have ended, the requests past the checks are authenticated. -/
theorem apart_of_singleUse {w : Tasks NonceRepository Point}
    (hidle : (requests verifySignature).Idle w) (h : SingleUse w) :
    Apart (Exclusive verifySignature) w.points := by
  have hauth : ∀ i r, w.points[i]? = some (.request r) → r.Past verifySignature →
      Authenticated w i r.dto.nonce := by
    intro i r hr hpast
    refine ⟨r, hr, rfl, ?_⟩
    have hend := hidle _ (List.mem_of_getElem? hr) 0 "" w.shared
    rcases hpast.2 with hs | hs | hs
    · -- a request that is about to verify or to mark would go on
      simp [requests, Request.resume, hs] at hend
      split at hend <;> cases hend
    · simp [requests, Request.resume, hs] at hend
    · exact hs
  rintro i j _ _ hne hi hj r r' rfl rfl hnonce hpast hpast'
  exact hne (h _ i j (hauth i r hi hpast) (hnonce ▸ hauth j r' hj hpast'))

/-- Where two requests that are past the checks of one nonce are nowhere in the end, all steps were
separate. -/
theorem separate_of_apart {w₀ w : World (Tasks NonceRepository Point)}
    {log : Async.Log NonceRepository Point String}
    (h : (requests verifySignature).contract.Run w₀ w log)
    (hend : Apart (Exclusive verifySignature) w.store.points) :
    ∀ c ∈ log, Async.OnStep (Separate verifySignature) c := by
  -- going back along the run: what overlaps after a step overlaps from then on
  refine h.invariant_log (I := fun _ s log => Apart (Exclusive verifySignature) s.points →
    ∀ c ∈ log, Async.OnStep (Separate verifySignature) c) (by simp)
    (fun _ _ _ _ _ hs => by exact hs) ?_ hend
  intro t call r before after log ih he hafter c hc
  have hmove := Async.step_of_exec he
  cases hmove with
  | start hp =>
    have hbefore : Apart (Exclusive verifySignature) before.points := fun i j p q hne hi hj =>
      hafter i j p q hne ((List.getElem?_append_left (List.getElem?_eq_some_iff.mp hi).1).trans hi)
        ((List.getElem?_append_left (List.getElem?_eq_some_iff.mp hj).1).trans hj)
    rcases List.mem_append.mp hc with hold | hnew
    · exact ih hbefore c hold
    · obtain rfl := List.mem_singleton.mp hnew
      trivial
  | resume hp hq =>
    have hstep := advance_of_resume hq
    rcases List.mem_append.mp hc with hold | hnew
    · exact ih (apart_before_step hp hstep hafter) c hold
    · obtain rfl := List.mem_singleton.mp hnew
      intro p hp'
      obtain rfl := Option.some.inj (hp.symm.trans hp')
      by_contra hG
      exact not_apart_of_not_separate hp hG hstep hafter

theorem sound_nil (nonces : NonceRepository) : Sound verifySignature ⟨nonces, []⟩ :=
  ⟨apart_nil, fun _ hr => absurd hr List.not_mem_nil, fun _ hr => absurd hr List.not_mem_nil⟩

/-- In a run whose requests do not overlap no nonce authenticates two of them, at any time. And if
in the end of a run, where all requests have ended, no nonce has authenticated two of them, then
they did not overlap. -/
theorem single_use_iff (verifySignature : String → String → String → Bool) {t₀ : ℕ}
    {nonces : NonceRepository} {w : World (Tasks NonceRepository Point)}
    {log : Async.Log NonceRepository Point String}
    (h : (requests verifySignature).contract.Run ⟨t₀, ⟨nonces, []⟩⟩ w log) :
    ((∀ c ∈ log, Async.OnStep (Separate verifySignature) c) →
      SingleUse w.store ∧ ∀ c ∈ log, SingleUse c.before ∧ SingleUse c.after) ∧
    ((requests verifySignature).Idle w.store → SingleUse w.store →
      ∀ c ∈ log, Async.OnStep (Separate verifySignature) c) := by
  constructor
  · intro hG
    obtain ⟨hend, hlog⟩ := Async.invariant (I := Sound verifySignature)
      (fun _ _ _ hs hp => hs.start hp)
      (fun _ _ _ _ _ _ _ _ hs hp hg hq => hs.step hp hg (advance_of_resume hq))
      h (sound_nil nonces) hG
    exact ⟨hend.singleUse, fun c hc => ⟨(hlog c hc).1.singleUse, (hlog c hc).2.singleUse⟩⟩
  · intro hidle hsingle
    exact separate_of_apart h (apart_of_singleUse hidle hsingle)

/-- Logins by one nonce, one after the other: the second one is rejected. -/
def sequentialLogins : List (ℕ × Move Point String) :=
  let login := Point.request ⟨.walletLogin, ⟨"GA", "sig", "n1"⟩, .validateNonce⟩
  [(0, .start (.generateNonce "GA")), (0, .resume 0 "n1"), (1, .start login), (1, .start login),
    (2, .resume 1 ""), (3, .resume 1 ""), (4, .resume 1 ""), (5, .resume 2 "")]

theorem single_use_iff_sample :
    let run := (requests fun _ _ _ => true).contract.play ⟨0, ⟨∅, []⟩⟩ sequentialLogins
    (∀ c ∈ run.2, Async.OnStep (Separate fun _ _ _ => true) c) ∧ SingleUse run.1.store ∧
      ∀ c ∈ run.2, SingleUse c.before ∧ SingleUse c.after := by
  intro run
  have hrun := Contract.run_play (requests fun _ _ _ => true).contract ⟨0, ⟨∅, []⟩⟩
    sequentialLogins (by decide)
  have hpoints : run.1.store.points = [.generated (some ⟨"n1", "GA", 300000, false⟩),
      .request ⟨.walletLogin, ⟨"GA", "sig", "n1"⟩, .authenticated⟩,
      .request ⟨.walletLogin, ⟨"GA", "sig", "n1"⟩, .rejected .nonceAlreadyUsed⟩] := by decide
  have hidle : (requests fun _ _ _ => true).Idle run.1.store := by
    intro p hp t input s
    rw [hpoints] at hp
    simp only [List.mem_cons, List.not_mem_nil, or_false] at hp
    rcases hp with rfl | rfl | rfl <;> rfl
  have hfirst : ∀ i nonce, Authenticated run.1.store i nonce → i = 1 := by
    rintro i nonce ⟨r, hr, -, hstage⟩
    rw [hpoints] at hr
    match i, hr with
    | 0, hr => cases hr
    | 1, _ => rfl
    | 2, hr =>
      obtain rfl := Point.request.inj (Option.some.inj hr)
      cases hstage
  have hseparate := (single_use_iff (fun _ _ _ => true) hrun).2 hidle fun nonce i j hi hj =>
    (hfirst i nonce hi).trans (hfirst j nonce hj).symm
  exact ⟨hseparate, (single_use_iff (fun _ _ _ => true) hrun).1 hseparate⟩

/-- Logins by one nonce that both read it before one of them marks it. -/
def overlappingLogins : List (ℕ × Move Point String) :=
  let login := Point.request ⟨.walletLogin, ⟨"GA", "sig", "n1"⟩, .validateNonce⟩
  [(0, .start (.generateNonce "GA")), (0, .resume 0 "n1"), (1, .start login), (1, .start login),
    (2, .resume 1 ""), (2, .resume 2 ""), (3, .resume 1 ""), (3, .resume 2 ""), (4, .resume 1 ""),
    (4, .resume 2 "")]

/-- Both logins are authenticated by the nonce. -/
theorem replayed_login :
    ¬ ∀ (verifySignature : String → String → String → Bool) w log,
      (requests verifySignature).contract.Run ⟨0, ⟨∅, []⟩⟩ w log → SingleUse w.store := by
  intro hall
  have hsingle := hall (fun _ _ _ => true) _ _ (Contract.run_play
    (requests fun _ _ _ => true).contract ⟨0, ⟨∅, []⟩⟩ overlappingLogins (by decide))
  have h₁ : ((requests fun _ _ _ => true).contract.play ⟨0, ⟨∅, []⟩⟩
      overlappingLogins).1.store.points[1]? =
      some (.request ⟨.walletLogin, ⟨"GA", "sig", "n1"⟩, .authenticated⟩) := by decide
  have h₂ : ((requests fun _ _ _ => true).contract.play ⟨0, ⟨∅, []⟩⟩
      overlappingLogins).1.store.points[2]? =
      some (.request ⟨.walletLogin, ⟨"GA", "sig", "n1"⟩, .authenticated⟩) := by decide
  cases hsingle "n1" 1 2 ⟨_, h₁, rfl, rfl⟩ ⟨_, h₂, rfl, rfl⟩

end Runs

end Stellara.Auth
