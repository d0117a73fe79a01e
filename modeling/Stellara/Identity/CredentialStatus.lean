import Stellara.Identity.Credentials

/-!
# The status of a credential

A revocation is written into the registry and into the status of the credential, and verification
reads the registry. After the contract was initialized once, a credential is verified exactly from
when it is issued until it is revoked or expires.

## Main definitions

* `Issues`, `Revokes`, `Initializes`: what a commit does to the credentials
* `VerifiableCredential.IsMarked`: the status of a credential says that it is revoked
* `Tracked`: the state is what the commits so far have issued and revoked

## Main results

* `Tracked.commit`: every commit keeps the registry and the credentials in step
* `credential_status`: what is verified, and what is revoked, in every run
-/

namespace Stellara.Credentials

variable {w : World State} {log : List (Commit State Request Result)}
  {c : Commit State Request Result} {s : State} {id : ℕ} {credential : VerifiableCredential}

/-! ## Properties -/

/-- The commit issued the credential, with its expiration date. -/
def Issues (c : Commit State Request Result) (id : ℕ) (expirationDate : Option ℕ) : Prop :=
  c.result = .id id ∧ ∃ issuerDid subjectDid credentialType claims proof,
    c.call.call =
      .issueCredential issuerDid subjectDid credentialType claims expirationDate proof

/-- The commit revoked the credential. -/
def Revokes (c : Commit State Request Result) (id : ℕ) : Prop :=
  ∃ revokerDid reason proof, c.call.call = .revokeCredential id revokerDid reason proof

def Initializes (c : Commit State Request Result) : Prop :=
  ∃ admin approvers executor, c.call.call = .init admin approvers executor

/-- The id that the commit gave to a credential. -/
def issuedId? (c : Commit State Request Result) : Option ℕ :=
  match c.result with
  | .id id => some id
  | .unit => none

/-- The ids that were given to credentials, in order. -/
def issuedIds (log : List (Commit State Request Result)) : List ℕ := log.filterMap issuedId?

/-- The status of the credential is that it is revoked. -/
def VerifiableCredential.IsMarked (credential : VerifiableCredential) : Prop :=
  ∃ status ∈ credential.credentialStatus, status.status = "revoked"

/-- A credential as it is issued has a proof and a status. -/
structure VerifiableCredential.Complete (credential : VerifiableCredential) : Prop where
  proof : credential.proof.proofValue ≠ []
  status : credential.credentialStatus.isSome

/-- The credentials are those that were issued, and the registry and their statuses say which of
them were revoked. -/
structure Tracked (s : State) (log : List (Commit State Request Result)) : Prop where
  numbered : ∀ id, (s.credentials.lookup id).isSome ↔ 1 ≤ id ∧ id ≤ s.vcCount
  issued : ∀ id expirationDate,
    (∃ credential, s.credentials.lookup id = some credential ∧
      credential.expirationDate = expirationDate) ↔ ∃ c ∈ log, Issues c id expirationDate
  complete : ∀ id credential, s.credentials.lookup id = some credential → credential.Complete
  revoked : ∀ id, isRevoked id s = true ↔ ∃ c ∈ log, Revokes c id
  marked : ∀ id, isRevoked id s = true ↔
    ∃ credential, s.credentials.lookup id = some credential ∧ credential.IsMarked
  distinct : (issuedIds log).Nodup ∧ ∀ id ∈ issuedIds log, id ≤ s.vcCount

/-! ## Commits -/

theorem exists_mem_concat {P : Commit State Request Result → Prop} :
    (∃ d ∈ log ++ [c], P d) ↔ (∃ d ∈ log, P d) ∨ P c := by
  simp only [List.mem_append, List.mem_singleton, or_and_right, exists_or, exists_eq_left]

theorem issuedIds_concat : issuedIds (log ++ [c]) = issuedIds log ++ (issuedId? c).toList := by
  rw [issuedIds, List.filterMap_append, issuedIds]
  cases h : issuedId? c <;> simp [h]

theorem isRevoked_insert {s' : State} {entry : RevocationEntry} {id' : ℕ}
    (h : s'.revocations = s.revocations.insert id entry) :
    isRevoked id' s' = true ↔ id' = id ∨ isRevoked id' s = true := by
  rw [isRevoked, h]
  exact Store.isSome_insert

theorem tracked_init (admin : Address) (approvers : List Address) (executor : Address) :
    Tracked (init admin approvers executor .empty) [] := by
  refine ⟨fun id => ?_, by simp [init, State.empty], by simp [init, State.empty],
    by simp [isRevoked, init], by simp [isRevoked, init, State.empty], by simp [issuedIds]⟩
  simp only [init, State.empty, AList.lookup_empty, Option.isSome_none, Bool.false_eq_true,
    false_iff]
  omega

/-- A revocation marks the credential. -/
theorem VerifiableCredential.Complete.isMarked (h : credential.Complete) {reason : Symbol} :
    VerifiableCredential.IsMarked { credential with
      credentialStatus := credential.credentialStatus.map (CredentialStatus.revoke reason) } := by
  obtain ⟨status, hstatus⟩ := Option.isSome_iff_exists.mp h.status
  exact ⟨status.revoke reason, by simp [hstatus], rfl⟩

/-- A new credential is neither revoked nor marked, and the others are as they were. -/
theorem Tracked.issue (h : Tracked s log) {request : Request} {t : ℕ} {issuerDid subjectDid : Symbol}
    {credentialType : CredentialType} {claims : List (Symbol × Symbol)}
    {expirationDate : Option ℕ} {proof : Proof} {s' : State}
    (hcall : request.call =
      .issueCredential issuerDid subjectDid credentialType claims expirationDate proof)
    (hcredentials : s'.credentials = s.credentials.insert (s.vcCount + 1) credential)
    (hrevocations : s'.revocations = s.revocations) (hcount : s'.vcCount = s.vcCount + 1)
    (hcomplete : credential.Complete) (hdate : credential.expirationDate = expirationDate)
    (hvalid : ¬ credential.IsMarked) :
    Tracked s' (log ++ [⟨t, request, .id (s.vcCount + 1), s, s'⟩]) := by
  have hnext := Store.lookup_next h.numbered
  have hrevoked : ∀ id, isRevoked id s' = isRevoked id s := fun id => by
    rw [isRevoked, hrevocations, isRevoked]
  constructor
  case numbered =>
    intro id
    rw [hcredentials, hcount]
    exact Store.isSome_insert_next h.numbered credential id
  case issued =>
    intro id date
    rw [exists_mem_concat, ← h.issued, hcredentials, Store.lookup_insert_ite]
    split
    · -- the id that is given now: no credential had it before
      rename_i heq
      subst heq
      rw [hnext]
      constructor
      · rintro ⟨credential', hsome, rfl⟩
        obtain rfl := Option.some.inj hsome
        exact .inr ⟨rfl, _, _, _, _, _, hcall.trans (by rw [hdate])⟩
      · rintro (⟨_, hnone, -⟩ | ⟨-, _, _, _, _, _, hissue⟩)
        · cases hnone
        · rw [hcall] at hissue
          cases hissue
          exact ⟨credential, rfl, hdate⟩
    · rename_i hne
      refine (or_iff_left ?_).symm
      rintro ⟨hid, -⟩
      exact hne (Result.id.inj hid).symm
  case complete =>
    intro id credential' hread
    rw [hcredentials] at hread
    rcases Store.eq_or_lookup_of_insert hread with ⟨-, rfl⟩ | ⟨-, hold⟩
    · exact hcomplete
    · exact h.complete id credential' hold
  case revoked =>
    -- the commit is no revocation
    intro id
    rw [hrevoked, exists_mem_concat, h.revoked]
    refine (or_iff_left ?_).symm
    rintro ⟨_, _, _, hrevoke⟩
    rw [hcall] at hrevoke
    cases hrevoke
  case marked =>
    intro id
    rw [hrevoked, h.marked, hcredentials, Store.lookup_insert_ite]
    split
    · rename_i heq
      subst heq
      rw [hnext]
      refine iff_of_false (by simp) ?_
      rintro ⟨credential', hsome, hmarked⟩
      obtain rfl := Option.some.inj hsome
      exact hvalid hmarked
    · rfl
  case distinct =>
    -- the ids that were given are at most the counter
    rw [issuedIds_concat, hcount]
    constructor
    · rw [issuedId?, Option.toList_some, ← List.concat_eq_append, List.nodup_concat]
      exact ⟨fun hmem => Nat.not_succ_le_self _ (h.distinct.2 _ hmem), h.distinct.1⟩
    · rw [List.forall_mem_append]
      refine ⟨fun id hid => (h.distinct.2 id hid).trans (Nat.le_succ _), fun id hid => ?_⟩
      exact (List.mem_singleton.mp hid).le

/-- A revocation is entered into the registry and into the status of the credential. -/
theorem Tracked.revoke (h : Tracked s log) {request : Request} {t : ℕ} {revokerDid reason : Symbol}
    {proof : List UInt8} {entry : RevocationEntry} {s' : State}
    (hcall : request.call = .revokeCredential id revokerDid reason proof)
    (hread : s.credentials.lookup id = some credential)
    (hcredentials : s'.credentials = s.credentials.insert id { credential with
      credentialStatus := credential.credentialStatus.map (CredentialStatus.revoke reason) })
    (hrevocations : s'.revocations = s.revocations.insert id entry)
    (hcount : s'.vcCount = s.vcCount) :
    Tracked s' (log ++ [⟨t, request, .unit, s, s'⟩]) := by
  have hcomplete := h.complete id credential hread
  constructor
  case numbered =>
    intro id'
    rw [hcredentials, hcount, Store.isSome_insert_of_lookup hread]
    exact h.numbered id'
  case issued =>
    -- the credential keeps its expiration date
    intro id' date
    rw [exists_mem_concat, ← h.issued, or_iff_left (by rintro ⟨hid, -⟩; cases hid), hcredentials,
      Store.lookup_insert_ite]
    split
    · rename_i heq
      rw [heq, hread]
      simp
    · rfl
  case complete =>
    intro id' credential' hread'
    rw [hcredentials] at hread'
    rcases Store.eq_or_lookup_of_insert hread' with ⟨-, rfl⟩ | ⟨-, hold⟩
    · exact ⟨hcomplete.proof, by simpa using hcomplete.status⟩
    · exact h.complete id' credential' hold
  case revoked =>
    intro id'
    rw [exists_mem_concat, ← h.revoked, isRevoked_insert hrevocations, or_comm]
    refine or_congr_right ?_
    constructor
    · rintro rfl
      exact ⟨revokerDid, reason, proof, hcall⟩
    · rintro ⟨_, _, _, hrevoke⟩
      rw [hcall] at hrevoke
      cases hrevoke
      rfl
  case marked =>
    intro id'
    rw [isRevoked_insert hrevocations, hcredentials, Store.lookup_insert_ite]
    split
    · rename_i heq
      exact iff_of_true (.inl heq) ⟨_, rfl, hcomplete.isMarked⟩
    · rename_i hne
      rw [or_iff_right hne]
      exact h.marked id'
  case distinct =>
    rw [issuedIds_concat, hcount]
    exact (List.append_nil (issuedIds log)).symm ▸ h.distinct

/-- Every commit but an initialization keeps the credentials and the registry in step. -/
theorem Tracked.commit (h : Tracked c.before log) (hinit : ¬ Initializes c)
    (he : contract.exec c.time c.call c.before = .ok (c.result, c.after)) :
    Tracked c.after (log ++ [c]) := by
  obtain ⟨t, request, r, s, s'⟩ := c
  have heffect : Effect t s request.call r s' := execute_effect he
  generalize hcall : request.call = call at heffect
  cases heffect with
  | init admin approvers executor => exact absurd ⟨admin, approvers, executor, hcall⟩ hinit
  | issue hproof =>
    exact h.issue hcall rfl rfl rfl ⟨hproof, rfl⟩ rfl (by simp [VerifiableCredential.IsMarked])
  | revoke hread _ => exact h.revoke hcall hread rfl rfl rfl

/-! ## Runs -/

/-- Every commit keeps the entries of the registry. -/
theorem revocations_kept (hinit : ¬ Initializes c)
    (he : contract.exec c.time c.call c.before = .ok (c.result, c.after)) (id : ℕ)
    (entry : RevocationEntry) (hread : c.before.revocations.lookup id = some entry) :
    c.after.revocations.lookup id = some entry := by
  obtain ⟨t, request, r, s, s'⟩ := c
  have heffect : Effect t s request.call r s' := execute_effect he
  generalize hcall : request.call = call at heffect
  cases heffect with
  | init admin approvers executor => exact absurd ⟨admin, approvers, executor, hcall⟩ hinit
  | issue _ => exact hread
  | revoke _ hnone => exact Store.lookup_insert_of_free hnone hread

variable {t₀ : ℕ} {admin executor : Address} {approvers : List Address}

theorem tracked_of_run (hrun : contract.Run ⟨t₀, init admin approvers executor .empty⟩ w log)
    (hinit : ∀ c ∈ log, ¬ Initializes c) : Tracked w.store log := by
  refine hrun.invariant_log (I := fun _ s log => (∀ c ∈ log, ¬ Initializes c) → Tracked s log)
    (fun _ => tracked_init admin approvers executor) (fun _ _ _ _ _ hs => hs) ?_ hinit
  intro t k r s s' log ih he hall
  rw [List.forall_mem_append, List.forall_mem_singleton] at hall
  exact (ih hall.1).commit (c := ⟨t, k, r, s, s'⟩) hall.2 he

/-- After a single initialization, a credential is verified exactly if it was issued, has not been
revoked and has not expired. Revocations stay, every id is given once, and the credentials that are
marked as revoked are those in the registry. -/
theorem credential_status
    (hrun : contract.Run ⟨t₀, init admin approvers executor .empty⟩ w log)
    (hinit : ∀ c ∈ log, ¬ Initializes c) :
    (∀ now id, verifyCredential now id w.store = .ok true ↔
      (∃ expirationDate, (∃ c ∈ log, Issues c id expirationDate) ∧
        ∀ expiration ∈ expirationDate, now ≤ expiration) ∧ ∀ c ∈ log, ¬ Revokes c id) ∧
    (∀ c ∈ log, ∀ id entry, c.after.revocations.lookup id = some entry →
      w.store.revocations.lookup id = some entry) ∧
    (issuedIds log).Nodup ∧
    ∀ id, isRevoked id w.store = true ↔
      ∃ credential, w.store.credentials.lookup id = some credential ∧ credential.IsMarked := by
  have h := tracked_of_run hrun hinit
  refine ⟨fun now id => ?_, ?_, h.distinct.1, h.marked⟩
  · have hnot : isRevoked id w.store = false ↔ ∀ c ∈ log, ¬ Revokes c id := by
      rw [← Bool.not_eq_true, h.revoked]
      simp
    rw [verifyCredential_eq_true, ← hnot]
    simp only [← h.issued]
    constructor
    · rintro ⟨credential, hread, hrevoked, hlive, -⟩
      exact ⟨⟨_, ⟨credential, hread, rfl⟩, hlive⟩, hrevoked⟩
    · rintro ⟨⟨_, ⟨credential, hread, rfl⟩, hlive⟩, hrevoked⟩
      exact ⟨credential, hread, hrevoked, hlive, (h.complete id credential hread).proof⟩
  · refine hrun.later (R := fun s s' => ∀ id entry, s.revocations.lookup id = some entry →
      s'.revocations.lookup id = some entry) ?_ ?_ fun c hc => ?_
    · exact fun s id entry hread => hread
    · intro s₁ s₂ s₃ h₁ h₂ id entry hread
      exact h₂ id entry (h₁ id entry hread)
    · exact revocations_kept (hinit c hc) (hrun.exec_of_mem c hc)

/-- Two credentials are issued, and the first one is revoked. -/
def statusCalls : List (ℕ × Request) :=
  [(1, ⟨.issueCredential "issuer" "alice" .kycVerified [] none
      ⟨"sig", 1, "key", "assert", [7], none⟩, true⟩),
    (2, ⟨.issueCredential "issuer" "bob" .custom [] (some 9)
      ⟨"sig", 2, "key", "assert", [7], none⟩, true⟩),
    (3, ⟨.revokeCredential 1 "issuer" "fraud" [7], true⟩)]

/-- The first one is marked as revoked, and the ids differ. -/
theorem credential_status_sample :
    (issuedIds (contract.play ⟨0, init ⟨1⟩ [⟨2⟩] ⟨3⟩ .empty⟩ statusCalls).2).Nodup ∧
      ∀ id, isRevoked id (contract.play ⟨0, init ⟨1⟩ [⟨2⟩] ⟨3⟩ .empty⟩ statusCalls).1.store = true ↔
        ∃ credential,
          (contract.play ⟨0, init ⟨1⟩ [⟨2⟩] ⟨3⟩ .empty⟩ statusCalls).1.store.credentials.lookup
            id = some credential ∧ credential.IsMarked := by
  refine (credential_status (Contract.run_play contract ⟨0, init ⟨1⟩ [⟨2⟩] ⟨3⟩ .empty⟩ statusCalls
    (by decide)) fun c hc => ?_).2.2
  have hcall := Contract.call_mem_of_mem_play _ hc
  rintro ⟨_, _, _, hinit⟩
  simp only [statusCalls, List.map_cons, List.map_nil, List.mem_cons, List.not_mem_nil,
    or_false] at hcall
  rcases hcall with hcall | hcall | hcall <;> rw [hcall] at hinit <;> cases hinit

end Stellara.Credentials
