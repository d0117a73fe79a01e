import Mathlib.Data.List.Induction
import Stellara.Identity.Hub

/-!
# Who can read a data entry

An owner decides who reads: a requester is to read an entry under a permission that was granted
and not revoked since, that has not expired, and whose conditions hold. The contract grants as the
owner says, but it does not carry out a revocation, and it does not look at the time at which a
permission expires.

## Main definitions

* `Grant`, `grantsOf`: the permissions of a hub as the calls of its owner leave them
* `Grant.Valid`: a permission that lets its grantee read
* `ReadsPermitted`: only grantees with a valid permission read
* `Concerns`, `LeavesOthers`: a grant or a revocation changes nothing for anybody else
* `Decides`: the permission that a read is decided by

## Main results

* `granted_of_run`: the contract stores what was granted, whatever was revoked
* `data_access_iff`: reads are permitted exactly when every read that an outdated permission
  decides is also permitted by a valid one
-/

namespace Stellara.IdentityHub

abbrev Log := List (Commit State Request Result)

/-! ## Grants -/

/-- The terms of a permission. -/
structure Terms where
  id : ℕ
  granteeDid : Symbol
  dataEntryId : ℕ
  permissionType : PermissionType
  conditions : List Condition
  expiresAt : Option ℕ
deriving DecidableEq, Repr

def Permission.terms (p : Permission) : Terms :=
  ⟨p.id, p.granteeDid, p.dataEntryId, p.permissionType, p.conditions, p.expiresAt⟩

/-- A granted permission, and whether it was revoked since. -/
structure Grant where
  terms : Terms
  revoked : Bool
deriving DecidableEq, Repr

def revokeGrant (permissionId : ℕ) (g : Grant) : Grant :=
  if g.terms.id = permissionId then { g with revoked := true } else g

/-- What a commit does to the grants on a hub. -/
def recordGrant (hubId : ℕ) (grants : List Grant) (c : Commit State Request Result) : List Grant :=
  match c.call.call, c.result with
  | .grantPermission hubId' granteeDid dataEntryId permissionType conditions expiresAt, .id id =>
    if hubId' = hubId then
      grants ++ [⟨⟨id, granteeDid, dataEntryId, permissionType, conditions, expiresAt⟩, false⟩]
    else grants
  | .revokePermission hubId' permissionId, _ =>
    if hubId' = hubId then grants.map (revokeGrant permissionId) else grants
  | _, _ => grants

/-- The grants on a hub, in order. -/
def grantsOf (hubId : ℕ) (log : Log) : List Grant := log.foldl (recordGrant hubId) []

theorem grantsOf_append (hubId : ℕ) (log : Log) (c : Commit State Request Result) :
    grantsOf hubId (log ++ [c]) = recordGrant hubId (grantsOf hubId log) c := List.foldl_append

section Validity

variable (toU64 : Symbol → Option ℕ)

/-- The terms are for the requester to read the entry. -/
def Terms.IsFor (t : Terms) (dataEntryId : ℕ) (requesterDid : Symbol) : Prop :=
  t.granteeDid = requesterDid ∧ t.dataEntryId = dataEntryId ∧ t.permissionType = .read

instance (t : Terms) (dataEntryId : ℕ) (requesterDid : Symbol) :
    Decidable (t.IsFor dataEntryId requesterDid) := inferInstanceAs (Decidable (_ ∧ _))

/-- The grant was not revoked, has not expired, and its conditions hold. -/
structure Grant.Valid (now : ℕ) (g : Grant) : Prop where
  kept : g.revoked = false
  unexpired : ∀ expiration ∈ g.terms.expiresAt, now ≤ expiration
  conditions : checkConditions toU64 now g.terms.conditions = .ok true

/-- Whoever reads an entry from now on, other than the owner of its hub, does so under a grant that
is valid. -/
def ReadsPermitted (w : World State) (log : Log) : Prop :=
  ∀ t hubId dataEntryId requesterDid hub entry, w.now ≤ t →
    w.store.hubs.lookup hubId = some hub → hub.ownerDid ≠ requesterDid →
    getDataEntry toU64 t hubId dataEntryId requesterDid w.store = .ok entry →
    ∃ g ∈ grantsOf hubId log, g.terms.IsFor dataEntryId requesterDid ∧ g.Valid toU64 t

/-- The requester does not own the hub. -/
def Outsider (s : State) (hubId : ℕ) (requesterDid : Symbol) : Prop :=
  ∀ hub, s.hubs.lookup hubId = some hub → hub.ownerDid ≠ requesterDid

/-- The commit is about the access of the requester to the entry: a grant or a revocation of a
permission for it, unless the requester is the owner, or another call. -/
def Concerns (c : Commit State Request Result) (hubId dataEntryId : ℕ) (requesterDid : Symbol) :
    Prop :=
  match c.call.call with
  | .grantPermission hubId' granteeDid dataEntryId' .. =>
    Outsider c.before hubId requesterDid ∧ hubId' = hubId ∧ granteeDid = requesterDid ∧
      dataEntryId' = dataEntryId
  | .revokePermission hubId' permissionId =>
    Outsider c.before hubId requesterDid ∧ hubId' = hubId ∧
      ∃ hub p, c.before.hubs.lookup hubId = some hub ∧ p ∈ hub.permissions ∧ p.id = permissionId ∧
        p.granteeDid = requesterDid ∧ p.dataEntryId = dataEntryId
  | _ => True

/-- A grant or a revocation leaves the access of everybody else. -/
def LeavesOthers (c : Commit State Request Result) : Prop :=
  ∀ t hubId dataEntryId requesterDid, ¬ Concerns c hubId dataEntryId requesterDid →
    getDataEntry toU64 t hubId dataEntryId requesterDid c.after =
      getDataEntry toU64 t hubId dataEntryId requesterDid c.before

/-- The grant decides whether the requester can read: its conditions hold, and those of the earlier
grants for the requester do not. -/
def Decides (grants : List Grant) (now dataEntryId : ℕ) (requesterDid : Symbol) (g : Grant) : Prop :=
  ∃ pre post, grants = pre ++ g :: post ∧ g.terms.IsFor dataEntryId requesterDid ∧
    checkConditions toU64 now g.terms.conditions = .ok true ∧
    ∀ g' ∈ pre, g'.terms.IsFor dataEntryId requesterDid →
      checkConditions toU64 now g'.terms.conditions = .ok false

/-- The grant was revoked or has expired. -/
def Grant.Outdated (now : ℕ) (g : Grant) : Prop :=
  g.revoked = true ∨ ∃ expiration ∈ g.terms.expiresAt, expiration < now

/-- From now on, whenever an outdated grant decides a read of an entry that has not expired, another
grant for the same requester and entry is valid. -/
def OutdatedBacked (w : World State) (log : Log) : Prop :=
  ∀ t hubId dataEntryId requesterDid hub entry g, w.now ≤ t →
    w.store.hubs.lookup hubId = some hub → hub.ownerDid ≠ requesterDid →
    hub.Readable t dataEntryId entry →
    Decides toU64 (grantsOf hubId log) t dataEntryId requesterDid g → g.Outdated t →
    ∃ g' ∈ grantsOf hubId log, g'.terms.IsFor dataEntryId requesterDid ∧ g'.Valid toU64 t

end Validity

/-! ## What is stored -/

/-- The permissions of a hub. -/
def permissionsOf (s : State) (hubId : ℕ) : List Permission :=
  ((s.hubs.lookup hubId).map Hub.permissions).getD []

/-- The contract stores what was granted, and every permission as an active one. -/
structure Granted (s : State) (log : Log) : Prop where
  hubs : ∀ hubId, (s.hubs.lookup hubId).isSome → hubId ≤ s.hubCount
  terms : ∀ hubId,
    (permissionsOf s hubId).map Permission.terms = (grantsOf hubId log).map Grant.terms
  active : ∀ hubId, ∀ p ∈ permissionsOf s hubId, p.active = true

/-- The call initializes the contract. -/
def Call.isInit : Call → Bool
  | .init .. => true
  | _ => false

section Stored

variable {s s' : State} {log : Log} {now hubId : ℕ} {hub hub' : Hub} {request : Request}
  {r : Result}

theorem permissionsOf_of_lookup (h : s.hubs.lookup hubId = some hub) :
    permissionsOf s hubId = hub.permissions := by
  rw [permissionsOf, h]
  rfl

theorem permissionsOf_setHub (k : ℕ) : permissionsOf (s.setHub hubId hub') k =
    if k = hubId then hub'.permissions else permissionsOf s k := by
  rw [permissionsOf, State.setHub, Store.lookup_insert_ite]
  split <;> rfl

/-- Storing a hub with the permissions that it had. -/
theorem permissionsOf_setHub_same (h : s.hubs.lookup hubId = some hub)
    (hsame : hub'.permissions = hub.permissions) (k : ℕ) :
    permissionsOf (s.setHub hubId hub') k = permissionsOf s k := by
  rw [permissionsOf_setHub]
  split
  · subst k
    rw [hsame, permissionsOf_of_lookup h]
  · rfl

/-- Overwriting a hub keeps the hubs that exist. -/
theorem Granted.hubs_setHub (h : Granted s log) (hread : s.hubs.lookup hubId = some hub) :
    ∀ k, ((s.setHub hubId hub').hubs.lookup k).isSome → k ≤ (s.setHub hubId hub').hubCount :=
  fun k hk => h.hubs k ((Store.isSome_insert_of_lookup hread).mp hk)

/-- A commit that leaves the permissions, and the terms of the grants. -/
theorem Granted.keep (h : Granted s log) {c : Commit State Request Result}
    (hhubs : ∀ k, (s'.hubs.lookup k).isSome → k ≤ s'.hubCount)
    (hpermissions : ∀ k, permissionsOf s' k = permissionsOf s k)
    (hterms : ∀ k grants, (recordGrant k grants c).map Grant.terms = grants.map Grant.terms) :
    Granted s' (log ++ [c]) := by
  refine ⟨hhubs, fun k => ?_, fun k => ?_⟩
  · rw [grantsOf_append, hterms, hpermissions, h.terms]
  · rw [hpermissions]
    exact h.active k

theorem revokeGrant_terms (permissionId : ℕ) (g : Grant) :
    (revokeGrant permissionId g).terms = g.terms := by
  unfold revokeGrant
  split <;> rfl

/-- The number of a new hub is free. -/
theorem Granted.permissionsOf_next (h : Granted s log) : permissionsOf s (s.hubCount + 1) = [] := by
  have hfree : s.hubs.lookup (s.hubCount + 1) = none := by
    rw [← Option.not_isSome_iff_eq_none]
    exact fun hsome => absurd (h.hubs _ hsome) (Nat.not_succ_le_self _)
  rw [permissionsOf, hfree]
  rfl

/-- Every call but another initialization stores what it grants, and revokes nothing. -/
theorem Granted.execute (h : Granted s log) (hinit : request.call.isInit = false)
    (he : execute now request s = .ok (r, s')) :
    Granted s' (log ++ [⟨now, request, r, s, s'⟩]) := by
  obtain ⟨call, authorized⟩ := request
  cases step_of_execute he with
  | init admin approvers executor => cases hinit
  | createHub ownerDid =>
    refine h.keep (fun k hk => ?_) (fun k => ?_) fun _ _ => rfl
    · rcases Store.isSome_insert.mp hk with rfl | hk
      · exact le_rfl
      · exact (h.hubs k hk).trans (Nat.le_succ _)
    · rw [permissionsOf, Store.lookup_insert_ite]
      split
      · subst k
        exact h.permissionsOf_next.symm
      · rfl
  | addDataEntry hread id dataType encryptedData hash expiresAt metadata =>
    exact h.keep (h.hubs_setHub hread) (permissionsOf_setHub_same hread rfl) fun _ _ => rfl
  | @grantPermission hubId hub hread =>
    refine ⟨h.hubs_setHub hread, fun k => ?_, fun k => ?_⟩
    · rw [permissionsOf_setHub, grantsOf_append]
      simp only [recordGrant]
      by_cases hk : k = hubId
      · subst hk
        rw [if_pos rfl, if_pos rfl, List.map_append, List.map_append, ← h.terms,
          permissionsOf_of_lookup hread]
        rfl
      · rw [if_neg hk, if_neg (Ne.symm hk), h.terms]
    · rw [permissionsOf_setHub]
      split
      · rw [List.forall_mem_append, List.forall_mem_singleton]
        have hactive := h.active hubId
        rw [permissionsOf_of_lookup hread] at hactive
        exact ⟨hactive, rfl⟩
      · exact h.active k
  | revokePermission hread permissionId =>
    -- the grants are marked as revoked, and keep their terms
    refine h.keep (h.hubs_setHub hread) (permissionsOf_setHub_same hread rfl) fun k grants => ?_
    simp only [recordGrant]
    split
    · rw [List.map_map]
      exact List.map_congr_left fun g _ => revokeGrant_terms permissionId g
    · rfl
  | createSelectiveDisclosure => exact h.keep h.hubs (fun _ => rfl) fun _ _ => rfl

/-- The run initializes the contract once, before its calls. -/
def InitializedOnce (log : Log) : Prop := ∀ c ∈ log, c.call.call.isInit = false

/-- After every run the contract stores what was granted. -/
theorem granted_of_run {t₀ : ℕ} {admin executor : Address} {approvers : List Address}
    {w : World State} (h : contract.Run ⟨t₀, init admin approvers executor .empty⟩ w log)
    (honce : InitializedOnce log) : Granted w.store log := by
  refine h.invariant_log (I := fun _ s log => InitializedOnce log → Granted s log) (fun _ => ?_)
    (fun _ _ _ _ _ hs => hs) (fun t k r s s' log hs he honce => ?_) honce
  · exact ⟨fun k hk => by simp [init, State.empty] at hk, fun _ => rfl, fun _ _ hp => by cases hp⟩
  · have hlog : InitializedOnce log := fun c hc => honce c (List.mem_append_left _ hc)
    exact (hs hlog).execute (honce ⟨t, k, r, s, s'⟩ (by simp)) he

end Stored

/-! ## Reads -/

section Reads

variable (toU64 : Symbol → Option ℕ)

/-- Whether terms let the requester read the entry. -/
def Terms.permits (now dataEntryId : ℕ) (requesterDid : Symbol) (t : Terms) : Returns Bool :=
  if t.IsFor dataEntryId requesterDid then checkConditions toU64 now t.conditions else .ok false

variable {toU64} {s s' : State} {log : Log} {now hubId dataEntryId : ℕ} {requesterDid : Symbol}
  {hub : Hub} {t : Terms}

theorem Terms.permits_eq_true : t.permits toU64 now dataEntryId requesterDid = .ok true ↔
    t.IsFor dataEntryId requesterDid ∧ checkConditions toU64 now t.conditions = .ok true := by
  unfold Terms.permits
  split <;> simp [*]

theorem Terms.permits_eq_false : t.permits toU64 now dataEntryId requesterDid = .ok false ↔
    (t.IsFor dataEntryId requesterDid → checkConditions toU64 now t.conditions = .ok false) := by
  unfold Terms.permits
  split <;> simp [*]

/-- An active permission lets read whom its terms let read. -/
theorem permits_terms {p : Permission} (hactive : p.active = true) :
    p.permits toU64 now dataEntryId requesterDid =
      p.terms.permits toU64 now dataEntryId requesterDid := by
  refine if_congr ?_ rfl rfl
  rw [Permission.IsFor, and_iff_right hactive]
  rfl

/-- The permissions of a hub let read whom one of the grants decides for. -/
theorem Granted.anyM_permits (h : Granted s log) (hread : s.hubs.lookup hubId = some hub) :
    hub.permissions.anyM (Permission.permits toU64 now dataEntryId requesterDid) = .ok true ↔
      ∃ g, Decides toU64 (grantsOf hubId log) now dataEntryId requesterDid g := by
  have hactive := h.active hubId
  have hterms := h.terms hubId
  rw [permissionsOf_of_lookup hread] at hactive hterms
  -- the search sees the terms only, and those are of the grants
  rw [Except.anyM_congr fun p hp => permits_terms (hactive p hp), ← Except.anyM_map, hterms,
    Except.anyM_map, Except.anyM_eq_ok_true]
  simp only [Terms.permits_eq_true, Terms.permits_eq_false]
  constructor
  · rintro ⟨pre, g, post, hl, ⟨hfor, hholds⟩, hpre⟩
    exact ⟨g, pre, post, hl, hfor, hholds, hpre⟩
  · rintro ⟨g, pre, post, hl, hfor, hholds, hpre⟩
    exact ⟨pre, g, post, hl, ⟨hfor, hholds⟩, hpre⟩

/-- Somebody else than the owner reads an entry that has not expired when a grant decides for it. -/
theorem Granted.getDataEntry_iff (h : Granted s log) (hread : s.hubs.lookup hubId = some hub)
    (howner : hub.ownerDid ≠ requesterDid) {entry : DataEntry} :
    getDataEntry toU64 now hubId dataEntryId requesterDid s = .ok entry ↔
      hub.Readable now dataEntryId entry ∧
        ∃ g, Decides toU64 (grantsOf hubId log) now dataEntryId requesterDid g := by
  rw [getDataEntry_eq_ok hread, or_iff_right howner, h.anyM_permits hread]

/-- A grant is valid unless it is outdated, when its conditions hold. -/
theorem Grant.valid_of_not_outdated {g : Grant} (hnot : ¬ g.Outdated now)
    (hholds : checkConditions toU64 now g.terms.conditions = .ok true) : g.Valid toU64 now := by
  refine ⟨?_, fun expiration hexp => ?_, hholds⟩
  · exact Bool.eq_false_iff.mpr fun hrevoked => hnot (.inl hrevoked)
  · exact not_lt.mp fun hlt => hnot (.inr ⟨expiration, hexp, hlt⟩)

/-- A read sees the owner, the entries and the permissions of one hub. -/
theorem getDataEntry_congr (h : s'.hubs.lookup hubId = s.hubs.lookup hubId) :
    getDataEntry toU64 now hubId dataEntryId requesterDid s' =
      getDataEntry toU64 now hubId dataEntryId requesterDid s := by
  simp only [getDataEntry, getHub, h]

/-- A read of a hub that is stored again with more permissions, none of which is for the
requester. -/
theorem getDataEntry_setHub {hub' : Hub} (hread : s.hubs.lookup hubId = some hub)
    (howner : hub'.ownerDid = hub.ownerDid) (hentries : hub'.dataEntries = hub.dataEntries)
    (hpermits : hub.ownerDid ≠ requesterDid →
      hub'.permissions.anyM (Permission.permits toU64 now dataEntryId requesterDid) =
        hub.permissions.anyM (Permission.permits toU64 now dataEntryId requesterDid)) :
    getDataEntry toU64 now hubId dataEntryId requesterDid (s.setHub hubId hub') =
      getDataEntry toU64 now hubId dataEntryId requesterDid s := by
  simp only [getDataEntry, getHub, State.setHub, AList.lookup_insert, hread, orAbort,
    Except.ok_bind, howner, hentries]
  by_cases hown : hub.ownerDid = requesterDid
  · simp only [hown, if_true]
  · simp only [hown, if_false, hpermits hown]

/-- A read of another hub. -/
theorem getDataEntry_setHub_ne {hub' : Hub} {k : ℕ} (hne : k ≠ hubId) :
    getDataEntry toU64 now k dataEntryId requesterDid (s.setHub hubId hub') =
      getDataEntry toU64 now k dataEntryId requesterDid s :=
  getDataEntry_congr (by rw [State.setHub, Store.lookup_insert_ite, if_neg hne])

/-- No call changes the access of anybody it is not about. -/
theorem execute_leavesOthers {request : Request} {r : Result}
    (he : execute now request s = .ok (r, s')) :
    LeavesOthers toU64 ⟨now, request, r, s, s'⟩ := by
  intro t hubId dataEntryId requesterDid hnot
  obtain ⟨call, authorized⟩ := request
  cases step_of_execute he with
  | @grantPermission hubId' hub hread id granteeDid dataEntryId' =>
    by_cases hhub : hubId = hubId'
    · subst hhub
      refine getDataEntry_setHub hread rfl rfl fun howner => Except.anyM_append_of_false ?_
      -- the new permission is for another requester or another entry
      have houtsider : Outsider s hubId requesterDid := by
        intro hub' hread'
        obtain rfl : hub = hub' := Option.some.inj (hread.symm.trans hread')
        exact howner
      have hother : ¬ (granteeDid = requesterDid ∧ dataEntryId' = dataEntryId) := fun h =>
        hnot ⟨houtsider, rfl, h⟩
      rw [Permission.permits, if_neg]
      rintro ⟨-, hgrantee, hentry, -⟩
      exact hother ⟨hgrantee, hentry⟩
    · exact getDataEntry_setHub_ne hhub
  | @revokePermission hubId' hub hread =>
    by_cases hhub : hubId = hubId'
    · subst hhub
      exact getDataEntry_setHub hread rfl rfl fun _ => rfl
    · exact getDataEntry_setHub_ne hhub
  | _ => exact absurd trivial hnot

/-- **Access to data** after every run: a grant or a revocation changes the access of nobody else,
and only grantees with a valid permission read, exactly when all reads that an outdated grant
decides are backed by a valid one. -/
theorem data_access_iff {t₀ : ℕ} {admin executor : Address} {approvers : List Address}
    {w : World State} (h : contract.Run ⟨t₀, init admin approvers executor .empty⟩ w log)
    (honce : InitializedOnce log) :
    ReadsPermitted toU64 w log ∧ (∀ c ∈ log, LeavesOthers toU64 c) ↔ OutdatedBacked toU64 w log := by
  have hgranted := granted_of_run h honce
  rw [and_iff_left fun c hc => execute_leavesOthers (h.exec_of_mem c hc)]
  constructor
  · intro hreads t hubId dataEntryId requesterDid hub entry g hnow hread howner hentry hdecides _
    exact hreads t hubId dataEntryId requesterDid hub entry hnow hread howner
      ((hgranted.getDataEntry_iff hread howner).mpr ⟨hentry, g, hdecides⟩)
  · intro hbacked t hubId dataEntryId requesterDid hub entry hnow hread howner hget
    obtain ⟨hentry, g, hdecides⟩ := (hgranted.getDataEntry_iff hread howner).mp hget
    by_cases hout : g.Outdated t
    · exact hbacked t hubId dataEntryId requesterDid hub entry g hnow hread howner hentry hdecides
        hout
    · -- the grant that decides is itself valid
      obtain ⟨pre, post, hl, hfor, hholds, -⟩ := hdecides
      refine ⟨g, ?_, hfor, Grant.valid_of_not_outdated hout hholds⟩
      rw [hl]
      exact List.mem_append_right _ List.mem_cons_self

/-- The call revokes nothing, and grants nothing that expires. -/
def Call.lasts : Call → Bool
  | .grantPermission _ _ _ _ _ expiresAt => expiresAt = none
  | .revokePermission .. => false
  | _ => true

theorem recordGrant_lasts {grants : List Grant} {c : Commit State Request Result}
    (h : ∀ g ∈ grants, ¬ g.Outdated now) (hc : c.call.call.lasts = true) :
    ∀ g ∈ recordGrant hubId grants c, ¬ g.Outdated now := by
  unfold recordGrant
  split
  · rename_i hubId' granteeDid dataEntryId permissionType conditions expiresAt id hcall _
    obtain rfl : expiresAt = none := by
      rw [hcall] at hc
      exact of_decide_eq_true hc
    split
    · rw [List.forall_mem_append, List.forall_mem_singleton]
      exact ⟨h, by simp [Grant.Outdated]⟩
    · exact h
  · rename_i hcall
    rw [hcall] at hc
    cases hc
  · exact h

/-- Without revocations and expiries no grant is outdated. -/
theorem outdatedBacked_of_lasts {w : World State} (h : ∀ c ∈ log, c.call.call.lasts = true) :
    OutdatedBacked toU64 w log := by
  rintro t hubId dataEntryId requesterDid hub entry g - - - - ⟨pre, post, hl, -⟩ hout
  have hcurrent : ∀ g ∈ grantsOf hubId log, ¬ g.Outdated t := by
    clear hl
    induction log using List.reverseRecOn with
    | nil => simp [grantsOf]
    | append_singleton log c ih =>
      rw [grantsOf_append]
      exact recordGrant_lasts (ih fun c hc => h c (List.mem_append_left _ hc)) (h c (by simp))
  exact absurd hout (hcurrent g (hl ▸ List.mem_append_right _ List.mem_cons_self))

end Reads

/-- The numbers that the samples use as time limits. -/
def sampleToU64 (value : Symbol) : Option ℕ := if value = "100" then some 100 else none

/-- The hub right after its initialization. -/
def sampleWorld : World State := ⟨0, init ⟨1⟩ [⟨2⟩] ⟨3⟩ .empty⟩

/-- The hub of `"alice"` with one entry, and `calls` after that. -/
def sampleCalls (calls : List (ℕ × Call)) : List (ℕ × Request) :=
  ((1, Call.createHub "alice") :: (2, Call.addDataEntry 1 "profile" [7] [8] none []) :: calls).map
    fun c => (c.1, ⟨c.2, true⟩)

/-- Bob can read the entry up to the time 100. -/
def sampleGrant : List (ℕ × Request) :=
  sampleCalls [(3, .grantPermission 1 "bob" 1 .read [⟨"time_lmt", "100", "equals"⟩] none)]

theorem data_access_iff_sample :
    ReadsPermitted sampleToU64 (contract.play sampleWorld sampleGrant).1
      (contract.play sampleWorld sampleGrant).2 := by
  have honce : InitializedOnce (contract.play sampleWorld sampleGrant).2 := by
    intro c hc
    have hcalls : ∀ request ∈ sampleGrant.map Prod.snd, request.call.isInit = false := by decide
    exact hcalls c.call (Contract.call_mem_of_mem_play _ hc)
  have hrun := Contract.run_play contract sampleWorld sampleGrant (by decide)
  refine ((data_access_iff hrun honce).mpr (outdatedBacked_of_lasts fun c hc => ?_)).1
  have hcalls : ∀ request ∈ sampleGrant.map Prod.snd, request.call.lasts = true := by decide
  exact hcalls c.call (Contract.call_mem_of_mem_play _ hc)

/-- Bob's permission is revoked. -/
def sampleRevoke : List (ℕ × Request) :=
  sampleCalls [(3, .grantPermission 1 "bob" 1 .read [] none), (4, .revokePermission 1 1)]

/-- Bob still reads the entry after his permission was revoked. -/
theorem revoked_permission_reads :
    ¬ ∀ w log, contract.Run sampleWorld w log → InitializedOnce log →
      ReadsPermitted sampleToU64 w log ∧ ∀ c ∈ log, LeavesOthers sampleToU64 c := by
  intro hall
  have honce : InitializedOnce (contract.play sampleWorld sampleRevoke).2 := by
    intro c hc
    have hcalls : ∀ request ∈ sampleRevoke.map Prod.snd, request.call.isInit = false := by decide
    exact hcalls c.call (Contract.call_mem_of_mem_play _ hc)
  obtain ⟨hreads, -⟩ :=
    hall _ _ (Contract.run_play contract sampleWorld sampleRevoke (by decide)) honce
  have hget : getDataEntry sampleToU64 5 1 1 "bob" (contract.play sampleWorld sampleRevoke).1.store =
      .ok ⟨1, "profile", [7], [8], 2, none, []⟩ := by decide
  obtain ⟨hub, hread, howner⟩ : ∃ hub, (contract.play sampleWorld sampleRevoke).1.store.hubs.lookup
      1 = some hub ∧ hub.ownerDid ≠ "bob" := ⟨_, rfl, by decide⟩
  obtain ⟨g, hg, -, hvalid⟩ := hreads 5 1 1 "bob" hub _ (by decide) hread howner hget
  have hrevoked : ∀ g ∈ grantsOf 1 (contract.play sampleWorld sampleRevoke).2, g.revoked = true := by
    decide
  have hkept := hvalid.kept
  rw [hrevoked g hg] at hkept
  cases hkept

end Stellara.IdentityHub
