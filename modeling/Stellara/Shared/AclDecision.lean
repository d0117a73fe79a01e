import Mathlib.Data.List.Induction
import Stellara.Lib.ParentChain
import Stellara.Shared.Acl

/-!
# The decision of the access control list

Whatever calls built the list, a user has a permission when a role that was assigned to the
user reaches, by parent links, a role that the permission was assigned to. The walk along the
parents follows ten links at most: it panics on a longer chain, and on every cycle, unless it
finds the permission before.

## Main definitions

* `ACL.contract`: the list as a transactional contract
* `ACL.rolesOf`, `ACL.Granted`, `ACL.parentOf`: what the calls of a log assigned
* `ACL.Permitted`: the decision that these call for
* `ACL.Undecided`: the histories on which the walk panics

## Main results

* `ACL.recorded_of_run`: the storage holds what the calls assigned
* `ACL.hasPermission_decision`: the decision after every run
-/

namespace Stellara.ACL

open ParentChain (Reaches TooLong search)

/-! ## The calls -/

inductive Call where
  | createRole (role : Symbol)
  | assignRole (user : Address) (role : Symbol)
  | assignPermission (role permission : Symbol)
  | assignPermissionsBatch (role : Symbol) (permissions : List Symbol)
  | setParentRole (child parent : Symbol)
deriving DecidableEq, Repr

/-- Execute a call. -/
def execute (s : Storage) : Call → Outcome Empty (Unit × Storage)
  | .createRole role => .ok ((), createRole role s)
  | .assignRole user role => .ok ((), assignRole user role s)
  | .assignPermission role permission => .ok ((), assignPermission role permission s)
  | .assignPermissionsBatch role permissions =>
    .ok ((), assignPermissionsBatch role permissions s)
  | .setParentRole child parent => do .ok ((), ← setParentRole child parent s)

/-- The list as a transactional contract. -/
def contract : Contract Storage Call Unit (Fault Empty) where
  exec _ call s := execute s call

abbrev Log := List (Commit Storage Call Unit)

/-! ## What the calls assigned -/

/-- The role that a call assigns to a user. -/
def Call.roleFor? (user : Address) : Call → Option Symbol
  | .assignRole u role => if u = user then some role else none
  | _ => none

/-- The call assigns a permission to a role. -/
def Call.Grants (role permission : Symbol) : Call → Prop
  | .assignPermission r p => r = role ∧ p = permission
  | .assignPermissionsBatch r ps => r = role ∧ permission ∈ ps
  | _ => False

/-- The parent that a call gives to a role. -/
def Call.parentFor? (child : Symbol) : Call → Option Symbol
  | .setParentRole c parent => if c = child then some parent else none
  | _ => none

/-- The roles that were assigned to a user, in the order of their first assignment. -/
def rolesOf (log : Log) (user : Address) : List Symbol :=
  (log.filterMap fun c => c.call.roleFor? user).foldl (fun roles role => pushNew role roles) []

/-- The permission was assigned to the role. -/
def Granted (log : Log) (role permission : Symbol) : Prop :=
  ∃ c ∈ log, c.call.Grants role permission

/-- The parent that was given to a role last. -/
def parentOf (log : Log) (child : Symbol) : Option Symbol :=
  (log.filterMap fun c => c.call.parentFor? child).getLast?

/-- Some role assigned to the user reaches a role that the permission was assigned to. -/
def Permitted (log : Log) (user : Address) (permission : Symbol) : Prop :=
  ∃ role ∈ rolesOf log user, ∃ ancestor,
    Reaches (parentOf log) role ancestor ∧ Granted log ancestor permission

/-- The chain of the role has more than ten links, and none of its first eleven roles has the
permission. -/
def TooDeep (log : Log) (permission role : Symbol) : Prop :=
  TooLong (parentOf log) (fun r => Granted log r permission) 11 role

/-- Some role of the user is too deep, and the roles assigned before it are not, and do not reach
the permission. -/
def Undecided (log : Log) (user : Address) (permission : Symbol) : Prop :=
  ∃ pre role post, rolesOf log user = pre ++ role :: post ∧
    (∀ r ∈ pre, ¬ TooDeep log permission r ∧
      ¬ ∃ ancestor, Reaches (parentOf log) r ancestor ∧ Granted log ancestor permission) ∧
    TooDeep log permission role

section History

variable {log : Log} {c : Commit Storage Call Unit} {user : Address} {role permission child : Symbol}

theorem rolesOf_append : rolesOf (log ++ [c]) user =
    (c.call.roleFor? user).elim (rolesOf log user) fun role => pushNew role (rolesOf log user) := by
  unfold rolesOf
  rw [List.filterMap_append, List.foldl_append]
  cases h : c.call.roleFor? user <;> simp [h]

theorem granted_append : Granted (log ++ [c]) role permission ↔
    Granted log role permission ∨ c.call.Grants role permission := by
  simp [Granted, or_and_right, exists_or]

theorem parentOf_append :
    parentOf (log ++ [c]) child = (c.call.parentFor? child).or (parentOf log child) := by
  unfold parentOf
  rw [List.filterMap_append, List.getLast?_append]
  cases h : c.call.parentFor? child <;> simp [h]

theorem mem_pushNew {name name' : Symbol} {names : List Symbol} :
    name ∈ pushNew name' names ↔ name = name' ∨ name ∈ names := by
  unfold pushNew
  split
  · rw [or_iff_right_of_imp]
    rintro rfl
    assumption
  · rw [List.mem_append, List.mem_singleton, or_comm]

end History

/-! ## The storage -/

/-- The storage holds what the calls assigned. -/
structure Recorded (s : Storage) (log : Log) : Prop where
  userRoles : ∀ user, (s.userRoles.lookup user).getD [] = rolesOf log user
  rolePerms : ∀ role permission,
    permission ∈ (s.rolePerms.lookup role).getD [] ↔ Granted log role permission
  roleParent : ∀ child, s.roleParent.lookup child = parentOf log child

section Storage

variable {s s' : Storage} {log : Log} {role permission : Symbol}

/-- What creating a role leaves alone. -/
theorem ensureRole_entries (role : Symbol) (s : Storage) :
    (ensureRole role s).userRoles = s.userRoles ∧
      (ensureRole role s).rolePerms = s.rolePerms ∧
      (ensureRole role s).roleParent = s.roleParent := by
  unfold ensureRole
  split <;> exact ⟨rfl, rfl, rfl⟩

theorem mem_assignPermission {role' permission' : Symbol} :
    permission ∈ ((assignPermission role' permission' s).rolePerms.lookup role).getD [] ↔
      permission ∈ (s.rolePerms.lookup role).getD [] ∨ role' = role ∧ permission' = permission := by
  unfold assignPermission
  simp only [(ensureRole_entries _ _).2.1, Store.lookup_insert_ite]
  split
  · subst role
    simp [mem_pushNew, eq_comm, or_comm]
  · rw [or_iff_left]
    rintro ⟨rfl, -⟩
    contradiction

/-- Assigning permissions leaves the roles of the users and the parents alone. -/
theorem assignPermission_entries {role' permission' : Symbol} :
    (assignPermission role' permission' s).userRoles = s.userRoles ∧
      (assignPermission role' permission' s).roleParent = s.roleParent :=
  ⟨(ensureRole_entries _ _).1, (ensureRole_entries _ _).2.2⟩

/-- A batch assigns each of its permissions, and nothing else. -/
theorem foldl_assignPermission (role' : Symbol) (permissions : List Symbol) (s : Storage) :
    (∀ role permission,
      permission ∈ ((permissions.foldl (fun s p => assignPermission role' p s) s).rolePerms.lookup
          role).getD [] ↔
        permission ∈ (s.rolePerms.lookup role).getD [] ∨ role' = role ∧ permission ∈ permissions) ∧
      (permissions.foldl (fun s p => assignPermission role' p s) s).userRoles = s.userRoles ∧
      (permissions.foldl (fun s p => assignPermission role' p s) s).roleParent = s.roleParent := by
  induction permissions generalizing s with
  | nil => simp
  | cons p permissions ih =>
    obtain ⟨hperms, husers, hparents⟩ := ih (assignPermission role' p s)
    rw [List.foldl_cons]
    refine ⟨fun role permission => ?_, husers.trans assignPermission_entries.1,
      hparents.trans assignPermission_entries.2⟩
    -- the first permission, and by induction the others
    rw [hperms, mem_assignPermission, or_assoc, ← and_or_left, List.mem_cons, eq_comm (a := p)]

variable {c : Commit Storage Call Unit}

/-- A commit that leaves the users' roles and the parents, and assigns permissions. -/
theorem Recorded.grant (h : Recorded s log) (hassign : ∀ user, c.call.roleFor? user = none)
    (hparent : ∀ child, c.call.parentFor? child = none) (husers : s'.userRoles = s.userRoles)
    (hparents : s'.roleParent = s.roleParent)
    (hperms : ∀ role permission, permission ∈ (s'.rolePerms.lookup role).getD [] ↔
      permission ∈ (s.rolePerms.lookup role).getD [] ∨ c.call.Grants role permission) :
    Recorded s' (log ++ [c]) where
  userRoles user := by rw [rolesOf_append, hassign, husers, h.userRoles, Option.elim_none]
  rolePerms role permission := by rw [granted_append, hperms, h.rolePerms]
  roleParent child := by rw [parentOf_append, hparent, hparents, h.roleParent, Option.none_or]

theorem Recorded.assignRole (h : Recorded s log) {user : Address}
    (hcall : c.call = .assignRole user role) : Recorded (assignRole user role s) (log ++ [c]) := by
  obtain ⟨husers, hperms, hparents⟩ := ensureRole_entries role s
  refine ⟨fun user' => ?_, fun role' permission => ?_, fun child => ?_⟩
  · simp only [ACL.assignRole, rolesOf_append, hcall, Call.roleFor?, husers,
      Store.lookup_insert_ite]
    -- the roles of the user grow, and those of all others stay
    by_cases hu : user' = user
    · subst hu
      simp [h.userRoles]
    · rw [if_neg hu, if_neg (Ne.symm hu), h.userRoles, Option.elim_none]
  · rw [granted_append, ← h.rolePerms]
    simp [ACL.assignRole, hcall, Call.Grants, hperms]
  · rw [parentOf_append, ← h.roleParent]
    simp [ACL.assignRole, hcall, Call.parentFor?, hparents]

theorem Recorded.setParentRole (h : Recorded s log) {child parent : Symbol}
    (hcall : c.call = .setParentRole child parent)
    (hexec : (setParentRole child parent s : Outcome Empty Storage) = .ok s') :
    Recorded s' (log ++ [c]) := by
  simp only [ACL.setParentRole, Except.bind_eq_ok, require_eq_ok, exists_const] at hexec
  obtain rfl := Except.ok.inj hexec.2
  obtain ⟨husers, hperms, hparents⟩ := ensureRole_entries child s
  obtain ⟨husers', hperms', hparents'⟩ := ensureRole_entries parent (ensureRole child s)
  refine ⟨fun user => ?_, fun role permission => ?_, fun child' => ?_⟩
  · rw [rolesOf_append, ← h.userRoles]
    simp [hcall, Call.roleFor?, husers', husers]
  · rw [granted_append, ← h.rolePerms]
    simp [hcall, Call.Grants, hperms', hperms]
  · -- the parent that is given last replaces the one before
    simp only [parentOf_append, hcall, Call.parentFor?, hparents', hparents,
      Store.lookup_insert_ite]
    by_cases hc : child' = child
    · subst hc
      simp
    · rw [if_neg hc, if_neg (Ne.symm hc), h.roleParent, Option.none_or]

/-- Every call that returns adds to the storage what it assigns. -/
theorem Recorded.execute (h : Recorded s log) (hexec : execute s c.call = .ok ((), s')) :
    Recorded s' (log ++ [c]) := by
  cases hcall : c.call with
  | createRole role =>
    rw [hcall] at hexec
    obtain ⟨-, rfl⟩ := Prod.mk.inj (Except.ok.inj hexec)
    refine h.grant (fun _ => by rw [hcall]; rfl) (fun _ => by rw [hcall]; rfl) rfl rfl fun _ _ => ?_
    simp [hcall, Call.Grants, createRole]
  | assignRole user role =>
    rw [hcall] at hexec
    obtain ⟨-, rfl⟩ := Prod.mk.inj (Except.ok.inj hexec)
    exact h.assignRole hcall
  | assignPermission role permission =>
    rw [hcall] at hexec
    obtain ⟨-, rfl⟩ := Prod.mk.inj (Except.ok.inj hexec)
    refine h.grant (fun _ => by rw [hcall]; rfl) (fun _ => by rw [hcall]; rfl)
      assignPermission_entries.1 assignPermission_entries.2 fun _ _ => ?_
    rw [mem_assignPermission, hcall]
    rfl
  | assignPermissionsBatch role permissions =>
    rw [hcall] at hexec
    obtain ⟨-, rfl⟩ := Prod.mk.inj (Except.ok.inj hexec)
    obtain ⟨hgrants, husers, hparents⟩ :=
      foldl_assignPermission role permissions (ensureRole role s)
    obtain ⟨heusers, heperms, heparents⟩ := ensureRole_entries role s
    refine h.grant (fun _ => by rw [hcall]; rfl) (fun _ => by rw [hcall]; rfl)
      (husers.trans heusers) (hparents.trans heparents) fun role' permission => ?_
    rw [assignPermissionsBatch, hgrants, heperms, hcall]
    rfl
  | setParentRole child parent =>
    rw [hcall] at hexec
    simp only [ACL.execute, Except.bind_eq_ok] at hexec
    obtain ⟨s₁, hs₁, hexec⟩ := hexec
    obtain ⟨-, rfl⟩ := Prod.mk.inj (Except.ok.inj hexec)
    exact h.setParentRole hcall hs₁

end Storage

/-! ## The decision -/

/-- The walk along the parents is the bounded search of their chain. -/
theorem checkRole_eq_search {ε : Type} (s : Storage) (permission : Symbol) (depth : ℕ)
    (role : Symbol) : (checkRole s permission depth role : Outcome ε Bool) =
      orAbort (.panic "ROLE_HIERARCHY_TOO_DEEP") (search (fun r => s.roleParent.lookup r)
        (fun r => permission ∈ (s.rolePerms.lookup r).getD []) depth role) := by
  induction depth generalizing role with
  | zero => rfl
  | succ depth ih =>
    unfold checkRole search
    split
    · rfl
    · cases s.roleParent.lookup role with
      | none => rfl
      | some parent => exact ih parent

theorem anyRole_eq_anyM {ε : Type} (s : Storage) (permission : Symbol) (roles : List Symbol) :
    (anyRole s permission roles : Outcome ε Bool) =
      orAbort (.panic "ROLE_HIERARCHY_TOO_DEEP") (roles.anyM (search (fun r => s.roleParent.lookup r)
        (fun r => permission ∈ (s.rolePerms.lookup r).getD []) 11)) := by
  induction roles with
  | nil => rfl
  | cons role roles ih =>
    rw [anyRole, checkRole_eq_search, List.anyM, ih]
    cases search (fun r => s.roleParent.lookup r)
      (fun r => permission ∈ (s.rolePerms.lookup r).getD []) 11 role with
    | none => rfl
    | some found => cases found <;> rfl

/-- After every run the storage holds what the calls assigned. -/
theorem recorded_of_run {now : ℕ} {w : World Storage} {log : Log}
    (h : contract.Run ⟨now, .empty⟩ w log) : Recorded w.store log := by
  refine h.invariant_log (I := fun _ s log => Recorded s log) ?_ (fun _ _ _ _ _ hs => hs)
    fun t call u s s' log hs he => ?_
  · exact ⟨fun _ => rfl, fun _ _ => by simp [Storage.empty, Granted], fun _ => rfl⟩
  · exact hs.execute (c := ⟨t, call, u, s, s'⟩) he

/-- **The decision** after every run: the walk panics exactly on the undecided histories, and
otherwise answers whether some role of the user reaches a role with the permission. -/
theorem hasPermission_decision {now : ℕ} {w : World Storage} {log : Log}
    (h : contract.Run ⟨now, .empty⟩ w log) (user : Address) (permission : Symbol) :
    ((hasPermission user permission w.store : Outcome Empty Bool) =
        .error (.panic "ROLE_HIERARCHY_TOO_DEEP") ↔ Undecided log user permission) ∧
      (¬ Undecided log user permission →
        ∃ answer, (hasPermission user permission w.store : Outcome Empty Bool) = .ok answer ∧
          (answer = true ↔ Permitted log user permission)) := by
  have hrec := recorded_of_run h
  have hparent : parentOf log = fun r => w.store.roleParent.lookup r :=
    funext fun r => (hrec.roleParent r).symm
  have hcheck : (hasPermission user permission w.store : Outcome Empty Bool) =
      orAbort (.panic "ROLE_HIERARCHY_TOO_DEEP") ((rolesOf log user).anyM
        (search (fun r => w.store.roleParent.lookup r)
          (fun r => permission ∈ (w.store.rolePerms.lookup r).getD []) 11)) := by
    rw [hasPermission, anyRole_eq_anyM, hrec.userRoles]
  -- the stored parents and permissions are those of the log
  have hundecided : (rolesOf log user).anyM (search (fun r => w.store.roleParent.lookup r)
      (fun r => permission ∈ (w.store.rolePerms.lookup r).getD []) 11) = none ↔
        Undecided log user permission := by
    simp only [Undecided, TooDeep, hparent, ← hrec.rolePerms]
    exact ParentChain.anyM_search_eq_none
  rw [hcheck]
  -- the search gives up or answers, and each way has its rule
  cases hsearch : (rolesOf log user).anyM (search (fun r => w.store.roleParent.lookup r)
      (fun r => permission ∈ (w.store.rolePerms.lookup r).getD []) 11) with
  | none =>
    have h := hundecided.mp hsearch
    exact ⟨iff_of_true rfl h, fun hnot => absurd h hnot⟩
  | some answer =>
    have hdecided : ¬ Undecided log user permission := fun h => by
      rw [hundecided.mpr h] at hsearch
      cases hsearch
    refine ⟨iff_of_false (by simp [orAbort]) hdecided, fun _ => ⟨answer, rfl, ?_⟩⟩
    simp only [Permitted, hparent, ← hrec.rolePerms]
    exact ParentChain.anyM_search_eq_some hsearch

/-- Nothing was called yet. -/
def emptyWorld : World Storage := ⟨0, .empty⟩

/-- A user whose role is its own grandparent. -/
def sampleCycle : List (ℕ × Call) :=
  [(0, .assignRole ⟨7⟩ "editor"), (0, .setParentRole "editor" "author"),
    (0, .setParentRole "author" "editor")]

/-- A user with a role that inherits a permission. -/
def sampleChain : List (ℕ × Call) :=
  [(0, .assignRole ⟨7⟩ "editor"), (0, .setParentRole "editor" "author"),
    (0, .assignPermissionsBatch "author" ["read", "write"])]

theorem hasPermission_decision_chain :
    ((hasPermission ⟨7⟩ "write" (contract.play emptyWorld sampleChain).1.store :
        Outcome Empty Bool) = .error (.panic "ROLE_HIERARCHY_TOO_DEEP") ↔
          Undecided (contract.play emptyWorld sampleChain).2 ⟨7⟩ "write") ∧
      (¬ Undecided (contract.play emptyWorld sampleChain).2 ⟨7⟩ "write" →
        ∃ answer, (hasPermission ⟨7⟩ "write" (contract.play emptyWorld sampleChain).1.store :
            Outcome Empty Bool) = .ok answer ∧
          (answer = true ↔ Permitted (contract.play emptyWorld sampleChain).2 ⟨7⟩ "write")) :=
  hasPermission_decision (Contract.run_play _ emptyWorld sampleChain (by decide)) ⟨7⟩ "write"

/-- On a cycle of parents the walk does not return. -/
theorem hasPermission_cycle :
    ¬ ∀ (w : World Storage) (log : Log), contract.Run emptyWorld w log →
      ∀ user permission, ∃ answer,
        (hasPermission user permission w.store : Outcome Empty Bool) = .ok answer ∧
          (answer = true ↔ Permitted log user permission) := by
  intro hall
  obtain ⟨answer, hreturns, -⟩ := hall _ _
    (Contract.run_play _ emptyWorld sampleCycle (by decide)) ⟨7⟩ "read"
  -- the user has no permission, but the walk does not find out
  have hpanics : (hasPermission ⟨7⟩ "read" (contract.play emptyWorld sampleCycle).1.store :
      Outcome Empty Bool) = .error (.panic "ROLE_HIERARCHY_TOO_DEEP") := by decide
  rw [hpanics] at hreturns
  cases hreturns

end Stellara.ACL
