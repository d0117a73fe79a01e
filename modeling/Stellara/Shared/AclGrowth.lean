import Mathlib.Data.List.Perm.Lattice
import Mathlib.Data.Option.Basic
import Stellara.Shared.AclDecision

/-!
# Growth of the access control list

Creating roles, and assigning roles and permissions, never takes a permission away, whatever is
stored. The order in which permissions are assigned to a role only decides the order of its list.
Giving a role a parent concerns only the users with a role that reaches it.

## Main definitions

* `ACL.StillPermitted`: what was permitted still is
* `ACL.SameUpToOrder`: storages that differ in the order of permissions only

## Main results

* `ACL.SameUpToOrder.hasPermission_eq`: the order does not matter
* `ACL.sameUpToOrder_foldl`: permissions assigned in another order
* `ACL.hasPermission_setParentRole`: a new parent
* `ACL.acl_growth`: all of it
-/

namespace Stellara.ACL

open ParentChain (Reaches search)

/-- The decision on a user, as a bounded search of the stored parents. -/
theorem hasPermission_eq_anyM {ε : Type} (user : Address) (permission : Symbol) (s : Storage) :
    (hasPermission user permission s : Outcome ε Bool) =
      orAbort (.panic "ROLE_HIERARCHY_TOO_DEEP") (((s.userRoles.lookup user).getD []).anyM
        (search (fun r => s.roleParent.lookup r)
          (fun r => permission ∈ (s.rolePerms.lookup r).getD []) 11)) :=
  anyRole_eq_anyM s permission _

/-! ## Growth -/

/-- What is permitted in the first storage is permitted in the second. -/
def StillPermitted (s s' : Storage) : Prop :=
  ∀ user permission, (hasPermission user permission s : Outcome Empty Bool) = .ok true →
    (hasPermission user permission s' : Outcome Empty Bool) = .ok true

section Growth

variable {s s' : Storage}

/-- Users with more roles at the end of their lists, and roles with more permissions, keep what is
permitted. -/
theorem stillPermitted_of_grow
    (hroles : ∀ user, (s.userRoles.lookup user).getD [] <+: (s'.userRoles.lookup user).getD [])
    (hperms : ∀ role permission, permission ∈ (s.rolePerms.lookup role).getD [] →
      permission ∈ (s'.rolePerms.lookup role).getD [])
    (hparents : s'.roleParent = s.roleParent) : StillPermitted s s' := by
  intro user permission h
  rw [hasPermission_eq_anyM, orAbort_eq_ok] at h ⊢
  obtain ⟨roles, hroles⟩ := hroles user
  rw [hparents, ← hroles]
  exact ParentChain.anyM_search_append
    (ParentChain.anyM_search_of_imp (fun role => hperms role permission) h)

theorem prefix_pushNew (name : Symbol) (names : List Symbol) : names <+: pushNew name names := by
  unfold pushNew
  split
  · exact List.prefix_refl names
  · exact List.prefix_append names [name]

theorem stillPermitted_createRole (role : Symbol) (s : Storage) :
    StillPermitted s (createRole role s) :=
  stillPermitted_of_grow (fun _ => List.prefix_refl _) (fun _ _ h => h) rfl

theorem stillPermitted_ensureRole (role : Symbol) (s : Storage) :
    StillPermitted s (ensureRole role s) := by
  unfold ensureRole
  split
  · exact fun _ _ h => h
  · exact stillPermitted_createRole role s

theorem stillPermitted_assignRole (user : Address) (role : Symbol) (s : Storage) :
    StillPermitted s (assignRole user role s) := by
  obtain ⟨husers, hperms, hparents⟩ := ensureRole_entries role s
  refine stillPermitted_of_grow (fun user' => ?_) (fun _ _ h => ?_) hparents
  · simp only [assignRole, husers, Store.lookup_insert_ite]
    by_cases hu : user' = user
    · subst hu
      rw [if_pos rfl, Option.getD_some]
      exact prefix_pushNew role _
    · simpa only [if_neg hu] using List.prefix_refl _
  · simpa only [assignRole, hperms] using h

/-- Assigning permissions to a role, one or a batch of them. -/
theorem stillPermitted_foldl (role : Symbol) (permissions : List Symbol) (s : Storage) :
    StillPermitted s (permissions.foldl (fun s p => assignPermission role p s) s) := by
  obtain ⟨hperms, husers, hparents⟩ := foldl_assignPermission role permissions s
  refine stillPermitted_of_grow (fun user => ?_) (fun role' p h => ?_) hparents
  · simpa only [husers] using List.prefix_refl _
  · exact (hperms role' p).mpr (.inl h)

end Growth

/-! ## The order of permissions -/

/-- The storages differ in the order of the permissions of a role only. -/
structure SameUpToOrder (s s' : Storage) : Prop where
  rolesExist : s'.rolesExist = s.rolesExist
  userRoles : s'.userRoles = s.userRoles
  rolePerms : ∀ role, Option.Rel List.Perm (s.rolePerms.lookup role) (s'.rolePerms.lookup role)
  roleParent : s'.roleParent = s.roleParent

theorem rel_perm_refl : ∀ names : Option (List Symbol), Option.Rel List.Perm names names
  | none => .none
  | some names => .some (List.Perm.refl names)

theorem SameUpToOrder.refl (s : Storage) : SameUpToOrder s s :=
  ⟨rfl, rfl, fun _ => rel_perm_refl _, rfl⟩

/-- The order of the permissions does not matter. -/
theorem SameUpToOrder.hasPermission_eq {s s' : Storage} (h : SameUpToOrder s s') (user : Address)
    (permission : Symbol) : (hasPermission user permission s' : Outcome Empty Bool) =
      hasPermission user permission s := by
  have hmem : ∀ role, permission ∈ (s'.rolePerms.lookup role).getD [] ↔
      permission ∈ (s.rolePerms.lookup role).getD [] := by
    intro role
    have hrel := h.rolePerms role
    revert hrel
    generalize s.rolePerms.lookup role = names
    generalize s'.rolePerms.lookup role = names'
    rintro (hperm | -)
    · exact hperm.mem_iff.symm
    · exact Iff.rfl
  rw [hasPermission_eq_anyM, hasPermission_eq_anyM, h.userRoles, h.roleParent,
    ParentChain.search_congr hmem]

/-- Pushing names one after the other adds those that are new, each once. -/
theorem foldl_pushNew (l names : List Symbol) :
    ∃ added, l.foldl (fun names name => pushNew name names) names = names ++ added ∧
      added.Nodup ∧ ∀ a, a ∈ added ↔ a ∈ l ∧ a ∉ names := by
  induction l generalizing names with
  | nil => exact ⟨[], by simp, List.nodup_nil, by simp⟩
  | cons name l ih =>
    rw [List.foldl_cons]
    by_cases hold : name ∈ names
    · rw [pushNew, if_pos hold]
      obtain ⟨added, heq, hnodup, hmem⟩ := ih names
      refine ⟨added, heq, hnodup, fun a => ?_⟩
      rw [hmem, List.mem_cons]
      -- the name itself is not new
      refine and_congr_left fun hnew => ⟨.inr, ?_⟩
      rintro (rfl | ha)
      · exact absurd hold hnew
      · exact ha
    · rw [pushNew, if_neg hold]
      obtain ⟨added, heq, hnodup, hmem⟩ := ih (names ++ [name])
      refine ⟨name :: added, by rw [heq, List.append_assoc]; rfl, ?_, fun a => ?_⟩
      · exact List.nodup_cons.mpr ⟨fun h => ((hmem name).mp h).2 (by simp), hnodup⟩
      · rw [List.mem_cons, List.mem_cons, hmem, List.mem_append, List.mem_singleton]
        by_cases ha : a = name
        · simp [ha, hold]
        · simp [ha]

/-- Names that are pushed in another order. -/
theorem foldl_pushNew_perm {l l' : List Symbol} (h : l'.Perm l) (names : List Symbol) :
    (l.foldl (fun names name => pushNew name names) names).Perm
      (l'.foldl (fun names name => pushNew name names) names) := by
  obtain ⟨added, heq, hnodup, hmem⟩ := foldl_pushNew l names
  obtain ⟨added', heq', hnodup', hmem'⟩ := foldl_pushNew l' names
  rw [heq, heq']
  refine List.Perm.append_left names ((List.perm_ext_iff_of_nodup hnodup hnodup').mpr fun a => ?_)
  rw [hmem, hmem', h.mem_iff]

section Order

variable {s : Storage} {role : Symbol}

theorem ensureRole_ensureRole (role : Symbol) (s : Storage) :
    ensureRole role (ensureRole role s) = ensureRole role s := by
  have hexists : roleExists role (ensureRole role s) = true := by
    unfold ensureRole
    split
    · assumption
    · simp [roleExists, createRole]
  rw [ensureRole, if_pos hexists]

/-- Whether a role is created depends on the existing roles only. -/
theorem ensureRole_congr {s' : Storage} (h : s'.rolesExist = s.rolesExist) :
    (ensureRole role s').rolesExist = (ensureRole role s).rolesExist := by
  unfold ensureRole roleExists
  rw [h]
  split
  · exact h
  · exact congrArg (AList.insert role true) h

/-- The role is created before its first permission in any case. -/
theorem assignPermission_ensureRole (role permission : Symbol) (s : Storage) :
    assignPermission role permission (ensureRole role s) = assignPermission role permission s := by
  unfold assignPermission
  rw [ensureRole_ensureRole]

/-- Permissions that are assigned one after the other are pushed on the list of the role. -/
theorem foldl_assignPermission_eq (role : Symbol) (permissions : List Symbol)
    (hne : permissions ≠ []) (s : Storage) :
    (permissions.foldl (fun s p => assignPermission role p s) s).rolesExist =
        (ensureRole role s).rolesExist ∧
      ∀ role', (permissions.foldl (fun s p => assignPermission role p s) s).rolePerms.lookup role' =
        if role' = role then some (permissions.foldl (fun names name => pushNew name names)
          ((s.rolePerms.lookup role).getD [])) else s.rolePerms.lookup role' := by
  induction permissions generalizing s with
  | nil => exact absurd rfl hne
  | cons p permissions ih =>
    rw [List.foldl_cons, List.foldl_cons]
    have hfirst : ∀ role', (assignPermission role p s).rolePerms.lookup role' =
        if role' = role then some (pushNew p ((s.rolePerms.lookup role).getD []))
          else s.rolePerms.lookup role' := fun role' => by
      simp only [assignPermission, (ensureRole_entries _ _).2.1, Store.lookup_insert_ite]
    by_cases hnil : permissions = []
    · subst hnil
      exact ⟨rfl, hfirst⟩
    · obtain ⟨hexist, hperms⟩ := ih hnil (assignPermission role p s)
      constructor
      · -- after the first permission the role exists
        rw [hexist]
        have hfirst : (assignPermission role p s).rolesExist = (ensureRole role s).rolesExist := rfl
        exact (ensureRole_congr hfirst).trans
          (congrArg Storage.rolesExist (ensureRole_ensureRole role s))
      · intro role'
        rw [hperms, hfirst, hfirst, if_pos rfl, Option.getD_some]
        split <;> rfl

/-- A batch is its permissions one after the other, unless it is empty. -/
theorem assignPermissionsBatch_eq_foldl (permissions : List Symbol) (hne : permissions ≠ [])
    (s : Storage) : assignPermissionsBatch role permissions s =
      permissions.foldl (fun s p => assignPermission role p s) s := by
  cases permissions with
  | nil => exact absurd rfl hne
  | cons p permissions =>
    rw [assignPermissionsBatch, List.foldl_cons, List.foldl_cons, assignPermission_ensureRole]

/-- Permissions that are assigned in another order. -/
theorem sameUpToOrder_foldl {permissions permissions' : List Symbol}
    (h : permissions'.Perm permissions) (s : Storage) :
    SameUpToOrder (permissions.foldl (fun s p => assignPermission role p s) s)
      (permissions'.foldl (fun s p => assignPermission role p s) s) := by
  by_cases hne : permissions = []
  · subst hne
    obtain rfl := h.eq_nil
    exact .refl s
  · have hne' : permissions' ≠ [] := fun hnil => hne (by rw [hnil] at h; exact h.symm.eq_nil)
    obtain ⟨hexist, hperms⟩ := foldl_assignPermission_eq role permissions hne s
    obtain ⟨hexist', hperms'⟩ := foldl_assignPermission_eq role permissions' hne' s
    obtain ⟨-, husers, hparents⟩ := foldl_assignPermission role permissions s
    obtain ⟨-, husers', hparents'⟩ := foldl_assignPermission role permissions' s
    refine ⟨hexist'.trans hexist.symm, husers'.trans husers.symm, fun role' => ?_,
      hparents'.trans hparents.symm⟩
    rw [hperms, hperms']
    split
    · exact .some (foldl_pushNew_perm h _)
    · exact rel_perm_refl _

end Order

/-! ## Parents -/

/-- A new parent of `child` changes nothing for users none of whose roles reaches `child`. -/
theorem hasPermission_setParentRole {s s' : Storage} {child parent : Symbol} {user : Address}
    (h : (setParentRole child parent s : Outcome Empty Storage) = .ok s')
    (huser : ∀ role ∈ (s.userRoles.lookup user).getD [],
      ¬ Reaches (fun r => s.roleParent.lookup r) role child) (permission : Symbol) :
    (hasPermission user permission s' : Outcome Empty Bool) = hasPermission user permission s := by
  simp only [setParentRole, Except.bind_eq_ok, require_eq_ok, exists_const] at h
  obtain rfl := Except.ok.inj h.2
  obtain ⟨husers, hperms, hparents⟩ := ensureRole_entries child s
  obtain ⟨husers', hperms', hparents'⟩ := ensureRole_entries parent (ensureRole child s)
  simp only [hasPermission_eq_anyM, husers', husers, hperms', hperms, hparents', hparents]
  refine congrArg _ (ParentChain.anyM_search_congr_parent fun role hrole ancestor hreaches => ?_)
  -- no search comes to `child`
  rw [Store.lookup_insert_ite, if_neg]
  rintro rfl
  exact huser role hrole hreaches

/-- In every storage: creating roles, and assigning roles and permissions, takes no permission away;
a batch of permissions is its permissions in any order, up to the order of the list; and a new
parent of a role changes nothing for users whose roles do not reach that role. -/
theorem acl_growth (s : Storage) :
    (∀ role, StillPermitted s (createRole role s)) ∧
    (∀ user role, StillPermitted s (assignRole user role s)) ∧
    (∀ role permission, StillPermitted s (assignPermission role permission s)) ∧
    (∀ role permissions, StillPermitted s (assignPermissionsBatch role permissions s)) ∧
    (∀ role (permissions permissions' : List Symbol), permissions ≠ [] → permissions'.Perm permissions →
      SameUpToOrder (assignPermissionsBatch role permissions s)
        (permissions'.foldl (fun s permission => assignPermission role permission s) s)) ∧
    (∀ role, assignPermissionsBatch role [] s = ensureRole role s) ∧
    ∀ child parent s', (setParentRole child parent s : Outcome Empty Storage) = .ok s' →
      ∀ user, (∀ role ∈ (s.userRoles.lookup user).getD [],
          ¬ Reaches (fun r => s.roleParent.lookup r) role child) →
        ∀ permission, (hasPermission user permission s' : Outcome Empty Bool) =
          hasPermission user permission s := by
  refine ⟨fun role => stillPermitted_createRole role s,
    fun user role => stillPermitted_assignRole user role s,
    fun role permission => stillPermitted_foldl role [permission] s, ?_, ?_, fun _ => rfl, ?_⟩
  · intro role permissions
    cases permissions with
    | nil => exact stillPermitted_ensureRole role s
    | cons p permissions =>
      rw [assignPermissionsBatch_eq_foldl _ (List.cons_ne_nil p permissions)]
      exact stillPermitted_foldl role _ s
  · intro role permissions permissions' hne hperm
    rw [assignPermissionsBatch_eq_foldl permissions hne]
    exact sameUpToOrder_foldl hperm s
  · intro child parent s' h user huser permission
    exact hasPermission_setParentRole h huser permission

/-- An empty batch creates its role. -/
theorem empty_batch_creates_role :
    ¬ ∀ (s : Storage) role (permissions permissions' : List Symbol), permissions'.Perm permissions →
      SameUpToOrder (assignPermissionsBatch role permissions s)
        (permissions'.foldl (fun s permission => assignPermission role permission s) s) := by
  intro h
  have hsame := (h .empty "editor" [] [] (List.Perm.refl [])).rolesExist
  have hlookup := congrArg (AList.lookup "editor") hsame
  exact absurd hlookup (by decide)

end Stellara.ACL
