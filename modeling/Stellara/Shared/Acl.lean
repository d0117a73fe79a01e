import Stellara.Host.Soroban

/-!
# The access control list

Users hold roles, roles hold permissions, and a role inherits the permissions of its parent.

## Main definitions

* `ACL.Storage`: the entries of the storage
* `ACL.createRole`, `ACL.assignRole`, `ACL.assignPermission`, `ACL.assignPermissionsBatch`,
  `ACL.setParentRole`: the writers
* `ACL.hasPermission`, `ACL.requirePermission`: the readers
-/

namespace Stellara.ACL

/-- The entries `roles_ex`, `u_roles`, `r_perms` and `r_parent` of a contract's storage. -/
structure Storage where
  rolesExist : Store Symbol Bool
  userRoles : Store Address (List Symbol)
  rolePerms : Store Symbol (List Symbol)
  roleParent : Store Symbol Symbol

/-- No roles yet. -/
def Storage.empty : Storage := ⟨∅, ∅, ∅, ∅⟩

def createRole (role : Symbol) (s : Storage) : Storage :=
  { s with rolesExist := s.rolesExist.insert role true }

def roleExists (role : Symbol) (s : Storage) : Bool := (s.rolesExist.lookup role).getD false

/-- Create a role that does not exist yet. -/
def ensureRole (role : Symbol) (s : Storage) : Storage :=
  if roleExists role s then s else createRole role s

/-- Append a name to a list that does not contain it. -/
def pushNew (name : Symbol) (names : List Symbol) : List Symbol :=
  if name ∈ names then names else names ++ [name]

def assignRole (user : Address) (role : Symbol) (s : Storage) : Storage :=
  let s := ensureRole role s
  { s with
    userRoles := s.userRoles.insert user (pushNew role ((s.userRoles.lookup user).getD [])) }

def assignPermission (role permission : Symbol) (s : Storage) : Storage :=
  let s := ensureRole role s
  { s with
    rolePerms := s.rolePerms.insert role (pushNew permission ((s.rolePerms.lookup role).getD [])) }

def assignPermissionsBatch (role : Symbol) (permissions : List Symbol) (s : Storage) : Storage :=
  permissions.foldl (fun s permission => assignPermission role permission s) (ensureRole role s)

variable {ε : Type}

/-- Make `parent` the parent of `child`, in place of the one before. -/
def setParentRole (child parent : Symbol) (s : Storage) : Outcome ε Storage := do
  require (child ≠ parent) (.panic "INVALID_ROLE_HIERARCHY")
  let s := ensureRole parent (ensureRole child s)
  .ok { s with roleParent := s.roleParent.insert child parent }

/-- Whether a role or one of its ancestors, at most `depth` of them, has the permission. -/
def checkRole (s : Storage) (permission : Symbol) : ℕ → Symbol → Outcome ε Bool
  | 0, _ => .error (.panic "ROLE_HIERARCHY_TOO_DEEP")
  | depth + 1, role =>
    if permission ∈ (s.rolePerms.lookup role).getD [] then .ok true
    else match s.roleParent.lookup role with
      | some parent => checkRole s permission depth parent
      | none => .ok false

/-- Whether one of the roles has the permission. -/
def anyRole (s : Storage) (permission : Symbol) : List Symbol → Outcome ε Bool
  | [] => .ok false
  | role :: roles => do
    -- a role is at depth 0, and ancestors are followed up to depth 10
    if ← checkRole s permission 11 role then .ok true else anyRole s permission roles

def hasPermission (user : Address) (permission : Symbol) (s : Storage) : Outcome ε Bool :=
  anyRole s permission ((s.userRoles.lookup user).getD [])

/-- Abort unless the user has the permission. -/
def requirePermission (user : Address) (permission : Symbol) (s : Storage) : Outcome ε Unit := do
  let permitted ← hasPermission user permission s
  require (permitted = true) (.panic "UNAUTHORIZED")

end Stellara.ACL
