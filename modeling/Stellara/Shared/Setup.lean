import Stellara.Shared.Governance

/-!
# What an initializer sets up

Contracts with governance roles are set up by an initializer that assigns the roles and starts the
counter of the contract's ids at zero. Nothing keeps it from being called again.

## Main definitions

* `Setup`: the roles of a contract, and the counter of its ids
* `Setup.IsInitial`: what an initializer sets up is there
* `Setup.Kept`: the roles are the same, and the counter has not gone back

## Main results

* `Setup.kept_initial_iff`: an initializer keeps what it would set up itself
-/

namespace Stellara.Governance

/-- The roles of a contract, and the counter of its ids. -/
structure Setup where
  roles : Store Address GovernanceRole
  counter : ℕ

/-- What an initializer sets up. -/
def Setup.initial (admin : Address) (approvers : List Address) (executor : Address) : Setup :=
  ⟨initialRoles admin approvers executor, 0⟩

/-- The addresses with the role of an administrator. -/
def Setup.admins (a : Setup) : Set Address := {address | a.roles.lookup address = some .admin}

/-- The contract has the roles that an initializer assigns, and has not counted yet. -/
structure Setup.IsInitial (a : Setup) (admin : Address) (approvers : List Address)
    (executor : Address) : Prop where
  roles : ∀ address, (initialRoles admin approvers executor).lookup address = a.roles.lookup address
  counter : a.counter = 0

/-- The roles are the same, and the counter has not gone back. -/
structure Setup.Kept (a b : Setup) : Prop where
  roles : ∀ address, b.roles.lookup address = a.roles.lookup address
  counter : a.counter ≤ b.counter

namespace Setup

variable {a b c : Setup}

theorem Kept.refl (a : Setup) : Kept a a := ⟨fun _ => rfl, le_rfl⟩

theorem Kept.trans (hab : Kept a b) (hbc : Kept b c) : Kept a c :=
  ⟨fun address => (hbc.roles address).trans (hab.roles address), hab.counter.trans hbc.counter⟩

/-- Counting up keeps the roles. -/
theorem Kept.count (h : b.roles = a.roles) (hcounter : a.counter ≤ b.counter) : Kept a b :=
  ⟨fun address => by rw [h], hcounter⟩

/-- An initializer keeps what it would set up itself, and nothing else. -/
theorem kept_initial_iff {admin executor : Address} {approvers : List Address} :
    Kept a (initial admin approvers executor) ↔ a.IsInitial admin approvers executor := by
  constructor
  · rintro ⟨hroles, hcounter⟩
    exact ⟨hroles, Nat.le_zero.mp hcounter⟩
  · rintro ⟨hroles, hcounter⟩
    exact ⟨hroles, hcounter.le⟩

end Setup

end Stellara.Governance
