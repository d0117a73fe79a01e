import Stellara.Identity.Credentials
import Stellara.Identity.DidRegistry
import Stellara.Identity.Hub
import Stellara.Router.Administration
import Stellara.Shared.Setup

/-!
# Taking over the administration

The administrators of the router, the DID registry, the identity hub and the credentials are stored
when the contracts are initialized. While they abstain nobody is to change them, nor what only they
set up: the chain and the light client of the router, the counters of the ids and the revocations.
The initializers and the two setters of the router do not ask them.

## Main definitions

* `Setup`s of the three identity contracts, and `Kept`: what an administrator sets up is kept
* `Rewrites`: an initializer that is called again sets up what is there

## Main results

* `DidRegistry.keeps_iff`, `IdentityHub.keeps_iff`, `Credentials.keeps_iff`: a run keeps the setup
  exactly when its initializers set up what is there
* `administration_iff`: the same of all four contracts while their administrators abstain
-/

namespace Stellara

open Governance (Setup)

/-! ## The DID registry -/

namespace DidRegistry

def State.setup (s : State) : Setup := ⟨s.roles, s.didCount⟩

/-- The registry with signed calls. -/
def signed (stellarDid : Address → Symbol) (keyDid : List UInt8 → Symbol) :
    Contract State (Signed Call) Result (Fault Governance.GovernanceError) :=
  withSigners (fun _ call => call.caller?.toList) (contract stellarDid keyDid)

/-- The setup is kept. -/
def Kept (s s' : State) : Prop := s.setup.Kept s'.setup

/-- An initializer finds what it sets up. -/
def Rewrites (s : State) : Call → Prop
  | .init admin approvers executor => s.setup.IsInitial admin approvers executor
  | _ => True

section Runs

variable {stellarDid : Address → Symbol} {keyDid : List UInt8 → Symbol}

/-- A call keeps the setup unless it initializes the contract in another way. -/
theorem kept_iff {now : ℕ} {call : Call} {s s' : State} {r : Result}
    (h : execute stellarDid keyDid now call s = .ok (r, s')) : Kept s s' ↔ Rewrites s call := by
  cases step_of_execute h with
  | init admin approvers executor => exact Setup.kept_initial_iff
  | create document hcaller =>
    refine iff_of_true (.count rfl (Nat.le_succ _)) ?_
    cases call with
    | init => cases hcaller
    | _ => trivial
  | edit document' hcaller =>
    refine iff_of_true (.count rfl le_rfl) ?_
    cases call with
    | init => cases hcaller
    | _ => trivial

theorem keeps_iff {w₀ w : World State} {log : List (Commit State (Signed Call) Result)}
    (h : (signed stellarDid keyDid).Run w₀ w log) :
    Contract.Keeps Kept w₀ w log ↔ ∀ c ∈ log, Rewrites c.before c.call.call :=
  h.keeps_iff (fun _ => .refl _) (fun _ _ _ => .trans) fun _ he =>
    kept_iff (exec_withSigners_eq_ok.mp he).2

end Runs

end DidRegistry

/-! ## The identity hub -/

namespace IdentityHub

def State.setup (s : State) : Setup := ⟨s.roles, s.hubCount⟩

/-- The hub with signed calls. No address but the contract's own must authorise one. -/
def signed : Contract State (Signed Request) Result (Fault Empty) :=
  withSigners (fun _ _ => []) contract

/-- The setup is kept, and the counter of the disclosures has not gone back. -/
structure Kept (s s' : State) : Prop where
  setup : s.setup.Kept s'.setup
  disclosureCount : s.disclosureCount ≤ s'.disclosureCount

theorem Kept.refl (s : State) : Kept s s := ⟨.refl _, le_rfl⟩

theorem Kept.trans {s₁ s₂ s₃ : State} (h : Kept s₁ s₂) (h' : Kept s₂ s₃) : Kept s₁ s₃ :=
  ⟨h.setup.trans h'.setup, h.disclosureCount.trans h'.disclosureCount⟩

/-- An initializer finds what it sets up. -/
def Rewrites (s : State) (request : Request) : Prop :=
  match request.call with
  | .init admin approvers executor => s.setup.IsInitial admin approvers executor
  | _ => True

/-- A call keeps the setup unless it initializes the contract in another way. -/
theorem kept_iff {now : ℕ} {request : Request} {s s' : State} {r : Result}
    (h : execute now request s = .ok (r, s')) : Kept s s' ↔ Rewrites s request := by
  obtain ⟨call, authorized⟩ := request
  cases step_of_execute h with
  | init admin approvers executor =>
    exact ⟨fun hkept => Setup.kept_initial_iff.mp hkept.setup, fun hinitial =>
      ⟨Setup.kept_initial_iff.mpr hinitial, le_rfl⟩⟩
  | createHub => exact iff_of_true ⟨.count rfl (Nat.le_succ _), le_rfl⟩ trivial
  | createSelectiveDisclosure => exact iff_of_true ⟨.refl _, Nat.le_succ _⟩ trivial
  | _ => exact iff_of_true ⟨.refl _, le_rfl⟩ trivial

theorem keeps_iff {w₀ w : World State} {log : List (Commit State (Signed Request) Result)}
    (h : signed.Run w₀ w log) :
    Contract.Keeps Kept w₀ w log ↔ ∀ c ∈ log, Rewrites c.before c.call.call :=
  h.keeps_iff Kept.refl (fun _ _ _ => .trans) fun _ he => kept_iff (exec_withSigners_eq_ok.mp he).2

end IdentityHub

/-! ## The credentials -/

namespace Credentials

def State.setup (s : State) : Setup := ⟨s.roles, s.vcCount⟩

/-- The credentials with signed calls. No address but the contract's own must authorise one. -/
def signed : Contract State (Signed Request) Result (Fault VCError) :=
  withSigners (fun _ _ => []) contract

/-- The setup is kept, and so are the entries of the revocation registry. -/
structure Kept (s s' : State) : Prop where
  setup : s.setup.Kept s'.setup
  revocations : ∀ id entry, s.revocations.lookup id = some entry →
    s'.revocations.lookup id = some entry

theorem Kept.refl (s : State) : Kept s s := ⟨.refl _, fun _ _ h => h⟩

theorem Kept.trans {s₁ s₂ s₃ : State} (h : Kept s₁ s₂) (h' : Kept s₂ s₃) : Kept s₁ s₃ :=
  ⟨h.setup.trans h'.setup, fun id entry hread =>
    h'.revocations id entry (h.revocations id entry hread)⟩

/-- An initializer finds what it sets up, and no revocations. -/
def Rewrites (s : State) (request : Request) : Prop :=
  match request.call with
  | .init admin approvers executor =>
    s.setup.IsInitial admin approvers executor ∧ ∀ id, s.revocations.lookup id = none
  | _ => True

/-- A call keeps the setup and the revocations unless it initializes the contract in another way. -/
theorem kept_iff {now : ℕ} {request : Request} {s s' : State} {r : Result}
    (h : execute now request s = .ok (r, s')) : Kept s s' ↔ Rewrites s request := by
  obtain ⟨call, authorized⟩ := request
  cases execute_effect h with
  | init admin approvers executor =>
    constructor
    · rintro ⟨hsetup, hrevocations⟩
      refine ⟨Setup.kept_initial_iff.mp hsetup, fun id => ?_⟩
      rw [Option.eq_none_iff_forall_ne_some]
      intro entry hread
      -- the registry is empty afterwards
      cases hrevocations id entry hread
    · rintro ⟨hinitial, hnone⟩
      refine ⟨Setup.kept_initial_iff.mpr hinitial, fun id entry hread => ?_⟩
      rw [hnone id] at hread
      cases hread
  | issue _ => exact iff_of_true ⟨.count rfl (Nat.le_succ _), fun _ _ h => h⟩ trivial
  | revoke _ hnone =>
    refine iff_of_true ⟨.count rfl le_rfl, fun id entry hread => ?_⟩ trivial
    exact Store.lookup_insert_of_free hnone hread

theorem keeps_iff {w₀ w : World State} {log : List (Commit State (Signed Request) Result)}
    (h : signed.Run w₀ w log) :
    Contract.Keeps Kept w₀ w log ↔ ∀ c ∈ log, Rewrites c.before c.call.call :=
  h.keeps_iff Kept.refl (fun _ _ _ => .trans) fun _ he => kept_iff (exec_withSigners_eq_ok.mp he).2

end Credentials

/-! ## All four contracts -/

/-- **No takeover** while the administrators abstain: after its initialization every one of the four
contracts keeps its administration exactly when every call that sets it finds what it would set. -/
theorem administration_iff {Hash : Type} [DecidableEq Hash] (sha256 : List UInt8 → Hash)
    (stellarDid : Address → Symbol) (keyDid : List UInt8 → Symbol) :
    (∀ t₀ admin s w log, (Router.signed sha256).Run ⟨t₀, Router.init admin s⟩ w log →
      Abstain {admin} log →
      (Contract.Keeps Router.Kept ⟨t₀, Router.init admin s⟩ w log ↔
        ∀ c ∈ log, Router.Rewrites c.before c.call.call)) ∧
    (∀ t₀ admin approvers executor s w log,
      (DidRegistry.signed stellarDid keyDid).Run
        ⟨t₀, DidRegistry.init admin approvers executor s⟩ w log →
      Abstain (Setup.initial admin approvers executor).admins log →
      (Contract.Keeps DidRegistry.Kept ⟨t₀, DidRegistry.init admin approvers executor s⟩ w log ↔
        ∀ c ∈ log, DidRegistry.Rewrites c.before c.call.call)) ∧
    (∀ t₀ admin approvers executor s w log,
      IdentityHub.signed.Run ⟨t₀, IdentityHub.init admin approvers executor s⟩ w log →
      Abstain (Setup.initial admin approvers executor).admins log →
      (Contract.Keeps IdentityHub.Kept ⟨t₀, IdentityHub.init admin approvers executor s⟩ w log ↔
        ∀ c ∈ log, IdentityHub.Rewrites c.before c.call.call)) ∧
    ∀ t₀ admin approvers executor s w log,
      Credentials.signed.Run ⟨t₀, Credentials.init admin approvers executor s⟩ w log →
      Abstain (Setup.initial admin approvers executor).admins log →
      (Contract.Keeps Credentials.Kept ⟨t₀, Credentials.init admin approvers executor s⟩ w log ↔
        ∀ c ∈ log, Credentials.Rewrites c.before c.call.call) := by
  -- what the signers could add is never asked for
  refine ⟨?_, ?_, ?_, ?_⟩
  · intro t₀ admin s w log hrun _
    exact Router.keeps_iff hrun
  · intro t₀ admin approvers executor s w log hrun _
    exact DidRegistry.keeps_iff hrun
  · intro t₀ admin approvers executor s w log hrun _
    exact IdentityHub.keeps_iff hrun
  · intro t₀ admin approvers executor s w log hrun _
    exact Credentials.keeps_iff hrun

/-- Neither an administrator nor another account with a role. -/
def sampleStranger : Address := ⟨9⟩

def sampleRouter : World (Router.State (List UInt8)) := ⟨0, Router.init ⟨1⟩ .empty⟩

def sampleDidRegistry : World DidRegistry.State := ⟨0, DidRegistry.init ⟨1⟩ [⟨2⟩] ⟨3⟩ .empty⟩

def sampleHub : World IdentityHub.State := ⟨0, IdentityHub.init ⟨1⟩ [⟨2⟩] ⟨3⟩ .empty⟩

def sampleCredentials : World Credentials.State := ⟨0, Credentials.init ⟨1⟩ [⟨2⟩] ⟨3⟩ .empty⟩

theorem sampleStranger_not_admin : sampleStranger ∉ ({⟨1⟩} : Set Address) := by
  show ¬ sampleStranger = ⟨1⟩
  decide

theorem sampleStranger_not_mem : sampleStranger ∉ (Setup.initial ⟨1⟩ [⟨2⟩] ⟨3⟩).admins := by
  show ¬ (Governance.initialRoles ⟨1⟩ [⟨2⟩] ⟨3⟩).lookup sampleStranger = some .admin
  decide

/-- A validator registers, and sends a message. -/
def sampleRouterCalls : List (ℕ × Signed (Router.Call (List UInt8))) :=
  signedBy sampleStranger
    [(1, .registerValidator sampleStranger 2000000000),
      (2, .initiateMessage 0 1 sampleStranger ⟨7⟩ [1])]

/-- The registry is initialized again as it was. -/
def sampleDidCalls : List (ℕ × Signed DidRegistry.Call) :=
  signedBy sampleStranger [(1, .init ⟨1⟩ [⟨2⟩] ⟨3⟩)]

/-- The registry with names for all identifiers. -/
def sampleDidSigned : Contract DidRegistry.State (Signed DidRegistry.Call) DidRegistry.Result
    (Fault Governance.GovernanceError) :=
  DidRegistry.signed (fun _ => "stellar") fun _ => "key"

/-- A hub is created. -/
def sampleHubCalls : List (ℕ × Signed IdentityHub.Request) :=
  signedBy sampleStranger [(1, ⟨.createHub "alice", true⟩)]

/-- A credential is issued and revoked. -/
def sampleCredentialCalls : List (ℕ × Credentials.Request) :=
  [(1, ⟨.issueCredential "issuer" "alice" .kycVerified [] none
      ⟨"sig", 1, "key", "assert", [7], none⟩, true⟩),
    (2, ⟨.revokeCredential 1 "issuer" "fraud" [7], true⟩)]

theorem administration_iff_sample :
    Contract.Keeps Router.Kept sampleRouter
      ((Router.signed id).play sampleRouter sampleRouterCalls).1
      ((Router.signed id).play sampleRouter sampleRouterCalls).2 ∧
    Contract.Keeps DidRegistry.Kept sampleDidRegistry
      (sampleDidSigned.play sampleDidRegistry sampleDidCalls).1
      (sampleDidSigned.play sampleDidRegistry sampleDidCalls).2 ∧
    Contract.Keeps IdentityHub.Kept sampleHub
      (IdentityHub.signed.play sampleHub sampleHubCalls).1
      (IdentityHub.signed.play sampleHub sampleHubCalls).2 ∧
    Contract.Keeps Credentials.Kept sampleCredentials
      (Credentials.signed.play sampleCredentials (signedBy sampleStranger sampleCredentialCalls)).1
      (Credentials.signed.play sampleCredentials (signedBy sampleStranger sampleCredentialCalls)).2
    := by
  obtain ⟨hrouter, hdid, hhub, hcredentials⟩ :=
    @administration_iff (List UInt8) _ id (fun _ => "stellar") fun _ => "key"
  refine ⟨?_, ?_, ?_, ?_⟩
  · have hrun := Contract.run_play (Router.signed id) sampleRouter sampleRouterCalls (by decide)
    refine (hrouter 0 ⟨1⟩ .empty _ _ hrun
      (abstain_play_signedBy sampleStranger_not_admin)).mpr fun c hc => ?_
    have hcall := (call_mem_of_mem_play_signedBy hc).1
    simp only [List.map_cons, List.map_nil, List.mem_cons, List.not_mem_nil, or_false] at hcall
    rcases hcall with hcall | hcall <;> (rw [hcall]; trivial)
  · have hrun := Contract.run_play sampleDidSigned sampleDidRegistry sampleDidCalls (by decide)
    refine (hdid 0 ⟨1⟩ [⟨2⟩] ⟨3⟩ .empty _ _ hrun
      (abstain_play_signedBy sampleStranger_not_mem)).mpr fun c hc => ?_
    obtain rfl := List.mem_singleton.mp hc
    exact ⟨fun _ => rfl, rfl⟩
  · have hrun := Contract.run_play IdentityHub.signed sampleHub sampleHubCalls (by decide)
    refine (hhub 0 ⟨1⟩ [⟨2⟩] ⟨3⟩ .empty _ _ hrun
      (abstain_play_signedBy sampleStranger_not_mem)).mpr fun c hc => ?_
    rw [List.mem_singleton.mp (call_mem_of_mem_play_signedBy hc).1]
    trivial
  · have hrun := Contract.run_play Credentials.signed sampleCredentials
      (signedBy sampleStranger sampleCredentialCalls) (by decide)
    refine (hcredentials 0 ⟨1⟩ [⟨2⟩] ⟨3⟩ .empty _ _ hrun
      (abstain_play_signedBy sampleStranger_not_mem)).mpr fun c hc => ?_
    have hcall := (call_mem_of_mem_play_signedBy hc).1
    simp only [sampleCredentialCalls, List.map_cons, List.map_nil, List.mem_cons,
      List.not_mem_nil, or_false] at hcall
    rcases hcall with hcall | hcall <;> (rw [hcall]; trivial)

/-- A stranger initializes the router for itself, and sets its chain. -/
def sampleRouterTakeover : List (ℕ × Signed (Router.Call (List UInt8))) :=
  signedBy sampleStranger [(1, .init sampleStranger), (2, .setChainId sampleStranger 5)]

/-- A stranger initializes the registry for itself. -/
def sampleDidTakeover : List (ℕ × Signed DidRegistry.Call) :=
  signedBy sampleStranger [(1, .init sampleStranger [] ⟨8⟩)]

/-- The number of a hub is going to be given again. -/
def sampleHubTakeover : List (ℕ × Signed IdentityHub.Request) :=
  signedBy sampleStranger
    [(1, ⟨.createHub "alice", true⟩), (2, ⟨.init ⟨1⟩ [⟨2⟩] ⟨3⟩, false⟩)]

/-- A revocation is forgotten. -/
def sampleCredentialTakeover : List (ℕ × Signed Credentials.Request) :=
  signedBy sampleStranger (sampleCredentialCalls ++ [(3, ⟨.init ⟨1⟩ [⟨2⟩] ⟨3⟩, false⟩)])

/-- A stranger changes the administration of every one of the contracts. -/
theorem stranger_takes_over :
    (¬ ∀ w log, (Router.signed id).Run sampleRouter w log → Abstain {⟨1⟩} log →
      Contract.Keeps Router.Kept sampleRouter w log) ∧
    (¬ ∀ w log, sampleDidSigned.Run sampleDidRegistry w log →
      Abstain (Setup.initial ⟨1⟩ [⟨2⟩] ⟨3⟩).admins log →
      Contract.Keeps DidRegistry.Kept sampleDidRegistry w log) ∧
    (¬ ∀ w log, IdentityHub.signed.Run sampleHub w log →
      Abstain (Setup.initial ⟨1⟩ [⟨2⟩] ⟨3⟩).admins log →
      Contract.Keeps IdentityHub.Kept sampleHub w log) ∧
    ¬ ∀ w log, Credentials.signed.Run sampleCredentials w log →
      Abstain (Setup.initial ⟨1⟩ [⟨2⟩] ⟨3⟩).admins log →
      Contract.Keeps Credentials.Kept sampleCredentials w log := by
  refine ⟨?_, ?_, ?_, ?_⟩
  · intro hall
    have hkeeps := hall _ _
      (Contract.run_play (Router.signed id) sampleRouter sampleRouterTakeover (by decide))
      (abstain_play_signedBy sampleStranger_not_admin)
    have hadmin : ((Router.signed id).play sampleRouter sampleRouterTakeover).1.store.admin ≠
        sampleRouter.store.admin := by decide
    exact hadmin hkeeps.reached.1.admin
  · intro hall
    have hkeeps := hall _ _
      (Contract.run_play sampleDidSigned sampleDidRegistry sampleDidTakeover (by decide))
      (abstain_play_signedBy sampleStranger_not_mem)
    have hroles : (sampleDidSigned.play sampleDidRegistry sampleDidTakeover).1.store.roles.lookup
        sampleStranger ≠ sampleDidRegistry.store.roles.lookup sampleStranger := by decide
    exact hroles (hkeeps.reached.1.roles sampleStranger)
  · intro hall
    have hkeeps := hall _ _
      (Contract.run_play IdentityHub.signed sampleHub sampleHubTakeover (by decide))
      (abstain_play_signedBy sampleStranger_not_mem)
    obtain ⟨c, hc, hlt⟩ : ∃ c ∈ (IdentityHub.signed.play sampleHub sampleHubTakeover).2,
        c.after.hubCount < c.before.hubCount := by decide
    exact absurd (hkeeps.commit c hc).setup.counter (not_le.mpr hlt)
  · intro hall
    have hkeeps := hall _ _
      (Contract.run_play Credentials.signed sampleCredentials sampleCredentialTakeover (by decide))
      (abstain_play_signedBy sampleStranger_not_mem)
    obtain ⟨c, hc, hbefore, hafter⟩ :
        ∃ c ∈ (Credentials.signed.play sampleCredentials sampleCredentialTakeover).2,
          c.before.revocations.lookup 1 = some ⟨1, "issuer", 2, "fraud", [7]⟩ ∧
            c.after.revocations.lookup 1 = none := by decide
    have hkept := (hkeeps.commit c hc).revocations 1 _ hbefore
    rw [hafter] at hkept
    cases hkept

end Stellara
