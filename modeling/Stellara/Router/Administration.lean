import Stellara.Host.Signed
import Stellara.Router.Contract

/-!
# The administration of the router

The router stores its administrator, the chain that it works for and the header of the light
client. The calls that set them do not ask the stored administrator; the call that slashes a
validator does.

## Main definitions

* `Call.required`, `signed`: whose authorisation a call requires
* `Kept`: the administrator, the chain and the header are the same
* `Rewrites`: a call that sets one of them sets what is stored

## Main results

* `keeps_iff`: a run keeps the administration exactly when its setters rewrite what is stored
-/

namespace Stellara.Router

variable {Hash : Type}

/-- Whose authorisation a call requires. -/
def Call.required (s : State Hash) : Call Hash → List Address
  | .setChainId admin _ => [admin]
  | .initiateMessage _ _ sender _ _ => [sender]
  | .registerValidator validator _ => [validator]
  | .slashValidator .. => s.admin.toList
  | .init .. | .verifyMessage .. | .updateLightClient .. => []

/-- The router with signed calls. -/
def signed [DecidableEq Hash] (sha256 : List UInt8 → Hash) :
    Contract (State Hash) (Signed (Call Hash)) (Result Hash) (Fault Empty) :=
  withSigners Call.required (contract sha256)

/-- The administrator, the chain and the header of the light client are the same. -/
structure Kept (s s' : State Hash) : Prop where
  admin : s'.admin = s.admin
  chain : s'.nonces.chain = s.nonces.chain
  lightClient : s'.lightClient = s.lightClient

theorem Kept.refl (s : State Hash) : Kept s s := ⟨rfl, rfl, rfl⟩

theorem Kept.trans {s₁ s₂ s₃ : State Hash} (h : Kept s₁ s₂) (h' : Kept s₂ s₃) : Kept s₁ s₃ :=
  ⟨h'.admin.trans h.admin, h'.chain.trans h.chain, h'.lightClient.trans h.lightClient⟩

/-- A call that sets the administrator, the chain or the header sets what is stored. -/
def Rewrites (s : State Hash) : Call Hash → Prop
  | .init admin => s.admin = some admin
  | .setChainId _ chainId => s.nonces.chain = some chainId
  | .updateLightClient header => s.lightClient = some header
  | _ => True

section Effects

variable {sha256 : List UInt8 → Hash} {s s' : State Hash}

/-- A call keeps the administration exactly when it rewrites what it sets. -/
theorem kept_iff [DecidableEq Hash] {sequence : ℕ} {call : Call Hash} {r : Result Hash}
    (h : execute sha256 sequence s call = .ok (r, s')) : Kept s s' ↔ Rewrites s call := by
  cases step_of_execute h with
  | init admin =>
    exact ⟨fun hkept => hkept.admin.symm, fun hadmin => ⟨hadmin.symm, rfl, rfl⟩⟩
  | setChainId admin chainId =>
    exact ⟨fun hkept => hkept.chain.symm, fun hchain => ⟨rfl, hchain.symm, rfl⟩⟩
  | updateLightClient header =>
    exact ⟨fun hkept => hkept.lightClient.symm, fun hlight => ⟨rfl, rfl, hlight.symm⟩⟩
  | _ => exact iff_of_true ⟨rfl, rfl, rfl⟩ trivial

/-- A run keeps the administration exactly when its setters rewrite what is stored. -/
theorem keeps_iff [DecidableEq Hash] {w₀ w : World (State Hash)}
    {log : List (Commit (State Hash) (Signed (Call Hash)) (Result Hash))}
    (h : (signed sha256).Run w₀ w log) :
    Contract.Keeps Kept w₀ w log ↔ ∀ c ∈ log, Rewrites c.before c.call.call :=
  h.keeps_iff Kept.refl (fun _ _ _ => Kept.trans) fun _ he =>
    kept_iff (exec_withSigners_eq_ok.mp he).2

end Effects

end Stellara.Router
