import Mathlib.Data.Set.Defs
import Stellara.Host.Soroban

/-!
# Signed calls

Where it matters who calls a contract, its calls come with the addresses that make or authorise
them. A call is executed when everybody signed it whose authorisation it requires.

## Main definitions

* `Signed κ`: the calls `κ` with their signers
* `withSigners`: a contract whose calls are signed
* `Abstain`: the addresses sign no call of a run
* `signedBy`: calls that all have the same signer

## Main results

* `exec_withSigners_eq_ok`: when a signed call returns
-/

namespace Stellara

/-- A call, and the addresses that make or authorise it. -/
structure Signed (κ : Type) where
  call : κ
  signers : List Address
deriving DecidableEq, Repr

variable {σ κ ρ ε : Type}

/-- The contract `C`, where `required` has the addresses that must authorise a call. -/
def withSigners (required : σ → κ → List Address) (C : Contract σ κ ρ (Fault ε)) :
    Contract σ (Signed κ) ρ (Fault ε) where
  exec t request s := do
    require (∀ address ∈ required s request.call, address ∈ request.signers)
      (.panic "not authorised")
    C.exec t request.call s

theorem exec_withSigners_eq_ok {required : σ → κ → List Address} {C : Contract σ κ ρ (Fault ε)}
    {t : ℕ} {request : Signed κ} {s : σ} {p : ρ × σ} :
    (withSigners required C).exec t request s = .ok p ↔
      (∀ address ∈ required s request.call, address ∈ request.signers) ∧
        C.exec t request.call s = .ok p := by
  simp only [withSigners, Except.bind_eq_ok, require_eq_ok, exists_const]

/-- The addresses make no call and authorise none. -/
def Abstain (addresses : Set Address) (log : List (Commit σ (Signed κ) ρ)) : Prop :=
  ∀ c ∈ log, ∀ address ∈ c.call.signers, address ∉ addresses

/-- The calls, all of them signed by one address. -/
def signedBy (signer : Address) (calls : List (ℕ × κ)) : List (ℕ × Signed κ) :=
  calls.map fun c => (c.1, ⟨c.2, [signer]⟩)

section Play

variable {C : Contract σ (Signed κ) ρ (Fault ε)} {w : World σ} {signer : Address}
  {calls : List (ℕ × κ)}

theorem call_mem_of_mem_play_signedBy {c : Commit σ (Signed κ) ρ}
    (hc : c ∈ (C.play w (signedBy signer calls)).2) :
    c.call.call ∈ calls.map Prod.snd ∧ c.call.signers = [signer] := by
  have hcall := C.call_mem_of_mem_play hc
  rw [signedBy, List.map_map] at hcall
  obtain ⟨call, hmem, heq⟩ := List.mem_map.mp hcall
  rw [← heq]
  exact ⟨List.mem_map_of_mem hmem, rfl⟩

/-- Everybody but the signer abstains. -/
theorem abstain_play_signedBy {addresses : Set Address} (h : signer ∉ addresses) :
    Abstain addresses (C.play w (signedBy signer calls)).2 := by
  intro c hc address haddress
  rw [(call_mem_of_mem_play_signedBy hc).2] at haddress
  obtain rfl := List.mem_singleton.mp haddress
  exact h

end Play

end Stellara
