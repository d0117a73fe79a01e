import Stellara.Host.Soroban
import Stellara.Lib.FirstMatch

/-!
# Guards of a call: nonces and reentrancy

The nonce manager keeps the nonces used on each chain. A contract that records its nonces uses
none twice; one that only enforces their order compares with what was recorded. The reentrancy
guard is active while a call runs.

## Main definitions

* `NonceManager.Storage`: the recorded nonces and the required chain
* `NonceManager.recordAndVerify`, `NonceManager.enforceSequentialNonce`: the two uses of a nonce
* `ReentrancyGuard.enter`, `ReentrancyGuard.exit`: the start and the end of a guarded call

## Main results

* `NonceManager.recordAndVerify_spent`: no nonce is recorded twice
-/

namespace Stellara

namespace NonceManager

structure NonceRecord where
  chainId : ℕ
  nonce : ℕ
  used : Bool
deriving DecidableEq, Repr

/-- The entries `_nonces` and `_chain` of a contract's storage. -/
structure Storage where
  nonces : List NonceRecord
  chain : Option ℕ

/-- Nothing stored yet. -/
def Storage.empty : Storage := ⟨[], none⟩

variable {ε : Type}

/-- Mark a recorded nonce as used. -/
def useRecord (record : NonceRecord) : Outcome ε NonceRecord := do
  require (record.used = false) (.panic "REPLAY_DETECTED")
  .ok { record with used := true }

/-- Record a nonce as used. -/
def recordAndVerify (chainId nonce : ℕ) (s : Storage) : Outcome ε Storage := do
  require (∀ expected ∈ s.chain, chainId = expected) (.panic "INVALID_CHAIN_ID")
  if ∃ record ∈ s.nonces, record.chainId = chainId ∧ record.nonce = nonce then do
    let nonces ← updateFirst (fun record => record.chainId = chainId ∧ record.nonce = nonce)
      useRecord s.nonces
    .ok { s with nonces := nonces }
  else .ok { s with nonces := s.nonces ++ [⟨chainId, nonce, true⟩] }

def setChainId (chainId : ℕ) (s : Storage) : Storage := { s with chain := some chainId }

/-- The nonce of the last record of the chain. -/
def getLastNonce (s : Storage) (chainId : ℕ) : Option ℕ :=
  s.nonces.foldl (fun last record => if record.chainId = chainId then some record.nonce else last)
    none

/-- A nonce must be above the last recorded one. -/
def enforceSequentialNonce (chainId nonce : ℕ) (s : Storage) : Outcome ε Unit :=
  require (∀ expected ∈ getLastNonce s chainId, expected < nonce) (.panic "NONCE_OUT_OF_ORDER")

/-- A used nonce is not recorded again. -/
theorem useRecord_ne_ok {record record' : NonceRecord} (h : record.used = true) :
    (useRecord record : Outcome ε NonceRecord) ≠ .ok record' := by
  simp [useRecord, require, h]

/-- A nonce that was recorded is not recorded again. -/
theorem recordAndVerify_spent {chainId nonce : ℕ} {s s' s'' : Storage}
    (h : (recordAndVerify chainId nonce s : Outcome ε Storage) = .ok s') :
    (recordAndVerify chainId nonce s' : Outcome ε Storage) ≠ .ok s'' := by
  -- after the call the first record of the nonce is a used one
  have hspent : ∃ l₁ record l₂, s'.nonces = l₁ ++ record :: l₂ ∧
      (∀ b ∈ l₁, ¬ (b.chainId = chainId ∧ b.nonce = nonce)) ∧
      (record.chainId = chainId ∧ record.nonce = nonce) ∧ record.used = true := by
    simp only [recordAndVerify, Except.bind_eq_ok, require_eq_ok, exists_const] at h
    obtain ⟨-, h⟩ := h
    split at h
    · rename_i hmem
      obtain ⟨nonces, hnonces, h⟩ := Except.bind_eq_ok.mp h
      obtain rfl := Except.ok.inj h
      rcases updateFirst_eq_ok hnonces with ⟨hnone, -⟩ | ⟨l₁, a, b, l₂, -, hfirst, ha, hb, rfl⟩
      · obtain ⟨record, hrecord, hmatch⟩ := hmem
        exact absurd hmatch (hnone record hrecord)
      · simp only [useRecord, Except.bind_eq_ok, require_eq_ok, exists_const] at hb
        obtain ⟨-, hb⟩ := hb
        obtain rfl := Except.ok.inj hb
        exact ⟨l₁, _, l₂, rfl, hfirst, ha, rfl⟩
    · rename_i hmem
      obtain rfl := Except.ok.inj h
      exact ⟨s.nonces, _, [], rfl, fun b hb hmatch => hmem ⟨b, hb, hmatch⟩, ⟨rfl, rfl⟩, rfl⟩
  obtain ⟨l₁, record, l₂, hsplit, hfirst, hmatch, hused⟩ := hspent
  intro hagain
  simp only [recordAndVerify, Except.bind_eq_ok, require_eq_ok, exists_const] at hagain
  obtain ⟨-, hagain⟩ := hagain
  rw [if_pos ⟨record, by simp [hsplit], hmatch⟩, hsplit, updateFirst_split hfirst hmatch] at hagain
  obtain ⟨nonces, hnonces, -⟩ := Except.bind_eq_ok.mp hagain
  obtain ⟨record', hrecord', -⟩ := Except.map_eq_ok.mp hnonces
  exact useRecord_ne_ok hused hrecord'

end NonceManager

namespace ReentrancyGuard

inductive Status where
  | inactive
  | active
deriving DecidableEq, Repr

variable {ε : Type}

def enter (status : Status) : Outcome ε Status := do
  require (status ≠ .active) (.panic "REENTRANCY_DETECTED")
  .ok .active

def exit (_status : Status) : Status := .inactive

end ReentrancyGuard

end Stellara
