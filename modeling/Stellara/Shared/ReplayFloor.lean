import Mathlib.Data.List.Induction
import Stellara.Shared.CallGuards

/-!
# The floor of the nonces

A contract that enforces the order of nonces compares each with the record that was made last on its
chain, and not with the largest. So it turns away what is not above the largest recorded nonce
exactly when the nonce that was recorded last is the largest.

## Main definitions

* `NonceManager.contract`: the calls of a contract that uses the nonce manager
* `NonceManager.recordedNonces`: the nonces recorded on a chain, in the order of their records
* `NonceManager.Floored`: every nonce that is not above a recorded one is turned away

## Main results

* `NonceManager.nonces_eq`: the stored records are the recorded nonces
* `NonceManager.floored_iff_last`: the floor holds exactly when the last nonce is the largest
-/

namespace Stellara.NonceManager

/-- The calls of a contract that uses the nonce manager. -/
inductive Call where
  | recordAndVerify (chainId nonce : ℕ)
  | setChainId (chainId : ℕ)
  | enforceSequentialNonce (chainId nonce : ℕ)
deriving DecidableEq, Repr

/-- A contract that uses the nonce manager. -/
def contract (ε : Type) : Contract Storage Call Unit (Fault ε) where
  exec _ call s :=
    match call with
    | .recordAndVerify chainId nonce => do
      let s ← recordAndVerify chainId nonce s
      .ok ((), s)
    | .setChainId chainId => .ok ((), setChainId chainId s)
    | .enforceSequentialNonce chainId nonce => do
      enforceSequentialNonce chainId nonce s
      .ok ((), s)

/-- The contract before its first call. -/
def fresh : World Storage := ⟨0, .empty⟩

/-- The record that a call makes. -/
def Call.record? : Call → Option NonceRecord
  | .recordAndVerify chainId nonce => some ⟨chainId, nonce, true⟩
  | _ => none

/-- The records made by the committed calls. -/
def records (log : List (Commit Storage Call Unit)) : List NonceRecord :=
  log.filterMap fun c => c.call.record?

/-- The nonces of a chain in a list of records. -/
def noncesOf (chainId : ℕ) (records : List NonceRecord) : List ℕ :=
  (records.filter fun record => record.chainId = chainId).map NonceRecord.nonce

/-- The nonces recorded on a chain by the committed calls, in their order. -/
def recordedNonces (chainId : ℕ) (log : List (Commit Storage Call Unit)) : List ℕ :=
  noncesOf chainId (records log)

/-- The last of the nonces, if there are any, is the largest. -/
def LastLargest (nonces : List ℕ) : Prop := ∀ last ∈ nonces.getLast?, ∀ nonce ∈ nonces, nonce ≤ last

/-- Every nonce that is not above a recorded one is out of order. -/
def Floored (ε : Type) (chainId : ℕ) (s : Storage) (log : List (Commit Storage Call Unit)) : Prop :=
  ∀ recorded ∈ recordedNonces chainId log, ∀ nonce ≤ recorded,
    (enforceSequentialNonce chainId nonce s : Outcome ε Unit) =
      .error (.panic "NONCE_OUT_OF_ORDER")

/-! ## The last nonce -/

theorem noncesOf_append (chainId : ℕ) (l l' : List NonceRecord) :
    noncesOf chainId (l ++ l') = noncesOf chainId l ++ noncesOf chainId l' := by
  simp only [noncesOf, List.filter_append, List.map_append]

/-- The last nonce is that of the last record. -/
theorem getLastNonce_eq (s : Storage) (chainId : ℕ) :
    getLastNonce s chainId = (noncesOf chainId s.nonces).getLast? := by
  obtain ⟨nonces, chain⟩ := s
  induction nonces using List.reverseRecOn with
  | nil => rfl
  | append_singleton l record ih =>
    simp only [getLastNonce] at ih ⊢
    rw [List.foldl_concat, noncesOf_append, ih]
    by_cases hchain : record.chainId = chainId
    · simp [noncesOf, hchain]
    · simp [noncesOf, hchain]

/-- A nonce is turned away exactly when it is not above the last one. -/
theorem enforceSequentialNonce_eq_error {ε : Type} {chainId nonce : ℕ} {s : Storage} :
    (enforceSequentialNonce chainId nonce s : Outcome ε Unit) =
        .error (.panic "NONCE_OUT_OF_ORDER") ↔
      ∃ last ∈ getLastNonce s chainId, nonce ≤ last := by
  rw [enforceSequentialNonce, require]
  split
  · rename_i hall
    refine iff_of_false (fun herror => (by cases herror)) ?_
    rintro ⟨last, hlast, hle⟩
    exact absurd (hall last hlast) (not_lt.mpr hle)
  · rename_i hnot
    push Not at hnot
    exact iff_of_true rfl hnot

/-! ## Runs -/

/-- A call that returns on records that are all used has only added its own record. -/
theorem nonces_of_recordAndVerify {ε : Type} {chainId nonce : ℕ} {s s' : Storage}
    (hused : ∀ record ∈ s.nonces, record.used = true)
    (h : (recordAndVerify chainId nonce s : Outcome ε Storage) = .ok s') :
    s'.nonces = s.nonces ++ [⟨chainId, nonce, true⟩] := by
  simp only [recordAndVerify, Except.bind_eq_ok, require_eq_ok, exists_const] at h
  obtain ⟨-, h⟩ := h
  split at h
  · -- a record that is found is used, and then the call does not return
    rename_i hmem
    obtain ⟨nonces, hnonces, -⟩ := Except.bind_eq_ok.mp h
    rcases updateFirst_eq_ok hnonces with ⟨hnone, -⟩ | ⟨l₁, a, b, l₂, hsplit, -, -, hb, -⟩
    · obtain ⟨record, hrecord, hmatch⟩ := hmem
      exact absurd hmatch (hnone record hrecord)
    · exact absurd hb (useRecord_ne_ok (hused a (by simp [hsplit])))
  · obtain rfl := Except.ok.inj h
    rfl

theorem records_concat (log : List (Commit Storage Call Unit)) (c : Commit Storage Call Unit) :
    records (log ++ [c]) = records log ++ c.call.record?.toList := by
  rw [records, List.filterMap_append]
  cases hrecord : c.call.record? <;> simp [records, hrecord]

/-- All records of committed calls are used. -/
theorem used_of_mem_records {log : List (Commit Storage Call Unit)} {record : NonceRecord}
    (h : record ∈ records log) : record.used = true := by
  obtain ⟨c, -, hc⟩ := List.mem_filterMap.mp h
  cases hcall : c.call with
  | recordAndVerify chainId nonce =>
    rw [hcall] at hc
    obtain rfl := Option.some.inj hc
    rfl
  | setChainId chainId => rw [hcall] at hc; cases hc
  | enforceSequentialNonce chainId nonce => rw [hcall] at hc; cases hc

variable {ε : Type} {w : World Storage} {log : List (Commit Storage Call Unit)}

/-- A committed call keeps the stored records those of the calls. -/
theorem nonces_of_exec {t : ℕ} {call : Call} {r : Unit} {s s' : Storage}
    (hs : s.nonces = records log)
    (he : (contract ε).exec t call s = .ok (r, s')) :
    s'.nonces = records (log ++ [⟨t, call, r, s, s'⟩]) := by
  rw [records_concat, ← hs]
  cases call with
  | recordAndVerify chainId nonce =>
    obtain ⟨s'', hrecord, he⟩ := Except.bind_eq_ok.mp he
    cases he
    refine nonces_of_recordAndVerify (fun record hmem => ?_) hrecord
    rw [hs] at hmem
    exact used_of_mem_records hmem
  | setChainId chainId =>
    cases he
    exact (List.append_nil _).symm
  | enforceSequentialNonce chainId nonce =>
    obtain ⟨-, -, he⟩ := Except.bind_eq_ok.mp he
    cases he
    exact (List.append_nil _).symm

/-- The stored records are those of the committed calls, in their order. -/
theorem nonces_eq (h : (contract ε).Run fresh w log) : w.store.nonces = records log :=
  h.invariant_log (I := fun _ s log => s.nonces = records log) rfl (fun _ _ _ _ _ hs => hs)
    fun _ _ _ _ _ _ => nonces_of_exec

/-- When the stored records are those of the calls, the nonces that are not above the largest
recorded one are turned away exactly when the one that was recorded last is the largest. -/
theorem floored_iff_of_nonces_eq {s : Storage} (hs : s.nonces = records log) (chainId : ℕ) :
    Floored ε chainId s log ↔ LastLargest (recordedNonces chainId log) := by
  have hlast : getLastNonce s chainId = (recordedNonces chainId log).getLast? := by
    rw [getLastNonce_eq, hs]
    rfl
  constructor
  · intro hfloor last hmem recorded hrecorded
    obtain ⟨last', hlast', hle⟩ :=
      enforceSequentialNonce_eq_error.mp (hfloor recorded hrecorded recorded le_rfl)
    rw [hlast] at hlast'
    rwa [Option.mem_unique hmem hlast']
  · intro hlargest recorded hrecorded nonce hnonce
    have hsome := List.getLast?_eq_some_getLast (List.ne_nil_of_mem hrecorded)
    refine enforceSequentialNonce_eq_error.mpr ⟨_, hlast.trans hsome, ?_⟩
    exact hnonce.trans (hlargest _ hsome recorded hrecorded)

/-- After every run, the nonces that are not above the largest recorded one are turned away exactly
when the one that was recorded last is the largest. -/
theorem floored_iff_last (h : (contract ε).Run fresh w log) (chainId : ℕ) :
    Floored ε chainId w.store log ↔ LastLargest (recordedNonces chainId log) :=
  floored_iff_of_nonces_eq (nonces_eq h) chainId

/-! ## A nonce below the floor -/

/-- The nonces 5 and 3 are recorded on chain 1. -/
def unorderedCalls : List (ℕ × Call) := [(1, .recordAndVerify 1 5), (2, .recordAndVerify 1 3)]

/-- After them 4 is in order, although it is below 5. -/
theorem below_floor_accepted :
    ∃ w log, (contract Empty).Run fresh w log ∧ recordedNonces 1 log = [5, 3] ∧
      (enforceSequentialNonce 1 4 w.store : Outcome Empty Unit) = .ok () ∧
      ¬ Floored Empty 1 w.store log := by
  refine ⟨((contract Empty).play fresh unorderedCalls).1,
    ((contract Empty).play fresh unorderedCalls).2,
    Contract.run_play _ fresh unorderedCalls (by decide), by decide, rfl, ?_⟩
  intro hfloor
  exact absurd (hfloor 5 (by decide) 4 (by decide)) nofun

theorem floored_iff_last_unordered :
    Floored Empty 1 ((contract Empty).play fresh unorderedCalls).1.store
        ((contract Empty).play fresh unorderedCalls).2 ↔
      LastLargest (recordedNonces 1 ((contract Empty).play fresh unorderedCalls).2) :=
  floored_iff_last (Contract.run_play _ fresh unorderedCalls (by decide)) 1

end Stellara.NonceManager
