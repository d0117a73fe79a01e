import Stellara.Bridge.Effects

/-!
# The ids of deposits

The id of a deposit is the hash of its fields, of which the nonce is the number of the ledger. The
fields are encoded one after the other and can be read back, so two deposits have the same id
exactly when they are alike and in one ledger. The bridge accepts such deposits.

## Main definitions

* `Deposit`, `Deposit.InFormat`: the fields of a deposit, in the formats of their types
* `depositsOf`, `depositIds`: the deposits of a run, and the ids that they return

## Main results

* `depositData_inj`: the hashed data determines the fields
* `depositIds_nodup_iff`: the ids of a run are distinct exactly when its deposits are
* `repeated_deposit`: two deposits that are alike, in one ledger
-/

namespace Stellara.Bridge

variable {Hash Signature : Type} {sha256 : List UInt8 → Hash} {clock : ℕ → ℕ}
  {log : List (Commit (State Hash) (Call Signature) (Option Hash))} {w : World (State Hash)}
  {sequence₀ : ℕ}

/-- The fields that are hashed into the id of a deposit. -/
structure Deposit where
  src : Address
  asset : Address
  amount : ℤ
  destChain : ℕ
  recipient : Address
  nonce : ℕ
deriving DecidableEq, Repr

/-- The fields are values of their types: addresses, an `i128`, a `u32` and a `u64`. -/
structure Deposit.InFormat (d : Deposit) : Prop where
  src : d.src.Valid
  asset : d.asset.Valid
  amount : IntFormat.i128.Mem d.amount
  destChain : (d.destChain : ℤ) ≤ IntFormat.u32.hi
  recipient : d.recipient.Valid
  nonce : (d.nonce : ℤ) ≤ IntFormat.u64.hi

/-- The data that is hashed. -/
def Deposit.data (d : Deposit) : List UInt8 :=
  depositData d.src d.asset d.amount d.destChain d.recipient d.nonce

theorem depositData_inj {d d' : Deposit} (hd : d.InFormat) (hd' : d'.InFormat)
    (h : d.data = d'.data) : d = d' := by
  unfold Deposit.data depositData at h
  simp only [List.append_assoc] at h
  -- the fields are read off in the order of their encoding
  obtain ⟨hsrc, h⟩ := addressXdr_append_inj hd.src hd'.src h
  obtain ⟨hasset, h⟩ := addressXdr_append_inj hd.asset hd'.asset h
  obtain ⟨hamount, h⟩ := i128Xdr_append_inj hd.amount hd'.amount h
  obtain ⟨hchain, h⟩ := u32Xdr_append_inj hd.destChain hd'.destChain h
  obtain ⟨hrecipient, h⟩ := addressXdr_append_inj hd.recipient hd'.recipient h
  have hnonce := u64Xdr_inj hd.nonce hd'.nonce h
  obtain ⟨_, _, _, _, _, _⟩ := d
  obtain ⟨_, _, _, _, _, _⟩ := d'
  simp only at hsrc hasset hamount hchain hrecipient hnonce
  subst hsrc hasset hamount hchain hrecipient hnonce
  rfl

/-! ## Runs -/

/-- The deposit of a commit, if it is one. -/
def depositOf? (c : Commit (State Hash) (Call Signature) (Option Hash)) : Option Deposit :=
  match c.call with
  | .deposit src asset amount destChain recipient =>
    some ⟨src, asset, amount, destChain, recipient, c.time⟩
  | _ => none

/-- The deposits of a run, in order. -/
def depositsOf (log : List (Commit (State Hash) (Call Signature) (Option Hash))) : List Deposit :=
  log.filterMap depositOf?

/-- What the deposits of a run returned. -/
def depositIds (log : List (Commit (State Hash) (Call Signature) (Option Hash))) : List Hash :=
  log.filterMap fun c => (depositOf? c).bind fun _ => c.result

/-- A deposit returns the hash of its data. -/
theorem result_of_deposit {c : Commit (State Hash) (Call Signature) (Option Hash)}
    (h : (contract sha256 Signature clock).exec c.time c.call c.before = .ok (c.result, c.after)) :
    ((depositOf? c).bind fun _ => c.result) = (depositOf? c).map fun d => sha256 d.data := by
  have hexec : execute sha256 ⟨c.time, clock c.time⟩ c.before c.call = .ok (c.result, c.after) := h
  unfold depositOf?
  split
  · rename_i hcall
    rw [hcall] at hexec
    rw [Option.bind_some, Option.map_some, (execute_effect hexec).of_deposit.1]
    rfl
  · rfl

/-- In every run the ids are the hashes of the deposits. -/
theorem depositIds_eq_map
    (hrun : (contract sha256 Signature clock).Run ⟨sequence₀, .empty⟩ w log) :
    depositIds log = (depositsOf log).map fun d => sha256 d.data := by
  unfold depositIds depositsOf
  rw [List.map_filterMap]
  exact List.filterMap_congr fun c hc => result_of_deposit (hrun.exec_of_mem c hc)

/-- In every run the ids of the deposits are distinct exactly when no two deposits have the same
fields in the same ledger. -/
theorem depositIds_nodup_iff (hinj : Function.Injective sha256)
    (hrun : (contract sha256 Signature clock).Run ⟨sequence₀, .empty⟩ w log)
    (hformat : ∀ d ∈ depositsOf log, d.InFormat) :
    (depositIds log).Nodup ↔ (depositsOf log).Nodup := by
  rw [depositIds_eq_map hrun]
  refine ⟨List.Nodup.of_map _, fun hnodup => hnodup.map_on fun d hd d' hd' hid => ?_⟩
  -- the same id is of the same data, and so of the same fields
  exact depositData_inj (hformat d hd) (hformat d' hd') (hinj hid)

/-- Two deposits in one ledger, with the same fields. -/
def repeatedCalls : List (ℕ × Call ℕ) :=
  [(1, .init ⟨5⟩ ⟨6⟩ 2 1), (2, .deposit ⟨7⟩ ⟨4⟩ 100 2 ⟨8⟩), (2, .deposit ⟨7⟩ ⟨4⟩ 100 2 ⟨8⟩)]

/-- The deposit that is made twice. -/
def repeatedDeposit : Deposit := ⟨⟨7⟩, ⟨4⟩, 100, 2, ⟨8⟩, 2⟩

theorem depositsOf_repeatedCalls :
    depositsOf ((contract id ℕ id).play ⟨0, .empty⟩ repeatedCalls).2 =
      [repeatedDeposit, repeatedDeposit] := rfl

theorem depositIds_nodup_iff_sample :
    (depositIds ((contract id ℕ id).play ⟨0, .empty⟩ repeatedCalls).2).Nodup ↔
      (depositsOf ((contract id ℕ id).play ⟨0, .empty⟩ repeatedCalls).2).Nodup :=
  depositIds_nodup_iff Function.injective_id (Contract.run_play _ _ repeatedCalls (by decide))
    fun d hd => by
      obtain rfl : d = repeatedDeposit := by simpa [depositsOf_repeatedCalls] using hd
      exact ⟨by decide, by decide, by decide, by decide, by decide, by decide⟩

/-- Both deposits are accepted and return the same id. -/
theorem repeated_deposit :
    ∃ (w : World (State (List UInt8))) (log : List (Commit _ (Call ℕ) (Option (List UInt8)))),
      (contract id ℕ id).Run ⟨0, .empty⟩ w log ∧ (depositsOf log).length = 2 ∧
        ¬ (depositIds log).Nodup := by
  have hrun := Contract.run_play (contract id ℕ id) ⟨0, .empty⟩ repeatedCalls (by decide)
  refine ⟨_, _, hrun, rfl, ?_⟩
  rw [depositIds_eq_map hrun, depositsOf_repeatedCalls]
  simp

end Stellara.Bridge
