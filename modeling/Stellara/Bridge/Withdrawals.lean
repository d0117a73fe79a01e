import Stellara.Bridge.Effects

/-!
# Who can withdraw

The bridge counts the signatures of a withdrawal and verifies none of them. So it stays safe only
where no withdrawal gets as far, or where none needs a signature. The nonces, which are stored with
the withdrawals, do their work: no nonce of a source chain is released twice.

## Main definitions

* `signers`: the registered validators who signed a message
* `Authenticated`: no withdrawal succeeds without signatures of enough validators
* `Idle`: no withdrawal succeeds, or none needs a signature
* `releasedOf`: the nonces that a run released

## Main results

* `authenticated_iff`: a bridge is authenticated exactly when it is idle
* `released_of_run`: the stored nonces are those of the withdrawals so far, each of them once
* `withdrawals_iff`: the same in all states of a run, beside the uniqueness of the nonces
-/

namespace Stellara.Bridge

variable {Hash Signature : Type} {sha256 : List UInt8 → Hash} {s s' : State Hash}

/-! ## Signatures -/

/-- The registered validators who signed a message with one of the signatures. -/
def signers (signed : Address → Hash → Signature → Bool) (s : State Hash) (hash : Hash)
    (signatures : List Signature) : List Address :=
  (s.validators.filter fun v => signatures.any (signed v hash)).dedup

theorem signers_of_unsigned {signed : Address → Hash → Signature → Bool} {hash : Hash}
    {signatures : List Signature} (h : ∀ v signature, signed v hash signature = false) :
    signers signed s hash signatures = [] := by
  have hnobody : s.validators.filter (fun v => signatures.any (signed v hash)) = [] :=
    List.filter_eq_nil_iff.mpr fun v _ => by simp [h]
  rw [signers, hnobody]
  rfl

/-- Whatever the valid signatures are, a withdrawal that succeeds is signed by as many distinct
registered validators as the threshold. -/
def Authenticated (sha256 : List UInt8 → Hash) (Signature : Type) (s : State Hash) : Prop :=
  ∀ (signed : Address → Hash → Signature → Bool) (dst asset : Address) (amount : ℤ)
    (sourceChain nonce : ℕ) (signatures : List Signature) (p : Hash × State Hash)
    (config : BridgeConfig),
    (sourceChain : ℤ) ≤ IntFormat.u32.hi → (nonce : ℤ) ≤ IntFormat.u64.hi →
    withdraw sha256 dst asset amount sourceChain nonce signatures s = .ok p →
    s.config = some config →
    config.validatorThreshold ≤
      (signers signed s (messageHash sha256 dst asset amount sourceChain nonce) signatures).length

/-- No source chain has a nonce left. -/
def Exhausted (s : State Hash) : Prop :=
  ∀ sourceChain nonce : ℕ, (sourceChain : ℤ) ≤ IntFormat.u32.hi → (nonce : ℤ) ≤ IntFormat.u64.hi →
    s.nonces.lookup (sourceChain, nonce) ≠ none

/-- No withdrawal succeeds, because the bridge is paused, or has too few validators or no nonce
left, or none needs a signature. -/
def Idle (s : State Hash) : Prop :=
  ∀ config, s.config = some config → config.isPaused = true ∨ config.validatorThreshold = 0 ∨
    s.validators.length < config.validatorThreshold ∨ Exhausted s

/-- A bridge is authenticated exactly when it is idle: otherwise signatures that nobody made are
enough. -/
theorem authenticated_iff [Inhabited Signature] : Authenticated sha256 Signature s ↔ Idle s := by
  constructor
  · intro hauth config hconfig
    by_contra hactive
    simp only [not_or, Bool.not_eq_true, not_lt, Exhausted, not_forall, not_not] at hactive
    obtain ⟨hpaused, hthreshold, hvalidators, sourceChain, nonce, hchain, hnonce, hfresh⟩ := hactive
    -- as many signatures as the threshold asks for, none of them valid
    have hok : withdraw sha256 ⟨0⟩ ⟨0⟩ 0 sourceChain nonce
        (List.replicate config.validatorThreshold (default : Signature)) s = .ok (_, _) :=
      withdraw_eq_ok.mpr ⟨⟨config, hconfig, hpaused, by simp, hvalidators⟩, hfresh, rfl, rfl⟩
    have henough := hauth (fun _ _ _ => false) _ _ _ _ _ _ _ config hchain hnonce hok hconfig
    rw [signers_of_unsigned fun _ _ => rfl] at henough
    exact hthreshold (Nat.le_zero.mp henough)
  · rintro hidle signed dst asset amount sourceChain nonce signatures ⟨id, s'⟩ config hchain hnonce
      hok hconfig
    obtain ⟨⟨config', hconfig', hpaused, -, hvalidators⟩, hfresh, -⟩ := withdraw_eq_ok.mp hok
    obtain rfl := Option.some.inj (hconfig.symm.trans hconfig')
    rcases hidle config hconfig with hp | hzero | hfew | hnone
    · rw [hpaused] at hp
      cases hp
    · rw [hzero]
      exact Nat.zero_le _
    · omega
    · exact absurd hfresh (hnone sourceChain nonce hchain hnonce)

/-! ## Nonces -/

variable {clock : ℕ → ℕ} {log : List (Commit (State Hash) (Call Signature) (Option Hash))}
  {w : World (State Hash)} {sequence₀ : ℕ}

/-- The source chain and the nonce that a call releases, if it is a withdrawal. -/
def released? : Call Signature → Option (ℕ × ℕ)
  | .withdraw _ _ _ sourceChain nonce _ => some (sourceChain, nonce)
  | _ => none

/-- The source chains and nonces of the withdrawals of a run, in order. -/
def releasedOf (log : List (Commit (State Hash) (Call Signature) (Option Hash))) : List (ℕ × ℕ) :=
  log.filterMap fun c => released? c.call

theorem released?_of_administers {call : Call Signature} (h : administers call = true) :
    released? call = none := by
  cases call <;> first | rfl | cases h

/-- A call stores the nonce that it releases, which was not stored before, and no other. -/
theorem execute_nonces {ledger : Ledger} {call : Call Signature} {r : Option Hash}
    (h : execute sha256 ledger s call = .ok (r, s')) :
    (released? call = none ∧ s'.nonces = s.nonces) ∨
      ∃ key, released? call = some key ∧ s.nonces.lookup key = none ∧
        s'.nonces = s.nonces.insert key true := by
  cases execute_effect h with
  | administered hcall => exact .inl ⟨released?_of_administers hcall, rfl⟩
  | deposited _ _ | limited => exact .inl ⟨rfl, rfl⟩
  | withdrew hfresh => exact .inr ⟨_, rfl, hfresh, rfl⟩

/-- The stored nonces are the released ones, and none was released twice. -/
structure Released (s : State Hash) (keys : List (ℕ × ℕ)) : Prop where
  stored_iff : ∀ key, (s.nonces.lookup key).isSome ↔ key ∈ keys
  nodup : keys.Nodup

/-- After every run the stored nonces are those of its withdrawals, each of them once. -/
theorem released_of_run (hrun : (contract sha256 Signature clock).Run ⟨sequence₀, .empty⟩ w log) :
    Released w.store (releasedOf log) := by
  refine hrun.invariant_log (I := fun _ s log => Released s (releasedOf log)) ⟨by simp [State.empty,
    releasedOf], List.nodup_nil⟩ (fun _ _ _ _ _ h => h) fun t k r s s' log h he => ?_
  have happ : releasedOf (log ++ [⟨t, k, r, s, s'⟩]) = releasedOf log ++ (released? k).toList := by
    simp only [releasedOf, List.filterMap_append, List.filterMap_cons, List.filterMap_nil]
    cases released? k <;> rfl
  rw [happ]
  rcases execute_nonces he with ⟨hnone, hnonces⟩ | ⟨key, hsome, hfresh, hnonces⟩
  · rw [hnone, Option.toList_none, List.append_nil]
    exact ⟨fun key => by rw [hnonces, h.stored_iff], h.nodup⟩
  · rw [hsome, Option.toList_some]
    have hnot : key ∉ releasedOf log := fun hmem => by
      have hstored := (h.stored_iff key).mpr hmem
      rw [hfresh] at hstored
      cases hstored
    refine ⟨fun key' => ?_, ?_⟩
    · rw [hnonces, Store.lookup_insert_ite, List.mem_append, List.mem_singleton, ← h.stored_iff]
      split <;> simp_all
    · rw [← List.concat_eq_append, List.nodup_concat]
      exact ⟨hnot, h.nodup⟩

/-! ## Runs -/

/-- In every run each nonce of a source chain is released at most once; and the bridge is
authenticated in every state exactly when it is idle in every state. -/
theorem withdrawals_iff [Inhabited Signature]
    (hrun : (contract sha256 Signature clock).Run ⟨sequence₀, .empty⟩ w log) :
    ((Authenticated sha256 Signature w.store ∧ ∀ c ∈ log,
          Authenticated sha256 Signature c.before ∧ Authenticated sha256 Signature c.after) ∧
        (releasedOf log).Nodup) ↔
      Idle w.store ∧ ∀ c ∈ log, Idle c.before ∧ Idle c.after := by
  rw [and_iff_left (released_of_run hrun).nodup]
  simp only [authenticated_iff]

/-- A bridge with the validators 1 and 2 that asks for two signatures. -/
def guardedCalls : List (ℕ × Call ℕ) :=
  [(1, .init ⟨5⟩ ⟨6⟩ 2 1), (2, .addValidator ⟨1⟩), (3, .addValidator ⟨2⟩)]

theorem withdrawals_iff_sample :
    ((Authenticated id ℕ ((contract id ℕ id).play ⟨0, .empty⟩ guardedCalls).1.store ∧
          ∀ c ∈ ((contract id ℕ id).play ⟨0, .empty⟩ guardedCalls).2,
            Authenticated id ℕ c.before ∧ Authenticated id ℕ c.after) ∧
        (releasedOf ((contract id ℕ id).play ⟨0, .empty⟩ guardedCalls).2).Nodup) ↔
      Idle ((contract id ℕ id).play ⟨0, .empty⟩ guardedCalls).1.store ∧
        ∀ c ∈ ((contract id ℕ id).play ⟨0, .empty⟩ guardedCalls).2, Idle c.before ∧ Idle c.after :=
  withdrawals_iff (Contract.run_play _ _ guardedCalls (by decide))

/-- Two signatures that no validator made release a withdrawal. -/
theorem unsigned_withdrawal :
    ∃ w log, (contract id ℕ id).Run ⟨0, .empty⟩ w log ∧ ¬ Authenticated id ℕ w.store := by
  refine ⟨_, _, Contract.run_play _ _ guardedCalls (by decide), fun h => ?_⟩
  exact absurd (h (fun _ _ _ => false) ⟨3⟩ ⟨4⟩ 1000 2 1 [0, 0] _ _ (by decide) (by decide) rfl rfl)
    (by decide)

end Stellara.Bridge
