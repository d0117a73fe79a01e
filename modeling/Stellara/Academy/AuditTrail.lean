import Stellara.Academy.Badges

/-!
# The audit trail of the badges

A redemption is recorded under the count of redemptions of its badge, and the badge that a user is
awarded next starts to count from zero. So the redemptions of the new badge are recorded in the
place of those of the old one. The counter of a badge type starts again when the type is created
again.

## Main definitions

* `redemption?`: the record of a redemption, and where it is stored
* `mintsOf`: the number of mints of a type
* `Audited`: all redemptions of a run are on record, and the counters are right
* `Fresh`: the redemptions with a free place, and the types without mints
* `Counts`: a call that counts its mints

## Main results

* `audited_iff_fresh`: a call extends the audit trail exactly when it is fresh
* `audit_trail_iff`: the audit trail of a run is complete exactly when all of its calls are fresh
-/

namespace Stellara.AcademyRewards

abbrev Log := List (Commit State Call (Option ℕ))

variable {s s' : State} {log : Log} {c : Commit State Call (Option ℕ)} {key : Address × ℕ}
  {record : RedemptionRecord} {badgeType : ℕ}

/-! ## What a run has done -/

/-- The record that a redemption is to leave, with its user and its index. -/
def redemption? (c : Commit State Call (Option ℕ)) : Option ((Address × ℕ) × RedemptionRecord) :=
  match c.call with
  | .redeemBadge user transactionHash =>
    (c.before.badges.lookup user).map fun badge =>
      ((user, badge.redeemedCount), redemptionRecord c.time badge transactionHash)
  | _ => none

/-- The call awards a badge of the type. -/
def Mints (badgeType : ℕ) : Call → Prop
  | .mintBadge _ _ badgeType' => badgeType' = badgeType
  | _ => False

instance (badgeType : ℕ) : (call : Call) → Decidable (Mints badgeType call)
  | .mintBadge _ _ badgeType' => inferInstanceAs (Decidable (badgeType' = badgeType))
  | .init .. | .createBadgeType .. | .revokeBadge .. | .setCbPauseLevel .. | .pauseCbFunction ..
  | .unpauseCbFunction .. | .redeemBadge .. => instDecidableFalse

/-- The number of badges of the type that were awarded. -/
def mintsOf (badgeType : ℕ) (log : Log) : ℕ := log.countP fun c => Mints badgeType c.call

theorem mintsOf_append : mintsOf badgeType (log ++ [c]) =
    mintsOf badgeType log + if Mints badgeType c.call then 1 else 0 := by
  simp [mintsOf, List.countP_append, List.countP_singleton]

/-- Every redemption is on record where it was stored, and the counter of every type is the number
of its mints. -/
structure Audited (s : State) (log : Log) : Prop where
  recorded : ∀ c ∈ log, ∀ user index record, redemption? c = some ((user, index), record) →
    getRedemptionHistory s user index = some record
  counted : ∀ badgeType, getTotalMinted s badgeType = mintsOf badgeType log

/-- A redemption finds its place in the history free, and a badge type is created when its counter
is zero. -/
def Fresh (c : Commit State Call (Option ℕ)) : Prop :=
  match c.call with
  | .redeemBadge user _ => ∀ badge, c.before.badges.lookup user = some badge →
    getRedemptionHistory c.before user badge.redeemedCount = none
  | .createBadgeType _ badgeType _ _ _ _ => getTotalMinted c.before badgeType = 0
  | _ => True

/-- What holds with or without a complete audit trail: records are of redemptions, whose
transactions are used, and no counter is ahead. -/
structure Traced (s : State) (log : Log) : Prop where
  record : ∀ key record, s.redemptionHistory.lookup key = some record →
    ∃ c ∈ log, redemption? c = some (key, record)
  used : ∀ c ∈ log, ∀ key record, redemption? c = some (key, record) →
    (s.usedTransactionHashes.lookup record.transactionHash).isSome
  counted : ∀ badgeType, getTotalMinted s badgeType ≤ mintsOf badgeType log

theorem traced_empty : Traced .empty [] where
  record key record h := by simp [State.empty] at h
  used c hc := by simp at hc
  counted badgeType := by simp [getTotalMinted, State.empty, mintsOf]

theorem audited_empty : Audited .empty [] where
  recorded c hc := by simp at hc
  counted badgeType := by simp [getTotalMinted, State.empty, mintsOf]

/-- A call that redeems nothing and keeps the history keeps what is on record. -/
theorem Traced.keep (h : Traced s log) (hnone : redemption? c = none)
    (hhistory : s'.redemptionHistory = s.redemptionHistory)
    (hused : s'.usedTransactionHashes = s.usedTransactionHashes)
    (hcounted : ∀ badgeType, getTotalMinted s' badgeType ≤ mintsOf badgeType (log ++ [c])) :
    Traced s' (log ++ [c]) where
  record key record hlookup := by
    rw [hhistory] at hlookup
    obtain ⟨c', hc', hredemption⟩ := h.record key record hlookup
    exact ⟨c', List.mem_append_left _ hc', hredemption⟩
  used c' hc' key record hredemption := by
    rw [hused]
    rcases List.mem_append.mp hc' with hc' | hc'
    · exact h.used c' hc' key record hredemption
    · obtain rfl := List.mem_singleton.mp hc'
      rw [hnone] at hredemption
      cases hredemption
  counted := hcounted

/-- Then the redemptions on record are the same. -/
theorem recorded_keep (hnone : redemption? c = none)
    (hhistory : s'.redemptionHistory = s.redemptionHistory) :
    (∀ c' ∈ log ++ [c], ∀ user index record, redemption? c' = some ((user, index), record) →
        getRedemptionHistory s' user index = some record) ↔
      ∀ c' ∈ log, ∀ user index record, redemption? c' = some ((user, index), record) →
        getRedemptionHistory s user index = some record := by
  simp only [getRedemptionHistory, hhistory, List.forall_mem_append, List.forall_mem_singleton,
    hnone, reduceCtorEq, false_implies, implies_true, and_true]

theorem getTotalMinted_insert {count : ℕ}
    (h : s'.totalBadgesMinted = s.totalBadgesMinted.insert badgeType count) (badgeType' : ℕ) :
    getTotalMinted s' badgeType' =
      if badgeType' = badgeType then count else getTotalMinted s badgeType' := by
  rw [getTotalMinted, h, Store.lookup_insert_ite]
  split <;> rfl

/-! ## Calls -/

/-- The counter of a type grows by the mints of the type. -/
def Counts (c : Commit State Call (Option ℕ)) (log : Log) (s s' : State) : Prop :=
  ∀ badgeType, getTotalMinted s' badgeType + mintsOf badgeType log =
    getTotalMinted s badgeType + mintsOf badgeType (log ++ [c])

/-- A call that keeps the counters, and mints nothing. -/
theorem counts_of_quiet (hmints : ∀ badgeType, ¬ Mints badgeType c.call)
    (hcounters : s'.totalBadgesMinted = s.totalBadgesMinted) : Counts c log s s' := by
  intro badgeType
  rw [mintsOf_append, if_neg (hmints badgeType), add_zero, getTotalMinted, hcounters, getTotalMinted]

/-- A mint counts. -/
theorem counts_of_mint (hmints : ∀ badgeType', Mints badgeType' c.call ↔ badgeType = badgeType')
    (hcounters : s'.totalBadgesMinted =
      s.totalBadgesMinted.insert badgeType (getTotalMinted s badgeType + 1)) :
    Counts c log s s' := by
  intro badgeType'
  rw [getTotalMinted_insert hcounters, mintsOf_append]
  by_cases hsame : badgeType = badgeType'
  · subst hsame
    rw [if_pos rfl, if_pos ((hmints _).mpr rfl)]
    omega
  · rw [if_neg (Ne.symm hsame), if_neg (mt (hmints _).mp hsame), add_zero]

/-- Then the counters are right before exactly when they are right afterwards. -/
theorem Counts.counted_iff (h : Counts c log s s') :
    (∀ badgeType, getTotalMinted s' badgeType = mintsOf badgeType (log ++ [c])) ↔
      ∀ badgeType, getTotalMinted s badgeType = mintsOf badgeType log := by
  refine forall_congr' fun badgeType => ?_
  have := h badgeType
  omega

theorem Counts.counted_le (h : Counts c log s s') (ht : Traced s log) (badgeType : ℕ) :
    getTotalMinted s' badgeType ≤ mintsOf badgeType (log ++ [c]) := by
  have := h badgeType
  have := ht.counted badgeType
  omega

/-- A call that redeems nothing and keeps the history extends every audit trail, when it counts its
mints. -/
theorem keep_step (ht : Traced s log) (hnone : redemption? c = none)
    (hhistory : s'.redemptionHistory = s.redemptionHistory)
    (hused : s'.usedTransactionHashes = s.usedTransactionHashes) (hcounts : Counts c log s s') :
    Traced s' (log ++ [c]) ∧ (Audited s' (log ++ [c]) ↔ Audited s log) := by
  refine ⟨ht.keep hnone hhistory hused (hcounts.counted_le ht), fun h => ?_, fun h => ?_⟩
  · exact ⟨(recorded_keep hnone hhistory).mp h.recorded, hcounts.counted_iff.mp h.counted⟩
  · exact ⟨(recorded_keep hnone hhistory).mpr h.recorded, hcounts.counted_iff.mpr h.counted⟩

/-- Creating a badge type extends an audit trail exactly when the type had no mints. -/
theorem create_step (ht : Traced s log) (hnone : redemption? c = none)
    (hmints : ∀ badgeType, ¬ Mints badgeType c.call)
    (hhistory : s'.redemptionHistory = s.redemptionHistory)
    (hused : s'.usedTransactionHashes = s.usedTransactionHashes)
    (hcounters : s'.totalBadgesMinted = s.totalBadgesMinted.insert badgeType 0) :
    Traced s' (log ++ [c]) ∧
      (Audited s' (log ++ [c]) ↔ Audited s log ∧ getTotalMinted s badgeType = 0) := by
  have hmintsOf : ∀ badgeType, mintsOf badgeType (log ++ [c]) = mintsOf badgeType log :=
    fun badgeType => by rw [mintsOf_append, if_neg (hmints badgeType), add_zero]
  have htotal := getTotalMinted_insert hcounters
  refine ⟨ht.keep hnone hhistory hused fun badgeType' => ?_, fun h => ?_, fun h => ?_⟩
  · have := ht.counted badgeType'
    rw [htotal, hmintsOf]
    split <;> omega
  · -- the counter was not ahead of the mints, of which there are none
    have hzero : getTotalMinted s badgeType = 0 ∧ mintsOf badgeType log = 0 := by
      have hcounted := h.counted badgeType
      rw [htotal, hmintsOf, if_pos rfl] at hcounted
      have := ht.counted badgeType
      omega
    refine ⟨⟨(recorded_keep hnone hhistory).mp h.recorded, fun badgeType' => ?_⟩, hzero.1⟩
    by_cases hsame : badgeType' = badgeType
    · rw [hsame, hzero.1, hzero.2]
    · have hcounted := h.counted badgeType'
      rwa [htotal, hmintsOf, if_neg hsame] at hcounted
  · refine ⟨(recorded_keep hnone hhistory).mpr h.1.recorded, fun badgeType' => ?_⟩
    rw [htotal, hmintsOf]
    split
    · rename_i hsame
      rw [hsame, ← h.1.counted, h.2]
    · exact h.1.counted badgeType'

/-- A redemption that is stored and whose hash is marked as used. -/
theorem Traced.redeem {key : Address × ℕ} (ht : Traced s log)
    (hredemption : redemption? c = some (key, record))
    (hhistory : s'.redemptionHistory = s.redemptionHistory.insert key record)
    (hused : s'.usedTransactionHashes =
      s.usedTransactionHashes.insert record.transactionHash true)
    (hcounted : ∀ badgeType, getTotalMinted s' badgeType ≤ mintsOf badgeType (log ++ [c])) :
    Traced s' (log ++ [c]) where
  record key' record' hlookup := by
    rw [hhistory] at hlookup
    rcases Store.eq_or_lookup_of_insert hlookup with ⟨rfl, rfl⟩ | ⟨-, hold⟩
    · exact ⟨c, by simp, hredemption⟩
    · obtain ⟨c', hc', hredemption'⟩ := ht.record key' record' hold
      exact ⟨c', List.mem_append_left _ hc', hredemption'⟩
  used c' hc' key' record' hredemption' := by
    rw [hused, Store.isSome_insert]
    rcases List.mem_append.mp hc' with hc' | hc'
    · exact .inr (ht.used c' hc' key' record' hredemption')
    · obtain rfl := List.mem_singleton.mp hc'
      rw [hredemption] at hredemption'
      obtain ⟨-, rfl⟩ := Prod.mk.inj (Option.some.inj hredemption')
      exact .inl rfl
  counted := hcounted

/-- All redemptions stay on record exactly when the place of the new one is free. -/
theorem recorded_redeem_iff {user : Address} {index : ℕ} (ht : Traced s log)
    (hredemption : redemption? c = some ((user, index), record))
    (hhash : s.usedTransactionHashes.lookup record.transactionHash = none)
    (hhistory : s'.redemptionHistory = s.redemptionHistory.insert (user, index) record) :
    (∀ c' ∈ log ++ [c], ∀ user index record, redemption? c' = some ((user, index), record) →
        getRedemptionHistory s' user index = some record) ↔
      (∀ c' ∈ log, ∀ user index record, redemption? c' = some ((user, index), record) →
        getRedemptionHistory s user index = some record) ∧
      getRedemptionHistory s user index = none := by
  have hread : ∀ user' index', getRedemptionHistory s' user' index' =
      if (user', index') = (user, index) then some record
      else getRedemptionHistory s user' index' := fun user' index' => by
    rw [getRedemptionHistory, hhistory, Store.lookup_insert_ite, getRedemptionHistory]
  rw [List.forall_mem_append, List.forall_mem_singleton]
  constructor
  · rintro ⟨hlog, -⟩
    -- the earlier redemptions are of other transactions, so they are in other places
    have hkept : ∀ c' ∈ log, ∀ user' index' record', redemption? c' =
        some ((user', index'), record') → (user', index') ≠ (user, index) := by
      rintro c' hc' user' index' record' hredemption' hkey
      have hrecorded := hlog c' hc' user' index' record' hredemption'
      rw [hread, if_pos hkey] at hrecorded
      obtain rfl := Option.some.inj hrecorded
      have hsome := ht.used c' hc' _ _ hredemption'
      rw [hhash] at hsome
      cases hsome
    refine ⟨fun c' hc' user' index' record' hredemption' => ?_, ?_⟩
    · have hrecorded := hlog c' hc' user' index' record' hredemption'
      rwa [hread, if_neg (hkept c' hc' user' index' record' hredemption')] at hrecorded
    · rw [Option.eq_none_iff_forall_ne_some]
      intro record' hold
      obtain ⟨c', hc', hredemption'⟩ := ht.record _ _ hold
      exact hkept c' hc' user index record' hredemption' rfl
  · rintro ⟨hlog, hfree⟩
    refine ⟨fun c' hc' user' index' record' hredemption' => ?_,
      fun user' index' record' hredemption' => ?_⟩
    · have hrecorded := hlog c' hc' user' index' record' hredemption'
      rw [hread, if_neg, hrecorded]
      rintro ⟨⟩
      rw [hfree] at hrecorded
      cases hrecorded
    · rw [hredemption] at hredemption'
      obtain ⟨hkey, rfl⟩ := Prod.mk.inj (Option.some.inj hredemption')
      rw [hread, if_pos hkey.symm]

/-- A redemption extends an audit trail exactly when its place in the history is free. -/
theorem redeem_step {user : Address} {index : ℕ} (ht : Traced s log)
    (hredemption : redemption? c = some ((user, index), record))
    (hhash : s.usedTransactionHashes.lookup record.transactionHash = none)
    (hhistory : s'.redemptionHistory = s.redemptionHistory.insert (user, index) record)
    (hused : s'.usedTransactionHashes =
      s.usedTransactionHashes.insert record.transactionHash true)
    (hcounts : Counts c log s s') :
    Traced s' (log ++ [c]) ∧
      (Audited s' (log ++ [c]) ↔ Audited s log ∧ getRedemptionHistory s user index = none) := by
  have hrecorded := recorded_redeem_iff ht hredemption hhash hhistory
  refine ⟨ht.redeem hredemption hhistory hused (hcounts.counted_le ht), fun h => ?_, fun h => ?_⟩
  · obtain ⟨hlog, hfree⟩ := hrecorded.mp h.recorded
    exact ⟨⟨hlog, hcounts.counted_iff.mp h.counted⟩, hfree⟩
  · exact ⟨hrecorded.mpr ⟨h.1.recorded, h.2⟩, hcounts.counted_iff.mpr h.1.counted⟩

/-- A call that mints and redeems nothing and keeps all records is fresh. -/
theorem same_step (ht : Traced s log) (hnone : redemption? c = none)
    (hmints : ∀ badgeType, ¬ Mints badgeType c.call) (hfresh : Fresh c) (hsame : SameRecords s s') :
    Traced s' (log ++ [c]) ∧ (Audited s' (log ++ [c]) ↔ Audited s log ∧ Fresh c) := by
  rw [and_iff_left hfresh]
  exact keep_step ht hnone hsame.history hsame.used (counts_of_quiet hmints hsame.minted)

/-- A call extends an audit trail exactly when it is fresh. -/
theorem audited_iff_fresh (ht : Traced c.before log)
    (he : contract.exec c.time c.call c.before = .ok (c.result, c.after)) :
    Traced c.after (log ++ [c]) ∧ (Audited c.after (log ++ [c]) ↔ Audited c.before log ∧ Fresh c) := by
  obtain ⟨now, call, r, s, s'⟩ := c
  cases execute_effect he with
  | kept hquiet _ hsame =>
    cases call with
    | init | setCbPauseLevel | pauseCbFunction | unpauseCbFunction =>
      exact same_step ht rfl (fun _ h => h) trivial hsame
    | _ => cases hquiet
  | created _ hhistory hused hminted =>
    exact create_step ht rfl (fun _ h => h) hhistory hused hminted
  | awarded _ _ hhistory hused hminted =>
    refine And.imp_right ?_
      (keep_step ht rfl hhistory hused (counts_of_mint (fun _ => Iff.rfl) hminted))
    intro hstep
    exact hstep.trans (and_iff_left trivial).symm
  | revoked _ _ hsame => exact same_step ht rfl (fun _ h => h) trivial hsame
  | @redeemed user transactionHash badge hhash hbadge _ _ hhistory hused hminted =>
    have hbadge : s.badges.lookup user = some badge := hbadge
    have hredemption : redemption? ⟨now, .redeemBadge user transactionHash, r, s, s'⟩ =
        some ((user, badge.redeemedCount), redemptionRecord now badge transactionHash) := by
      simp only [redemption?, hbadge, Option.map_some]
    refine And.imp_right ?_ (redeem_step ht hredemption hhash hhistory hused
      (counts_of_quiet (fun _ h => h) hminted))
    intro hstep
    refine hstep.trans (and_congr_right fun _ => ?_)
    simp only [Fresh, hbadge, Option.some.injEq, forall_eq']

/-! ## Runs -/

variable {w : World State} {now₀ : ℕ}

/-- After a run all redemptions are on record, and all mints counted, exactly when the redemptions
found their places free and no badge type was created again after a mint. -/
theorem audit_trail_iff (hrun : contract.Run ⟨now₀, .empty⟩ w log) :
    Audited w.store log ↔ ∀ c ∈ log, Fresh c :=
  hrun.log_iff (S := Traced) (I := Audited) ⟨traced_empty, audited_empty⟩
    fun _ _ ht he => audited_iff_fresh ht he

/-- A badge of the type 1 is awarded and redeemed twice. -/
def sampleCalls : List (ℕ × Call) :=
  [(1, .init ⟨5⟩ ⟨1000, 1000, 3600⟩), (2, .createBadgeType ⟨5⟩ 1 "Bronze" 500 0 0),
    (3, .mintBadge ⟨5⟩ ⟨1⟩ 1), (4, .redeemBadge ⟨1⟩ "tx-1"), (5, .redeemBadge ⟨1⟩ "tx-2")]

theorem audit_trail_iff_sample :
    Audited (contract.play ⟨0, .empty⟩ sampleCalls).1.store
        (contract.play ⟨0, .empty⟩ sampleCalls).2 ↔
      ∀ c ∈ (contract.play ⟨0, .empty⟩ sampleCalls).2, Fresh c :=
  audit_trail_iff (Contract.run_play _ _ sampleCalls (by decide))

/-- The badge is revoked and awarded again, and the second badge is redeemed too. -/
def overwritingCalls : List (ℕ × Call) :=
  [(1, .init ⟨5⟩ ⟨1000, 1000, 3600⟩), (2, .createBadgeType ⟨5⟩ 1 "Bronze" 500 0 0),
    (3, .mintBadge ⟨5⟩ ⟨1⟩ 1), (4, .redeemBadge ⟨1⟩ "tx-1"), (5, .revokeBadge ⟨5⟩ ⟨1⟩),
    (6, .mintBadge ⟨5⟩ ⟨1⟩ 1), (7, .redeemBadge ⟨1⟩ "tx-2")]

/-- The redemption of the second badge replaces the record of that of the first. -/
theorem overwritten_redemption :
    ∃ w log, contract.Run ⟨0, .empty⟩ w log ∧
      (∃ c ∈ log, redemption? c = some ((⟨1⟩, 0), ⟨1, 4, 500, "tx-1"⟩)) ∧
      getRedemptionHistory w.store ⟨1⟩ 0 = some ⟨1, 7, 500, "tx-2"⟩ ∧
      getRedemptionHistory w.store ⟨1⟩ 1 = none ∧ ¬ Audited w.store log := by
  obtain ⟨c, hc⟩ : ∃ c, (contract.play ⟨0, .empty⟩ overwritingCalls).2[3]? = some c := ⟨_, rfl⟩
  have hredemption : redemption? c = some ((⟨1⟩, 0), ⟨1, 4, 500, "tx-1"⟩) := by
    obtain rfl := Option.some.inj hc
    rfl
  have hstored : getRedemptionHistory (contract.play ⟨0, .empty⟩ overwritingCalls).1.store ⟨1⟩ 0 =
      some ⟨1, 7, 500, "tx-2"⟩ := rfl
  refine ⟨_, _, Contract.run_play contract ⟨0, .empty⟩ overwritingCalls (by decide),
    ⟨c, List.mem_of_getElem? hc, hredemption⟩, hstored, rfl, fun h => ?_⟩
  have hrecorded := h.recorded c (List.mem_of_getElem? hc) ⟨1⟩ 0 _ hredemption
  rw [hstored] at hrecorded
  exact absurd hrecorded (by decide)

end Stellara.AcademyRewards
