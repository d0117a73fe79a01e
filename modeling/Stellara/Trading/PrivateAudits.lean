import Stellara.Trading.Upgradeable

/-!
# Audits of private trades

A private trade is executed under the solvency record of its trader and keeps the hash of its
proof. The record is stored for the trader, and the next submission replaces it. An audit of the
trade returns the record that is stored then, without a look at the hash. So an audit shows the
record under which its trade was executed exactly when the last submission of the trader before the
audit is of the same proof.

## Main definitions

* `lastSubmitted trader log`: the hash of the proof that the trader submitted last
* `PrivateEffect`: what a call does to the private trades
* `ShowsExecution`: an audit shows a record under which its trade could be executed

## Main results

* `execute_private`: the effect of every committed call
* `recorded_of_run`: the private trades and the stored records after every run
* `audits_iff`: when all audits of a run show the records of their trades
-/

namespace Stellara.UpgradeableTrading

variable {τ : Type}

/-! ## Submissions and audits -/

/-- The trader and the hash of a submission. -/
def Call.submission? : Call → Option (Address × Bytes32)
  | .submitSolvencyProof trader proofHash _ _ _ => some (trader, proofHash)
  | _ => none

/-- The trade that a call audits. -/
def Call.audited? : Call → Option ℕ
  | .auditPrivateTrade _ tradeId _ => some tradeId
  | _ => none

/-- The hash of the proof that the trader submitted last. -/
def lastSubmitted (trader : Address) (log : List (Commit (State τ) Call Result)) : Option Bytes32 :=
  ((log.filterMap fun c => c.call.submission?).filter fun p => p.1 = trader).getLast?.map Prod.snd

/-- An audit shows one record, whose hash is that of the trade and that had not expired at the
time of the trade. -/
def ShowsExecution (c : Commit (State τ) Call Result) : Prop :=
  ∀ id ∈ c.call.audited?, ∃ view proof, c.result = .auditView view ∧
    c.before.privateTrades.trades.lookup id = some view.trade ∧ view.proof = [proof] ∧
    proof.proofHash = view.trade.solvencyProofHash ∧ view.trade.timestamp ≤ proof.expiresAt

/-- After the commits `past`, the last submission of the trader whose trade is audited has the hash
of the trade. -/
def AuditsLastProof (past : List (Commit (State τ) Call Result))
    (c : Commit (State τ) Call Result) : Prop :=
  ∀ id ∈ c.call.audited?, ∀ trade ∈ c.before.privateTrades.trades.lookup id,
    lastSubmitted trade.trader past = some trade.solvencyProofHash

theorem lastSubmitted_concat {trader : Address} {log : List (Commit (State τ) Call Result)}
    {c : Commit (State τ) Call Result} :
    lastSubmitted trader (log ++ [c]) =
      match c.call.submission? with
      | some (submitter, proofHash) =>
        if submitter = trader then some proofHash else lastSubmitted trader log
      | none => lastSubmitted trader log := by
  rw [lastSubmitted, List.filterMap_append, List.filter_append]
  cases hcall : c.call.submission? with
  | none => simp [hcall, lastSubmitted]
  | some p =>
    obtain ⟨submitter, proofHash⟩ := p
    by_cases hsame : submitter = trader
    · simp [hcall, hsame]
    · simp [hcall, hsame, lastSubmitted]

/-! ## Effects -/

/-- The private trades and the solvency records are left as they are. -/
structure PrivateTrades.Same (p p' : PrivateTrades) : Prop where
  trades : p'.trades = p.trades
  tradeCount : p'.tradeCount = p.tradeCount
  solvencyProofs : p'.solvencyProofs = p.solvencyProofs

theorem PrivateTrades.Same.of_eq {p p' : PrivateTrades} (h : p' = p) : p.Same p' := by
  subst h
  exact ⟨rfl, rfl, rfl⟩

/-- What a committed call does to the private trades. -/
inductive PrivateEffect (now : ℕ) (call : Call) (result : Result) (p p' : PrivateTrades) : Prop
  | submitted {trader : Address} {record : SolvencyProofRecord}
      (hcall : call.submission? = some (trader, record.proofHash)) (haudited : call.audited? = none)
      (hfresh : now ≤ record.expiresAt)
      (hproofs : p'.solvencyProofs = p.solvencyProofs.insert trader record)
      (htrades : p'.trades = p.trades) (hcount : p'.tradeCount = p.tradeCount)
  | executed {trade : PrivateTradeRecord} {record : SolvencyProofRecord}
      (hcall : call.submission? = none) (haudited : call.audited? = none)
      (hrecord : p.solvencyProofs.lookup trade.trader = some record)
      (hhash : record.proofHash = trade.solvencyProofHash)
      (hfresh : trade.timestamp ≤ record.expiresAt)
      (htime : trade.timestamp = now) (hproofs : p'.solvencyProofs = p.solvencyProofs)
      (htrades : p'.trades = p.trades.insert (p.tradeCount + 1) trade)
      (hcount : p'.tradeCount = p.tradeCount + 1)
  | audited {view : PrivateTradeAuditView} {id : ℕ} (hcall : call.submission? = none)
      (haudited : call.audited? = some id) (hresult : result = .auditView view)
      (htrade : p.trades.lookup id = some view.trade)
      (hproof : view.proof = (p.solvencyProofs.lookup view.trade.trader).toList)
      (hsame : p.Same p')
  | unrelated (hcall : call.submission? = none) (haudited : call.audited? = none)
      (hsame : p.Same p')

section Effects

variable {now : ℕ} {s s' : State τ} {call : Call} {r : Result} {admin : Address}

theorem administerBreaker_same {permission : Symbol}
    {f : CircuitBreaker.Storage → CircuitBreaker.Storage}
    (h : administerBreaker admin permission f s = .ok s') : s'.privateTrades = s.privateTrades := by
  simp only [administerBreaker, Except.bind_eq_ok] at h
  obtain ⟨u, -, h⟩ := h
  obtain rfl := Except.ok.inj h
  rfl

theorem govern_same {governanceCall : Governance.Call} {result : Governance.Result}
    (h : govern now governanceCall s = .ok (result, s')) : s'.privateTrades = s.privateTrades := by
  simp only [govern, Except.bind_eq_ok] at h
  obtain ⟨u, -, ⟨_, governance⟩, -, h⟩ := h
  obtain ⟨-, rfl⟩ := Prod.mk.inj (Except.ok.inj h)
  rfl

variable [TokenClient τ Address Address]

/-- The effect of every committed call. -/
theorem execute_private (h : execute now s call = .ok (r, s')) :
    PrivateEffect now call r s.privateTrades s'.privateTrades := by
  cases call with
  | init admin approvers executor cbConfig =>
    have h := done_eq_ok h
    simp only [init, Except.bind_eq_ok] at h
    obtain ⟨trading, -, h⟩ := h
    obtain rfl := Except.ok.inj h
    exact .unrelated rfl rfl (.of_eq rfl)
  | trading c =>
    simp only [execute, Except.bind_eq_ok] at h
    obtain ⟨⟨result, trading⟩, -, h⟩ := h
    obtain ⟨-, rfl⟩ := Prod.mk.inj (Except.ok.inj h)
    exact .unrelated rfl rfl (.of_eq rfl)
  | setRateLimitConfig admin windowSecs userLimit globalLimit premiumUserLimit =>
    have h := done_eq_ok h
    simp only [setRateLimitConfig, Except.bind_eq_ok] at h
    obtain ⟨u, -, u', -, h⟩ := h
    obtain rfl := Except.ok.inj h
    exact .unrelated rfl rfl (.of_eq rfl)
  | setPremiumUser admin user isPremium =>
    have h := done_eq_ok h
    simp only [setPremiumUser, Except.bind_eq_ok] at h
    obtain ⟨u, -, h⟩ := h
    obtain rfl := Except.ok.inj h
    exact .unrelated rfl rfl (.of_eq rfl)
  | setPauseLevel admin level =>
    exact .unrelated rfl rfl (.of_eq (administerBreaker_same (done_eq_ok h)))
  | pauseFunction admin funcName =>
    exact .unrelated rfl rfl (.of_eq (administerBreaker_same (done_eq_ok h)))
  | unpauseFunction admin funcName =>
    exact .unrelated rfl rfl (.of_eq (administerBreaker_same (done_eq_ok h)))
  | pause admin => exact .unrelated rfl rfl (.of_eq (administerBreaker_same (done_eq_ok h)))
  | unpause admin => exact .unrelated rfl rfl (.of_eq (administerBreaker_same (done_eq_ok h)))
  | manageAcl admin aclCall =>
    have h := done_eq_ok h
    simp only [manageAcl, Except.bind_eq_ok] at h
    obtain ⟨u, -, ⟨_, acl⟩, -, h⟩ := h
    obtain rfl := Except.ok.inj h
    exact .unrelated rfl rfl (.of_eq rfl)
  | govern governanceCall =>
    simp only [execute, Except.bind_eq_ok] at h
    obtain ⟨⟨result, s₁⟩, hexec, h⟩ := h
    obtain ⟨-, rfl⟩ := Prod.mk.inj (Except.ok.inj h)
    exact .unrelated rfl rfl (.of_eq (govern_same hexec))
  | submitSolvencyProof trader proofHash assetsCommitment liabilitiesCommitment balanceCommitment =>
    have h := done_eq_ok h
    simp only [submitSolvencyProof, Except.bind_eq_ok, IntFormat.checkedNat_eq_ok] at h
    obtain ⟨_, -, _, -, _, -, _, -, _, -, nonce, -, _, ⟨-, rfl⟩, h⟩ := h
    obtain rfl := Except.ok.inj h
    exact .submitted rfl rfl (Nat.le_add_right _ _) rfl rfl rfl
  | updatePrivateBalance trader commitment =>
    have h := done_eq_ok h
    simp only [updatePrivateBalance, Except.bind_eq_ok] at h
    obtain ⟨_, -, _, -, balances, -, h⟩ := h
    obtain rfl := Except.ok.inj h
    exact .unrelated rfl rfl ⟨rfl, rfl, rfl⟩
  | executePrivateTrade trader pair price isBuy amountCommitment balanceCommitment
      solvencyProofHash =>
    simp only [execute, executePrivateTrade, Except.bind_eq_ok, require_eq_ok, exists_const,
      orAbort_eq_ok, IntFormat.checkedNat_eq_ok] at h
    obtain ⟨⟨id, s₁⟩,
      ⟨_, -, -, -, -, -, record, hrecord, hfresh, hhash, _, ⟨-, rfl⟩, balances, -, h₁⟩,
      h⟩ := h
    obtain ⟨-, rfl⟩ := Prod.mk.inj (Except.ok.inj h₁)
    obtain ⟨-, rfl⟩ := Prod.mk.inj (Except.ok.inj h)
    exact .executed rfl rfl hrecord hhash hfresh rfl rfl rfl rfl
  | registerComplianceViewKey trader encryptedKey =>
    have h := done_eq_ok h
    simp only [registerComplianceViewKey, Except.bind_eq_ok] at h
    obtain ⟨_, -, version, -, h⟩ := h
    obtain rfl := Except.ok.inj h
    exact .unrelated rfl rfl ⟨rfl, rfl, rfl⟩
  | auditPrivateTrade auditor tradeId action =>
    simp only [execute, auditPrivateTrade, Except.bind_eq_ok, require_eq_ok, exists_const,
      orAbort_eq_ok] at h
    obtain ⟨⟨view, s₁⟩, ⟨_, -, permitted, -, -, trade, htrade, auditId, -, h₁⟩, h⟩ := h
    obtain ⟨rfl, rfl⟩ := Prod.mk.inj (Except.ok.inj h₁)
    obtain ⟨rfl, rfl⟩ := Prod.mk.inj (Except.ok.inj h)
    exact .audited rfl rfl rfl htrade rfl ⟨rfl, rfl, rfl⟩

end Effects

/-! ## What calls keep -/

/-- The private trades have the ids from 1 to their count. -/
def PrivateTrades.Numbered (p : PrivateTrades) : Prop :=
  ∃ ts, Store.Numbers p.trades ts ∧ p.tradeCount = ts.length

/-- The private trades that are stored stay as they are. -/
def PrivateTrades.Kept (p p' : PrivateTrades) : Prop :=
  ∀ id trade, p.trades.lookup id = some trade → p'.trades.lookup id = some trade

section Kept

variable {now : ℕ} {call : Call} {r : Result} {p p' : PrivateTrades}

theorem PrivateTrades.Numbered.isSome_iff (h : p.Numbered) (id : ℕ) :
    (p.trades.lookup id).isSome ↔ 1 ≤ id ∧ id ≤ p.tradeCount := by
  obtain ⟨ts, hnumbers, hcount⟩ := h
  rw [hcount]
  exact hnumbers.isSome_iff

/-- A call numbers a new trade, and keeps those that are stored. -/
theorem PrivateEffect.numbered (he : PrivateEffect now call r p p') (h : p.Numbered) :
    p'.Numbered ∧ p.Kept p' := by
  have hsame : p'.trades = p.trades → p'.tradeCount = p.tradeCount → p'.Numbered ∧ p.Kept p' := by
    intro htrades hcount
    rw [PrivateTrades.Numbered, PrivateTrades.Kept, htrades, hcount]
    exact ⟨h, fun _ _ htrade => htrade⟩
  cases he with
  | submitted _ _ _ _ htrades hcount => exact hsame htrades hcount
  | @executed trade record _ _ _ _ _ _ _ htrades hcount =>
    obtain ⟨ts, hnumbers, hlength⟩ := h
    have hinsert := hnumbers.insert trade
    rw [← hlength] at hinsert
    have hnumbers' : Store.Numbers p'.trades (ts ++ [trade]) := htrades ▸ hinsert
    refine ⟨⟨_, hnumbers', by rw [hcount, hlength, List.length_append, List.length_singleton]⟩, ?_⟩
    exact fun _ _ htrade => hnumbers.lookup_append hnumbers' htrade
  | audited _ _ _ _ _ h => exact hsame h.trades h.tradeCount
  | unrelated _ _ h => exact hsame h.trades h.tradeCount

end Kept

/-! ## Runs -/

/-- The stored records are those submitted last, and those of the trades had not expired when these
were executed. -/
structure Recorded (now : ℕ) (s : State τ) (log : List (Commit (State τ) Call Result)) : Prop where
  submitted : ∀ trader, (s.privateTrades.solvencyProofs.lookup trader).map
    SolvencyProofRecord.proofHash = lastSubmitted trader log
  past : ∀ id trade, s.privateTrades.trades.lookup id = some trade → trade.timestamp ≤ now
  unexpired : ∀ id trade, s.privateTrades.trades.lookup id = some trade →
    ∃ record, s.privateTrades.solvencyProofs.lookup trade.trader = some record ∧
      trade.timestamp ≤ record.expiresAt

section Runs

variable {now : ℕ} {s s' : State τ} {call : Call} {r : Result}
  {log : List (Commit (State τ) Call Result)}

/-- A call that neither submits nor executes leaves what is recorded. -/
theorem Recorded.of_same (h : Recorded now s log) (hsame : s.privateTrades.Same s'.privateTrades)
    (hcall : call.submission? = none) : Recorded now s' (log ++ [⟨now, call, r, s, s'⟩]) := by
  refine ⟨fun trader => ?_, fun id trade => ?_, fun id trade => ?_⟩
  · rw [lastSubmitted_concat, hsame.solvencyProofs, hcall]
    exact h.submitted trader
  · rw [hsame.trades]
    exact h.past id trade
  · rw [hsame.trades, hsame.solvencyProofs]
    exact h.unexpired id trade

/-- What is recorded is kept by every call. -/
theorem Recorded.commit (h : Recorded now s log)
    (he : PrivateEffect now call r s.privateTrades s'.privateTrades) :
    Recorded now s' (log ++ [⟨now, call, r, s, s'⟩]) := by
  cases he with
  | @submitted trader record hcall _ hfresh hproofs htrades hcount =>
    refine ⟨fun trader' => ?_, fun id trade => ?_, fun id trade htrade => ?_⟩
    · rw [lastSubmitted_concat, hproofs, Store.lookup_insert_ite, hcall]
      by_cases hsame : trader' = trader
      · simp [hsame]
      · simp [hsame, Ne.symm hsame, h.submitted trader']
    · rw [htrades]
      exact h.past id trade
    · -- a new record expires after all trades so far
      rw [htrades] at htrade
      rw [hproofs, Store.lookup_insert_ite]
      split
      · exact ⟨record, rfl, (h.past id trade htrade).trans hfresh⟩
      · exact h.unexpired id trade htrade
  | @executed trade record hcall _ hrecord hhash hfresh htime hproofs htrades hcount =>
    refine ⟨fun trader => ?_, fun id trade' htrade' => ?_, fun id trade' htrade' => ?_⟩
    · rw [lastSubmitted_concat, hproofs, hcall]
      exact h.submitted trader
    · rw [htrades, Store.lookup_insert_ite] at htrade'
      split at htrade'
      · obtain rfl := Option.some.inj htrade'
        exact htime.le
      · exact h.past id trade' htrade'
    · rw [htrades, Store.lookup_insert_ite] at htrade'
      rw [hproofs]
      split at htrade'
      · obtain rfl := Option.some.inj htrade'
        exact ⟨record, hrecord, hfresh⟩
      · exact h.unexpired id trade' htrade'
  | audited hcall _ _ _ _ hsame => exact h.of_same hsame hcall
  | unrelated hcall _ hsame => exact h.of_same hsame hcall

/-- An audit shows the record of its trade exactly when this is still the last one. -/
theorem Recorded.showsExecution_iff (h : Recorded now s log)
    (he : PrivateEffect now call r s.privateTrades s'.privateTrades) :
    ShowsExecution ⟨now, call, r, s, s'⟩ ↔ AuditsLastProof log ⟨now, call, r, s, s'⟩ := by
  have hnone : call.audited? = none →
      (ShowsExecution ⟨now, call, r, s, s'⟩ ↔ AuditsLastProof log ⟨now, call, r, s, s'⟩) := by
    intro haudited
    refine iff_of_true ?_ ?_
    · intro id hid
      rw [haudited] at hid
      cases hid
    · intro id hid
      rw [haudited] at hid
      cases hid
  cases he with
  | submitted _ haudited => exact hnone haudited
  | executed _ haudited => exact hnone haudited
  | unrelated _ haudited => exact hnone haudited
  | @audited view id hcall haudited hresult htrade hproof hsame =>
    obtain ⟨record, hrecord, hfresh⟩ := h.unexpired id view.trade htrade
    -- the audit reads the record of the last submission, whatever the trade was executed with
    have hlast := h.submitted view.trade.trader
    rw [hrecord, Option.map_some] at hlast
    rw [hrecord, Option.toList_some] at hproof
    constructor
    · intro hshows id' hid' trade htrade'
      obtain rfl : id = id' := Option.some.inj (haudited.symm.trans hid')
      obtain ⟨view', proof, hview, -, hproof', hhash, -⟩ := hshows id hid'
      obtain rfl : view = view' := Result.auditView.inj (hresult.symm.trans hview)
      obtain rfl : record = proof := List.singleton_inj.mp (hproof.symm.trans hproof')
      obtain rfl : view.trade = trade := Option.some.inj (htrade.symm.trans htrade')
      rw [← hlast, hhash]
    · intro hlastProof id' hid'
      obtain rfl : id = id' := Option.some.inj (haudited.symm.trans hid')
      have hhash := hlastProof id hid' view.trade htrade
      rw [← hlast] at hhash
      exact ⟨view, record, hresult, htrade, hproof, Option.some.inj hhash, hfresh⟩

variable [TokenClient τ Address Address] {tokens : τ} {w : World (State τ)}

/-- **Audits of private trades** over every run: the trades have the ids from 1 to their count, none
ever changes, and every audit shows the record under which its trade was executed, exactly when
every audit finds a trade with the proof that its trader submitted last. -/
theorem audits_iff (h : (contract τ).Run ⟨now, .empty tokens⟩ w log) :
    ((∀ id, (w.store.privateTrades.trades.lookup id).isSome ↔
        1 ≤ id ∧ id ≤ w.store.privateTrades.tradeCount) ∧
      (∀ c ∈ log, c.after.privateTrades.Kept w.store.privateTrades) ∧
      ∀ c ∈ log, ShowsExecution c) ↔
      ∀ past c, past ++ [c] <+: log → AuditsLastProof past c := by
  have hempty : (State.empty tokens).privateTrades.Numbered := ⟨[], Store.numbers_empty, rfl⟩
  have hstep : ∀ t k r (s s' : State τ), s.privateTrades.Numbered →
      (contract τ).exec t k s = .ok (r, s') → s'.privateTrades.Numbered := fun _ _ _ _ _ hs he =>
    ((execute_private he).numbered hs).1
  have hnumbered : w.store.privateTrades.Numbered := h.invariant hstep hempty
  have hkept : ∀ c ∈ log, c.after.privateTrades.Kept w.store.privateTrades := by
    refine h.later (R := fun s s' => s.privateTrades.Kept s'.privateTrades)
      (fun _ _ _ htrade => htrade)
      (fun _ _ _ h₁ h₂ id trade htrade => h₂ id trade (h₁ id trade htrade)) fun c hc => ?_
    have hbefore :=
      (h.invariant_of_mem (I := fun s => s.privateTrades.Numbered) hstep hempty c hc).1
    exact ((execute_private (h.exec_of_mem c hc)).numbered hbefore).2
  rw [and_iff_right hnumbered.isSome_iff, and_iff_right hkept]
  refine (h.invariant_log (I := fun t s log => Recorded t s log ∧ ((∀ c ∈ log, ShowsExecution c) ↔
    ∀ past (c : Commit (State τ) Call Result), past ++ [c] <+: log → AuditsLastProof past c))
    ⟨⟨fun _ => rfl, fun _ _ htrade => ?_, fun _ _ htrade => ?_⟩, by simp⟩ ?_ ?_).2
  · cases htrade
  · cases htrade
  · rintro t t' s log hle ⟨hs, hlog⟩
    exact ⟨⟨hs.submitted, fun id trade htrade => (hs.past id trade htrade).trans hle, hs.unexpired⟩,
      hlog⟩
  · rintro t call r s s' log ⟨hs, hlog⟩ he
    have heffect := execute_private he
    refine ⟨hs.commit heffect, ?_⟩
    rw [List.forall_prefix_concat, List.forall_mem_append, List.forall_mem_singleton, hlog,
      hs.showsExecution_iff heffect]

end Runs

/-- A private trade of the trader 7 under its proof 1, and an audit. -/
def auditedTrade : List (ℕ × Call) :=
  [(0, .init ⟨1⟩ [⟨2⟩] ⟨3⟩ ⟨1000, 10, 3600⟩),
    (1, .manageAcl ⟨1⟩ (.assignPermission "admin" "audit")),
    (10, .submitSolvencyProof ⟨7⟩ 1 1 1 1), (11, .executePrivateTrade ⟨7⟩ "XLM" 5 true 1 1 1),
    (13, .auditPrivateTrade ⟨1⟩ 1 "review")]

theorem audits_iff_sample :
    ((∀ id, (((contract _).play emptyWorld auditedTrade).1.store.privateTrades.trades.lookup
        id).isSome ↔
        1 ≤ id ∧
          id ≤ ((contract _).play emptyWorld auditedTrade).1.store.privateTrades.tradeCount) ∧
      (∀ c ∈ ((contract _).play emptyWorld auditedTrade).2, c.after.privateTrades.Kept
        ((contract _).play emptyWorld auditedTrade).1.store.privateTrades) ∧
      ∀ c ∈ ((contract _).play emptyWorld auditedTrade).2, ShowsExecution c) ↔
      ∀ past c, past ++ [c] <+: ((contract _).play emptyWorld auditedTrade).2 →
        AuditsLastProof past c :=
  audits_iff (Contract.run_play _ emptyWorld auditedTrade (by decide))

/-- The same with the proof 2 submitted before the audit. -/
def replacedProof : List (ℕ × Call) :=
  [(0, .init ⟨1⟩ [⟨2⟩] ⟨3⟩ ⟨1000, 10, 3600⟩),
    (1, .manageAcl ⟨1⟩ (.assignPermission "admin" "audit")),
    (10, .submitSolvencyProof ⟨7⟩ 1 1 1 1), (11, .executePrivateTrade ⟨7⟩ "XLM" 5 true 1 1 1),
    (12, .submitSolvencyProof ⟨7⟩ 2 1 1 1), (13, .auditPrivateTrade ⟨1⟩ 1 "review")]

def replacedLog : List (Commit (State (Balances Address Address)) Call Result) :=
  ((contract _).play emptyWorld replacedProof).2

/-- The commit of the audit. -/
def replacedAudit : Commit (State (Balances Address Address)) Call Result :=
  replacedLog.get ⟨5, by decide⟩

/-- What the audit returns. -/
def replacedView : PrivateTradeAuditView where
  trade := ⟨1, ⟨7⟩, "XLM", 5, true, 1, 1, 1, 11⟩
  proof := [⟨2, 1, 1, 1, 2, 12, 3612⟩]
  traderViewKey := []
  selectiveDisclosure := []

/-- The audit shows the proof 2 beside the trade under the proof 1. -/
theorem replaced_proof_shown :
    (∃ w, (contract (Balances Address Address)).Run emptyWorld w replacedLog) ∧
      replacedAudit ∈ replacedLog ∧ replacedAudit.result = .auditView replacedView ∧
      replacedView.trade.solvencyProofHash = 1 ∧
      replacedView.proof.map SolvencyProofRecord.proofHash = [2] ∧
      ¬ ShowsExecution replacedAudit := by
  have hresult : replacedAudit.result = .auditView replacedView := by decide
  refine ⟨⟨_, Contract.run_play _ emptyWorld replacedProof (by decide)⟩, List.get_mem replacedLog _,
    hresult, rfl, by decide, ?_⟩
  intro hshows
  obtain ⟨view, proof, hview, -, hproof, hhash, -⟩ := hshows 1 rfl
  obtain rfl := Result.auditView.inj (hresult.symm.trans hview)
  obtain rfl := List.singleton_inj.mp hproof
  exact absurd hhash (by decide)

end Stellara.UpgradeableTrading
