import Stellara.Reserve.Reports
import Stellara.Reserve.Requests
import Stellara.Reserve.Settlements

/-!
# The reports of a run

Every call that changes an asset or the supply takes a snapshot, and the reports are generated from
the current one. So a report shows the reserves as the last of these calls left them. The type of a
report depends on the reports before it alone: monthly ones are at least 30 days apart, daily ones a
day, and no report is due earlier or later.

## Main definitions

* `DeskCall.Writes`, `LastWrite`: the calls that take a snapshot, and the last one of a log
* `Shows`: a state shows the reserves of the last write
* `reportOf`, `timesOf`: the reports of a log, and their times
* `lastReports`: the reports that are stored

## Main results

* `writes_current`, `keeps_reserves`: what a call does to the snapshot and to the reserves
* `reports_sound`: what the reports of a run say
* `reports_due`: when the reports of a run are monthly, daily and ad hoc
* `getReport_of_run`, `getReportsByType_of_run`: what is found of the reports of a run
* `summary_sound`: what a summary says after a run
* `never_unbacked`: no report from the deployment on finds the supply unbacked
-/

namespace Stellara.Reserve

variable {now : ℕ} {s s' : State} {d d' : Desk} {call : DeskCall} {result : Option Symbol}

/-! ## Snapshots -/

/-- The calls that take a snapshot. -/
def DeskCall.Writes : DeskCall → Prop
  | .addReserveAsset .. | .updateReserveAsset .. | .executeRebalancing | .settle (.process _) => True
  | _ => False

instance : DecidablePred DeskCall.Writes := fun call => by
  unfold DeskCall.Writes
  split <;> infer_instance

/-- The calls that initialise the contract. -/
def DeskCall.Initializes : DeskCall → Prop
  | .init _ => True
  | _ => False

instance : DecidablePred DeskCall.Initializes := fun call => by
  unfold DeskCall.Initializes
  split <;> infer_instance

/-- The snapshot is one of these reserves and this supply. -/
structure Taken (snapshot : ReserveSnapshot) (s : State) : Prop where
  assets : snapshot.assets = s.assets.getD []
  supply : snapshot.totalSupply = s.totalSupply
  exact : Exact snapshot

/-- What an update of the snapshot leaves is what it was taken of. -/
theorem updateSnapshot_taken (h : updateSnapshot now s = .ok s') :
    ∃ snapshot, s'.currentSnapshot = some snapshot ∧ Taken snapshot s' := by
  obtain ⟨snapshot, hcurrent, hassets, hsupply, hexact⟩ := updateSnapshot_exact h
  obtain ⟨htotal, -, -, hsame⟩ := updateSnapshot_eq_ok h
  exact ⟨snapshot, hcurrent, by rw [hassets, hsame], by rw [hsupply, htotal], hexact⟩

theorem publish_taken (event : Event) (h : updateSnapshot now s = .ok s') :
    ∃ snapshot, (publish event s').currentSnapshot = some snapshot ∧
      Taken snapshot (publish event s') := by
  obtain ⟨snapshot, hcurrent, hassets, hsupply, hexact⟩ := updateSnapshot_taken h
  exact ⟨snapshot, hcurrent, hassets, hsupply, hexact⟩

/-- A call that takes a snapshot takes it of what it leaves. -/
theorem writes_current (hcall : call.Writes) (h : executeDesk now d call = .ok (result, d')) :
    ∃ snapshot, d'.reserve.currentSnapshot = some snapshot ∧ Taken snapshot d'.reserve := by
  cases call with
  | addReserveAsset assetType amount custodian verificationHash =>
    simp only [executeDesk, addAsset, Except.bind_eq_ok] at h
    obtain ⟨_, ⟨s₁, hupdate, h₁⟩, h⟩ := h
    obtain rfl := Except.ok.inj h₁
    obtain ⟨-, rfl⟩ := Prod.mk.inj (Except.ok.inj h)
    exact publish_taken _ hupdate
  | updateReserveAsset assetIndex newAmount verificationHash =>
    simp only [executeDesk, updateAsset, Except.bind_eq_ok] at h
    obtain ⟨_, ⟨_, -, _, -, s₁, hupdate, h₁⟩, h⟩ := h
    obtain rfl := Except.ok.inj h₁
    obtain ⟨-, rfl⟩ := Prod.mk.inj (Except.ok.inj h)
    exact publish_taken _ hupdate
  | executeRebalancing =>
    simp only [executeDesk, executeRebalancing, Except.bind_eq_ok] at h
    obtain ⟨_, ⟨_, -, _, -, _, -, _, -, _, -, ⟨_, _⟩, -, s₁, hupdate, h₁⟩, h⟩ := h
    obtain rfl := Except.ok.inj h₁
    obtain ⟨-, rfl⟩ := Prod.mk.inj (Except.ok.inj h)
    exact updateSnapshot_taken hupdate
  | settle settlement =>
    cases settlement with
    | process id =>
      simp only [executeDesk, settle, processRedemption, updateTotalSupply, Except.bind_eq_ok] at h
      obtain ⟨_, ⟨_, -, _, -, _, -, _, -, _, -, _, -, _, -, _, -, _, -, _, -, s₁, hupdate, h₁⟩, h⟩ := h
      obtain rfl := Except.ok.inj h₁
      obtain ⟨-, rfl⟩ := Prod.mk.inj (Except.ok.inj h)
      exact publish_taken _ hupdate
    | approve | reject => exact hcall.elim
  | init | updateTargetAllocation | updateRedemptionConfig | requestRedemption
  | generateRegulatoryReport => exact hcall.elim

/-- Two states hold the same reserves and the same supply. -/
structure SameReserves (s s' : State) : Prop where
  assets : s'.assets.getD [] = s.assets.getD []
  supply : s'.totalSupply = s.totalSupply

/-- The other calls keep the snapshot, and all but the initialisation keep what it was taken of. -/
theorem keeps_reserves (hcall : ¬ call.Writes) (h : executeDesk now d call = .ok (result, d')) :
    d'.reserve.currentSnapshot = d.reserve.currentSnapshot ∧
      (¬ call.Initializes → SameReserves d.reserve d'.reserve) := by
  cases call with
  | init stablecoin =>
    obtain ⟨-, rfl⟩ := Prod.mk.inj (Except.ok.inj h)
    exact ⟨rfl, fun hnot => absurd trivial hnot⟩
  | updateTargetAllocation allocation =>
    simp only [executeDesk, updateTargetAllocation, Except.bind_eq_ok] at h
    obtain ⟨_, ⟨_, -, h₁⟩, h⟩ := h
    obtain rfl := Except.ok.inj h₁
    obtain ⟨-, rfl⟩ := Prod.mk.inj (Except.ok.inj h)
    exact ⟨rfl, fun _ => ⟨rfl, rfl⟩⟩
  | updateRedemptionConfig config =>
    obtain ⟨-, rfl⟩ := Prod.mk.inj (Except.ok.inj h)
    exact ⟨rfl, fun _ => ⟨rfl, rfl⟩⟩
  | requestRedemption requester amount =>
    simp only [executeDesk, requestRedemption, addToQueue, Except.bind_eq_ok, require_eq_ok,
      exists_const] at h
    obtain ⟨⟨_, _⟩, ⟨-, -, -, _, -, _, -, -, _, -, -, _, ⟨_, -, h₂⟩, h₁⟩, h⟩ := h
    obtain rfl := Except.ok.inj h₂
    obtain ⟨-, rfl⟩ := Prod.mk.inj (Except.ok.inj h₁)
    obtain ⟨-, rfl⟩ := Prod.mk.inj (Except.ok.inj h)
    exact ⟨rfl, fun _ => ⟨rfl, rfl⟩⟩
  | settle settlement =>
    cases settlement with
    | approve id =>
      simp only [executeDesk, settle, approveRedemption, updateRequest, Except.bind_eq_ok,
        require_eq_ok, exists_const] at h
      obtain ⟨_, ⟨_, -, _, -, -, _, ⟨_, -, _, -, h₂⟩, h₁⟩, h⟩ := h
      obtain rfl := Except.ok.inj h₂
      obtain rfl := Except.ok.inj h₁
      obtain ⟨-, rfl⟩ := Prod.mk.inj (Except.ok.inj h)
      exact ⟨rfl, fun _ => ⟨rfl, rfl⟩⟩
    | reject id reason =>
      simp only [executeDesk, settle, rejectRedemption, updateRequest, removeFromQueue,
        Except.bind_eq_ok, require_eq_ok, exists_const] at h
      obtain ⟨_, ⟨_, -, _, -, -, _, ⟨_, -, _, -, h₂⟩, _, ⟨_, -, h₃⟩, h₁⟩, h⟩ := h
      obtain rfl := Except.ok.inj h₂
      obtain rfl := Except.ok.inj h₃
      obtain rfl := Except.ok.inj h₁
      obtain ⟨-, rfl⟩ := Prod.mk.inj (Except.ok.inj h)
      exact ⟨rfl, fun _ => ⟨rfl, rfl⟩⟩
    | process => exact absurd trivial hcall
  | generateRegulatoryReport =>
    simp only [executeDesk, Except.bind_eq_ok] at h
    obtain ⟨⟨id, d₁⟩, hreport, h⟩ := h
    obtain ⟨-, rfl⟩ := Prod.mk.inj (Except.ok.inj h)
    obtain ⟨_, _, -, -, -, -, hportfolio, -⟩ := generateReport_eq_ok hreport
    rw [Desk.reserve, hportfolio]
    exact ⟨rfl, fun _ => ⟨rfl, rfl⟩⟩
  | addReserveAsset | updateReserveAsset | executeRebalancing => exact absurd trivial hcall

/-! ## The last write -/

abbrev DeskLog := List (Commit Desk DeskCall (Option Symbol))

variable {log past : DeskLog} {c : Commit Desk DeskCall (Option Symbol)}

/-- The last call of a log that took a snapshot, and the calls since. -/
structure LastWrite (log : DeskLog) (c : Commit Desk DeskCall (Option Symbol)) (rest : DeskLog) :
    Prop where
  split : ∃ past, log = past ++ c :: rest
  writes : c.call.Writes
  since : ∀ c' ∈ rest, ¬ c'.call.Writes

/-- The current snapshot is the one of the last write. The reserves are still the same where the
contract was not initialised since. -/
def Shows (s : State) (log : DeskLog) : Prop :=
  ∀ snapshot, s.currentSnapshot = some snapshot → ∃ c rest, LastWrite log c rest ∧
    Taken snapshot c.after.reserve ∧
    ((∀ c' ∈ rest, ¬ c'.call.Initializes) → SameReserves c.after.reserve s)

/-- A commit keeps what the state shows. -/
theorem Shows.concat (h : Shows c.before.reserve log)
    (he : executeDesk c.time c.before c.call = .ok (c.result, c.after)) :
    Shows c.after.reserve (log ++ [c]) := by
  intro snapshot hcurrent
  by_cases hcall : c.call.Writes
  · obtain ⟨snapshot', hcurrent', htaken⟩ := writes_current hcall he
    obtain rfl := Option.some.inj (hcurrent.symm.trans hcurrent')
    exact ⟨c, [], ⟨⟨log, rfl⟩, hcall, by simp⟩, htaken, fun _ => ⟨rfl, rfl⟩⟩
  · obtain ⟨hkeep, hsame⟩ := keeps_reserves hcall he
    rw [hkeep] at hcurrent
    obtain ⟨written, rest, ⟨⟨past, rfl⟩, hwrites, hsince⟩, htaken, hlive⟩ := h snapshot hcurrent
    refine ⟨written, rest ++ [c], ⟨⟨past, by simp⟩, hwrites, ?_⟩, htaken, fun hinit => ?_⟩
    · rw [List.forall_mem_append, List.forall_mem_singleton]
      exact ⟨hsince, hcall⟩
    · rw [List.forall_mem_append, List.forall_mem_singleton] at hinit
      have hold := hlive hinit.1
      have hnew := hsame hinit.2
      exact ⟨hnew.assets.trans hold.assets, hnew.supply.trans hold.supply⟩

theorem shows_of_none (h : s.currentSnapshot = none) : Shows s [] := by
  intro snapshot hcurrent
  rw [h] at hcurrent
  cases hcurrent

/-! ## The reports of a log -/

/-- The report that a commit stored. -/
def reportOf (c : Commit Desk DeskCall (Option Symbol)) : Option RegulatoryReport :=
  if c.call = .generateRegulatoryReport then (c.after.reports.getD []).getLast? else none

theorem getLast?_pushReport (report : RegulatoryReport) (reports : List RegulatoryReport) :
    (pushReport report reports).getLast? = some report := by
  rw [pushReport, List.drop_append_of_le_length (by omega), List.getLast?_concat]

/-- A call that generates a report stores it. -/
theorem report_of_execute (hcall : c.call = .generateRegulatoryReport)
    (he : executeDesk c.time c.before c.call = .ok (c.result, c.after)) :
    ∃ snapshot report, reportOf c = some report ∧
      c.before.reserve.currentSnapshot = some snapshot ∧ c.result = some (reportId c.time) ∧
      (Exact snapshot → Sound c.time snapshot.assets snapshot.totalSupply report) ∧
      determineReportType c.time c.before = .ok report.reportType ∧
      c.after.lastDaily = (if report.reportType = .daily then some c.time else c.before.lastDaily) ∧
      c.after.lastMonthly =
        if report.reportType = .monthly then some c.time else c.before.lastMonthly := by
  rw [hcall] at he
  simp only [executeDesk, Except.bind_eq_ok] at he
  obtain ⟨⟨id, d₁⟩, hreport, he⟩ := he
  obtain ⟨hresult, hafter⟩ := Prod.mk.inj (Except.ok.inj he)
  obtain ⟨snapshot, report, hcurrent, rfl, hsound, hreports, -, htype, hdaily, hmonthly⟩ :=
    generateReport_eq_ok hreport
  rw [← hafter, ← hresult]
  refine ⟨snapshot, report, ?_, hcurrent, rfl, hsound, htype, hdaily, hmonthly⟩
  rw [reportOf, if_pos hcall, ← hafter, hreports, Option.getD_some, getLast?_pushReport]

/-- The other calls leave the reports and their times. -/
theorem reports_of_execute (hcall : call ≠ .generateRegulatoryReport)
    (h : executeDesk now d call = .ok (result, d')) :
    d'.reports = d.reports ∧ d'.lastDaily = d.lastDaily ∧ d'.lastMonthly = d.lastMonthly := by
  cases call with
  | init | updateRedemptionConfig =>
    obtain ⟨-, rfl⟩ := Prod.mk.inj (Except.ok.inj h)
    exact ⟨rfl, rfl, rfl⟩
  | addReserveAsset | updateReserveAsset | executeRebalancing | updateTargetAllocation
  | requestRedemption | settle =>
    obtain ⟨_, -, h⟩ := Except.bind_eq_ok.mp h
    obtain ⟨-, rfl⟩ := Prod.mk.inj (Except.ok.inj h)
    exact ⟨rfl, rfl, rfl⟩
  | generateRegulatoryReport => exact absurd rfl hcall

/-- A report says what the last call that took a snapshot left. Where the contract was not
initialised since, these are the reserves at its time. -/
def SaysLastWrite (past : DeskLog) (c : Commit Desk DeskCall (Option Symbol)) : Prop :=
  c.call = .generateRegulatoryReport → ∃ report written rest, reportOf c = some report ∧
    c.result = some (reportId c.time) ∧ LastWrite past written rest ∧
    Sound c.time (written.after.reserve.assets.getD []) written.after.reserve.totalSupply report ∧
    ((∀ c' ∈ rest, ¬ c'.call.Initializes) → SameReserves written.after.reserve c.before.reserve)

variable {w w₀ : World Desk}

/-- **Reports.** In every run from a state without a snapshot, a report says what the last call that
took a snapshot left: the reserves and the supply, the parts that add up to them, and whether they
are backed. -/
theorem reports_sound (h : deskContract.Run w₀ w log)
    (hstart : w₀.store.reserve.currentSnapshot = none) :
    ∀ past c, past ++ [c] <+: log → SaysLastWrite past c := by
  refine (h.invariant_log (I := fun _ d log => Shows d.reserve log ∧
    ∀ past c, past ++ [c] <+: log → SaysLastWrite past c) ⟨shows_of_none hstart, by simp⟩
    (fun _ _ _ _ _ hs => hs) fun t k r s s' log hs he => ⟨?_, ?_⟩).2
  · exact Shows.concat (c := ⟨t, k, r, s, s'⟩) hs.1 he
  · rw [List.forall_prefix_concat]
    refine ⟨hs.2, fun hcall => ?_⟩
    obtain ⟨snapshot, report, hreport, hcurrent, hresult, hsound, -⟩ :=
      report_of_execute (c := ⟨t, k, r, s, s'⟩) hcall he
    obtain ⟨written, rest, hwrite, htaken, hlive⟩ := hs.1 snapshot hcurrent
    refine ⟨report, written, rest, hreport, hresult, hwrite, ?_, hlive⟩
    rw [← htaken.assets, ← htaken.supply]
    exact hsound htaken.exact

/-- The contract with a supply of 200 and no reserves yet. -/
def supplied : Desk :=
  { Desk.empty with portfolio :=
    { Desk.empty.portfolio with reserve := { State.empty with totalSupply := 200 } } }

/-- Two assets of 150 together, and a report before and after another one of 50. -/
def reportedCalls : List (ℕ × DeskCall) :=
  [(1, .addReserveAsset .usd 90 ⟨6⟩ []), (2, .addReserveAsset .repo 60 ⟨7⟩ []),
    (3, .generateRegulatoryReport), (4, .addReserveAsset .etf 50 ⟨6⟩ []),
    (2592000, .generateRegulatoryReport), (2592001, .generateRegulatoryReport),
    (2592002, .generateRegulatoryReport)]

theorem reports_sound_sample :
    ((deskContract.play ⟨0, supplied⟩ reportedCalls).2.filterMap reportOf).map
        RegulatoryReport.complianceStatus = [.nonCompliant, .warning, .warning, .warning] ∧
      ∀ past c, past ++ [c] <+: (deskContract.play ⟨0, supplied⟩ reportedCalls).2 →
        SaysLastWrite past c :=
  ⟨by decide, reports_sound (Contract.run_play deskContract _ _ (by decide)) rfl⟩

/-! ## When reports are due -/

/-- The times are at least a period apart. -/
def Spaced (period : ℕ) (times : List ℕ) : Prop := times.Pairwise fun t t' => t + period ≤ t'

/-- A time that is a period after the last one is one after all. -/
theorem Spaced.concat {period time : ℕ} {times : List ℕ} (h : Spaced period times)
    (hlast : times.getLast?.getD 0 + period ≤ time) : Spaced period (times ++ [time]) := by
  rw [Spaced, List.pairwise_append]
  refine ⟨h, List.pairwise_singleton _ _, fun t ht t' ht' => ?_⟩
  obtain rfl := List.mem_singleton.mp ht'
  rcases List.eq_nil_or_concat times with rfl | ⟨before, last, rfl⟩
  · cases ht
  · rw [List.concat_eq_append] at h ht hlast
    rw [List.getLast?_concat, Option.getD_some] at hlast
    rcases List.mem_append.mp ht with ht | ht
    · have hle := (List.pairwise_append.mp h).2.2 t ht last (by simp)
      omega
    · obtain rfl := List.mem_singleton.mp ht
      exact hlast

/-- The commit stored a report of a type. -/
def IsReport (reportType : ReportType) (c : Commit Desk DeskCall (Option Symbol)) : Bool :=
  (reportOf c).any fun report => report.reportType = reportType

/-- The times of the reports of a type. -/
def timesOf (reportType : ReportType) (log : DeskLog) : List ℕ :=
  (log.filter (IsReport reportType)).map Commit.time

theorem timesOf_concat (reportType : ReportType) :
    timesOf reportType (log ++ [c]) =
      if IsReport reportType c then timesOf reportType log ++ [c.time] else timesOf reportType log := by
  rw [timesOf, List.filter_append, List.map_append]
  split
  · rename_i htype
    rw [List.filter_cons_of_pos htype]
    rfl
  · rename_i htype
    rw [List.filter_cons_of_neg htype]
    simp [timesOf]

/-- The last report of a type, or the beginning of time, is a period ago. -/
def Due (reportType : ReportType) (period : ℕ) (past : DeskLog) (time : ℕ) : Prop :=
  (timesOf reportType past).getLast?.getD 0 + period ≤ time

/-- A report is monthly when a monthly one is due, else daily when a daily one is, else ad hoc. -/
def OfTypeDue (past : DeskLog) (c : Commit Desk DeskCall (Option Symbol)) : Prop :=
  ∀ report, reportOf c = some report →
    (report.reportType = .monthly ∧ Due .monthly (30 * 86400) past c.time) ∨
    (report.reportType = .daily ∧ ¬ Due .monthly (30 * 86400) past c.time ∧
      Due .daily 86400 past c.time) ∨
    (report.reportType = .adHoc ∧ ¬ Due .monthly (30 * 86400) past c.time ∧
      ¬ Due .daily 86400 past c.time)

theorem determineReportType_eq_ok {reportType : ReportType}
    (h : determineReportType now d = .ok reportType) :
    (reportType = .monthly ∧ d.lastMonthly.getD 0 + 30 * 86400 ≤ now) ∨
    (reportType = .daily ∧ ¬ d.lastMonthly.getD 0 + 30 * 86400 ≤ now ∧
      d.lastDaily.getD 0 + 86400 ≤ now) ∨
    (reportType = .adHoc ∧ ¬ d.lastMonthly.getD 0 + 30 * 86400 ≤ now ∧
      ¬ d.lastDaily.getD 0 + 86400 ≤ now) := by
  simp only [determineReportType, Except.bind_eq_ok] at h
  obtain ⟨_, h₁, _, h₂, h⟩ := h
  obtain ⟨hdaily, rfl⟩ := daysSince_eq_ok h₁
  obtain ⟨hmonthly, rfl⟩ := daysSince_eq_ok h₂
  obtain rfl := Except.ok.inj h
  split
  · exact .inl ⟨rfl, by omega⟩
  · split
    · exact .inr (.inl ⟨rfl, by omega, by omega⟩)
    · exact .inr (.inr ⟨rfl, by omega, by omega⟩)

/-- The stored times are those of the last reports, and the reports are spaced. -/
structure Filed (d : Desk) (log : DeskLog) : Prop where
  daily : d.lastDaily = (timesOf .daily log).getLast?
  monthly : d.lastMonthly = (timesOf .monthly log).getLast?
  spacedDaily : Spaced 86400 (timesOf .daily log)
  spacedMonthly : Spaced (30 * 86400) (timesOf .monthly log)

/-- A report is of the type that is due, and is filed. -/
theorem Filed.report {report : RegulatoryReport} (h : Filed c.before log)
    (hreport : reportOf c = some report)
    (htype : determineReportType c.time c.before = .ok report.reportType)
    (hdaily : c.after.lastDaily =
      if report.reportType = .daily then some c.time else c.before.lastDaily)
    (hmonthly : c.after.lastMonthly =
      if report.reportType = .monthly then some c.time else c.before.lastMonthly) :
    Filed c.after (log ++ [c]) ∧ OfTypeDue log c := by
  have hcases := determineReportType_eq_ok htype
  rw [h.daily, h.monthly] at hcases
  have hiff : ∀ reportType, IsReport reportType c = true ↔ report.reportType = reportType :=
    fun reportType => by simp [IsReport, hreport]
  refine ⟨⟨?_, ?_, ?_, ?_⟩, fun report' hreport' => ?_⟩
  · rw [timesOf_concat, hdaily]
    simp only [hiff]
    split
    · rw [List.getLast?_concat]
    · exact h.daily
  · rw [timesOf_concat, hmonthly]
    simp only [hiff]
    split
    · rw [List.getLast?_concat]
    · exact h.monthly
  · rw [timesOf_concat]
    simp only [hiff]
    split
    · rename_i heq
      rcases hcases with ⟨hne, -⟩ | ⟨-, -, hdue⟩ | ⟨hne, -⟩
      · cases heq.symm.trans hne
      · exact h.spacedDaily.concat hdue
      · cases heq.symm.trans hne
    · exact h.spacedDaily
  · rw [timesOf_concat]
    simp only [hiff]
    split
    · rename_i heq
      rcases hcases with ⟨-, hdue⟩ | ⟨hne, -⟩ | ⟨hne, -⟩
      · exact h.spacedMonthly.concat hdue
      · cases heq.symm.trans hne
      · cases heq.symm.trans hne
    · exact h.spacedMonthly
  · obtain rfl := Option.some.inj (hreport.symm.trans hreport')
    exact hcases

/-- A commit files its report, if it is one. -/
theorem Filed.concat (h : Filed c.before log)
    (he : executeDesk c.time c.before c.call = .ok (c.result, c.after)) :
    Filed c.after (log ++ [c]) ∧ OfTypeDue log c := by
  by_cases hcall : c.call = .generateRegulatoryReport
  · obtain ⟨_, report, hreport, -, -, -, htype, hdaily, hmonthly⟩ := report_of_execute hcall he
    exact h.report hreport htype hdaily hmonthly
  · have hnone : reportOf c = none := if_neg hcall
    obtain ⟨-, hdaily, hmonthly⟩ := reports_of_execute hcall he
    have hsame : ∀ reportType, timesOf reportType (log ++ [c]) = timesOf reportType log := by
      intro reportType
      rw [timesOf_concat, if_neg (by simp [IsReport, hnone])]
    refine ⟨⟨?_, ?_, ?_, ?_⟩, fun report hreport => ?_⟩
    · rw [hdaily, hsame, h.daily]
    · rw [hmonthly, hsame, h.monthly]
    · rw [hsame]
      exact h.spacedDaily
    · rw [hsame]
      exact h.spacedMonthly
    · rw [hnone] at hreport
      cases hreport

/-- **When reports are due.** In every run from a state without reports, a report is monthly exactly
when 30 days have passed since the last monthly one, else daily exactly when a day has passed since
the last daily one, and else ad hoc. Any two monthly reports are 30 days apart, and any two daily
ones a day. -/
theorem reports_due (h : deskContract.Run w₀ w log) (hdaily : w₀.store.lastDaily = none)
    (hmonthly : w₀.store.lastMonthly = none) :
    (∀ past c, past ++ [c] <+: log → OfTypeDue past c) ∧
      Spaced (30 * 86400) (timesOf .monthly log) ∧ Spaced 86400 (timesOf .daily log) := by
  have hrun := h.invariant_log (I := fun _ d log => Filed d log ∧
    ∀ past c, past ++ [c] <+: log → OfTypeDue past c)
    ⟨⟨hdaily, hmonthly, .nil, .nil⟩, by simp⟩ (fun _ _ _ _ _ hs => hs)
    fun t k r s s' log hs he => by
      obtain ⟨hfiled, hdue⟩ := hs.1.concat (c := ⟨t, k, r, s, s'⟩) he
      exact ⟨hfiled, List.forall_prefix_concat.mpr ⟨hs.2, hdue⟩⟩
  exact ⟨hrun.2, hrun.1.spacedMonthly, hrun.1.spacedDaily⟩

theorem reports_due_sample :
    ((deskContract.play ⟨0, supplied⟩ reportedCalls).2.filterMap reportOf).map
        RegulatoryReport.reportType = [.adHoc, .monthly, .daily, .adHoc] ∧
      (∀ past c, past ++ [c] <+: (deskContract.play ⟨0, supplied⟩ reportedCalls).2 →
        OfTypeDue past c) ∧
      Spaced (30 * 86400) (timesOf .monthly (deskContract.play ⟨0, supplied⟩ reportedCalls).2) ∧
      Spaced 86400 (timesOf .daily (deskContract.play ⟨0, supplied⟩ reportedCalls).2) :=
  ⟨by decide, reports_due (Contract.run_play deskContract _ _ (by decide)) rfl rfl⟩

/-! ## The stored reports -/

/-- The last 365 reports of a log, in their order. -/
def lastReports (log : DeskLog) : List RegulatoryReport :=
  (log.filterMap reportOf).drop ((log.filterMap reportOf).length - 365)

/-- Appending to the last 365 reports leaves the last 365. -/
theorem pushReport_drop (report : RegulatoryReport) (reports : List RegulatoryReport) :
    pushReport report (reports.drop (reports.length - 365)) =
      (reports ++ [report]).drop ((reports ++ [report]).length - 365) := by
  rw [pushReport, List.length_drop, List.length_append, List.length_singleton]
  have hcount : reports.length - 365 + (reports.length - (reports.length - 365) + 1 - 365) =
      reports.length + 1 - 365 := by omega
  rw [← List.drop_append_of_le_length (Nat.sub_le _ _), List.drop_drop, hcount]

/-- The last reports are stored from the first one on. -/
def storedReports (log : DeskLog) : Option (List RegulatoryReport) :=
  if lastReports log = [] then none else some (lastReports log)

theorem getD_storedReports (log : DeskLog) : (storedReports log).getD [] = lastReports log := by
  unfold storedReports
  split
  · rename_i hnone
    rw [hnone, Option.getD_none]
  · rw [Option.getD_some]

/-- A commit stores its report, if it is one, behind the last ones. -/
theorem storedReports_concat (h : c.before.reports = storedReports log)
    (he : executeDesk c.time c.before c.call = .ok (c.result, c.after)) :
    c.after.reports = storedReports (log ++ [c]) := by
  by_cases hcall : c.call = .generateRegulatoryReport
  · obtain ⟨time, call, result, d, d'⟩ := c
    dsimp only at hcall h
    subst hcall
    simp only [executeDesk, Except.bind_eq_ok] at he
    obtain ⟨⟨id, d₁⟩, hgenerate, he⟩ := he
    obtain ⟨-, rfl⟩ := Prod.mk.inj (Except.ok.inj he)
    obtain ⟨_, report, -, -, -, hreports, -⟩ := generateReport_eq_ok hgenerate
    have hreport : reportOf ⟨time, .generateRegulatoryReport, result, d, d₁⟩ = some report := by
      rw [reportOf, if_pos rfl, hreports, Option.getD_some, getLast?_pushReport]
    have hlast : lastReports (log ++ [⟨time, .generateRegulatoryReport, result, d, d₁⟩]) =
        pushReport report (lastReports log) := by
      rw [lastReports, List.filterMap_append, List.filterMap_cons_some hreport, List.filterMap_nil,
        ← pushReport_drop, ← lastReports]
    have hne : pushReport report (lastReports log) ≠ [] := by
      intro hnil
      have hmem := getLast?_pushReport report (lastReports log)
      rw [hnil] at hmem
      cases hmem
    rw [hreports, h, getD_storedReports, storedReports, hlast, if_neg hne]
  · have hnone : reportOf c = none := if_neg hcall
    obtain ⟨hsame, -, -⟩ := reports_of_execute hcall he
    have hlast : lastReports (log ++ [c]) = lastReports log := by
      rw [lastReports, List.filterMap_append, List.filterMap_cons_none hnone, List.filterMap_nil,
        List.append_nil, ← lastReports]
    rw [hsame, h, storedReports, storedReports, hlast]

theorem reports_of_run (h : deskContract.Run w₀ w log) (hstart : w₀.store.reports = none) :
    w.store.reports = storedReports log :=
  h.invariant_log (I := fun _ d log => d.reports = storedReports log) hstart
    (fun _ _ _ _ _ hs => hs)
    fun t k r s s' _ hs he => storedReports_concat (c := ⟨t, k, r, s, s'⟩) hs he

/-- **Stored reports.** In every run from a state without reports, a report is looked up in the last
365 that were generated: the first of these with the id is returned. -/
theorem getReport_of_run (h : deskContract.Run w₀ w log) (hstart : w₀.store.reports = none)
    (id : Symbol) :
    getReport id w.store = orAbort (.error .reportingError)
      ((lastReports log).find? fun report => reportId report.timestamp = id) := by
  rw [← getD_storedReports, ← reports_of_run h hstart, getReport]
  cases w.store.reports <;> rfl

/-- In every run from a state without reports, the reports of a type are those of the last 365, in
their order, and an error before the first report. -/
theorem getReportsByType_of_run (h : deskContract.Run w₀ w log) (hstart : w₀.store.reports = none)
    (reportType : ReportType) :
    getReportsByType reportType w.store =
      if lastReports log = [] then .error (.error .reportingError)
      else .ok ((lastReports log).filter fun report => report.reportType = reportType) := by
  rw [getReportsByType, reports_of_run h hstart, storedReports]
  split <;> rfl

theorem getReport_of_run_sample :
    getReport (reportId 3) (deskContract.play ⟨0, supplied⟩ reportedCalls).1.store =
      orAbort (.error .reportingError)
        ((lastReports (deskContract.play ⟨0, supplied⟩ reportedCalls).2).find? fun report =>
          reportId report.timestamp = reportId 3) :=
  getReport_of_run (Contract.run_play deskContract _ _ (by decide)) rfl _

/-! ## The summary -/

theorem shows_of_run (h : deskContract.Run w₀ w log)
    (hstart : w₀.store.reserve.currentSnapshot = none) : Shows w.store.reserve log :=
  h.invariant_log (I := fun _ (d : Desk) log => Shows d.reserve log) (shows_of_none hstart)
    (fun _ _ _ _ _ hs => hs) fun t k r s s' _ hs he => Shows.concat (c := ⟨t, k, r, s, s'⟩) hs he

theorem filed_of_run (h : deskContract.Run w₀ w log) (hdaily : w₀.store.lastDaily = none)
    (hmonthly : w₀.store.lastMonthly = none) : Filed w.store log :=
  h.invariant_log (I := fun _ d log => Filed d log) ⟨hdaily, hmonthly, .nil, .nil⟩
    (fun _ _ _ _ _ hs => hs)
    fun t k r s s' _ hs he => (hs.concat (c := ⟨t, k, r, s, s'⟩) he).1

/-- The summary says what reserves and a supply are at a time, and how old the reports of a log
are. -/
structure Summarizes (now : ℕ) (s : State) (log : DeskLog) (summary : ComplianceSummary) : Prop where
  reserves : summary.totalReserves = totalAmount (s.assets.getD [])
  supply : summary.totalSupply = s.totalSupply
  nonCompliant_iff : summary.status = .nonCompliant ↔ summary.totalReserves < summary.totalSupply
  warning_iff : summary.status = .warning ↔ summary.totalSupply ≤ summary.totalReserves ∧
    ∃ asset ∈ s.assets.getD [], asset.lastVerified + 86400 < now
  daily : summary.daysSinceDailyReport = (now - (timesOf .daily log).getLast?.getD 0) / 86400
  monthly : summary.daysSinceMonthlyReport = (now - (timesOf .monthly log).getLast?.getD 0) / 86400

/-- In every run from a state without a snapshot and reports, a summary says what the last call that
took a snapshot left, as a report does, and how long ago the last reports were generated. -/
theorem summary_sound (h : deskContract.Run w₀ w log)
    (hstart : w₀.store.reserve.currentSnapshot = none) (hdaily : w₀.store.lastDaily = none)
    (hmonthly : w₀.store.lastMonthly = none) {summary : ComplianceSummary}
    (hsummary : getComplianceSummary now w.store = .ok summary) :
    ∃ written rest, LastWrite log written rest ∧
      Summarizes now written.after.reserve log summary := by
  have hfiled := filed_of_run h hdaily hmonthly
  obtain ⟨snapshot, hcurrent, hstatus, -, hreserves, hsupply, hdays, hmonths⟩ :=
    getComplianceSummary_eq_ok hsummary
  -- the snapshot of the summary is the one that the last call took
  obtain ⟨written, rest, hwrite, htaken, -⟩ := shows_of_run h hstart snapshot hcurrent
  obtain ⟨hnonCompliant, hwarning⟩ := htaken.exact.compliance hstatus
  refine ⟨written, rest, hwrite, ?_, ?_, ?_, ?_, ?_, ?_⟩
  · rw [hreserves, htaken.exact.reserves, htaken.assets]
  · rw [hsupply, htaken.supply]
  · rw [hnonCompliant, hreserves, hsupply]
  · rw [hwarning, hreserves, hsupply, htaken.assets]
  · rw [hdays, hfiled.daily]
  · rw [hmonths, hfiled.monthly]

/-! ## Reports from the deployment on -/

/-- No request is stored, no supply is known, and the snapshot knows none. -/
structure Unsupplied (s : State) : Prop where
  requests : s.requests = none
  supply : s.totalSupply = 0

/-- Without stored requests none is made, settled or processed, and the supply stays unknown. -/
theorem Unsupplied.step (h : Unsupplied d.reserve)
    (he : executeDesk now d call = .ok (result, d')) : Unsupplied d'.reserve := by
  cases call with
  | init stablecoin =>
    obtain ⟨-, rfl⟩ := Prod.mk.inj (Except.ok.inj he)
    exact ⟨h.requests, rfl⟩
  | addReserveAsset assetType amount custodian verificationHash =>
    simp only [executeDesk, addAsset, Except.bind_eq_ok] at he
    obtain ⟨_, ⟨s₁, hupdate, h₁⟩, he⟩ := he
    obtain rfl := Except.ok.inj h₁
    obtain ⟨-, rfl⟩ := Prod.mk.inj (Except.ok.inj he)
    obtain ⟨hsupply, hrequests, -, -⟩ := updateSnapshot_eq_ok hupdate
    exact ⟨hrequests.trans h.requests, hsupply.trans h.supply⟩
  | updateReserveAsset assetIndex newAmount verificationHash =>
    simp only [executeDesk, updateAsset, Except.bind_eq_ok] at he
    obtain ⟨_, ⟨_, -, _, -, s₁, hupdate, h₁⟩, he⟩ := he
    obtain rfl := Except.ok.inj h₁
    obtain ⟨-, rfl⟩ := Prod.mk.inj (Except.ok.inj he)
    obtain ⟨hsupply, hrequests, -, -⟩ := updateSnapshot_eq_ok hupdate
    exact ⟨hrequests.trans h.requests, hsupply.trans h.supply⟩
  | executeRebalancing =>
    simp only [executeDesk, executeRebalancing, Except.bind_eq_ok] at he
    obtain ⟨_, ⟨_, -, _, -, _, -, _, -, _, -, ⟨_, _⟩, -, s₁, hupdate, h₁⟩, he⟩ := he
    obtain rfl := Except.ok.inj h₁
    obtain ⟨-, rfl⟩ := Prod.mk.inj (Except.ok.inj he)
    obtain ⟨hsupply, hrequests, -, -⟩ := updateSnapshot_eq_ok hupdate
    exact ⟨hrequests.trans h.requests, hsupply.trans h.supply⟩
  | updateTargetAllocation allocation =>
    simp only [executeDesk, updateTargetAllocation, Except.bind_eq_ok] at he
    obtain ⟨_, ⟨_, -, h₁⟩, he⟩ := he
    obtain rfl := Except.ok.inj h₁
    obtain ⟨-, rfl⟩ := Prod.mk.inj (Except.ok.inj he)
    exact h
  | updateRedemptionConfig config =>
    obtain ⟨-, rfl⟩ := Prod.mk.inj (Except.ok.inj he)
    exact ⟨h.requests, h.supply⟩
  | requestRedemption requester amount =>
    obtain ⟨p, hrequest, -⟩ := Except.bind_eq_ok.mp he
    exact absurd hrequest (requestRedemption_ne_ok h.requests)
  | settle settlement =>
    obtain ⟨s₁, hsettle, -⟩ := Except.bind_eq_ok.mp he
    obtain ⟨_, _, _, _, hrequests, -⟩ := settle_eq_ok hsettle
    rw [h.requests] at hrequests
    cases hrequests
  | generateRegulatoryReport =>
    obtain ⟨⟨id, d₁⟩, hreport, he⟩ := Except.bind_eq_ok.mp he
    obtain ⟨-, rfl⟩ := Prod.mk.inj (Except.ok.inj he)
    obtain ⟨_, _, -, -, -, -, hportfolio, -⟩ := generateReport_eq_ok hreport
    rw [Desk.reserve, hportfolio]
    exact h

/-- **No report finds the supply unbacked.** The supply is known from settled redemptions alone, and
none is settled. So in every run from the deployment it is zero, and so it is in all reports. -/
theorem never_unbacked (h : deskContract.Run ⟨now, .empty⟩ w log) :
    w.store.reserve.totalSupply = 0 ∧ ∀ c ∈ log, (∀ settlement, c.call ≠ .settle settlement) ∧
      ∀ report, reportOf c = some report →
        report.totalSupply = 0 ∧ report.complianceStatus ≠ .nonCompliant := by
  have hstep : ∀ t k r (d d' : Desk), Unsupplied d.reserve →
      deskContract.exec t k d = .ok (r, d') → Unsupplied d'.reserve :=
    fun _ _ _ _ _ hs he => hs.step he
  have hend := h.invariant (I := fun d => Unsupplied d.reserve) hstep ⟨rfl, rfl⟩
  have hmem := h.invariant_of_mem (I := fun d => Unsupplied d.reserve) hstep ⟨rfl, rfl⟩
  refine ⟨hend.supply, fun c hc => ⟨fun settlement hcall => ?_, fun report hreport => ?_⟩⟩
  · have he := h.exec_of_mem c hc
    rw [hcall] at he
    obtain ⟨s₁, hsettle, -⟩ := Except.bind_eq_ok.mp he
    obtain ⟨_, _, _, _, hrequests, -⟩ := settle_eq_ok hsettle
    rw [(hmem c hc).1.requests] at hrequests
    cases hrequests
  · have hcall : c.call = .generateRegulatoryReport := by
      by_contra hne
      rw [reportOf, if_neg hne] at hreport
      cases hreport
    obtain ⟨past, rest, rfl⟩ := List.append_of_mem hc
    obtain ⟨report', written, later, hreport', -, hwrite, hsound, -⟩ :=
      reports_sound h rfl past c ⟨rest, by simp⟩ hcall
    obtain rfl := Option.some.inj (hreport.symm.trans hreport')
    -- the last write left the supply at zero
    obtain ⟨before, rfl⟩ := hwrite.split
    have hsupply := (hmem written (by simp)).2.supply
    have hzero := hsound.supply.trans hsupply
    refine ⟨hzero, fun hstatus => ?_⟩
    have hlt := hsound.nonCompliant_iff.mp hstatus
    omega

theorem never_unbacked_sample :
    (deskContract.play ⟨0, .empty⟩ ((0, .init ⟨5⟩) :: reportedCalls)).1.store.reserve.totalSupply =
        0 ∧
      ∀ c ∈ (deskContract.play ⟨0, .empty⟩ ((0, .init ⟨5⟩) :: reportedCalls)).2,
        (∀ settlement, c.call ≠ .settle settlement) ∧ ∀ report, reportOf c = some report →
          report.totalSupply = 0 ∧ report.complianceStatus ≠ .nonCompliant :=
  never_unbacked (Contract.run_play deskContract _ _ (by decide))

end Stellara.Reserve
