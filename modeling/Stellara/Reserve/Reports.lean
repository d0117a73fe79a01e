import Stellara.Lib.FloorSum
import Stellara.Reserve.Rebalancing

/-!
# Regulatory reports

The administrator has reports generated from the current snapshot of the reserves: the totals, the
share of every asset, and whether the supply is backed and the assets were verified lately. A report
is a monthly one when the last monthly one is 30 days old, else a daily one when the last daily one
is a day old, else an ad-hoc one. The last 365 reports are kept, with the times of the last monthly
and of the last daily one.

The Merkle root that a snapshot carries and a report copies is left out.

## Main definitions

* `RegulatoryReport`: a report, with its breakdown, its compliance and its verifications
* `Desk`: the reserves with the reports
* `generateReport`, `getReport`, `getReportsByType`, `getComplianceSummary`: the functions of the
  contract
* `deskContract`: the contract with its reserves, its rebalancing, its redemptions and its reports
* `Sound`: what a report says about reserves and a supply

## Main results

* `generateReport_eq_ok`, `getComplianceSummary_eq_ok`: what a report and a summary are made from
* `Exact.compliance`: what the status of an exact snapshot says
-/

namespace Stellara.Reserve

/-! ## Storage -/

inductive ReportType where
  | daily
  | monthly
  | quarterly
  | annual
  | adHoc
deriving DecidableEq, Repr

/-- A part of the reserves. The percentage is in basis points. -/
structure AssetBreakdown where
  assetType : AssetType
  amount : ℕ
  percentage : ℕ
  custodian : Address
  lastVerified : ℕ
deriving DecidableEq, Repr

inductive ComplianceStatus where
  | compliant
  | warning
  | nonCompliant
deriving DecidableEq, Repr

inductive VerificationStatus where
  | verified
  | pending
  | failed
deriving DecidableEq, Repr

structure CustodianVerification where
  custodian : Address
  verificationTime : ℕ
  verificationHash : List UInt8
  status : VerificationStatus
deriving DecidableEq, Repr

structure RegulatoryReport where
  timestamp : ℕ
  reportType : ReportType
  totalReserves : ℕ
  totalSupply : ℕ
  reserveRatio : ℕ
  assetBreakdown : List AssetBreakdown
  complianceStatus : ComplianceStatus
  custodianVerifications : List CustodianVerification
deriving DecidableEq, Repr

structure ComplianceSummary where
  currentRatio : ℕ
  status : ComplianceStatus
  daysSinceDailyReport : ℕ
  daysSinceMonthlyReport : ℕ
  totalReserves : ℕ
  totalSupply : ℕ
deriving DecidableEq, Repr

/-- A report was generated. -/
structure ReportEvent where
  reportId : Symbol
  reportType : ReportType
  complianceStatus : ComplianceStatus
deriving DecidableEq, Repr

/-- The reserves with the entries `report_history`, `last_daily` and `last_monthly`, and the events
of the reports. -/
structure Desk where
  portfolio : Portfolio
  reports : Option (List RegulatoryReport)
  lastDaily : Option ℕ
  lastMonthly : Option ℕ
  reportEvents : List ReportEvent

/-- The contract before `initialize`. -/
def Desk.empty : Desk := ⟨⟨.empty, none, none, none, none, []⟩, none, none, none, []⟩

/-- The tracked reserves. -/
abbrev Desk.reserve (d : Desk) : State := d.portfolio.reserve

/-! ## Reports -/

def getCurrentSnapshot (s : State) : Returns ReserveSnapshot :=
  orAbort (.error .invalidAsset) s.currentSnapshot

/-- The whole days since a stored time, or since 0. -/
def daysSince (now : ℕ) (last : Option ℕ) : Returns ℕ := do
  let age ← IntFormat.checkedSub .overflow now (last.getD 0)
  .ok (age / 86400)

def determineReportType (now : ℕ) (d : Desk) : Returns ReportType := do
  let daysSinceDaily ← daysSince now d.lastDaily
  let daysSinceMonthly ← daysSince now d.lastMonthly
  .ok (if 30 ≤ daysSinceMonthly then .monthly else if 1 ≤ daysSinceDaily then .daily else .adHoc)

/-- The part that an asset has in a total. -/
def breakdown (totalReserves : ℕ) (asset : ReserveAsset) : Returns AssetBreakdown := do
  let scaled ← IntFormat.u128.checkedNat .overflow (asset.amount * 10000)
  .ok ⟨asset.assetType, asset.amount, scaled / totalReserves, asset.custodian, asset.lastVerified⟩

def generateAssetBreakdown (assets : List ReserveAsset) : Returns (List AssetBreakdown) := do
  let totalReserves ← IntFormat.u128.checkedNat .overflow (totalAmount assets)
  if totalReserves = 0 then .ok [] else assets.mapM (breakdown totalReserves)

/-- The last verification is more than 24 hours old. -/
def isStale (now : ℕ) (asset : ReserveAsset) : Returns Bool := do
  let age ← IntFormat.checkedSub .overflow now asset.lastVerified
  .ok (decide (86400 < age))

def checkCompliance (now : ℕ) (snapshot : ReserveSnapshot) : Returns ComplianceStatus :=
  if snapshot.reserveRatio < 10000 then .ok .nonCompliant
  else do
    let stale ← snapshot.assets.anyM (isStale now)
    .ok (if stale then .warning else .compliant)

def custodianVerification (asset : ReserveAsset) : CustodianVerification :=
  ⟨asset.custodian, asset.lastVerified, asset.verificationHash, .verified⟩

def getCustodianVerifications (assets : List ReserveAsset) : List CustodianVerification :=
  assets.map custodianVerification

/-- Append a report, and keep the last 365. -/
def pushReport (report : RegulatoryReport) (reports : List RegulatoryReport) :
    List RegulatoryReport :=
  (reports ++ [report]).drop (reports.length + 1 - 365)

def storeReport (report : RegulatoryReport) (d : Desk) : Desk :=
  { d with reports := some (pushReport report (d.reports.getD [])) }

/-- Store the time of the last report of a type; only daily and monthly ones have one. -/
def setLastReport (now : ℕ) (reportType : ReportType) (d : Desk) : Desk :=
  match reportType with
  | .daily => { d with lastDaily := some now }
  | .monthly => { d with lastMonthly := some now }
  | _ => d

/-- The id of the reports of a time. -/
def reportId (timestamp : ℕ) : Symbol := "report_" ++ toString timestamp

def generateReport (now : ℕ) (d : Desk) : Returns (Symbol × Desk) := do
  let reportType ← determineReportType now d
  let snapshot ← getCurrentSnapshot d.reserve
  let assetBreakdown ← generateAssetBreakdown snapshot.assets
  let complianceStatus ← checkCompliance now snapshot
  let report : RegulatoryReport := ⟨now, reportType, snapshot.totalReserves, snapshot.totalSupply,
    snapshot.reserveRatio, assetBreakdown, complianceStatus,
    getCustodianVerifications snapshot.assets⟩
  let d := setLastReport now reportType (storeReport report d)
  .ok (reportId now, { d with
    reportEvents := d.reportEvents ++ [⟨reportId now, reportType, complianceStatus⟩] })

/-- The first stored report with an id. -/
def getReport (id : Symbol) (d : Desk) : Returns RegulatoryReport := do
  let reports ← orAbort (.error .reportingError) d.reports
  orAbort (.error .reportingError) (reports.find? fun report => reportId report.timestamp = id)

def getReportsByType (reportType : ReportType) (d : Desk) : Returns (List RegulatoryReport) := do
  let reports ← orAbort (.error .reportingError) d.reports
  .ok (reports.filter fun report => report.reportType = reportType)

def getComplianceSummary (now : ℕ) (d : Desk) : Returns ComplianceSummary := do
  let snapshot ← getCurrentSnapshot d.reserve
  let status ← checkCompliance now snapshot
  let daysSinceDaily ← daysSince now d.lastDaily
  let daysSinceMonthly ← daysSince now d.lastMonthly
  .ok ⟨snapshot.reserveRatio, status, daysSinceDaily, daysSinceMonthly, snapshot.totalReserves,
    snapshot.totalSupply⟩

/-! ## The contract -/

inductive DeskCall where
  | init (stablecoin : Address)
  | addReserveAsset (assetType : AssetType) (amount : ℕ) (custodian : Address)
      (verificationHash : List UInt8)
  | updateReserveAsset (assetIndex newAmount : ℕ) (verificationHash : List UInt8)
  | executeRebalancing
  | updateTargetAllocation (allocation : TargetAllocation)
  | updateRedemptionConfig (config : RedemptionConfig)
  | requestRedemption (requester : Address) (amount : ℕ)
  | settle (settlement : Settlement)
  | generateRegulatoryReport
deriving DecidableEq, Repr

/-- A call on the tracked reserves alone. -/
def onReserve (d : Desk) (s : State) : Desk :=
  { d with portfolio := { d.portfolio with reserve := s } }

/-- Execute a call. What it returns is the id of a report, or is left out. -/
def executeDesk (now : ℕ) (d : Desk) : DeskCall → Returns (Option Symbol × Desk)
  | .init stablecoin =>
    .ok (none, { d with
      portfolio := initRebalancing 500 { d.portfolio with
        reserve := init now stablecoin d.reserve } })
  | .addReserveAsset assetType amount custodian verificationHash => do
    .ok (none, onReserve d (← addAsset now assetType amount custodian verificationHash d.reserve))
  | .updateReserveAsset assetIndex newAmount verificationHash => do
    .ok (none, onReserve d (← updateAsset now assetIndex newAmount verificationHash d.reserve))
  | .executeRebalancing => do
    .ok (none, { d with portfolio := ← executeRebalancing now d.portfolio })
  | .updateTargetAllocation allocation => do
    .ok (none, { d with portfolio := ← updateTargetAllocation allocation d.portfolio })
  | .updateRedemptionConfig config =>
    .ok (none, onReserve d (updateRedemptionConfig config d.reserve))
  | .requestRedemption requester amount => do
    let (_, s) ← requestRedemption now requester amount d.reserve
    .ok (none, onReserve d s)
  | .settle settlement => do .ok (none, onReserve d (← settle now d.reserve settlement))
  | .generateRegulatoryReport => do
    let (id, d) ← generateReport now d
    .ok (some id, d)

/-- The contract with its reserves, its rebalancing, its redemptions and its reports. -/
def deskContract : Contract Desk DeskCall (Option Symbol) (Fault ReserveError) where
  exec now call d := executeDesk now d call

/-! ## What a report says -/

/-- What a report says about reserves and a supply at a time. -/
structure Sound (now : ℕ) (assets : List ReserveAsset) (totalSupply : ℕ) (r : RegulatoryReport) :
    Prop where
  timestamp : r.timestamp = now
  reserves : r.totalReserves = totalAmount assets
  supply : r.totalSupply = totalSupply
  amounts : (r.assetBreakdown.map AssetBreakdown.amount).sum = r.totalReserves
  percentages : r.totalReserves ≠ 0 →
    (r.assetBreakdown.map AssetBreakdown.percentage).sum ≤ 10000 ∧
      10000 < (r.assetBreakdown.map AssetBreakdown.percentage).sum + assets.length
  verifications : r.custodianVerifications = assets.map custodianVerification
  nonCompliant_iff : r.complianceStatus = .nonCompliant ↔ r.totalReserves < r.totalSupply
  warning_iff : r.complianceStatus = .warning ↔
    r.totalSupply ≤ r.totalReserves ∧ ∃ asset ∈ assets, asset.lastVerified + 86400 < now

/-- The totals and the ratio of a snapshot are those of its assets. -/
structure Exact (snapshot : ReserveSnapshot) : Prop where
  reserves : snapshot.totalReserves = totalAmount snapshot.assets
  ratio : snapshot.reserveRatio = if 0 < snapshot.totalSupply then
    snapshot.totalReserves * 10000 / snapshot.totalSupply else 10000

variable {now : ℕ} {s s' : State} {d d' : Desk} {assets : List ReserveAsset} {id : Symbol}

/-- A snapshot is one of the assets and the supply, and is exact. -/
theorem updateSnapshot_exact (h : updateSnapshot now s = .ok s') :
    ∃ snapshot, s'.currentSnapshot = some snapshot ∧ snapshot.assets = s.assets.getD [] ∧
      snapshot.totalSupply = s.totalSupply ∧ Exact snapshot := by
  simp only [updateSnapshot, Except.bind_eq_ok, IntFormat.checkedNat_eq_ok] at h
  obtain ⟨_, ⟨-, rfl⟩, ratio, hratio, h⟩ := h
  refine ⟨⟨now, totalAmount (s.assets.getD []), s.totalSupply, ratio, s.assets.getD []⟩, ?_, rfl, rfl,
    rfl, ?_⟩
  · rw [← Except.ok.inj h]
    split <;> rfl
  · unfold reserveRatio at hratio
    split at hratio
    · rename_i hpos
      simp only [Except.bind_eq_ok, IntFormat.checkedNat_eq_ok] at hratio
      obtain ⟨_, ⟨-, rfl⟩, hratio⟩ := hratio
      rw [if_pos hpos, ← Except.ok.inj hratio]
      rfl
    · rename_i hzero
      rw [if_neg hzero, ← Except.ok.inj hratio]

/-- An exact ratio is below 100% when the reserves do not cover the supply. -/
theorem Exact.ratio_lt_iff {snapshot : ReserveSnapshot} (h : Exact snapshot) :
    snapshot.reserveRatio < 10000 ↔ snapshot.totalReserves < snapshot.totalSupply := by
  rw [h.ratio]
  split
  · rename_i hpos
    rw [Nat.div_lt_iff_lt_mul hpos]
    omega
  · omega

theorem checkCompliance_eq_ok {snapshot : ReserveSnapshot} {status : ComplianceStatus}
    (h : checkCompliance now snapshot = .ok status) :
    (status = .nonCompliant ↔ snapshot.reserveRatio < 10000) ∧
      (status = .warning ↔ 10000 ≤ snapshot.reserveRatio ∧
        ∃ asset ∈ snapshot.assets, asset.lastVerified + 86400 < now) := by
  unfold checkCompliance at h
  split at h
  · rename_i hlt
    obtain rfl := Except.ok.inj h
    simp [hlt]
  · rename_i hge
    obtain ⟨stale, hany, h⟩ := Except.bind_eq_ok.mp h
    obtain rfl := Except.ok.inj h
    have hstale : stale = true ↔ ∃ asset ∈ snapshot.assets, asset.lastVerified + 86400 < now := by
      cases stale with
      | true =>
        obtain ⟨_, asset, _, hassets, htrue, -⟩ := Except.anyM_eq_ok_true.mp hany
        simp only [isStale, Except.bind_eq_ok, IntFormat.checkedSub_eq_ok] at htrue
        obtain ⟨_, ⟨hle, rfl⟩, htrue⟩ := htrue
        have hage := of_decide_eq_true (Except.ok.inj htrue)
        exact ⟨fun _ => ⟨asset, by simp [hassets], by omega⟩, fun _ => rfl⟩
      | false =>
        refine ⟨(absurd · Bool.false_ne_true), ?_⟩
        rintro ⟨asset, hmem, hold⟩
        have hfalse := Except.anyM_eq_ok_false.mp hany asset hmem
        simp only [isStale, Except.bind_eq_ok, IntFormat.checkedSub_eq_ok] at hfalse
        obtain ⟨_, ⟨hle, rfl⟩, hfalse⟩ := hfalse
        have hage := of_decide_eq_false (Except.ok.inj hfalse)
        omega
    rw [← hstale]
    cases stale with
    | true => simpa using Nat.not_lt.mp hge
    | false => simpa using Nat.not_lt.mp hge

/-- The status of an exact snapshot tells whether the reserves cover the supply. -/
theorem Exact.compliance {snapshot : ReserveSnapshot} {status : ComplianceStatus}
    (h : Exact snapshot) (hstatus : checkCompliance now snapshot = .ok status) :
    (status = .nonCompliant ↔ snapshot.totalReserves < snapshot.totalSupply) ∧
      (status = .warning ↔ snapshot.totalSupply ≤ snapshot.totalReserves ∧
        ∃ asset ∈ snapshot.assets, asset.lastVerified + 86400 < now) := by
  obtain ⟨hnonCompliant, hwarning⟩ := checkCompliance_eq_ok hstatus
  refine ⟨hnonCompliant.trans h.ratio_lt_iff, ?_⟩
  rw [hwarning, ← Nat.not_lt, h.ratio_lt_iff, Nat.not_lt]

/-- The amounts of the parts are those of the assets, and their percentages are rounded down. -/
theorem breakdown_sums {totalReserves : ℕ} {parts : List AssetBreakdown}
    (h : assets.mapM (breakdown totalReserves) = .ok parts) :
    (parts.map AssetBreakdown.amount).sum = totalAmount assets ∧
      Floored totalReserves ((totalAmount assets * 10000 : ℕ) : ℤ) assets.length
        ((parts.map AssetBreakdown.percentage).sum : ℕ) := by
  induction assets generalizing parts with
  | nil =>
    obtain rfl := Except.ok.inj h
    exact ⟨rfl, Floored.nil⟩
  | cons asset assets ih =>
    simp only [List.mapM_cons, Except.bind_eq_ok, Except.pure_eq_ok, breakdown,
      IntFormat.checkedNat_eq_ok] at h
    obtain ⟨part, ⟨_, ⟨-, rfl⟩, hpart⟩, rest, hrest, h⟩ := h
    obtain rfl := Except.ok.inj h
    obtain rfl := Except.ok.inj hpart
    obtain ⟨hamounts, hfloor⟩ := ih hrest
    constructor
    · rw [List.map_cons, List.sum_cons, hamounts]
      rfl
    · have htotal : ((totalAmount (asset :: assets) * 10000 : ℕ) : ℤ) =
          ((totalAmount assets * 10000 : ℕ) : ℤ) + ((asset.amount * 10000 : ℕ) : ℤ) := by
        simp only [totalAmount, List.map_cons, List.sum_cons]
        omega
      rw [htotal, List.length_cons, List.map_cons, List.sum_cons, Nat.cast_add, Int.natCast_ediv,
        add_comm (_ / _)]
      exact hfloor.add _

theorem generateAssetBreakdown_eq_ok {parts : List AssetBreakdown}
    (h : generateAssetBreakdown assets = .ok parts) :
    (parts.map AssetBreakdown.amount).sum = totalAmount assets ∧
      (totalAmount assets ≠ 0 → (parts.map AssetBreakdown.percentage).sum ≤ 10000 ∧
        10000 < (parts.map AssetBreakdown.percentage).sum + assets.length) := by
  simp only [generateAssetBreakdown, Except.bind_eq_ok, IntFormat.checkedNat_eq_ok] at h
  obtain ⟨_, ⟨-, rfl⟩, h⟩ := h
  split at h
  · rename_i hzero
    obtain rfl := Except.ok.inj h
    exact ⟨hzero.symm, fun hne => absurd hzero hne⟩
  · rename_i hne
    obtain ⟨hamounts, hfloor⟩ := breakdown_sums h
    refine ⟨hamounts, fun _ => ?_⟩
    have hpos : (0 : ℤ) < totalAmount assets := by omega
    have hlength : 0 < assets.length := by
      rw [List.length_pos_iff]
      rintro rfl
      exact hne rfl
    have hdiv : ((totalAmount assets * 10000 : ℕ) : ℤ) / (totalAmount assets : ℤ) = 10000 := by
      push_cast
      exact Int.mul_ediv_cancel_left _ hpos.ne'
    have hle := hfloor.le hpos
    have hlt := hfloor.lt hpos hlength
    rw [hdiv] at hle hlt
    omega

/-- A report is generated from the current snapshot, stored behind those before, and its time is
stored when it is a monthly or a daily one. -/
theorem generateReport_eq_ok (h : generateReport now d = .ok (id, d')) :
    ∃ snapshot report, d.reserve.currentSnapshot = some snapshot ∧ id = reportId now ∧
      (Exact snapshot → Sound now snapshot.assets snapshot.totalSupply report) ∧
      d'.reports = some (pushReport report (d.reports.getD [])) ∧ d'.portfolio = d.portfolio ∧
      determineReportType now d = .ok report.reportType ∧
      d'.lastDaily = (if report.reportType = .daily then some now else d.lastDaily) ∧
      d'.lastMonthly = if report.reportType = .monthly then some now else d.lastMonthly := by
  simp only [generateReport, getCurrentSnapshot, Except.bind_eq_ok, orAbort_eq_ok] at h
  obtain ⟨reportType, htype, snapshot, hsnapshot, parts, hparts, status, hstatus, h⟩ := h
  obtain ⟨rfl, rfl⟩ := Prod.mk.inj (Except.ok.inj h)
  obtain ⟨hamounts, hpercentages⟩ := generateAssetBreakdown_eq_ok hparts
  refine ⟨snapshot, ⟨now, reportType, snapshot.totalReserves, snapshot.totalSupply,
    snapshot.reserveRatio, parts, status, getCustodianVerifications snapshot.assets⟩, hsnapshot, rfl,
    fun hexact => ?_, ?_, ?_, htype, ?_, ?_⟩
  · obtain ⟨hnonCompliant, hwarning⟩ := hexact.compliance hstatus
    exact ⟨rfl, hexact.reserves, rfl, hamounts.trans hexact.reserves.symm, fun hne =>
      hpercentages (hexact.reserves ▸ hne), rfl, hnonCompliant, hwarning⟩
  all_goals cases reportType <;> rfl

theorem daysSince_eq_ok {last : Option ℕ} {days : ℕ} (h : daysSince now last = .ok days) :
    last.getD 0 ≤ now ∧ days = (now - last.getD 0) / 86400 := by
  simp only [daysSince, Except.bind_eq_ok, IntFormat.checkedSub_eq_ok] at h
  obtain ⟨_, ⟨hle, rfl⟩, h⟩ := h
  exact ⟨hle, (Except.ok.inj h).symm⟩

/-- A summary is made of the current snapshot and of the stored times. -/
theorem getComplianceSummary_eq_ok {summary : ComplianceSummary}
    (h : getComplianceSummary now d = .ok summary) :
    ∃ snapshot, d.reserve.currentSnapshot = some snapshot ∧
      checkCompliance now snapshot = .ok summary.status ∧
      summary.currentRatio = snapshot.reserveRatio ∧
      summary.totalReserves = snapshot.totalReserves ∧ summary.totalSupply = snapshot.totalSupply ∧
      summary.daysSinceDailyReport = (now - d.lastDaily.getD 0) / 86400 ∧
      summary.daysSinceMonthlyReport = (now - d.lastMonthly.getD 0) / 86400 := by
  simp only [getComplianceSummary, getCurrentSnapshot, Except.bind_eq_ok, orAbort_eq_ok] at h
  obtain ⟨snapshot, hsnapshot, status, hstatus, daily, hdaily, monthly, hmonthly, h⟩ := h
  obtain rfl := Except.ok.inj h
  exact ⟨snapshot, hsnapshot, hstatus, rfl, rfl, rfl, (daysSince_eq_ok hdaily).2,
    (daysSince_eq_ok hmonthly).2⟩

end Stellara.Reserve
