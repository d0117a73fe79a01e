import Stellara.Lib.Groups
import Stellara.Reserve.Redemption

/-!
# Rebalancing

The reserves are held in assets of several types, and each type has a target, its share of the total
in basis points. When the share of a type deviates from its target by more than a threshold, anybody
can rebalance: the amount of each type is set to its target. No trade is modelled, as in the source.

The administrator is the caller where the source asks for that role. Numbers that the source stores
are exact, and its 128-bit operations are checked.

## Main definitions

* `TargetAllocation`, `RebalancingOperation`, `Portfolio`: the storage of the rebalancing
* `checkRebalancingNeeded`, `executeRebalancing`: the check and the rebalancing
* `updateTargetAllocation`: a new target of a type
* `Placeable`: a target can be reached by writing the first asset of its type

## Main results

* `adjust_eq_ok`, `foldlM_adjust`: what one target, and all of them, leave of the assets
* `executeRebalancing_eq_ok`: what a rebalancing that returns has checked and written
-/

namespace Stellara.Reserve

/-! ## Storage -/

/-- The target of a type of assets, with its bounds, in basis points. -/
structure TargetAllocation where
  assetType : AssetType
  targetPercentage : ℕ
  minPercentage : ℕ
  maxPercentage : ℕ
deriving DecidableEq, Repr

structure RebalancingOperation where
  timestamp : ℕ
  assetType : AssetType
  oldAmount : ℕ
  newAmount : ℕ
  reason : Symbol
deriving DecidableEq, Repr

inductive RebalancingEvent where
  | executed (timestamp operations : ℕ)
  | allocationUpdated (assetType : AssetType) (targetPercentage : ℕ)
deriving DecidableEq, Repr

/-- The tracked reserves, with the entries `rebal_threshold`, `target_alloc`, `last_rebal` and
`rebal_history`, and the events of the rebalancing. -/
structure Portfolio where
  reserve : State
  threshold : Option ℕ
  targetAllocations : Option (List TargetAllocation)
  lastRebalancing : Option ℕ
  history : Option (List RebalancingOperation)
  events : List RebalancingEvent

def defaultAllocations : List TargetAllocation :=
  [⟨.usd, 4000, 3500, 4500⟩, ⟨.treasury, 3000, 2500, 3500⟩, ⟨.repo, 2000, 1500, 2500⟩,
    ⟨.corporateBond, 1000, 500, 1500⟩]

/-- `rebalancing::initialize`. -/
def initRebalancing (threshold : ℕ) (p : Portfolio) : Portfolio :=
  { p with
    threshold := some threshold
    targetAllocations := some defaultAllocations
    lastRebalancing := some 0
    history := some [] }

/-! ## Amounts of a type -/

/-- The amount of all assets of a type. -/
def amountOfType (assetType : AssetType) (assets : List ReserveAsset) : ℕ :=
  ((groupOf ReserveAsset.assetType assetType assets).map ReserveAsset.amount).sum

def getAssetAmountByType (assets : List ReserveAsset) (assetType : AssetType) : Returns ℕ :=
  IntFormat.u128.checkedNat .overflow (amountOfType assetType assets)

/-- Write an amount to the first asset of a type. -/
def updateAssetAmountByType (assetType : AssetType) (newAmount : ℕ) (assets : List ReserveAsset) :
    Returns (List ReserveAsset) :=
  updateFirst (fun asset => asset.assetType = assetType)
    (fun asset => .ok { asset with amount := newAmount }) assets

/-- The sum of the amounts of a list of assets. -/
def totalAmount (assets : List ReserveAsset) : ℕ := (assets.map ReserveAsset.amount).sum

/-! ## The check -/

/-- The deviation of a percentage from its target. -/
def deviation (current target : ℕ) : ℕ :=
  if target < current then current - target else target - current

/-- The share of a type deviates from its target by more than the threshold. -/
def exceeds (assets : List ReserveAsset) (totalReserves threshold : ℕ) (target : TargetAllocation) :
    Returns Bool := do
  let currentAmount ← getAssetAmountByType assets target.assetType
  let scaled ← IntFormat.u128.checkedNat .overflow (currentAmount * 10000)
  .ok (decide (threshold < deviation (scaled / totalReserves) target.targetPercentage))

def readThreshold (p : Portfolio) : ℕ := p.threshold.getD 500

def readTargets (p : Portfolio) : List TargetAllocation := p.targetAllocations.getD []

def checkRebalancingNeeded (p : Portfolio) : Returns Bool := do
  let assets ← orAbort (.error .invalidAsset) p.reserve.assets
  let totalReserves ← IntFormat.u128.checkedNat .overflow (totalAmount assets)
  if totalReserves = 0 then .ok false
  else (readTargets p).anyM (exceeds assets totalReserves (readThreshold p))

/-! ## The rebalancing -/

/-- The share of a target in a total. -/
def targetAmount (totalReserves : ℕ) (target : TargetAllocation) : ℕ :=
  totalReserves * target.targetPercentage / 10000

/-- Adjust the amount of one type, and record the operation. -/
def adjust (now totalReserves : ℕ) (adjusted : List ReserveAsset × List RebalancingOperation)
    (target : TargetAllocation) : Returns (List ReserveAsset × List RebalancingOperation) := do
  let (assets, operations) := adjusted
  let currentAmount ← getAssetAmountByType assets target.assetType
  -- the current percentage is not used, but it is computed
  let _ ← IntFormat.u128.checkedNat .overflow (currentAmount * 10000)
  let _ ← IntFormat.u128.checkedNat .overflow (totalReserves * target.targetPercentage)
  let newAmount := targetAmount totalReserves target
  if currentAmount ≠ newAmount then do
    let assets ← updateAssetAmountByType target.assetType newAmount assets
    .ok (assets, operations ++ [⟨now, target.assetType, currentAmount, newAmount, "rebalancing"⟩])
  else .ok (assets, operations)

/-- Append operations, and keep the last 100. -/
def pushOperations (operations history : List RebalancingOperation) : List RebalancingOperation :=
  (history ++ operations).drop ((history ++ operations).length - 100)

def executeRebalancing (now : ℕ) (p : Portfolio) : Returns Portfolio := do
  let needed ← checkRebalancingNeeded p
  require (needed = true) (.error .rebalancingRequired)
  let assets ← orAbort (.error .invalidAsset) p.reserve.assets
  let totalReserves ← IntFormat.u128.checkedNat .overflow (totalAmount assets)
  require (totalReserves ≠ 0) (.error .insufficientReserves)
  let (assets, operations) ← (readTargets p).foldlM (adjust now totalReserves) (assets, [])
  let reserve ← updateSnapshot now { p.reserve with assets := some assets }
  .ok { p with
    reserve := reserve
    history := some (pushOperations operations (p.history.getD []))
    lastRebalancing := some now
    events := p.events ++ [.executed now operations.length] }

/-! ## Targets -/

/-- Write the target of a type over the first one of that type, or append it. -/
def writeAllocation (allocation : TargetAllocation) (allocations : List TargetAllocation) :
    Returns (List TargetAllocation) :=
  if ∃ a ∈ allocations, a.assetType = allocation.assetType then
    updateFirst (fun a => a.assetType = allocation.assetType) (fun _ => .ok allocation) allocations
  else .ok (allocations ++ [allocation])

def updateTargetAllocation (allocation : TargetAllocation) (p : Portfolio) : Returns Portfolio := do
  let allocations ← writeAllocation allocation (readTargets p)
  .ok { p with
    targetAllocations := some allocations
    events := p.events ++ [.allocationUpdated allocation.assetType allocation.targetPercentage] }

/-! ## What the calls write -/

variable {now totalReserves : ℕ} {target : TargetAllocation}
  {assets assets' : List ReserveAsset} {operations operations' : List RebalancingOperation}

/-- The amount of the target is the one of its type already, or the type has a first asset and
nothing in the further ones. -/
def Placeable (totalReserves : ℕ) (assets : List ReserveAsset) (target : TargetAllocation) : Prop :=
  amountOfType target.assetType assets = targetAmount totalReserves target ∨
    ∃ asset rest, groupOf ReserveAsset.assetType target.assetType assets = asset :: rest ∧
      totalAmount rest = 0

/-- Writing an amount to a type keeps the types. -/
theorem updateAssetAmountByType_types {assetType : AssetType} {newAmount : ℕ}
    (h : updateAssetAmountByType assetType newAmount assets = .ok assets') :
    assets'.map ReserveAsset.assetType = assets.map ReserveAsset.assetType :=
  map_of_updateFirst h fun _ _ _ hb => by rw [← Except.ok.inj hb]

/-- An adjusted target leaves the other types, and its own has the amount of the target exactly when
it was placeable. -/
theorem adjust_eq_ok
    (h : adjust now totalReserves (assets, operations) target = .ok (assets', operations')) :
    ((totalReserves * target.targetPercentage : ℕ) : ℤ) ≤ IntFormat.u128.hi ∧
      assets'.map ReserveAsset.assetType = assets.map ReserveAsset.assetType ∧
      (∀ assetType, assetType ≠ target.assetType →
        groupOf ReserveAsset.assetType assetType assets' =
          groupOf ReserveAsset.assetType assetType assets) ∧
      (amountOfType target.assetType assets' = targetAmount totalReserves target ↔
        Placeable totalReserves assets target) := by
  simp only [adjust, getAssetAmountByType, Except.bind_eq_ok, IntFormat.checkedNat_eq_ok] at h
  obtain ⟨current, ⟨-, rfl⟩, _, -, _, ⟨hscaled, -⟩, h⟩ := h
  refine ⟨hscaled, ?_⟩
  split at h
  · rename_i hne
    obtain ⟨written, hupdate, h⟩ := Except.bind_eq_ok.mp h
    obtain ⟨rfl, -⟩ := Prod.mk.inj (Except.ok.inj h)
    have hkeep : ∀ a b : ReserveAsset, a.assetType = target.assetType →
        (Except.ok { a with amount := targetAmount totalReserves target } : Returns _) = .ok b →
        b.assetType = a.assetType := fun a b _ hb => by rw [← Except.ok.inj hb]
    refine ⟨updateAssetAmountByType_types hupdate,
      fun assetType => groupOf_of_updateFirst_ne hupdate hkeep, ?_⟩
    rcases groupOf_of_updateFirst hupdate hkeep with ⟨hnil, rfl⟩ | ⟨a, b, rest, hold, hb, hnew⟩
    · -- no asset of the type: nothing is written
      simp [Placeable, hne, hnil]
    · -- the type holds the target and what its further assets hold
      rw [Placeable, or_iff_right hne, amountOfType, hnew, hold, ← Except.ok.inj hb]
      simp [totalAmount]
  · rename_i heq
    obtain ⟨rfl, -⟩ := Prod.mk.inj (Except.ok.inj h)
    rw [not_not] at heq
    exact ⟨rfl, fun _ _ => rfl, by simp [Placeable, heq]⟩

/-- The same for all targets, when their types are distinct. -/
theorem foldlM_adjust {targets : List TargetAllocation}
    (hnodup : (targets.map TargetAllocation.assetType).Nodup)
    (h : targets.foldlM (adjust now totalReserves) (assets, operations) =
      .ok (assets', operations')) :
    assets'.map ReserveAsset.assetType = assets.map ReserveAsset.assetType ∧
      (∀ assetType ∉ targets.map TargetAllocation.assetType,
        groupOf ReserveAsset.assetType assetType assets' =
          groupOf ReserveAsset.assetType assetType assets) ∧
      ∀ target ∈ targets,
        ((totalReserves * target.targetPercentage : ℕ) : ℤ) ≤ IntFormat.u128.hi ∧
        (amountOfType target.assetType assets' = targetAmount totalReserves target ↔
          Placeable totalReserves assets target) := by
  induction targets generalizing assets operations with
  | nil =>
    obtain ⟨rfl, -⟩ := Prod.mk.inj (Except.ok.inj h)
    exact ⟨rfl, fun _ _ => rfl, by simp⟩
  | cons target targets ih =>
    rw [List.foldlM_cons, Except.bind_eq_ok] at h
    obtain ⟨⟨mid, _⟩, hadjust, hrest⟩ := h
    rw [List.map_cons, List.nodup_cons] at hnodup
    obtain ⟨hscaled, htypes, hother, hown⟩ := adjust_eq_ok hadjust
    obtain ⟨htypes', hother', hrest'⟩ := ih hnodup.2 hrest
    refine ⟨htypes'.trans htypes, fun assetType hnot => ?_,
      List.forall_mem_cons.mpr ⟨⟨hscaled, ?_⟩, fun t ht => ⟨(hrest' t ht).1, ?_⟩⟩⟩
    · rw [List.map_cons, List.mem_cons, not_or] at hnot
      rw [hother' assetType hnot.2, hother assetType hnot.1]
    · -- the targets behind leave the type of this one
      rw [← hown, amountOfType, hother' _ hnodup.1, ← amountOfType]
    · -- and this one leaves the types of the targets behind
      have hne : t.assetType ≠ target.assetType := fun heq =>
        hnodup.1 (heq ▸ List.mem_map_of_mem ht)
      rw [(hrest' t ht).2, Placeable, amountOfType, hother _ hne, ← amountOfType, ← Placeable]

/-- A rebalancing that returns was needed, and it stores the adjusted assets. -/
theorem executeRebalancing_eq_ok {p p' : Portfolio} (h : executeRebalancing now p = .ok p') :
    ∃ assets assets' operations, p.reserve.assets = some assets ∧
      p'.reserve.assets = some assets' ∧ p'.threshold = p.threshold ∧
      p'.targetAllocations = p.targetAllocations ∧
      ((totalAmount assets : ℕ) : ℤ) ≤ IntFormat.u128.hi ∧ totalAmount assets ≠ 0 ∧
      (readTargets p).foldlM (adjust now (totalAmount assets)) (assets, []) =
        .ok (assets', operations) := by
  simp only [executeRebalancing, Except.bind_eq_ok, orAbort_eq_ok, require_eq_ok, exists_const,
    IntFormat.checkedNat_eq_ok] at h
  obtain ⟨needed, -, -, assets, hassets, _, ⟨htotal, rfl⟩, hne, ⟨assets', operations⟩, hloop, reserve,
    hsnapshot, h⟩ := h
  obtain rfl := Except.ok.inj h
  exact ⟨assets, assets', operations, hassets, (updateSnapshot_eq_ok hsnapshot).2.2.2, rfl, rfl,
    htotal, hne, hloop⟩

end Stellara.Reserve
