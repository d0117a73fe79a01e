import Mathlib.Data.Fintype.Card
import Mathlib.Tactic.Ring
import Stellara.Lib.FloorSum
import Stellara.Reserve.Rebalancing

/-!
# Reaching the targets

A rebalancing writes the amount of a target to the first asset of its type. Assets of the same type
behind it keep their amounts, and a type without an asset gets nothing, so the reserves grow or
shrink unless every target is placeable. The amounts are rounded down, and the shares of a small
total are then far from their targets.

## Main definitions

* `Rebalanced`: the reserves are kept up to rounding, and every target is reached
* `Within`: the rounded amounts of the targets are shares within the threshold

## Main results

* `sumTargets_bounds`: what rounding the targets loses
* `checkRebalancingNeeded_iff`: when no rebalancing is needed after the targets are reached
* `within_of_le`: the shares of a large total are within any threshold
* `rebalancing_iff`: when a rebalancing reaches its targets
-/

namespace Stellara.Reserve

variable {totalReserves threshold now : ℕ} {targets : List TargetAllocation}
  {assets : List ReserveAsset} {p p' : Portfolio}

/-! ## Rounding -/

/-- The sum of the amounts of the targets. -/
def sumTargets (totalReserves : ℕ) (targets : List TargetAllocation) : ℕ :=
  (targets.map (targetAmount totalReserves)).sum

/-- The amounts of the targets are the whole units of their parts of the total. -/
theorem floored_sumTargets (totalReserves : ℕ) (targets : List TargetAllocation) :
    Floored 10000 ((totalReserves * (targets.map TargetAllocation.targetPercentage).sum : ℕ) : ℤ)
      targets.length (sumTargets totalReserves targets : ℤ) := by
  induction targets with
  | nil => exact Floored.nil
  | cons target targets ih =>
    have htotal : totalReserves * ((target :: targets).map TargetAllocation.targetPercentage).sum =
        totalReserves * (targets.map TargetAllocation.targetPercentage).sum +
          totalReserves * target.targetPercentage := by
      rw [List.map_cons, List.sum_cons, mul_add, add_comm]
    have hpaid : sumTargets totalReserves (target :: targets) =
        sumTargets totalReserves targets + totalReserves * target.targetPercentage / 10000 := by
      rw [sumTargets, List.map_cons, List.sum_cons, add_comm]
      rfl
    rw [htotal, hpaid, List.length_cons, Nat.cast_add, Nat.cast_add,
      Int.natCast_ediv]
    exact ih.add _

/-- Rounding loses less than one unit a target. -/
theorem sumTargets_bounds (totalReserves : ℕ)
    (hsum : (targets.map TargetAllocation.targetPercentage).sum = 10000) :
    sumTargets totalReserves targets ≤ totalReserves ∧
      totalReserves < sumTargets totalReserves targets + targets.length := by
  have hfloor := floored_sumTargets totalReserves targets
  have hdiv : ((totalReserves * 10000 : ℕ) : ℤ) / 10000 = totalReserves := by
    push_cast
    exact Int.mul_ediv_cancel _ (by decide)
  have hlength : 0 < targets.length := by
    rw [List.length_pos_iff]
    rintro rfl
    cases hsum
  rw [hsum] at hfloor
  have hle := hfloor.le (by decide)
  have hlt := hfloor.lt (by decide) hlength
  rw [hdiv] at hle hlt
  omega

/-- The rounded amounts, as shares of their sum, are within the threshold of their targets. -/
def Within (totalReserves threshold : ℕ) (targets : List TargetAllocation) : Prop :=
  sumTargets totalReserves targets = 0 ∨ ∀ target ∈ targets,
    deviation (targetAmount totalReserves target * 10000 / sumTargets totalReserves targets)
      target.targetPercentage ≤ threshold

instance : Decidable (Within totalReserves threshold targets) := inferInstanceAs (Decidable (_ ∨ _))

instance : Fintype AssetType where
  elems := {.usd, .treasury, .repo, .corporateBond, .etf}
  complete assetType := by cases assetType <;> decide

/-- A share whose amount loses less than one unit, of a sum that loses less than five, deviates by
at most one basis point when the sum is above twice the whole. -/
theorem deviation_le_one {total sum percentage : ℕ} (hle : sum ≤ total) (hlt : total < sum + 5)
    (hlarge : 20005 ≤ total) (hpercentage : percentage ≤ 10000) :
    deviation (total * percentage / 10000 * 10000 / sum) percentage ≤ 1 := by
  have hfloor : total * percentage / 10000 * 10000 ≤ total * percentage := Nat.div_mul_le_self _ _
  have hceil : total * percentage < total * percentage / 10000 * 10000 + 10000 := by omega
  have hsum : 0 < sum := by omega
  have hupper : total * percentage / 10000 * 10000 / sum ≤ percentage + 1 := by
    rw [← Nat.lt_succ_iff, Nat.div_lt_iff_lt_mul hsum]
    calc total * percentage / 10000 * 10000
        ≤ total * percentage := hfloor
      _ ≤ (sum + 4) * percentage := Nat.mul_le_mul_right _ (by omega)
      _ = percentage * sum + 4 * percentage := by ring
      _ < percentage * sum + 2 * sum := by omega
      _ = (percentage + 1 + 1) * sum := by ring
  have hlower : percentage ≤ total * percentage / 10000 * 10000 / sum + 1 := by
    rw [← Nat.sub_le_iff_le_add, Nat.le_div_iff_mul_le hsum]
    calc (percentage - 1) * sum
        ≤ (percentage - 1) * total := Nat.mul_le_mul_left _ hle
      _ = total * percentage - total := by rw [Nat.sub_mul, one_mul, mul_comm]
      _ ≤ total * percentage / 10000 * 10000 := by omega
  unfold deviation
  split <;> omega

/-- The shares of a large total are within any threshold. -/
theorem within_of_le (hnodup : (targets.map TargetAllocation.assetType).Nodup)
    (hsum : (targets.map TargetAllocation.targetPercentage).sum = 10000) (hthreshold : 1 ≤ threshold)
    (hlarge : 20005 ≤ totalReserves) : Within totalReserves threshold targets := by
  obtain ⟨hle, hlt⟩ := sumTargets_bounds totalReserves hsum
  have hlength : targets.length ≤ 5 := by
    have h := hnodup.length_le_card
    rwa [List.length_map] at h
  refine .inr fun target htarget => (deviation_le_one hle (by omega) hlarge ?_).trans hthreshold
  rw [← hsum]
  exact List.le_sum_of_mem (List.mem_map_of_mem htarget)

/-! ## The rebalanced reserves -/

def assetsOf (p : Portfolio) : List ReserveAsset := p.reserve.assets.getD []

/-- The targets are of distinct types that cover the reserves, they are the whole, and the threshold
is at least one basis point. -/
structure Admissible (p : Portfolio) : Prop where
  distinct : ((readTargets p).map TargetAllocation.assetType).Nodup
  covers : ∀ asset ∈ assetsOf p,
    asset.assetType ∈ (readTargets p).map TargetAllocation.assetType
  whole : ((readTargets p).map TargetAllocation.targetPercentage).sum = 10000
  threshold : 1 ≤ readThreshold p

/-- The reserves lose less than one unit a target, and the amount of each type is its share. -/
structure Reached (targets : List TargetAllocation) (before after : List ReserveAsset) : Prop where
  conserved : totalAmount after ≤ totalAmount before ∧
    totalAmount before < totalAmount after + targets.length
  reached : ∀ target ∈ targets, amountOfType target.assetType after =
    totalAmount before * target.targetPercentage / 10000

/-- The targets are reached, and no rebalancing is needed right afterwards. -/
structure Rebalanced (p p' : Portfolio) : Prop extends
    Reached (readTargets p) (assetsOf p) (assetsOf p') where
  settled : checkRebalancingNeeded p' = .ok false

/-- The total is the sum over the types of the targets, which cover the reserves. -/
theorem totalAmount_eq_sum (hnodup : (targets.map TargetAllocation.assetType).Nodup)
    (hcovers : ∀ asset ∈ assets, asset.assetType ∈ targets.map TargetAllocation.assetType) :
    (targets.map fun target => amountOfType target.assetType assets).sum = totalAmount assets := by
  have h := sum_map_groupOf (f := ReserveAsset.amount) hnodup hcovers
  rw [List.map_map] at h
  exact h

/-- The test of a target whose share does not overflow. -/
theorem exceeds_eq_ok {target : TargetAllocation}
    (hfits : ((amountOfType target.assetType assets * 10000 : ℕ) : ℤ) ≤ IntFormat.u128.hi) :
    exceeds assets totalReserves threshold target = .ok (decide (threshold <
      deviation (amountOfType target.assetType assets * 10000 / totalReserves)
        target.targetPercentage)) := by
  have hamount : ((amountOfType target.assetType assets : ℕ) : ℤ) ≤ IntFormat.u128.hi :=
    le_trans (by omega) hfits
  rw [exceeds, getAssetAmountByType, IntFormat.checkedNat_eq_ok.mpr ⟨hamount, rfl⟩, Except.ok_bind,
    IntFormat.checkedNat_eq_ok.mpr ⟨hfits, rfl⟩, Except.ok_bind]

/-- With the amounts of the targets, no rebalancing is needed exactly when their shares are within
the threshold. -/
theorem checkRebalancingNeeded_iff (hassets : p.reserve.assets = some assets)
    (htotal : totalAmount assets = sumTargets totalReserves (readTargets p))
    (hle : totalAmount assets ≤ totalReserves)
    (hreserves : (totalReserves : ℤ) ≤ IntFormat.u128.hi)
    (hreached : ∀ target ∈ readTargets p,
      amountOfType target.assetType assets = targetAmount totalReserves target ∧
        ((totalReserves * target.targetPercentage : ℕ) : ℤ) ≤ IntFormat.u128.hi) :
    checkRebalancingNeeded p = .ok false ↔
      Within totalReserves (readThreshold p) (readTargets p) := by
  have hchecked : ((totalAmount assets : ℕ) : ℤ) ≤ IntFormat.u128.hi :=
    (Int.ofNat_le.mpr hle).trans hreserves
  rw [checkRebalancingNeeded, hassets, orAbort, Except.ok_bind,
    IntFormat.checkedNat_eq_ok.mpr ⟨hchecked, rfl⟩, Except.ok_bind, Within, ← htotal]
  split
  · -- an empty reserve needs nothing
    rename_i hzero
    simp [hzero]
  · rename_i hne
    rw [or_iff_right hne, Except.anyM_eq_ok_false]
    refine forall₂_congr fun target htarget => ?_
    obtain ⟨hamount, hscaled⟩ := hreached target htarget
    -- the product was smaller than one that the rebalancing has computed
    have hfits : ((amountOfType target.assetType assets * 10000 : ℕ) : ℤ) ≤ IntFormat.u128.hi := by
      rw [hamount]
      exact le_trans (Int.ofNat_le.mpr (Nat.div_mul_le_self _ _)) hscaled
    rw [exceeds_eq_ok hfits, hamount, Except.ok.injEq, decide_eq_false_iff_not, not_lt]

/-- A rebalancing reaches its targets exactly when each of them is placeable, and the shares of the
rounded amounts are within the threshold. The shares of a large total are. -/
theorem rebalancing_iff (hp : Admissible p) (h : executeRebalancing now p = .ok p') :
    (Rebalanced p p' ↔
        (∀ target ∈ readTargets p, Placeable (totalAmount (assetsOf p)) (assetsOf p) target) ∧
          Within (totalAmount (assetsOf p)) (readThreshold p) (readTargets p)) ∧
      (20005 ≤ totalAmount (assetsOf p) →
        Within (totalAmount (assetsOf p)) (readThreshold p) (readTargets p)) := by
  obtain ⟨hnodup, hcovers, hsum, hthreshold⟩ := hp
  refine ⟨?_, within_of_le hnodup hsum hthreshold⟩
  obtain ⟨assets, assets', operations, hassets, hassets', hthreshold', htargets, hfits, -, hloop⟩ :=
    executeRebalancing_eq_ok h
  have hbefore : assetsOf p = assets := by rw [assetsOf, hassets, Option.getD_some]
  have hafter : assetsOf p' = assets' := by rw [assetsOf, hassets', Option.getD_some]
  have hread : readTargets p' = readTargets p := by rw [readTargets, htargets, ← readTargets]
  rw [hbefore] at hcovers ⊢
  obtain ⟨htypes, -, hown⟩ := foldlM_adjust hnodup hloop
  -- the targets cover what the rebalancing leaves, since it keeps the types
  have hcovers' : ∀ asset ∈ assets',
      asset.assetType ∈ (readTargets p).map TargetAllocation.assetType := by
    intro asset hasset
    have hmem := List.mem_map_of_mem (f := ReserveAsset.assetType) hasset
    rw [htypes] at hmem
    obtain ⟨old, hold, heq⟩ := List.mem_map.mp hmem
    exact heq ▸ hcovers old hold
  -- once the targets are reached, their sum is the total, and the check is about their shares
  have hsettled : (∀ target ∈ readTargets p,
      amountOfType target.assetType assets' = targetAmount (totalAmount assets) target) →
      totalAmount assets' = sumTargets (totalAmount assets) (readTargets p) ∧
        (checkRebalancingNeeded p' = .ok false ↔
          Within (totalAmount assets) (readThreshold p) (readTargets p)) := by
    intro hreached
    have htotal : totalAmount assets' = sumTargets (totalAmount assets) (readTargets p) := by
      rw [← totalAmount_eq_sum hnodup hcovers', sumTargets, List.map_congr_left hreached]
    refine ⟨htotal, ?_⟩
    have hiff := checkRebalancingNeeded_iff (p := p') hassets'
      (by rw [hread]; exact htotal) (htotal ▸ (sumTargets_bounds _ hsum).1) hfits
      (by rw [hread]; exact fun t ht => ⟨hreached t ht, (hown t ht).1⟩)
    rwa [hread, readThreshold, hthreshold', ← readThreshold] at hiff
  constructor
  · rintro ⟨⟨-, hreached⟩, hcheck⟩
    rw [hbefore, hafter] at hreached
    exact ⟨fun t ht => (hown t ht).2.mp (hreached t ht), (hsettled hreached).2.mp hcheck⟩
  · rintro ⟨hplaceable, hwithin⟩
    have hreached : ∀ target ∈ readTargets p,
        amountOfType target.assetType assets' = targetAmount (totalAmount assets) target :=
      fun t ht => (hown t ht).2.mpr (hplaceable t ht)
    obtain ⟨htotal, hcheck⟩ := hsettled hreached
    have hbounds := sumTargets_bounds (totalAmount assets) hsum
    rw [← htotal] at hbounds
    exact ⟨⟨by rwa [hbefore, hafter], by rwa [hbefore, hafter]⟩, hcheck.mpr hwithin⟩

/-- Reserves with the default targets. -/
def samplePortfolio (amounts : List (AssetType × ℕ)) : Portfolio :=
  initRebalancing 500
    { reserve := { State.empty with
        assets := some (amounts.map fun a => ⟨a.1, a.2, ⟨1⟩, 0, []⟩) }
      threshold := none
      targetAllocations := none
      lastRebalancing := none
      history := none
      events := [] }

/-- One asset of each type. -/
def sampleAmounts : List (AssetType × ℕ) :=
  [(.usd, 60000), (.treasury, 20000), (.repo, 10000), (.corporateBond, 10000)]

theorem rebalancing_iff_sample : ∃ p', executeRebalancing 9 (samplePortfolio sampleAmounts) = .ok p' ∧
    Rebalanced (samplePortfolio sampleAmounts) p' := by
  obtain ⟨p', hp'⟩ : ∃ p', executeRebalancing 9 (samplePortfolio sampleAmounts) = .ok p' := ⟨_, rfl⟩
  obtain ⟨hiff, hwithin⟩ := rebalancing_iff ⟨by decide, by decide, by decide, by decide⟩ hp'
  refine ⟨p', hp', hiff.mpr ⟨?_, hwithin (by decide)⟩⟩
  change ∀ target ∈ defaultAllocations, Placeable _ _ target
  simp only [defaultAllocations, List.forall_mem_cons]
  exact ⟨.inr ⟨_, [], rfl, rfl⟩, .inr ⟨_, [], rfl, rfl⟩, .inr ⟨_, [], rfl, rfl⟩,
    .inr ⟨_, [], rfl, rfl⟩, nofun⟩

/-- Two assets of one type. -/
def repeatedAmounts : List (AssetType × ℕ) :=
  [(.usd, 50000), (.usd, 30000), (.treasury, 10000), (.repo, 5000), (.corporateBond, 5000)]

/-- With two assets of one type the reserves grow by what the second one holds, and a type without
an asset takes its share away. -/
theorem missed_targets :
    (Admissible (samplePortfolio repeatedAmounts) ∧
      ∃ p', executeRebalancing 9 (samplePortfolio repeatedAmounts) = .ok p' ∧
        totalAmount (assetsOf (samplePortfolio repeatedAmounts)) = 100000 ∧
        totalAmount (assetsOf p') = 130000 ∧ ¬ Rebalanced (samplePortfolio repeatedAmounts) p') ∧
    Admissible (samplePortfolio [(.usd, 100000)]) ∧
      ∃ p', executeRebalancing 9 (samplePortfolio [(.usd, 100000)]) = .ok p' ∧
        totalAmount (assetsOf (samplePortfolio [(.usd, 100000)])) = 100000 ∧
        totalAmount (assetsOf p') = 40000 ∧
        ¬ Rebalanced (samplePortfolio [(.usd, 100000)]) p' := by
  refine ⟨⟨⟨by decide, by decide, by decide, by decide⟩, _, rfl, by decide, by decide, fun h => ?_⟩,
    ⟨by decide, by decide, by decide, by decide⟩, _, rfl, by decide, by decide, fun h => ?_⟩
  · exact absurd h.conserved.1 (by decide)
  · exact absurd h.conserved.2 (by decide)

end Stellara.Reserve
