import Mathlib.Algebra.Order.Field.Rat
import Mathlib.Data.Int.ConditionallyCompleteOrder
import Mathlib.Order.WithBot
import Mathlib.Data.Rat.Cast.Order
import Mathlib.Tactic.Positivity
import Mathlib.Tactic.GCongr
import Stellara.Synthetic.Debt

/-!
# The ratio under the operations of the owner

The owner of a CDP mints against its collateral, burns debt and adds collateral. A mint checks the
ratio that it computes with two rounded divisions; the other two check nothing, but they only raise
the ratio. So at a fixed price no operation of the owner leaves the CDP with a ratio that is below
both the ratio before it and the minimum ratio of the asset. This holds for the exact ratio and for
the rounded one.

## Main definitions

* `exactRatio`, `roundedRatio`: the ratio of a CDP at a price, without and with the roundings
* `Call.ownerOperation?`: the CDP that an owner changes with a call

## Main results

* `collateralRatio_eq_ok`: what the contract computes is the rounded ratio
* `roundedRatio_le_exactRatio`: it is at most the exact one
* `owner_operation_keeps_ratio`: every run
-/

namespace Stellara.Synthetic

/-! ## Ratios -/

/-- The ratio of a CDP at a price, scaled by 10000; a CDP without debt has no bound on it. -/
def exactRatio (price : ℤ) (cdp : CDP) : WithTop ℚ :=
  if 0 < cdp.mintedAmount then
    ((cdp.collateralAmount * 1000000 / price * 10000 / cdp.mintedAmount : ℚ) : WithTop ℚ)
  else ⊤

/-- The same with the two divisions that the contract makes. -/
def roundedRatio (price : ℤ) (cdp : CDP) : WithTop ℤ :=
  if 0 < cdp.mintedAmount then
    (((cdp.collateralAmount * 1000000 / price * 10000 / cdp.mintedAmount : ℤ)) : WithTop ℤ)
  else ⊤

variable {price : ℤ} {cdp cdp' : CDP}

/-- What the contract computes is the rounded ratio. -/
theorem collateralRatio_eq_ok {cratio : ℤ} (hcollateral : 0 ≤ cdp.collateralAmount)
    (hprice : 0 < price) (hminted : 0 < cdp.mintedAmount)
    (h : collateralRatio price cdp.collateralAmount cdp.mintedAmount = .ok cratio) :
    roundedRatio price cdp = cratio := by
  simp only [collateralRatio, checked, checkedDiv, Except.bind_eq_ok, IntFormat.checked_eq_ok,
    IntFormat.checkedDiv_eq_ok] at h
  obtain ⟨_, ⟨-, rfl⟩, _, ⟨-, -, rfl⟩, _, ⟨-, rfl⟩, -, -, rfl⟩ := h
  -- nothing is negative, so rounding towards zero is rounding down
  have hscaled : 0 ≤ cdp.collateralAmount * 1000000 := by omega
  have husd := Int.ediv_nonneg hscaled hprice.le
  rw [Int.tdiv_eq_ediv_of_nonneg hscaled, Int.tdiv_eq_ediv_of_nonneg (by omega), roundedRatio,
    if_pos hminted]

/-- The roundings only lower a ratio. -/
theorem roundedRatio_le_exactRatio {ratio : ℤ} (hprice : 0 < price)
    (hminted : 0 < cdp.mintedAmount) (h : (ratio : WithTop ℤ) ≤ roundedRatio price cdp) :
    ((ratio : ℚ) : WithTop ℚ) ≤ exactRatio price cdp := by
  rw [roundedRatio, if_pos hminted, WithTop.coe_le_coe] at h
  rw [exactRatio, if_pos hminted, WithTop.coe_le_coe]
  -- clear the two divisions, one after the other
  have hdebt := (Int.le_ediv_iff_mul_le hminted).mp h
  have hvalue := Int.ediv_mul_le (cdp.collateralAmount * 1000000) hprice.ne'
  rw [le_div_iff₀ (by exact_mod_cast hminted)]
  have husd : ((cdp.collateralAmount * 1000000 / price : ℤ) : ℚ) ≤
      cdp.collateralAmount * 1000000 / price := by
    rw [le_div_iff₀ (by exact_mod_cast hprice)]
    exact_mod_cast hvalue
  calc (ratio : ℚ) * cdp.mintedAmount
      ≤ ((cdp.collateralAmount * 1000000 / price : ℤ) : ℚ) * 10000 := by exact_mod_cast hdebt
    _ ≤ cdp.collateralAmount * 1000000 / price * 10000 :=
        mul_le_mul_of_nonneg_right husd (by norm_num)

section Monotone

variable (hprice : 0 < price) (hnonneg : 0 ≤ cdp.collateralAmount)
  (hcollateral : cdp.collateralAmount ≤ cdp'.collateralAmount)
  (hminted : cdp'.mintedAmount ≤ cdp.mintedAmount)

include hprice hnonneg hcollateral hminted

/-- More collateral, or less debt, does not lower the exact ratio. -/
theorem exactRatio_mono : exactRatio price cdp ≤ exactRatio price cdp' := by
  unfold exactRatio
  by_cases hdebt : 0 < cdp'.mintedAmount
  · rw [if_pos hdebt, if_pos (by omega), WithTop.coe_le_coe]
    have hvalue : (0 : ℚ) ≤ cdp.collateralAmount * 1000000 / price * 10000 := by
      have hcast : (0 : ℚ) ≤ cdp.collateralAmount := by exact_mod_cast hnonneg
      have hcast' : (0 : ℚ) ≤ price := by exact_mod_cast hprice.le
      positivity
    have hgrow : (cdp.collateralAmount : ℚ) ≤ cdp'.collateralAmount := by exact_mod_cast hcollateral
    have hmore : (cdp.collateralAmount * 1000000 / price * 10000 : ℚ) ≤
        cdp'.collateralAmount * 1000000 / price * 10000 := by
      have hcast : (0 : ℚ) ≤ price := by exact_mod_cast hprice.le
      gcongr
    refine div_le_div₀ (hvalue.trans hmore) hmore ?_ ?_
    · exact_mod_cast hdebt
    · exact_mod_cast hminted
  · rw [if_neg hdebt]
    exact le_top

/-- More collateral, or less debt, does not lower the rounded ratio. -/
theorem roundedRatio_mono : roundedRatio price cdp ≤ roundedRatio price cdp' := by
  unfold roundedRatio
  by_cases hdebt : 0 < cdp'.mintedAmount
  · rw [if_pos hdebt, if_pos (by omega), WithTop.coe_le_coe, Int.le_ediv_iff_mul_le hdebt]
    have husd : cdp.collateralAmount * 1000000 / price ≤ cdp'.collateralAmount * 1000000 / price :=
      Int.ediv_le_ediv hprice (by omega)
    have hvalue : 0 ≤ cdp.collateralAmount * 1000000 / price :=
      Int.ediv_nonneg (by omega) hprice.le
    have hratio : 0 ≤ cdp.collateralAmount * 1000000 / price * 10000 / cdp.mintedAmount :=
      Int.ediv_nonneg (by omega) (by omega)
    calc cdp.collateralAmount * 1000000 / price * 10000 / cdp.mintedAmount * cdp'.mintedAmount
        ≤ cdp.collateralAmount * 1000000 / price * 10000 / cdp.mintedAmount * cdp.mintedAmount :=
          Int.mul_le_mul_of_nonneg_left hminted hratio
      _ ≤ cdp.collateralAmount * 1000000 / price * 10000 := Int.ediv_mul_le _ (by omega)
      _ ≤ cdp'.collateralAmount * 1000000 / price * 10000 := by omega
  · rw [if_neg hdebt]
    exact le_top

end Monotone

/-! ## The operations of the owner -/

/-- The CDP that a call of its owner changes. -/
def Call.ownerOperation? : Call → Option CdpKey
  | .mint owner asset _ => some (owner, asset)
  | .burn owner asset _ => some (owner, asset)
  | .addCollateral owner asset _ => some (owner, asset)
  | _ => none

/-- What an operation of the owner does to the CDP and the configuration of its asset: the price and
the minimum ratio stay, and the CDP gets a ratio that was checked, more collateral or less debt. -/
structure Adjusts (config config' : SyntheticConfig) (cdp cdp' : CDP) : Prop where
  price : config'.oraclePrice = config.oraclePrice
  minCratio : config'.minCratio = config.minCratio
  cdp : (0 < cdp'.mintedAmount ∧ ∃ cratio, config.minCratio ≤ cratio ∧
      collateralRatio config.oraclePrice cdp'.collateralAmount cdp'.mintedAmount = .ok cratio) ∨
    cdp.collateralAmount ≤ cdp'.collateralAmount ∧ cdp'.mintedAmount ≤ cdp.mintedAmount

section Operations

variable {now : ℕ} {s s' : State} {call : Call} {r : Option ℤ} {key : CdpKey}
  {config config' : SyntheticConfig}

/-- Every operation of an owner adjusts the owner's CDP. -/
theorem adjusts_of_execute (h : Sound s) (he : execute now s call = .ok (r, s'))
    (hcall : call.ownerOperation? = some key) (hconfig : s.configs.lookup key.2 = some config)
    (hconfig' : s'.configs.lookup key.2 = some config') (hcdp : s.cdps.lookup key = some cdp)
    (hcdp' : s'.cdps.lookup key = some cdp') : Adjusts config config' cdp cdp' := by
  cases call with
  | mint owner asset mintAmount =>
    obtain rfl := Option.some.inj hcall
    simp only [execute, mint, getConfig, getCdp, checked, Except.bind_eq_ok, require_eq_ok,
      orAbort_eq_ok, IntFormat.checked_eq_ok, exists_const] at he
    obtain ⟨_, ⟨hpos, _, hc, _, hd, _, ⟨-, rfl⟩, cratio, hratio, hmin, _, ⟨-, rfl⟩, h₁⟩, he⟩ := he
    obtain rfl := Option.some.inj (hconfig.symm.trans hc)
    obtain rfl := Option.some.inj (hcdp.symm.trans hd)
    obtain rfl := Except.ok.inj h₁
    obtain ⟨-, rfl⟩ := Prod.mk.inj (Except.ok.inj he)
    obtain rfl := Option.some.inj (hconfig'.symm.trans (AList.lookup_insert _))
    obtain rfl := Option.some.inj (hcdp'.symm.trans (AList.lookup_insert _))
    have hnonneg := (h.nonneg _ _ hcdp).2
    exact ⟨rfl, rfl, .inl ⟨by show 0 < cdp.mintedAmount + mintAmount; omega, cratio, hmin, hratio⟩⟩
  | burn owner asset burnAmount =>
    obtain rfl := Option.some.inj hcall
    simp only [execute, burn, getConfig, getCdp, checked, Except.bind_eq_ok, require_eq_ok,
      orAbort_eq_ok, IntFormat.checked_eq_ok, exists_const] at he
    obtain ⟨_, ⟨hpos, _, hc, _, hd, -, _, ⟨-, rfl⟩, cratio, -, _, ⟨-, rfl⟩, h₁⟩, he⟩ := he
    obtain rfl := Option.some.inj (hconfig.symm.trans hc)
    obtain rfl := Option.some.inj (hcdp.symm.trans hd)
    obtain rfl := Except.ok.inj h₁
    obtain ⟨-, rfl⟩ := Prod.mk.inj (Except.ok.inj he)
    obtain rfl := Option.some.inj (hconfig'.symm.trans (AList.lookup_insert _))
    obtain rfl := Option.some.inj (hcdp'.symm.trans (AList.lookup_insert _))
    exact ⟨rfl, rfl, .inr ⟨le_rfl, by show cdp.mintedAmount - burnAmount ≤ _; omega⟩⟩
  | addCollateral owner asset amount =>
    obtain rfl := Option.some.inj hcall
    obtain ⟨_, _, cratio, hc, hd, hpos, -, hconfigs, hcdps⟩ := execute_effect he
    obtain rfl := Option.some.inj (hcdp.symm.trans hd)
    rw [hconfigs, hconfig] at hconfig'
    obtain rfl := Option.some.inj hconfig'
    rw [hcdps] at hcdp'
    obtain rfl := Option.some.inj (hcdp'.symm.trans (AList.lookup_insert _))
    exact ⟨rfl, rfl, .inr ⟨by show _ ≤ cdp.collateralAmount + amount; omega, le_rfl⟩⟩
  | _ => cases hcall

/-- A CDP that is adjusted at a positive price keeps its ratio, or the minimum. -/
theorem Adjusts.keeps_ratio (h : Adjusts config config' cdp cdp') (hprice : 0 < config.oraclePrice)
    (hnonneg : 0 ≤ cdp.collateralAmount) (hnonneg' : 0 ≤ cdp'.collateralAmount) :
    min (exactRatio config.oraclePrice cdp) (config.minCratio : ℚ) ≤
        exactRatio config'.oraclePrice cdp' ∧
      min (roundedRatio config.oraclePrice cdp) config.minCratio ≤
        roundedRatio config'.oraclePrice cdp' := by
  rw [h.price]
  rcases h.cdp with ⟨hdebt, cratio, hmin, hratio⟩ | ⟨hcollateral, hminted⟩
  · -- the ratio was checked
    have hrounded : (config.minCratio : WithTop ℤ) ≤ roundedRatio config.oraclePrice cdp' := by
      rw [collateralRatio_eq_ok hnonneg' hprice hdebt hratio]
      exact WithTop.coe_le_coe.mpr hmin
    exact ⟨(min_le_right _ _).trans (roundedRatio_le_exactRatio hprice hdebt hrounded),
      (min_le_right _ _).trans hrounded⟩
  · exact ⟨(min_le_left _ _).trans (exactRatio_mono hprice hnonneg hcollateral hminted),
      (min_le_left _ _).trans (roundedRatio_mono hprice hnonneg hcollateral hminted)⟩

end Operations

/-! ## Runs -/

/-- In every run, an operation of an owner at a positive price leaves the CDP with a ratio of at
least the smaller of its ratio before and the minimum ratio of its asset, for the exact ratio and
for the rounded one. -/
theorem owner_operation_keeps_ratio {now : ℕ} {w : World State}
    {log : List (Commit State Call (Option ℤ))} (hrun : contract.Run ⟨now, .empty⟩ w log) :
    ∀ c ∈ log, ∀ key config config' cdp cdp', c.call.ownerOperation? = some key →
      c.before.configs.lookup key.2 = some config → c.after.configs.lookup key.2 = some config' →
      c.before.cdps.lookup key = some cdp → c.after.cdps.lookup key = some cdp' →
      0 < config.oraclePrice →
      min (exactRatio config.oraclePrice cdp) (config.minCratio : ℚ) ≤
          exactRatio config'.oraclePrice cdp' ∧
        min (roundedRatio config.oraclePrice cdp) config.minCratio ≤
          roundedRatio config'.oraclePrice cdp' := by
  intro c hc key config config' cdp cdp' hcall hconfig hconfig' hcdp hcdp' hprice
  obtain ⟨hbefore, hafter⟩ := hrun.invariant_of_mem (I := Sound)
    (fun _ _ _ _ _ hs he => hs.execute he) .empty c hc
  have hadjusts := adjusts_of_execute hbefore (hrun.exec_of_mem c hc) hcall hconfig hconfig' hcdp hcdp'
  exact hadjusts.keeps_ratio hprice (hbefore.nonneg _ _ hcdp).1 (hafter.nonneg _ _ hcdp').1

/-- The mint of `mintedCalls`, which leaves a debt of 100 with a collateral of 1000. -/
theorem owner_operation_keeps_ratio_minted :
    min (exactRatio 1000000 ⟨⟨2⟩, 1000, 0, 0, true⟩) ((15000 : ℤ) : ℚ) ≤
        exactRatio 1000000 ⟨⟨2⟩, 1000, 100, 100000, true⟩ ∧
      min (roundedRatio 1000000 ⟨⟨2⟩, 1000, 0, 0, true⟩) (15000 : ℤ) ≤
        roundedRatio 1000000 ⟨⟨2⟩, 1000, 100, 100000, true⟩ :=
  owner_operation_keeps_ratio (Contract.run_play contract ⟨0, .empty⟩ mintedCalls (by decide))
    _ (List.getElem_mem (n := 4) (by decide)) (⟨2⟩, "sUSD")
    ⟨1000000, 15000, 12000, 1300, 200, 0, true⟩ ⟨1000000, 15000, 12000, 1300, 200, 100, true⟩
    ⟨⟨2⟩, 1000, 0, 0, true⟩ ⟨⟨2⟩, 1000, 100, 100000, true⟩ rfl rfl rfl rfl rfl (by decide)

end Stellara.Synthetic
