import Stellara.Synthetic.Debt

/-!
# Who can be liquidated

A liquidation compares the ratio that a CDP stores with the liquidation ratio of its asset. The
stored ratio is computed by `mint`, `burn` and `addCollateral`, at the price of the time; a new
price does not change it, and neither does a CDP start with one. So what decides a liquidation is
the price at the last of these calls, where the current price should, and a CDP without debt is
judged by whatever ratio it stores.

## Main definitions

* `Below`: the ratio of a CDP at a price is below the liquidation ratio
* `Underwater`: the CDPs that should be liquidated
* `pricedAt`: the price at the last call that computed the ratio of a CDP
* `Judged`: when the stored ratio judges a CDP as the current price does

## Main results

* `liquidate_iff`: when a liquidation succeeds
* `stored_ratio`: the stored ratio of a CDP with debt is the one at its last price
* `liquidation_iff`: exactly the CDPs that should be can be liquidated, when they are judged so
-/

namespace Stellara.Synthetic

variable {s s' : State} {call : Call} {owner : Address} {asset : Symbol} {key : CdpKey} {cdp : CDP}
  {config : SyntheticConfig} {now : ℕ} {r : Option ℤ}

/-! ## One liquidation -/

/-- The ratio of a CDP at a price is below the liquidation ratio. -/
def Below (config : SyntheticConfig) (cdp : CDP) (price : ℤ) : Prop :=
  ∃ cratio, collateralRatio price cdp.collateralAmount cdp.mintedAmount = .ok cratio ∧
    cratio < config.liqCratio

/-- The CDP has debt, and its ratio at the current price is below the liquidation ratio. -/
def Underwater (s : State) (owner : Address) (asset : Symbol) : Prop :=
  ∃ config cdp, s.configs.lookup asset = some config ∧ s.cdps.lookup (owner, asset) = some cdp ∧
    0 < cdp.mintedAmount ∧ Below config cdp config.oraclePrice

/-- A liquidation of the CDP succeeds. -/
def Liquidates (s : State) (now : ℕ) (liquidator owner : Address) (asset : Symbol) : Prop :=
  ∃ p, execute now s (.liquidate liquidator owner asset) = .ok p

/-- The amounts of a liquidation fit into their format. -/
def SeizureFits (config : SyntheticConfig) (cdp : CDP) : Prop :=
  IntFormat.i128.Mem (cdp.collateralAmount * config.liqPenalty) ∧
    IntFormat.i128.Mem
      (cdp.collateralAmount - (cdp.collateralAmount * config.liqPenalty).tdiv 10000) ∧
    IntFormat.i128.Mem (config.totalMinted - cdp.mintedAmount)

/-- A liquidation succeeds exactly when the stored ratio is below the liquidation ratio, and the
amounts fit into their format. -/
theorem liquidate_iff {liquidator : Address} (hconfig : s.configs.lookup asset = some config)
    (hcdp : s.cdps.lookup (owner, asset) = some cdp) :
    Liquidates s now liquidator owner asset ↔
      cdp.collateralRatio < config.liqCratio ∧ SeizureFits config cdp := by
  constructor
  · rintro ⟨⟨r, s'⟩, h⟩
    simp only [execute, liquidate, getConfig, getCdp, checked, Except.bind_eq_ok, require_eq_ok,
      orAbort_eq_ok, IntFormat.checked_eq_ok, exists_const] at h
    obtain ⟨_, ⟨config', hconfig', cdp', hcdp', hlt, _, ⟨hproduct, rfl⟩, _, ⟨hrest, -⟩, _,
      ⟨htotal, -⟩, -⟩, -⟩ := h
    obtain rfl := Option.some.inj (hconfig.symm.trans hconfig')
    obtain rfl := Option.some.inj (hcdp.symm.trans hcdp')
    exact ⟨hlt, hproduct, hrest, htotal⟩
  · rintro ⟨hlt, hproduct, hrest, htotal⟩
    unfold Liquidates
    simp only [execute, liquidate, getConfig, getCdp, hconfig, hcdp, orAbort, checked,
      IntFormat.checked_of_mem hproduct, IntFormat.checked_of_mem hrest,
      IntFormat.checked_of_mem htotal, require, if_pos hlt, Except.ok_bind]
    exact ⟨_, rfl⟩

/-! ## The last price -/

/-- The price at which a call computes the ratio of the CDP `key`, if it does. -/
def priceRead (c : Commit State Call (Option ℤ)) (key : CdpKey) : Option ℤ :=
  match c.call with
  | .mint owner asset _ | .burn owner asset _ | .addCollateral owner asset _ =>
    if (owner, asset) = key then (c.before.configs.lookup asset).map (·.oraclePrice) else none
  | _ => none

/-- The price at the last `mint`, `burn` or `addCollateral` of the CDP `key`. -/
def pricedAt (log : List (Commit State Call (Option ℤ))) (key : CdpKey) : Option ℤ :=
  log.foldl (fun price c => (priceRead c key).or price) none

theorem pricedAt_append (log : List (Commit State Call (Option ℤ)))
    (c : Commit State Call (Option ℤ)) (key : CdpKey) :
    pricedAt (log ++ [c]) key = (priceRead c key).or (pricedAt log key) := by
  simp only [pricedAt, List.foldl_append, List.foldl_cons, List.foldl_nil]

/-- The stored ratio of a CDP with debt was computed from its collateral and its debt, at the last
price of the CDP. -/
def Priced (log : List (Commit State Call (Option ℤ))) (s : State) : Prop :=
  ∀ key cdp, s.cdps.lookup key = some cdp → 0 < cdp.mintedAmount → ∃ price,
    pricedAt log key = some price ∧
      collateralRatio price cdp.collateralAmount cdp.mintedAmount = .ok cdp.collateralRatio

variable {log : List (Commit State Call (Option ℤ))} {c : Commit State Call (Option ℤ)}

/-- A CDP is written without debt, or with the ratio at the price that is read; the others are
left. -/
theorem Priced.write (h : Priced log c.before)
    (hcdps : c.after.cdps = c.before.cdps.insert key cdp)
    (hother : ∀ key', key' ≠ key → priceRead c key' = none)
    (hratio : 0 < cdp.mintedAmount → ∃ price, priceRead c key = some price ∧
      collateralRatio price cdp.collateralAmount cdp.mintedAmount = .ok cdp.collateralRatio) :
    Priced (log ++ [c]) c.after := by
  intro key' cdp' hcdp' hdebt
  rw [hcdps] at hcdp'
  rw [pricedAt_append]
  rcases Store.eq_or_lookup_of_insert hcdp' with ⟨rfl, rfl⟩ | ⟨hne, hold⟩
  · obtain ⟨price, hread, hstored⟩ := hratio hdebt
    exact ⟨price, by rw [hread, Option.some_or], hstored⟩
  · rw [hother key' hne, Option.none_or]
    exact h key' cdp' hold hdebt

/-- Nothing is written to the CDPs, and no ratio computed. -/
theorem Priced.keep (h : Priced log c.before) (hcdps : c.after.cdps = c.before.cdps)
    (hread : ∀ key, priceRead c key = none) : Priced (log ++ [c]) c.after := by
  intro key cdp hcdp hdebt
  rw [pricedAt_append, hread, Option.none_or]
  exact h key cdp (hcdps ▸ hcdp) hdebt

/-- A call keeps the ratios of the CDPs with debt up to date with their last prices. -/
theorem Priced.effect (h : Priced log c.before) (he : Effect c.before c.after c.call) :
    Priced (log ++ [c]) c.after := by
  obtain ⟨time, call, result, s, s'⟩ := c
  cases call with
  | init admin => exact h.keep he.2 fun _ => rfl
  | registerAsset caller asset minCratio liqCratio liqPenalty stabilityFeeBps =>
    exact h.keep he.2 fun _ => rfl
  | updatePrice caller asset newPrice =>
    obtain ⟨config, -, -, hcdps⟩ := he
    exact h.keep hcdps fun _ => rfl
  | openCdp owner asset collateralAmount =>
    exact h.write he.2.2 (fun _ _ => rfl) fun hdebt => absurd hdebt (lt_irrefl 0)
  | mint owner asset mintAmount =>
    obtain ⟨config, cdp, cratio, hconfig, -, -, hratio, -, hcdps⟩ := he
    refine h.write hcdps (fun key' hne => if_neg (Ne.symm hne))
      fun _ => ⟨config.oraclePrice, ?_, ?_⟩
    · simp [priceRead, hconfig]
    · exact hratio
  | burn owner asset burnAmount =>
    obtain ⟨config, cdp, cratio, hconfig, -, -, hratio, -, hcdps⟩ := he
    refine h.write hcdps (fun key' hne => if_neg (Ne.symm hne))
      fun hdebt => ⟨config.oraclePrice, ?_, ?_⟩
    · simp [priceRead, hconfig]
    · exact hratio hdebt
  | addCollateral owner asset amount =>
    obtain ⟨config, cdp, cratio, hconfig, -, -, hratio, -, hcdps⟩ := he
    refine h.write hcdps (fun key' hne => if_neg (Ne.symm hne))
      fun hdebt => ⟨config.oraclePrice, ?_, ?_⟩
    · simp [priceRead, hconfig]
    · exact hratio hdebt
  | liquidate liquidator cdpOwner asset =>
    obtain ⟨config, cdp, -, -, -, hcdps⟩ := he
    exact h.write hcdps (fun _ _ => rfl) fun hdebt => absurd hdebt (lt_irrefl 0)
  | closeCdp owner asset =>
    obtain ⟨cdp, -, hle, -, hcdps⟩ := he
    exact h.write hcdps (fun _ _ => rfl) fun hdebt => absurd hdebt (not_lt.mpr hle)

/-! ## Runs -/

variable {t₀ : ℕ} {w : World State}

/-- After every run the stored ratio of a CDP with debt is the one at its last price. -/
theorem stored_ratio (hrun : contract.Run ⟨t₀, .empty⟩ w log) : Priced log w.store :=
  hrun.invariant_log (I := fun _ s log => Priced log s) (fun _ _ h => by cases h)
    (fun _ _ _ _ _ h => h)
    fun t k r s s' log h he => h.effect (c := ⟨t, k, r, s, s'⟩) (execute_effect he)

/-- The CDP of `owner` is judged as it should be: one without debt by a stored ratio that is not
below the liquidation ratio, and one with debt by its last price as by the current one. What
should be seized fits into its format. -/
def Judged (log : List (Commit State Call (Option ℤ))) (s : State) (owner : Address)
    (asset : Symbol) : Prop :=
  ∀ config cdp, s.configs.lookup asset = some config → s.cdps.lookup (owner, asset) = some cdp →
    (cdp.mintedAmount = 0 → cdp.collateralRatio < config.liqCratio → ¬ SeizureFits config cdp) ∧
    (0 < cdp.mintedAmount → ((∃ price, pricedAt log (owner, asset) = some price ∧
      Below config cdp price ∧ SeizureFits config cdp) ↔ Below config cdp config.oraclePrice))

/-- The stored ratio of a CDP with debt is below the liquidation ratio exactly when the ratio at the
last price is. -/
theorem Priced.below_iff (h : Priced log s) (hcdp : s.cdps.lookup key = some cdp)
    (hdebt : 0 < cdp.mintedAmount) {p : Prop} :
    (∃ price, pricedAt log key = some price ∧ Below config cdp price ∧ p) ↔
      cdp.collateralRatio < config.liqCratio ∧ p := by
  obtain ⟨price, hpriced, hstored⟩ := h key cdp hcdp hdebt
  constructor
  · rintro ⟨price', hpriced', ⟨cratio, hratio, hlt⟩, hp⟩
    obtain rfl := Option.some.inj (hpriced.symm.trans hpriced')
    obtain rfl := Except.ok.inj (hstored.symm.trans hratio)
    exact ⟨hlt, hp⟩
  · rintro ⟨hlt, hp⟩
    exact ⟨price, hpriced, ⟨_, hstored, hlt⟩, hp⟩

/-- After every run, the liquidations of a CDP succeed exactly when it has debt and its ratio at the
current price is below the liquidation ratio, if and only if the CDP is judged as it should be. -/
theorem liquidation_iff (hrun : contract.Run ⟨t₀, .empty⟩ w log) (owner : Address)
    (asset : Symbol) :
    (∀ now liquidator,
        Liquidates w.store now liquidator owner asset ↔ Underwater w.store owner asset) ↔
      Judged log w.store owner asset := by
  have hsound : Sound w.store := hrun.invariant (fun _ _ _ _ _ hs he => hs.execute he) .empty
  have hpriced := stored_ratio hrun
  constructor
  · intro hlaw config cdp hconfig hcdp
    have hiff := hlaw 0 ⟨0⟩
    rw [liquidate_iff hconfig hcdp] at hiff
    refine ⟨fun hzero hlt hfits => ?_, fun hdebt => ?_⟩
    · obtain ⟨config', cdp', -, hcdp', hdebt, -⟩ := hiff.mp ⟨hlt, hfits⟩
      obtain rfl := Option.some.inj (hcdp.symm.trans hcdp')
      omega
    · rw [hpriced.below_iff hcdp hdebt, hiff]
      constructor
      · rintro ⟨config', cdp', hconfig', hcdp', -, hbelow⟩
        obtain rfl := Option.some.inj (hconfig.symm.trans hconfig')
        obtain rfl := Option.some.inj (hcdp.symm.trans hcdp')
        exact hbelow
      · exact fun hbelow => ⟨config, cdp, hconfig, hcdp, hdebt, hbelow⟩
  · intro hjudged now liquidator
    constructor
    · rintro ⟨⟨r, s'⟩, h⟩
      obtain ⟨config, cdp, hconfig, hcdp, -⟩ := execute_effect h
      obtain ⟨hzero, hdebt⟩ := hjudged config cdp hconfig hcdp
      obtain ⟨hlt, hfits⟩ := (liquidate_iff hconfig hcdp).mp ⟨_, h⟩
      have hnonneg := (hsound.nonneg _ _ hcdp).2
      have hpos : 0 < cdp.mintedAmount := by
        by_contra hle
        exact hzero (by omega) hlt hfits
      refine ⟨config, cdp, hconfig, hcdp, hpos, (hdebt hpos).mp ?_⟩
      exact (hpriced.below_iff hcdp hpos).mpr ⟨hlt, hfits⟩
    · rintro ⟨config, cdp, hconfig, hcdp, hpos, hbelow⟩
      rw [liquidate_iff hconfig hcdp, ← hpriced.below_iff hcdp hpos]
      exact ((hjudged config cdp hconfig hcdp).2 hpos).mpr hbelow

theorem liquidation_iff_sample :
    (∀ now liquidator, Liquidates (contract.play ⟨0, .empty⟩ mintedCalls).1.store now liquidator ⟨2⟩
          "sUSD" ↔ Underwater (contract.play ⟨0, .empty⟩ mintedCalls).1.store ⟨2⟩ "sUSD") ↔
      Judged (contract.play ⟨0, .empty⟩ mintedCalls).2 (contract.play ⟨0, .empty⟩ mintedCalls).1.store
        ⟨2⟩ "sUSD" :=
  liquidation_iff (Contract.run_play _ _ mintedCalls (by decide)) ⟨2⟩ "sUSD"

/-- A CDP that was just opened has no debt and can be liquidated, while a CDP whose asset rose to
ten times its price since the mint is below the liquidation ratio and cannot be. -/
theorem misjudged_cdps :
    (∃ w log, contract.Run ⟨0, .empty⟩ w log ∧ Liquidates w.store 5 ⟨3⟩ ⟨2⟩ "sUSD" ∧
        ¬ Underwater w.store ⟨2⟩ "sUSD") ∧
      ∃ w log, contract.Run ⟨0, .empty⟩ w log ∧ Underwater w.store ⟨2⟩ "sUSD" ∧
        ¬ Liquidates w.store 6 ⟨3⟩ ⟨2⟩ "sUSD" := by
  constructor
  · refine ⟨_, _, Contract.run_play _ _ (mintedCalls.take 4) (by decide), ?_, ?_⟩
    · exact (liquidate_iff rfl rfl).mpr ⟨by decide, by decide, by decide, by decide⟩
    · rintro ⟨config, cdp, -, hcdp, hdebt, -⟩
      obtain rfl := Option.some.inj hcdp
      exact absurd hdebt (by decide)
  · refine ⟨_, _, Contract.run_play _ _
      (mintedCalls ++ [(6, .updatePrice ⟨1⟩ "sUSD" 10000000)]) (by decide), ?_, fun h => ?_⟩
    · exact ⟨_, _, rfl, rfl, by decide, _, rfl, by decide⟩
    · exact absurd ((liquidate_iff rfl rfl).mp h).1 (by decide)

end Stellara.Synthetic
