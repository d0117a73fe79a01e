import Stellara.Synthetic.Contract

/-!
# The debt of the synthetic assets

The configuration of an asset keeps the total of the debts of its CDPs, and each call adds to it
what it adds to the CDP it writes. Two calls write without settling: `openCdp` replaces the CDP of
its owner together with its debt, and `registerAsset` replaces the total of an asset by zero.

## Main definitions

* `totalDebt`: the debt of all CDPs of an asset
* `Accounted`: the configurations keep the debts
* `Settles`: the calls that replace no debt

## Main results

* `Sound.execute`: collaterals and debts are not negative, and only registered assets have debts
* `accounted_iff`: which calls keep the totals
* `debts_accounted_iff`: the totals are right throughout a run exactly when no call replaces a debt
-/

namespace Stellara.Synthetic

variable {s s' : State} {call : Call} {owner : Address} {asset : Symbol} {key : CdpKey} {cdp : CDP}
  {cdps : Store CdpKey CDP}

/-! ## Sums of debts -/

/-- The debt of a stored CDP; a CDP that is not stored has none. -/
def debtAt (cdps : Store CdpKey CDP) (key : CdpKey) : ℤ :=
  (cdps.lookup key).elim 0 CDP.mintedAmount

/-- The debt of all CDPs of an asset. -/
def totalDebt (cdps : Store CdpKey CDP) (asset : Symbol) : ℤ :=
  Store.total (fun key cdp => if key.2 = asset then cdp.mintedAmount else 0) cdps

theorem debtAt_of_lookup (h : cdps.lookup key = some cdp) : debtAt cdps key = cdp.mintedAmount := by
  rw [debtAt, h, Option.elim_some]

/-- A write changes the debt of its asset from the old debt of the CDP to the new one. -/
theorem totalDebt_insert (cdps : Store CdpKey CDP) (key : CdpKey) (cdp : CDP) (asset : Symbol) :
    totalDebt (cdps.insert key cdp) asset =
      totalDebt cdps asset + if key.2 = asset then cdp.mintedAmount - debtAt cdps key else 0 := by
  have hsum := Store.total_insert_elim (f := fun (key : CdpKey) (cdp : CDP) =>
    if key.2 = asset then cdp.mintedAmount else 0) (m := cdps) (k := key) (v := cdp)
  have hold : ((cdps.lookup key).elim 0 fun cdp => if key.2 = asset then cdp.mintedAmount else 0) =
      if key.2 = asset then debtAt cdps key else 0 := by
    unfold debtAt
    cases cdps.lookup key <;> simp
  rw [hold] at hsum
  simp only [totalDebt]
  split at hsum <;> rename_i hkey
  · rw [if_pos hkey]
    omega
  · rw [if_neg hkey]
    omega

/-- A write that keeps the debt of its CDP keeps all sums. -/
theorem totalDebt_insert_same (h : cdp.mintedAmount = debtAt cdps key) (asset : Symbol) :
    totalDebt (cdps.insert key cdp) asset = totalDebt cdps asset := by
  rw [totalDebt_insert, h, sub_self, ite_self, add_zero]

/-! ## What every run keeps -/

/-- Collaterals and debts are not negative, and only registered assets have debts. -/
structure Sound (s : State) : Prop where
  nonneg : ∀ key cdp, s.cdps.lookup key = some cdp → 0 ≤ cdp.collateralAmount ∧ 0 ≤ cdp.mintedAmount
  registered : ∀ key cdp, s.cdps.lookup key = some cdp → s.configs.lookup key.2 = none →
    cdp.mintedAmount = 0

theorem Sound.empty : Sound .empty where
  nonneg _ _ h := by cases h
  registered _ _ h := by cases h

/-- A CDP is written with a collateral and a debt that are not negative; no registration is lost. -/
theorem Sound.write (h : Sound s) (hcdps : s'.cdps = s.cdps.insert key cdp)
    (hconfigs : ∀ asset, s'.configs.lookup asset = none → s.configs.lookup asset = none)
    (hcollateral : 0 ≤ cdp.collateralAmount) (hminted : 0 ≤ cdp.mintedAmount)
    (hregistered : s'.configs.lookup key.2 = none → cdp.mintedAmount = 0) : Sound s' := by
  constructor
  · intro key' cdp' hcdp'
    rw [hcdps] at hcdp'
    rcases Store.eq_or_lookup_of_insert hcdp' with ⟨-, rfl⟩ | ⟨-, hold⟩
    · exact ⟨hcollateral, hminted⟩
    · exact h.nonneg key' cdp' hold
  · intro key' cdp' hcdp' hnone
    rw [hcdps] at hcdp'
    rcases Store.eq_or_lookup_of_insert hcdp' with ⟨rfl, rfl⟩ | ⟨-, hold⟩
    · exact hregistered hnone
    · exact h.registered key' cdp' hold (hconfigs _ hnone)

/-- Only configurations are written. -/
theorem Sound.configure (h : Sound s) (hcdps : s'.cdps = s.cdps)
    (hconfigs : ∀ asset, s'.configs.lookup asset = none → s.configs.lookup asset = none) :
    Sound s' := by
  constructor
  · rw [hcdps]
    exact h.nonneg
  · rw [hcdps]
    exact fun key cdp hcdp hnone => h.registered key cdp hcdp (hconfigs _ hnone)

theorem Sound.effect (h : Sound s) (he : Effect s s' call) : Sound s' := by
  cases call with
  | init admin => exact h.configure he.2 fun _ hnone => by rwa [← he.1]
  | registerAsset caller asset minCratio liqCratio liqPenalty stabilityFeeBps =>
    exact h.configure he.2 fun asset' hnone => (Store.lookup_insert_eq_none.mp (he.1 ▸ hnone)).2
  | updatePrice caller asset newPrice =>
    obtain ⟨config, -, hconfigs, hcdps⟩ := he
    exact h.configure hcdps fun asset' hnone =>
      (Store.lookup_insert_eq_none.mp (hconfigs ▸ hnone)).2
  | openCdp owner asset collateralAmount =>
    obtain ⟨hpos, hconfigs, hcdps⟩ := he
    exact h.write hcdps (fun _ hnone => by rwa [← hconfigs]) hpos.le le_rfl fun _ => rfl
  | mint owner asset mintAmount =>
    obtain ⟨config, cdp, cratio, -, hcdp, hpos, -, hconfigs, hcdps⟩ := he
    obtain ⟨hcollateral, hminted⟩ := h.nonneg _ _ hcdp
    exact h.write hcdps (fun _ hnone => (Store.lookup_insert_eq_none.mp (hconfigs ▸ hnone)).2)
      hcollateral (by show 0 ≤ cdp.mintedAmount + mintAmount; omega)
      fun hnone => absurd rfl (Store.lookup_insert_eq_none.mp (hconfigs ▸ hnone)).1
  | burn owner asset burnAmount =>
    obtain ⟨config, cdp, cratio, -, hcdp, hle, -, hconfigs, hcdps⟩ := he
    exact h.write hcdps (fun _ hnone => (Store.lookup_insert_eq_none.mp (hconfigs ▸ hnone)).2)
      (h.nonneg _ _ hcdp).1 (by show 0 ≤ cdp.mintedAmount - burnAmount; omega)
      fun hnone => absurd rfl (Store.lookup_insert_eq_none.mp (hconfigs ▸ hnone)).1
  | addCollateral owner asset amount =>
    obtain ⟨config, cdp, cratio, hconfig, hcdp, hpos, -, hconfigs, hcdps⟩ := he
    obtain ⟨hcollateral, hminted⟩ := h.nonneg _ _ hcdp
    refine h.write hcdps (fun _ hnone => by rwa [← hconfigs])
      (by show 0 ≤ cdp.collateralAmount + amount; omega) hminted fun hnone => ?_
    rw [hconfigs] at hnone
    rw [hconfig] at hnone
    cases hnone
  | liquidate liquidator cdpOwner asset =>
    obtain ⟨config, cdp, -, hcdp, hconfigs, hcdps⟩ := he
    exact h.write hcdps (fun _ hnone => (Store.lookup_insert_eq_none.mp (hconfigs ▸ hnone)).2)
      le_rfl le_rfl fun _ => rfl
  | closeCdp owner asset =>
    obtain ⟨cdp, hcdp, -, hconfigs, hcdps⟩ := he
    exact h.write hcdps (fun _ hnone => by rwa [← hconfigs]) le_rfl (h.nonneg _ _ hcdp).2
      fun hnone => (h.registered _ _ hcdp (hconfigs ▸ hnone) :)

/-- Collaterals and debts are never negative, and only registered assets have debts. -/
theorem Sound.execute {now : ℕ} {r : Option ℤ} (h : Sound s)
    (he : execute now s call = .ok (r, s')) : Sound s' :=
  h.effect (execute_effect he)

/-! ## The totals -/

/-- Every configuration keeps the debt of the CDPs of its asset. -/
def Accounted (s : State) : Prop :=
  ∀ asset config, s.configs.lookup asset = some config → config.totalMinted = totalDebt s.cdps asset

/-- A call replaces no debt: a CDP that is opened has no debt already, and an asset that is
registered has no CDP with a debt. -/
def Settles (s : State) : Call → Prop
  | .openCdp owner asset _ => ∀ cdp, s.cdps.lookup (owner, asset) = some cdp → cdp.mintedAmount = 0
  | .registerAsset _ asset _ _ _ _ =>
    ∀ owner cdp, s.cdps.lookup (owner, asset) = some cdp → cdp.mintedAmount = 0
  | _ => True

/-- A call that adds to the total what it adds to a CDP of the asset keeps the totals. -/
theorem Accounted.settle {config config' : SyntheticConfig} (h : Accounted s)
    (hconfig : s.configs.lookup asset = some config)
    (hconfigs : s'.configs = s.configs.insert asset config')
    (hcdps : s'.cdps = s.cdps.insert (owner, asset) cdp)
    (htotal : config'.totalMinted =
      config.totalMinted + (cdp.mintedAmount - debtAt s.cdps (owner, asset))) : Accounted s' := by
  intro asset' config'' hlookup
  rw [hconfigs] at hlookup
  rw [hcdps, totalDebt_insert]
  rcases Store.eq_or_lookup_of_insert hlookup with ⟨rfl, rfl⟩ | ⟨hne, hold⟩
  · rw [if_pos rfl, htotal, h _ _ hconfig]
  · rw [if_neg (Ne.symm hne), add_zero, h _ _ hold]

/-- A call that keeps the configurations and the debts keeps the totals. -/
theorem Accounted.keep (h : Accounted s) (hconfigs : s'.configs = s.configs)
    (hcdps : s'.cdps = s.cdps.insert key cdp) (hdebt : cdp.mintedAmount = debtAt s.cdps key) :
    Accounted s' := by
  intro asset' config hlookup
  rw [hcdps, totalDebt_insert_same hdebt]
  exact h _ _ (hconfigs ▸ hlookup)

/-- The sum of debts that are not negative is zero when all of them are. -/
theorem Sound.totalDebt_eq_zero (h : Sound s) : totalDebt s.cdps asset = 0 ↔
    ∀ owner cdp, s.cdps.lookup (owner, asset) = some cdp → cdp.mintedAmount = 0 := by
  constructor
  · intro hzero owner cdp hcdp
    have hle := Store.le_total (f := fun (key : CdpKey) (cdp : CDP) =>
      if key.2 = asset then cdp.mintedAmount else 0) (fun key cdp hcdp => by
        split
        · exact (h.nonneg key cdp hcdp).2
        · exact le_rfl) hcdp
    have hnonneg := (h.nonneg _ _ hcdp).2
    rw [if_pos rfl] at hle
    unfold totalDebt at hzero
    omega
  · intro hall
    have hsame : totalDebt s.cdps asset = Store.total (fun _ _ => 0) s.cdps := by
      refine Store.total_congr fun key cdp hcdp => ?_
      split
      · rename_i hkey
        exact hall key.1 cdp (by rw [← hkey]; exact hcdp)
      · rfl
    simp [hsame, Store.total]

/-- Where the totals are right, a call keeps them exactly when it replaces no debt. -/
theorem accounted_iff (hsound : Sound s) (h : Accounted s) (he : Effect s s' call) :
    Accounted s' ↔ Settles s call := by
  cases call with
  | init admin =>
    refine iff_of_true (fun asset config hlookup => ?_) trivial
    rw [he.2]
    exact h _ _ (he.1 ▸ hlookup)
  | registerAsset caller asset minCratio liqCratio liqPenalty stabilityFeeBps =>
    obtain ⟨hconfigs, hcdps⟩ := he
    show Accounted s' ↔ ∀ owner cdp, _
    rw [← hsound.totalDebt_eq_zero, ← hcdps]
    constructor
    · intro h'
      exact (h' asset _ (by rw [hconfigs]; exact AList.lookup_insert _)).symm
    · intro hzero asset' config hlookup
      rw [hconfigs] at hlookup
      rcases Store.eq_or_lookup_of_insert hlookup with ⟨rfl, rfl⟩ | ⟨-, hold⟩
      · exact hzero.symm
      · rw [hcdps]
        exact h _ _ hold
  | updatePrice caller asset newPrice =>
    obtain ⟨config, hconfig, hconfigs, hcdps⟩ := he
    refine iff_of_true (fun asset' config' hlookup => ?_) trivial
    rw [hconfigs] at hlookup
    rw [hcdps]
    rcases Store.eq_or_lookup_of_insert hlookup with ⟨rfl, rfl⟩ | ⟨-, hold⟩
    · exact (h _ _ hconfig :)
    · exact h _ _ hold
  | openCdp owner asset collateralAmount =>
    obtain ⟨-, hconfigs, hcdps⟩ := he
    constructor
    · intro h' cdp hcdp
      cases hconfig : s.configs.lookup asset with
      | none => exact hsound.registered _ _ hcdp hconfig
      | some config =>
        -- the replaced debt is missing from the sum, and not from the total
        have hafter := h' asset config (by rw [hconfigs]; exact hconfig)
        rw [hcdps, totalDebt_insert, if_pos rfl, debtAt_of_lookup hcdp, h _ _ hconfig] at hafter
        simp only at hafter
        omega
    · intro hsettles
      refine h.keep hconfigs hcdps ?_
      show 0 = debtAt s.cdps (owner, asset)
      unfold debtAt
      cases hcdp : s.cdps.lookup (owner, asset) with
      | none => rfl
      | some cdp => exact (hsettles cdp hcdp).symm
  | mint owner asset mintAmount =>
    obtain ⟨config, cdp, cratio, hconfig, hcdp, -, -, hconfigs, hcdps⟩ := he
    refine iff_of_true (h.settle hconfig hconfigs hcdps ?_) trivial
    rw [debtAt_of_lookup hcdp]
    show config.totalMinted + mintAmount =
      _ + (cdp.mintedAmount + mintAmount - cdp.mintedAmount)
    omega
  | burn owner asset burnAmount =>
    obtain ⟨config, cdp, cratio, hconfig, hcdp, -, -, hconfigs, hcdps⟩ := he
    refine iff_of_true (h.settle hconfig hconfigs hcdps ?_) trivial
    rw [debtAt_of_lookup hcdp]
    show config.totalMinted - burnAmount =
      _ + (cdp.mintedAmount - burnAmount - cdp.mintedAmount)
    omega
  | addCollateral owner asset amount =>
    obtain ⟨config, cdp, cratio, -, hcdp, -, -, hconfigs, hcdps⟩ := he
    exact iff_of_true (h.keep hconfigs hcdps (debtAt_of_lookup hcdp).symm) trivial
  | liquidate liquidator cdpOwner asset =>
    obtain ⟨config, cdp, hconfig, hcdp, hconfigs, hcdps⟩ := he
    refine iff_of_true (h.settle hconfig hconfigs hcdps ?_) trivial
    rw [debtAt_of_lookup hcdp]
    show config.totalMinted - cdp.mintedAmount = _ + (0 - cdp.mintedAmount)
    omega
  | closeCdp owner asset =>
    obtain ⟨cdp, hcdp, -, hconfigs, hcdps⟩ := he
    exact iff_of_true (h.keep hconfigs hcdps (debtAt_of_lookup hcdp).symm) trivial

/-! ## Runs -/

/-- The totals are the sums of the debts, and no CDP has a negative collateral or debt. -/
structure DebtSound (s : State) : Prop where
  accounted : Accounted s
  nonneg : ∀ key cdp, s.cdps.lookup key = some cdp → 0 ≤ cdp.collateralAmount ∧ 0 ≤ cdp.mintedAmount

theorem Sound.debtSound_iff (h : Sound s) : DebtSound s ↔ Accounted s :=
  ⟨fun hs => hs.accounted, fun hs => ⟨hs, h.nonneg⟩⟩

variable {now : ℕ} {w : World State} {log : List (Commit State Call (Option ℤ))}

/-- In every run the totals of the registered assets are the sums of the debts in every state, with
no negative collateral or debt, exactly when no committed call replaces a debt. -/
theorem debts_accounted_iff (hrun : contract.Run ⟨now, .empty⟩ w log) :
    (DebtSound w.store ∧ ∀ c ∈ log, DebtSound c.before ∧ DebtSound c.after) ↔
      ∀ c ∈ log, Settles c.before c.call := by
  refine hrun.invariant_iff (S := Sound) (I := DebtSound) (G := fun c => Settles c.before c.call)
    (fun _ _ _ _ _ hs he => hs.execute he) (fun c hsound hs he => ?_) .empty
    ⟨fun _ _ hlookup => (by cases hlookup), Sound.empty.nonneg⟩
  rw [(hsound.execute he).debtSound_iff]
  exact accounted_iff hsound hs.accounted (execute_effect he)

/-- An asset at a price of 1, and a CDP with a collateral of 1000 that mints 100. -/
def mintedCalls : List (ℕ × Call) :=
  [(1, .init ⟨1⟩), (2, .registerAsset ⟨1⟩ "sUSD" 15000 12000 1300 200),
    (3, .updatePrice ⟨1⟩ "sUSD" 1000000), (4, .openCdp ⟨2⟩ "sUSD" 1000),
    (5, .mint ⟨2⟩ "sUSD" 100)]

theorem debts_accounted_iff_sample :
    (DebtSound (contract.play ⟨0, .empty⟩ mintedCalls).1.store ∧
        ∀ c ∈ (contract.play ⟨0, .empty⟩ mintedCalls).2, DebtSound c.before ∧ DebtSound c.after) ↔
      ∀ c ∈ (contract.play ⟨0, .empty⟩ mintedCalls).2, Settles c.before c.call :=
  debts_accounted_iff (Contract.run_play _ _ mintedCalls (by decide))

/-- A CDP that is opened again loses its debt, and the total keeps it. -/
theorem reopened_cdp_not_accounted :
    ∃ w log, contract.Run ⟨0, .empty⟩ w log ∧ ¬ DebtSound w.store := by
  refine ⟨_, _, Contract.run_play _ _ (mintedCalls ++ [(6, .openCdp ⟨2⟩ "sUSD" 1)]) (by decide),
    fun h => ?_⟩
  exact absurd (h.accounted "sUSD" _ rfl) (by decide)

end Stellara.Synthetic
