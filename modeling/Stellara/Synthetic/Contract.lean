import Stellara.Host.Soroban

/-!
# The synthetic assets contract

An administrator registers synthetic assets and feeds their prices. Anybody opens a CDP
(collateralized debt position) for an asset, mints the asset against its collateral and burns it
again; a CDP whose ratio is too low can be liquidated by anybody. The configuration of an asset
keeps the total minted over all of its CDPs, and every CDP keeps the collateral ratio that was
computed when the CDP last changed.

## Main definitions

* `CDP`, `SyntheticConfig`, `State`: the storage of the contract
* `collateralRatio`: the ratio of a collateral and a debt at a price
* `registerAsset`, `updatePrice`, `openCdp`, `mint`, `burn`, `addCollateral`, `liquidate`,
  `closeCdp`: the entry points
* `contract`: the synthetic assets contract as a transactional contract
* `Effect`: what a call that returns writes

## Main results

* `execute_effect`: a call that returns writes its effect
-/

namespace Stellara.Synthetic

/-! ## Storage -/

inductive Error where
  | alreadyInitialized
  | notInitialized
  | unauthorized
  | invalidAmount
  | insufficientCollateral
  | belowMinCratio
  | cdpNotFound
  | notLiquidatable
  | assetNotFound
deriving DecidableEq, Repr

/-- A collateralized debt position. -/
structure CDP where
  owner : Address
  /-- In base units. -/
  collateralAmount : ℤ
  /-- Synthetic tokens minted. -/
  mintedAmount : ℤ
  /-- Scaled by 10000. -/
  collateralRatio : ℤ
  isActive : Bool
deriving DecidableEq, Repr

structure SyntheticConfig where
  /-- Scaled by 1000000. -/
  oraclePrice : ℤ
  /-- Scaled by 10000, as the next two. -/
  minCratio : ℤ
  liqCratio : ℤ
  liqPenalty : ℤ
  /-- Annual fee in basis points. -/
  stabilityFeeBps : ℤ
  totalMinted : ℤ
  isActive : Bool
deriving DecidableEq, Repr

inductive Event where
  | assetRegistered (asset : Symbol) (registeredBy : Address) (collateralRatio : ℤ) (timestamp : ℕ)
  | priceUpdated (asset : Symbol) (oldPrice newPrice : ℤ) (updatedBy : Address) (timestamp : ℕ)
  | cdpOpened (owner : Address) (asset : Symbol) (collateralAmount : ℤ) (timestamp : ℕ)
  | collateralAdded (owner : Address) (asset : Symbol) (amount newRatio : ℤ) (timestamp : ℕ)
  | cdpLiquidated (owner liquidator : Address) (asset : Symbol)
      (collateralSeized debtRepaid : ℤ) (timestamp : ℕ)
  | cdpClosed (owner : Address) (asset : Symbol) (collateralReturned : ℤ) (timestamp : ℕ)
deriving DecidableEq, Repr

/-- The key of a CDP: its owner and its asset. -/
abbrev CdpKey := Address × Symbol

/-- The storage of the contract, and its events. -/
structure State where
  admin : Option Address
  configs : Store Symbol SyntheticConfig
  cdps : Store CdpKey CDP
  events : List Event

/-- The contract before `init`. -/
def State.empty : State := ⟨none, ∅, ∅, []⟩

def publish (s : State) (event : Event) : State := { s with events := s.events ++ [event] }

def setConfig (s : State) (asset : Symbol) (config : SyntheticConfig) : State :=
  { s with configs := s.configs.insert asset config }

def setCdp (s : State) (key : CdpKey) (cdp : CDP) : State :=
  { s with cdps := s.cdps.insert key cdp }

def getConfig (s : State) (asset : Symbol) : Outcome Error SyntheticConfig :=
  orAbort (.error .assetNotFound) (s.configs.lookup asset)

def getCdp (s : State) (owner : Address) (asset : Symbol) : Outcome Error CDP :=
  orAbort (.error .cdpNotFound) (s.cdps.lookup (owner, asset))

def requireAdmin (s : State) (caller : Address) : Outcome Error Unit := do
  let admin ← orAbort (.error .notInitialized) s.admin
  require (admin = caller) (.error .unauthorized)

/-! ## Arithmetic -/

/-- A checked operation on signed 128-bit integers. -/
def checked (x : ℤ) : Outcome Error ℤ := IntFormat.i128.checked .overflow x

/-- A checked division of signed 128-bit integers. -/
def checkedDiv (x y : ℤ) : Outcome Error ℤ :=
  IntFormat.i128.checkedDiv (.panic "attempt to divide by zero") .overflow x y

/-- The ratio of a collateral and a debt at a price, scaled by 10000. -/
def collateralRatio (price collateral minted : ℤ) : Outcome Error ℤ := do
  let product ← checked (collateral * 1000000)
  let collateralUsd ← checkedDiv product price
  let scaled ← checked (collateralUsd * 10000)
  checkedDiv scaled minted

/-- The ratio while there is debt, else `unused`. -/
def ratioOrElse (price collateral minted unused : ℤ) : Outcome Error ℤ :=
  if 0 < minted then collateralRatio price collateral minted else .ok unused

/-! ## Entry points -/

/-- `initialize`. -/
def init (admin : Address) (s : State) : Outcome Error State := do
  require (s.admin = none) (.error .alreadyInitialized)
  .ok { s with admin := some admin }

/-- Register a synthetic asset with initial config. -/
def registerAsset (now : ℕ) (caller : Address) (asset : Symbol)
    (minCratio liqCratio liqPenalty stabilityFeeBps : ℤ) (s : State) : Outcome Error State := do
  requireAdmin s caller
  let config : SyntheticConfig :=
    ⟨0, minCratio, liqCratio, liqPenalty, stabilityFeeBps, 0, true⟩
  .ok (publish (setConfig s asset config)
    (.assetRegistered asset caller (IntFormat.u32.wrap minCratio) now))

/-- Update oracle price. The event has the new price as the old one. -/
def updatePrice (now : ℕ) (caller : Address) (asset : Symbol) (newPrice : ℤ) (s : State) :
    Outcome Error State := do
  requireAdmin s caller
  let config ← getConfig s asset
  let config := { config with oraclePrice := newPrice }
  .ok (publish (setConfig s asset config)
    (.priceUpdated asset config.oraclePrice newPrice caller now))

/-- Open CDP: deposit collateral. -/
def openCdp (now : ℕ) (owner : Address) (asset : Symbol) (collateralAmount : ℤ) (s : State) :
    Outcome Error State := do
  require (0 < collateralAmount) (.error .invalidAmount)
  let cdp : CDP := ⟨owner, collateralAmount, 0, 0, true⟩
  .ok (publish (setCdp s (owner, asset) cdp) (.cdpOpened owner asset collateralAmount now))

/-- Mint synthetic tokens against collateral. -/
def mint (owner : Address) (asset : Symbol) (mintAmount : ℤ) (s : State) :
    Outcome Error (ℤ × State) := do
  require (0 < mintAmount) (.error .invalidAmount)
  let config ← getConfig s asset
  let cdp ← getCdp s owner asset
  let newMinted ← checked (cdp.mintedAmount + mintAmount)
  let cratio ← collateralRatio config.oraclePrice cdp.collateralAmount newMinted
  require (config.minCratio ≤ cratio) (.error .belowMinCratio)
  let total ← checked (config.totalMinted + mintAmount)
  let s := setCdp s (owner, asset)
    { cdp with mintedAmount := newMinted, collateralRatio := cratio }
  .ok (newMinted, setConfig s asset { config with totalMinted := total })

/-- Burn synthetic tokens to reduce debt. -/
def burn (owner : Address) (asset : Symbol) (burnAmount : ℤ) (s : State) :
    Outcome Error State := do
  require (0 < burnAmount) (.error .invalidAmount)
  let config ← getConfig s asset
  let cdp ← getCdp s owner asset
  require (burnAmount ≤ cdp.mintedAmount) (.error .invalidAmount)
  let left ← checked (cdp.mintedAmount - burnAmount)
  let cratio ← ratioOrElse config.oraclePrice cdp.collateralAmount left IntFormat.i128.hi
  let total ← checked (config.totalMinted - burnAmount)
  let s := setCdp s (owner, asset) { cdp with mintedAmount := left, collateralRatio := cratio }
  .ok (setConfig s asset { config with totalMinted := total })

/-- Add more collateral to improve health. -/
def addCollateral (now : ℕ) (owner : Address) (asset : Symbol) (amount : ℤ) (s : State) :
    Outcome Error State := do
  require (0 < amount) (.error .invalidAmount)
  let config ← getConfig s asset
  let cdp ← getCdp s owner asset
  let collateral ← checked (cdp.collateralAmount + amount)
  let cratio ← ratioOrElse config.oraclePrice collateral cdp.mintedAmount cdp.collateralRatio
  let s := setCdp s (owner, asset)
    { cdp with collateralAmount := collateral, collateralRatio := cratio }
  .ok (publish s (.collateralAdded owner asset amount (IntFormat.u32.wrap cratio) now))

/-- Liquidate an undercollateralized CDP. The event has the debt that is left, which is zero. -/
def liquidate (now : ℕ) (liquidator cdpOwner : Address) (asset : Symbol) (s : State) :
    Outcome Error (ℤ × State) := do
  let config ← getConfig s asset
  let cdp ← getCdp s cdpOwner asset
  require (cdp.collateralRatio < config.liqCratio) (.error .notLiquidatable)
  let product ← checked (cdp.collateralAmount * config.liqPenalty)
  let rest ← checked (cdp.collateralAmount - product.tdiv 10000)
  let seized := min cdp.collateralAmount rest
  let total ← checked (config.totalMinted - cdp.mintedAmount)
  let cdp := { cdp with isActive := false, mintedAmount := 0, collateralAmount := 0 }
  let s := setConfig (setCdp s (cdpOwner, asset) cdp) asset { config with totalMinted := total }
  .ok (seized,
    publish s (.cdpLiquidated cdpOwner liquidator asset seized cdp.mintedAmount now))

/-- Close a CDP with zero debt. -/
def closeCdp (now : ℕ) (owner : Address) (asset : Symbol) (s : State) :
    Outcome Error (ℤ × State) := do
  let cdp ← getCdp s owner asset
  require (cdp.mintedAmount ≤ 0) (.error .insufficientCollateral)
  let returned := cdp.collateralAmount
  let s := setCdp s (owner, asset) { cdp with isActive := false, collateralAmount := 0 }
  .ok (returned, publish s (.cdpClosed owner asset returned now))

/-! ## The contract -/

inductive Call where
  | init (admin : Address)
  | registerAsset (caller : Address) (asset : Symbol)
      (minCratio liqCratio liqPenalty stabilityFeeBps : ℤ)
  | updatePrice (caller : Address) (asset : Symbol) (newPrice : ℤ)
  | openCdp (owner : Address) (asset : Symbol) (collateralAmount : ℤ)
  | mint (owner : Address) (asset : Symbol) (mintAmount : ℤ)
  | burn (owner : Address) (asset : Symbol) (burnAmount : ℤ)
  | addCollateral (owner : Address) (asset : Symbol) (amount : ℤ)
  | liquidate (liquidator cdpOwner : Address) (asset : Symbol)
  | closeCdp (owner : Address) (asset : Symbol)
deriving DecidableEq, Repr

/-- Execute a call. What it returns is an amount, or nothing. -/
def execute (now : ℕ) (s : State) : Call → Outcome Error (Option ℤ × State)
  | .init admin => do .ok (none, ← init admin s)
  | .registerAsset caller asset minCratio liqCratio liqPenalty stabilityFeeBps => do
    .ok (none, ← registerAsset now caller asset minCratio liqCratio liqPenalty stabilityFeeBps s)
  | .updatePrice caller asset newPrice => do .ok (none, ← updatePrice now caller asset newPrice s)
  | .openCdp owner asset collateralAmount => do
    .ok (none, ← openCdp now owner asset collateralAmount s)
  | .mint owner asset mintAmount => do
    let (minted, s) ← mint owner asset mintAmount s
    .ok (some minted, s)
  | .burn owner asset burnAmount => do .ok (none, ← burn owner asset burnAmount s)
  | .addCollateral owner asset amount => do .ok (none, ← addCollateral now owner asset amount s)
  | .liquidate liquidator cdpOwner asset => do
    let (seized, s) ← liquidate now liquidator cdpOwner asset s
    .ok (some seized, s)
  | .closeCdp owner asset => do
    let (returned, s) ← closeCdp now owner asset s
    .ok (some returned, s)

/-- The synthetic assets contract. -/
def contract : Contract State Call (Option ℤ) (Fault Error) where
  exec now call s := execute now s call

/-! ## What the calls write -/

/-- What a call that returns writes to the configurations and the CDPs. -/
def Effect (s s' : State) : Call → Prop
  | .init _ => s'.configs = s.configs ∧ s'.cdps = s.cdps
  | .registerAsset _ asset minCratio liqCratio liqPenalty stabilityFeeBps =>
    s'.configs = s.configs.insert asset
        ⟨0, minCratio, liqCratio, liqPenalty, stabilityFeeBps, 0, true⟩ ∧
      s'.cdps = s.cdps
  | .updatePrice _ asset newPrice => ∃ config, s.configs.lookup asset = some config ∧
      s'.configs = s.configs.insert asset { config with oraclePrice := newPrice } ∧
      s'.cdps = s.cdps
  | .openCdp owner asset collateralAmount => 0 < collateralAmount ∧ s'.configs = s.configs ∧
      s'.cdps = s.cdps.insert (owner, asset) ⟨owner, collateralAmount, 0, 0, true⟩
  | .mint owner asset mintAmount => ∃ config cdp cratio,
      s.configs.lookup asset = some config ∧ s.cdps.lookup (owner, asset) = some cdp ∧
      0 < mintAmount ∧
      collateralRatio config.oraclePrice cdp.collateralAmount (cdp.mintedAmount + mintAmount) =
        .ok cratio ∧
      s'.configs = s.configs.insert asset
        { config with totalMinted := config.totalMinted + mintAmount } ∧
      s'.cdps = s.cdps.insert (owner, asset)
        { cdp with mintedAmount := cdp.mintedAmount + mintAmount, collateralRatio := cratio }
  | .burn owner asset burnAmount => ∃ config cdp cratio,
      s.configs.lookup asset = some config ∧ s.cdps.lookup (owner, asset) = some cdp ∧
      burnAmount ≤ cdp.mintedAmount ∧
      (0 < cdp.mintedAmount - burnAmount →
        collateralRatio config.oraclePrice cdp.collateralAmount (cdp.mintedAmount - burnAmount) =
          .ok cratio) ∧
      s'.configs = s.configs.insert asset
        { config with totalMinted := config.totalMinted - burnAmount } ∧
      s'.cdps = s.cdps.insert (owner, asset)
        { cdp with mintedAmount := cdp.mintedAmount - burnAmount, collateralRatio := cratio }
  | .addCollateral owner asset amount => ∃ config cdp cratio,
      s.configs.lookup asset = some config ∧ s.cdps.lookup (owner, asset) = some cdp ∧
      0 < amount ∧
      (0 < cdp.mintedAmount →
        collateralRatio config.oraclePrice (cdp.collateralAmount + amount) cdp.mintedAmount =
          .ok cratio) ∧
      s'.configs = s.configs ∧
      s'.cdps = s.cdps.insert (owner, asset)
        { cdp with collateralAmount := cdp.collateralAmount + amount, collateralRatio := cratio }
  | .liquidate _ cdpOwner asset => ∃ config cdp,
      s.configs.lookup asset = some config ∧ s.cdps.lookup (cdpOwner, asset) = some cdp ∧
      s'.configs = s.configs.insert asset
        { config with totalMinted := config.totalMinted - cdp.mintedAmount } ∧
      s'.cdps = s.cdps.insert (cdpOwner, asset)
        { cdp with isActive := false, mintedAmount := 0, collateralAmount := 0 }
  | .closeCdp owner asset => ∃ cdp, s.cdps.lookup (owner, asset) = some cdp ∧
      cdp.mintedAmount ≤ 0 ∧ s'.configs = s.configs ∧
      s'.cdps = s.cdps.insert (owner, asset) { cdp with isActive := false, collateralAmount := 0 }

theorem execute_effect {now : ℕ} {s s' : State} {call : Call} {r : Option ℤ}
    (h : execute now s call = .ok (r, s')) : Effect s s' call := by
  cases call with
  | init admin =>
    simp only [execute, init, Except.bind_eq_ok, require_eq_ok, exists_const] at h
    obtain ⟨_, ⟨-, h₁⟩, h⟩ := h
    obtain rfl := Except.ok.inj h₁
    obtain ⟨-, rfl⟩ := Prod.mk.inj (Except.ok.inj h)
    exact ⟨rfl, rfl⟩
  | registerAsset caller asset minCratio liqCratio liqPenalty stabilityFeeBps =>
    simp only [execute, registerAsset, Except.bind_eq_ok] at h
    obtain ⟨_, ⟨_, -, h₁⟩, h⟩ := h
    obtain rfl := Except.ok.inj h₁
    obtain ⟨-, rfl⟩ := Prod.mk.inj (Except.ok.inj h)
    exact ⟨rfl, rfl⟩
  | updatePrice caller asset newPrice =>
    simp only [execute, updatePrice, getConfig, Except.bind_eq_ok, orAbort_eq_ok] at h
    obtain ⟨_, ⟨_, -, config, hconfig, h₁⟩, h⟩ := h
    obtain rfl := Except.ok.inj h₁
    obtain ⟨-, rfl⟩ := Prod.mk.inj (Except.ok.inj h)
    exact ⟨config, hconfig, rfl, rfl⟩
  | openCdp owner asset collateralAmount =>
    simp only [execute, openCdp, Except.bind_eq_ok, require_eq_ok, exists_const] at h
    obtain ⟨_, ⟨hpos, h₁⟩, h⟩ := h
    obtain rfl := Except.ok.inj h₁
    obtain ⟨-, rfl⟩ := Prod.mk.inj (Except.ok.inj h)
    exact ⟨hpos, rfl, rfl⟩
  | mint owner asset mintAmount =>
    simp only [execute, mint, getConfig, getCdp, checked, Except.bind_eq_ok, require_eq_ok,
      orAbort_eq_ok, IntFormat.checked_eq_ok, exists_const] at h
    obtain ⟨_, ⟨hpos, config, hconfig, cdp, hcdp, _, ⟨-, rfl⟩, cratio, hratio, -, _, ⟨-, rfl⟩,
      h₁⟩, h⟩ := h
    obtain rfl := Except.ok.inj h₁
    obtain ⟨-, rfl⟩ := Prod.mk.inj (Except.ok.inj h)
    exact ⟨config, cdp, cratio, hconfig, hcdp, hpos, hratio, rfl, rfl⟩
  | burn owner asset burnAmount =>
    simp only [execute, burn, getConfig, getCdp, checked, Except.bind_eq_ok, require_eq_ok,
      orAbort_eq_ok, IntFormat.checked_eq_ok, exists_const] at h
    obtain ⟨_, ⟨-, config, hconfig, cdp, hcdp, hle, _, ⟨-, rfl⟩, cratio, hratio, _, ⟨-, rfl⟩,
      h₁⟩, h⟩ := h
    obtain rfl := Except.ok.inj h₁
    obtain ⟨-, rfl⟩ := Prod.mk.inj (Except.ok.inj h)
    exact ⟨config, cdp, cratio, hconfig, hcdp, hle,
      fun hleft => by rwa [ratioOrElse, if_pos hleft] at hratio, rfl, rfl⟩
  | addCollateral owner asset amount =>
    simp only [execute, addCollateral, getConfig, getCdp, checked, Except.bind_eq_ok,
      require_eq_ok, orAbort_eq_ok, IntFormat.checked_eq_ok, exists_const] at h
    obtain ⟨_, ⟨hpos, config, hconfig, cdp, hcdp, _, ⟨-, rfl⟩, cratio, hratio, h₁⟩, h⟩ := h
    obtain rfl := Except.ok.inj h₁
    obtain ⟨-, rfl⟩ := Prod.mk.inj (Except.ok.inj h)
    exact ⟨config, cdp, cratio, hconfig, hcdp, hpos,
      fun hdebt => by rwa [ratioOrElse, if_pos hdebt] at hratio, rfl, rfl⟩
  | liquidate liquidator cdpOwner asset =>
    simp only [execute, liquidate, getConfig, getCdp, checked, Except.bind_eq_ok, require_eq_ok,
      orAbort_eq_ok, IntFormat.checked_eq_ok, exists_const] at h
    obtain ⟨_, ⟨config, hconfig, cdp, hcdp, -, _, -, _, -, _, ⟨-, rfl⟩, h₁⟩, h⟩ := h
    obtain rfl := Except.ok.inj h₁
    obtain ⟨-, rfl⟩ := Prod.mk.inj (Except.ok.inj h)
    exact ⟨config, cdp, hconfig, hcdp, rfl, rfl⟩
  | closeCdp owner asset =>
    simp only [execute, closeCdp, getCdp, Except.bind_eq_ok, require_eq_ok, orAbort_eq_ok,
      exists_const] at h
    obtain ⟨_, ⟨cdp, hcdp, hle, h₁⟩, h⟩ := h
    obtain rfl := Except.ok.inj h₁
    obtain ⟨-, rfl⟩ := Prod.mk.inj (Except.ok.inj h)
    exact ⟨cdp, hcdp, hle, rfl, rfl⟩

end Stellara.Synthetic
