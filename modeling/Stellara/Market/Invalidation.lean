import Stellara.Market.Cache

/-!
# Targeted invalidation

The cache of the market data is told which entries are out of date: by the keys, by a pattern that
the keys begin with, by an update of an asset, whose code is such a pattern, or by a manual event
that carries keys or a pattern. A pattern is compared with the hashes of the keys. A manual event
with a namespace removes the whole namespace, whatever it carries, and one without removes nothing.
So a removal by keys is exact, and each of the others in particular contents of the cache only.

## Main definitions

* `handleAssetUpdate`, `handleManualInvalidation`: the events
* `invalidateMarketCache`: the removal for an asset
* `Listed`, `Matching`: the entries that a list of keys, or a pattern, is meant for

## Main results

* `handleManualInvalidation_iff`: when a manual event removes the entries it is meant for
* `targeted_invalidation_iff`: when each of the removals is exact
-/

namespace Stellara.MarketData

open Quotas (Literal)

/-! ## Events -/

inductive UpdateType where
  | price
  | metadata
  | trustlines
deriving DecidableEq, Repr

def UpdateType.text : UpdateType → String
  | .price => "price"
  | .metadata => "metadata"
  | .trustlines => "trustlines"

structure AssetUpdateEvent where
  assetCode : String
  issuer : String
  updateType : UpdateType
deriving DecidableEq, Repr

structure ManualInvalidationEvent where
  ns : Option CacheNamespace
  keys : Option (List String)
  pattern : Option String
deriving DecidableEq, Repr

/-- The event that is emitted after a removal. -/
structure CacheInvalidationEvent where
  ns : Option CacheNamespace
  keys : Option (List String)
  pattern : Option String
  reason : String
deriving DecidableEq, Repr

variable {V : Type}

/-- The text is there, and it is not empty. -/
def truthy (text : Option String) : Option String := text.filter (· ≠ "")

/-- An asset was updated. -/
def handleAssetUpdate (glob : String → String → Bool) (event : AssetUpdateEvent)
    (s : Store String V) : CacheInvalidationEvent × Store String V :=
  let s := (invalidateByPattern glob event.assetCode .priceData s).2
  let s := (invalidateNamespace glob .marketSnapshot s).2
  (⟨some .priceData, none, some event.assetCode, "Asset update: " ++ event.updateType.text⟩, s)

/-- The number of keys that a manual event removes, and the database after it. -/
def manualRemoval (sha256 : String → String) (glob : String → String → Bool)
    (event : ManualInvalidationEvent) (s : Store String V) : ℕ × Store String V :=
  -- the branches behind the first one ask for the namespace as well, and are never taken
  if let some ns := event.ns then invalidateNamespace glob ns s
  else if let (some pattern, some ns) := (truthy event.pattern, event.ns) then
    invalidateByPattern glob pattern ns s
  else if let (some keys, some ns) := (event.keys, event.ns) then invalidate sha256 keys ns s
  else (0, s)

/-- A manual invalidation was requested. -/
def handleManualInvalidation (sha256 : String → String) (glob : String → String → Bool)
    (event : ManualInvalidationEvent) (s : Store String V) :
    CacheInvalidationEvent × Store String V :=
  (⟨event.ns, event.keys, event.pattern, "Manual invalidation"⟩,
    (manualRemoval sha256 glob event s).2)

/-- Invalidate market data cache. -/
def invalidateMarketCache (glob : String → String → Bool) (assetCode : Option String)
    (s : Store String V) : ℕ × Store String V :=
  match truthy assetCode with
  | some assetCode => invalidateByPattern glob assetCode .priceData s
  | none => invalidateNamespace glob .marketSnapshot s

/-- The key of the price of an asset. -/
def assetPriceKey (assetCode issuer : String) : String := assetCode ++ ":" ++ issuer

/-! ## What events are for -/

/-- The entries of a namespace with these keys. -/
def Listed (ns : CacheNamespace) (keys : List String) (ns' : CacheNamespace) (key : String) :
    Prop :=
  ns' = ns ∧ key ∈ keys

/-- The entries of a namespace whose keys begin with the pattern. -/
def Matching (ns : CacheNamespace) (pattern : String) (ns' : CacheNamespace) (key : String) :
    Prop :=
  ns' = ns ∧ StartsWith pattern key

section Results

variable {sha256 : String → String} {glob : String → String → Bool} {inUse : Set String}

/-- An update of an asset takes the prices that its code matches, and all snapshots. -/
theorem lookup_handleAssetUpdate (h : Hashes sha256 inUse) (event : AssetUpdateEvent)
    (s : Store String V) {ns : CacheNamespace} {key stored : String} (hkey : key ∈ inUse)
    (hmem : stored ∈ entryKeys sha256 key ns) :
    (handleAssetUpdate glob event s).2.lookup stored =
      if glob (CacheNamespace.marketSnapshot.text ++ ":*") stored = true ∨
        glob (CacheNamespace.priceData.text ++ ":" ++ event.assetCode ++ "*") stored = true
      then none else s.lookup stored := by
  rw [handleAssetUpdate, lookup_invalidateNamespace h hkey hmem, lookup_invalidateByPattern]
  by_cases hsnapshot : glob (CacheNamespace.marketSnapshot.text ++ ":*") stored = true
  · rw [if_pos hsnapshot, if_pos (.inl hsnapshot)]
  · rw [if_neg hsnapshot]
    exact if_congr (or_iff_right hsnapshot).symm rfl rfl

/-- An update of an asset is exact, beside the snapshots, when its code matches the stored keys of
its prices. -/
theorem handleAssetUpdate_iff (h : Hashes sha256 inUse) (hglob : GlobRules glob)
    (event : AssetUpdateEvent) (s : Store String V) :
    RemovesExactly sha256 inUse
        (fun ns key => ns = .marketSnapshot ∨ Matching .priceData event.assetCode ns key) s
        (handleAssetUpdate glob event s).2 ↔
      PatternHits sha256 glob inUse .priceData event.assetCode s := by
  rw [removesExactly_iff fun _ _ hkey _ hmem => lookup_handleAssetUpdate h event s hkey hmem]
  constructor
  · intro htaken key hkey stored hmem hstored
    have hprice := htaken .priceData key hkey stored hmem hstored
    rwa [glob_ns_iff hglob hmem, or_iff_right (by decide), or_iff_right (by decide), Matching,
      and_iff_right rfl] at hprice
  · intro hhits ns key hkey stored hmem hstored
    rw [glob_ns_iff hglob hmem]
    refine or_congr_right ?_
    by_cases hns : ns = .priceData
    · subst hns
      rw [hhits key hkey stored hmem hstored, Matching, and_iff_right rfl]
    · exact iff_of_false (fun hmatch => hns (ns_eq_of_glob hglob hmem hmatch)) fun h => hns h.1

/-- A manual event removes all entries of its namespace, and so the ones it is meant for exactly
when these are all. -/
theorem handleManualInvalidation_iff (h : Hashes sha256 inUse) (hglob : GlobRules glob)
    {event : ManualInvalidationEvent} {ns : CacheNamespace} (hns : event.ns = some ns)
    {P : String → Prop} (s : Store String V) :
    RemovesExactly sha256 inUse (fun ns' key => ns' = ns ∧ P key) s
        (handleManualInvalidation sha256 glob event s).2 ↔
      ∀ key ∈ inUse, Cached sha256 s ns key → P key := by
  have hremoval : (handleManualInvalidation sha256 glob event s).2 =
      (invalidateNamespace glob ns s).2 := by
    rw [handleManualInvalidation, manualRemoval, hns]
  rw [hremoval, invalidateNamespace_iff h hglob]
  constructor
  · intro hall key hkey hcached
    exact ((hall ns key hkey hcached).mp rfl).2
  · intro hall ns' key hkey hcached
    constructor
    · rintro rfl
      exact ⟨rfl, hall key hkey hcached⟩
    · exact fun htarget => htarget.1

/-- A manual event without a namespace removes nothing. -/
theorem handleManualInvalidation_of_none {event : ManualInvalidationEvent} (hns : event.ns = none)
    (s : Store String V) : (handleManualInvalidation sha256 glob event s).2 = s := by
  obtain ⟨ns, keys, pattern⟩ := event
  obtain rfl : ns = none := hns
  rw [handleManualInvalidation, manualRemoval]
  cases truthy pattern <;> cases keys <;> rfl

/-- **Targeted invalidation**, for every content of the cache: a removal by keys is exact; one by a
pattern, by an update of an asset (which also takes the snapshots) or for an asset is when the
pattern matches the stored keys of its entries; and one by a manual event is when its namespace has
no other entries, while an event without a namespace removes nothing. For a pattern without special
characters its entries are matched when the hashes begin as the keys do. -/
theorem targeted_invalidation_iff (h : Hashes sha256 inUse) (hglob : GlobRules glob)
    (s : Store String V) :
    (∀ ns keys, (∀ key ∈ keys, key ∈ inUse) →
      RemovesExactly sha256 inUse (Listed ns keys) s (invalidate sha256 keys ns s).2) ∧
    (∀ ns pattern,
      RemovesExactly sha256 inUse (Matching ns pattern) s
          (invalidateByPattern glob pattern ns s).2 ↔
        PatternHits sha256 glob inUse ns pattern s) ∧
    (∀ event : AssetUpdateEvent, RemovesExactly sha256 inUse
        (fun ns key => ns = .marketSnapshot ∨ Matching .priceData event.assetCode ns key) s
        (handleAssetUpdate glob event s).2 ↔
      PatternHits sha256 glob inUse .priceData event.assetCode s) ∧
    (∀ assetCode, assetCode ≠ "" →
      (RemovesExactly sha256 inUse (Matching .priceData assetCode) s
          (invalidateMarketCache glob (some assetCode) s).2 ↔
        PatternHits sha256 glob inUse .priceData assetCode s)) ∧
    (∀ (event : ManualInvalidationEvent) ns, event.ns = some ns →
      (∀ pattern, event.pattern = some pattern →
        (RemovesExactly sha256 inUse (Matching ns pattern) s
            (handleManualInvalidation sha256 glob event s).2 ↔
          ∀ key ∈ inUse, Cached sha256 s ns key → StartsWith pattern key)) ∧
      (∀ keys, event.keys = some keys → event.pattern = none →
        (RemovesExactly sha256 inUse (Listed ns keys) s
            (handleManualInvalidation sha256 glob event s).2 ↔
          ∀ key ∈ inUse, Cached sha256 s ns key → key ∈ keys))) ∧
    (∀ event : ManualInvalidationEvent, event.ns = none →
      (handleManualInvalidation sha256 glob event s).2 = s) ∧
    (∀ ns pattern, Literal pattern →
      (PatternHits sha256 glob inUse ns pattern s ↔ HashesLikeKeys sha256 inUse ns pattern s)) := by
  refine ⟨fun ns keys hkeys => invalidate_removesExactly h hkeys ns s,
    fun ns pattern => invalidateByPattern_iff hglob pattern ns s,
    fun event => handleAssetUpdate_iff h hglob event s, fun assetCode hne => ?_,
    fun event ns hns => ⟨fun pattern _ => handleManualInvalidation_iff h hglob hns s,
      fun keys _ _ => handleManualInvalidation_iff h hglob hns s⟩,
    fun event hns => handleManualInvalidation_of_none hns s,
    fun ns pattern hliteral => patternHits_iff hglob hliteral ns s⟩
  have htruthy : truthy (some assetCode) = some assetCode := by
    rw [truthy, Option.filter_some, if_pos (by simpa using hne)]
  rw [invalidateMarketCache, htruthy]
  exact invalidateByPattern_iff hglob assetCode .priceData s

end Results

/-! ## Samples -/

def usdcKey : String :=
  assetPriceKey "USDC" "GA5ZSEJYB37JRC5AVCIA5MOP4RHTM335X2KGX3IHOJAPP5RE34K4KZVN"

/-- The digests of two keys. -/
def sampleSha256 (key : String) : String :=
  if key = "XLM:native" then "0693274beb5d2451202b8264cdd0d125f5268aca6872767275c5b80235516c72"
  else if key = usdcKey then "6738320b3f9b8215e0d575d86b2db7e9eb33ca8cc7b15bca6fb36a5af0ce497f"
  else ""

def sampleKeys : Set String := {"XLM:native", usdcKey}

/-- A cache with the prices of two assets. -/
def samplePrices : Store String String :=
  AList.insert (generateCacheKey sampleSha256 "XLM:native" .priceData) "0.125"
    (AList.singleton (generateCacheKey sampleSha256 usdcKey .priceData) "1.0")

theorem hashes_sample : Hashes sampleSha256 sampleKeys := by
  constructor
  · rintro key (rfl | rfl) key' (rfl | rfl) heq
    · rfl
    · exact absurd heq (by decide)
    · exact absurd heq (by decide)
    · rfl
  · have hdigits : ∀ text : String,
        (text.toList.all fun c => decide (c ∈ "0123456789abcdef".toList)) = true →
          ∀ c ∈ text.toList, c ∈ "0123456789abcdef".toList := fun text hall c hc =>
      of_decide_eq_true (List.all_eq_true.mp hall c hc)
    rintro key (rfl | rfl)
    · exact hdigits _ (by decide)
    · exact hdigits _ (by decide)

theorem globRules_sample : GlobRules Quotas.sampleGlob := by
  refine ⟨Quotas.matchesPrefixes_sampleGlob, ?_⟩
  intro text rest key _ hmatch
  have hdrop : (text ++ rest ++ "*").toList.dropLast = text.toList ++ rest.toList := by
    have hstar : "*".toList = ['*'] := rfl
    rw [String.toList_append, hstar, List.dropLast_concat, String.toList_append]
  rw [Quotas.sampleGlob, hdrop, List.isPrefixOf_iff_prefix] at hmatch
  obtain ⟨behind, hbehind⟩ := hmatch
  refine ⟨rest ++ String.ofList behind, String.ext ?_⟩
  rw [String.toList_append, String.toList_append, String.toList_ofList, ← List.append_assoc,
    hbehind]

theorem targeted_invalidation_iff_sample :
    RemovesExactly sampleSha256 sampleKeys (Listed .priceData ["XLM:native"]) samplePrices
      (invalidate sampleSha256 ["XLM:native"] .priceData samplePrices).2 :=
  (targeted_invalidation_iff hashes_sample globRules_sample samplePrices).1 .priceData
    ["XLM:native"] fun _ hkey => .inl (List.mem_singleton.mp hkey)

/-- The price of an asset survives an update of the asset, and a manual event with its key removes
the price of another. -/
theorem price_survives_update :
    (handleAssetUpdate Quotas.sampleGlob ⟨"XLM", "native", .price⟩ samplePrices).2.lookup
        (generateCacheKey sampleSha256 (assetPriceKey "XLM" "native") .priceData) = some "0.125" ∧
      ¬ RemovesExactly sampleSha256 sampleKeys
        (fun ns key => ns = .marketSnapshot ∨ Matching .priceData "XLM" ns key) samplePrices
        (handleAssetUpdate Quotas.sampleGlob ⟨"XLM", "native", .price⟩ samplePrices).2 ∧
      (handleManualInvalidation sampleSha256 Quotas.sampleGlob
          ⟨some .priceData, some [assetPriceKey "XLM" "native"], none⟩ samplePrices).2.lookup
        (generateCacheKey sampleSha256 usdcKey .priceData) = none ∧
      ¬ RemovesExactly sampleSha256 sampleKeys
        (Listed .priceData [assetPriceKey "XLM" "native"]) samplePrices
        (handleManualInvalidation sampleSha256 Quotas.sampleGlob
          ⟨some .priceData, some [assetPriceKey "XLM" "native"], none⟩ samplePrices).2 := by
  have hprice : (handleAssetUpdate Quotas.sampleGlob ⟨"XLM", "native", .price⟩
      samplePrices).2.lookup (generateCacheKey sampleSha256 (assetPriceKey "XLM" "native")
        .priceData) = some "0.125" := by
    decide
  have hmanual : (handleManualInvalidation sampleSha256 Quotas.sampleGlob
      ⟨some .priceData, some [assetPriceKey "XLM" "native"], none⟩ samplePrices).2.lookup
        (generateCacheKey sampleSha256 usdcKey .priceData) = none := by
    decide
  refine ⟨hprice, ?_, hmanual, ?_⟩
  · intro hexact
    have hremoved := hexact.removed .priceData (assetPriceKey "XLM" "native") (.inl rfl)
      (.inr ⟨rfl, ":native", rfl⟩) _ List.mem_cons_self
    rw [hprice] at hremoved
    cases hremoved
  · intro hexact
    have hkept := hexact.kept .priceData usdcKey (.inr rfl)
      (fun htarget => absurd htarget.2 (by decide)) _ List.mem_cons_self
    rw [hmanual] at hkept
    exact absurd hkept (by decide)

end Stellara.MarketData
