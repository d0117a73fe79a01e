import Stellara.Lib.Expiry
import Stellara.Lib.Tasks
import Stellara.Market.Cache

/-!
# Snapshots of the market and their invalidation

A request for a snapshot of the market reads the cache. Where there is no snapshot, it fetches one,
which takes half a second, stores it for five minutes, and returns it. An invalidation lists the
keys of the namespace, removes them, and resets the counters of the namespace.

Each command to Redis is a step of its own. A request that missed can store its snapshot after an
invalidation that began later than its fetch, which then does not remove it. Where this does not
happen, no request returns a snapshot whose fetch is older than an invalidation that was complete
before.

What the API answers comes from outside. The invalidations are numbered in the order in which they
begin; with a snapshot goes the number of the last one that had begun when its fetch started, and
with a request the last one that was complete when it was made. All commands succeed.

## Main definitions

* `MarketSnapshot`, `CacheValue`, `CacheState`: what is stored, and how far the invalidations are
* `MarketPoint.resume`, `marketTasks`: requests and invalidations, one command after the other
* `NoStaleRead`: every request returns a snapshot that is newer than the invalidations before it
* `StoredInTime`: a snapshot is stored before the later invalidations list or remove its key

## Main results

* `Fresh.step`: what is known of the stored snapshots after a step
* `noStaleRead_of_storedInTime`: no stale snapshot is read where all are stored in time
-/

namespace Stellara.MarketData

/-! ## Keys of snapshots -/

/-- The code units of a text. -/
def utf16 (text : String) : List ℕ :=
  text.toList.flatMap fun c =>
    if c.toNat < 0x10000 then [c.toNat]
    else [0xD800 + (c.toNat - 0x10000) / 0x400, 0xDC00 + (c.toNat - 0x10000) % 0x400]

/-- Generate cache key for market snapshot. -/
def generateMarketSnapshotKey (assetFilter : Option (List String)) : String :=
  match assetFilter with
  | none | some [] => "all-assets"
  | some assets =>
    let sorted := assets.mergeSort fun a b => !(utf16 b).lex (utf16 a) fun x y => x < y
    "assets:" ++ String.intercalate "," sorted

/-- In seconds. -/
def getTtlForNamespace : CacheNamespace → ℕ
  | .marketSnapshot => 300
  | .news => 900
  | .assetData => 600
  | .priceData => 60

/-! ## What is stored -/

/-- A snapshot of the market. -/
structure MarketSnapshot (α : Type) where
  assets : α
  timestamp : ℕ
  /-- The last invalidation that had begun when the fetch started. -/
  since : ℕ
deriving DecidableEq, Repr

inductive CacheValue (α : Type) where
  | snapshot (snapshot : MarketSnapshot α)
  | metadata (createdAt ttl : ℕ)
  | counter (n : ℕ)
deriving DecidableEq, Repr

/-- The keys of the database. -/
abbrev MarketCache (α : Type) := ExpiringStore String (CacheValue α)

/-- Count; `none` where something else is stored. -/
def incr {α : Type} (now : ℕ) (key : String) (m : MarketCache α) : Option (MarketCache α) :=
  match ExpiringStore.get now key m with
  | none => some (m.modify now key fun _ => .counter 1)
  | some (.counter n) => some (m.modify now key fun _ => .counter (n + 1))
  | some _ => none

/-- The keys that match a pattern. -/
def matchingKeys {α : Type} (glob : String → String → Bool) (now : ℕ) (pattern : String)
    (m : MarketCache α) : List String :=
  m.keys.filter fun key => (ExpiringStore.get now key m).isSome && glob pattern key

structure CacheState (α : Type) where
  cache : MarketCache α
  /-- How many invalidations have begun. -/
  begun : ℕ
  /-- The last invalidation, in the order of their beginnings, that is complete. -/
  completed : ℕ
deriving DecidableEq

/-! ## Requests -/

/-- What a request or an invalidation is about to do. With a request goes the last invalidation that
was complete when it was made. -/
inductive MarketPoint (α : Type) where
  | getMarketSnapshot (assetFilter : Option (List String)) (bypassCache : Bool)
  | get (key : String) (floor : ℕ)
  /-- Count one after the other, and go on. -/
  | count (counters : List String) (next : MarketPoint α)
  | fetch (key : String) (floor : ℕ)
  | fetching (key : String) (floor since due : ℕ)
  | set (key : String) (floor : ℕ) (snapshot : MarketSnapshot α)
  | setMetadata (key : String) (floor : ℕ) (snapshot : MarketSnapshot α)
  | returned (floor : ℕ) (value : CacheValue α) (cached : Bool)
  | invalidateNamespace
  | keys (number : ℕ)
  | del (number : ℕ) (cacheKeys : List String)
  | resetStats (number removed : ℕ) (counters : List String)
  | invalidated (number removed : ℕ)
deriving DecidableEq, Repr

def fetchDelay : ℕ := 500

def totalHits : String := "market:cache:total-hits"

def totalMisses : String := "market:cache:total-misses"

section Requests

variable {α : Type} (sha256 : String → String) (glob : String → String → Bool)

/-- Where the snapshot with the key is stored. -/
def snapshotKey (key : String) : String := generateCacheKey sha256 key .marketSnapshot

/-- The next step of a request or an invalidation, with what the API answers. -/
def MarketPoint.resume (now : ℕ) (assets : α) (s : CacheState α) :
    MarketPoint α → Option (MarketPoint α × CacheState α)
  | .getMarketSnapshot assetFilter bypassCache =>
    let key := generateMarketSnapshotKey assetFilter
    if bypassCache then some (.fetching key s.completed s.begun (now + fetchDelay), s)
    else some (.get key s.completed, s)
  | .get key floor =>
    match ExpiringStore.get now (snapshotKey sha256 key) s.cache with
    | some value =>
      some (.count [statsKey .marketSnapshot "hits", totalHits] (.returned floor value true), s)
    | none =>
      some (.count [statsKey .marketSnapshot "misses", totalMisses] (.fetch key floor), s)
  | .count counters next =>
    match counters with
    | counter :: counters =>
      (incr now counter s.cache).map fun cache => (.count counters next, { s with cache := cache })
    | [] => some (next, s)
  | .fetch key floor => some (.fetching key floor s.begun (now + fetchDelay), s)
  | .fetching key floor since due =>
    if due ≤ now then some (.set key floor ⟨assets, now, since⟩, s) else none
  | .set key floor snapshot =>
    -- what was invalidated since the fetch is not looked at
    some (.setMetadata key floor snapshot, { s with
      cache := ExpiringStore.setEx now (1000 * getTtlForNamespace .marketSnapshot)
        (snapshotKey sha256 key) (.snapshot snapshot) s.cache })
  | .setMetadata key floor snapshot =>
    some (.count [statsKey .marketSnapshot "total-entries"]
        (.returned floor (.snapshot snapshot) false), { s with
      cache := ExpiringStore.setEx now (1000 * getTtlForNamespace .marketSnapshot)
        (metadataKey (snapshotKey sha256 key))
        (.metadata now (getTtlForNamespace .marketSnapshot)) s.cache })
  | .invalidateNamespace => some (.keys (s.begun + 1), { s with begun := s.begun + 1 })
  | .keys number =>
    let cacheKeys := matchingKeys glob now (CacheNamespace.marketSnapshot.text ++ ":*") s.cache
    if cacheKeys = [] then
      some (.invalidated number 0, { s with completed := max s.completed number })
    else some (.del number cacheKeys, s)
  | .del number cacheKeys =>
    some (.resetStats number cacheKeys.length [statsKey .marketSnapshot "hits",
        statsKey .marketSnapshot "misses", statsKey .marketSnapshot "total-entries"],
      { s with cache := cacheKeys.foldl (fun cache key => cache.erase key) s.cache })
  | .resetStats number removed counters =>
    match counters with
    | counter :: counters =>
      some (.resetStats number removed counters, { s with cache := s.cache.erase counter })
    | [] => some (.invalidated number removed, { s with completed := max s.completed number })
  | .returned _ _ _ | .invalidated _ _ => none

/-- Requests for snapshots, and invalidations of their namespace. -/
def marketTasks : Async (CacheState α) (MarketPoint α) α where
  starts _
    | .getMarketSnapshot _ _ | .invalidateNamespace => true
    | _ => false
  resume now assets p s := p.resume sha256 glob now assets s

/-! ## Freshness -/

/-- No request returns a snapshot whose fetch started before an invalidation began that was complete
when the request was made. -/
def NoStaleRead (points : List (MarketPoint α)) : Prop :=
  ∀ floor snapshot cached, .returned floor (.snapshot snapshot) cached ∈ points →
    floor ≤ snapshot.since

/-- The invalidation has not listed the keys yet, or has listed the key and removes it. -/
def MarketPoint.willRemove (number : ℕ) (cacheKey : String) : MarketPoint α → Bool
  | .keys n => n = number
  | .del n cacheKeys => n = number ∧ cacheKey ∈ cacheKeys
  | _ => false

/-- Every invalidation that began after the fetch of the snapshot will remove the key. -/
def WillRemove (cacheKey : String) (snapshot : MarketSnapshot α)
    (w : Tasks (CacheState α) (MarketPoint α)) : Prop :=
  ∀ number ≤ w.shared.begun, snapshot.since < number →
    ∃ p ∈ w.points, p.willRemove number cacheKey = true

/-- A snapshot is stored while the invalidations that began after its fetch are still to remove it.
-/
def StoredInTime (_ : ℕ) (_ : α) (_ : ℕ) (p : MarketPoint α)
    (w : Tasks (CacheState α) (MarketPoint α)) : Prop :=
  match p with
  | .set key _ snapshot => WillRemove (snapshotKey sha256 key) snapshot w
  | _ => True

instance {cacheKey : String} {snapshot : MarketSnapshot α}
    {w : Tasks (CacheState α) (MarketPoint α)} : Decidable (WillRemove cacheKey snapshot w) :=
  inferInstanceAs (Decidable (∀ number ≤ w.shared.begun, _))

instance {now i : ℕ} {assets : α} {p : MarketPoint α} {w : Tasks (CacheState α) (MarketPoint α)} :
    Decidable (StoredInTime sha256 now assets i p w) := by
  unfold StoredInTime
  split <;> infer_instance

end Requests

/-! ## What is known of the stored snapshots -/

section Fresh

variable {α : Type} {sha256 : String → String} {glob : String → String → Bool} {now now' i n : ℕ}
  {assets : α} {s s' : CacheState α} {p q : MarketPoint α} {points : List (MarketPoint α)}
  {key cacheKey counter : String} {snapshot : MarketSnapshot α} {value : CacheValue α}
  {m m' : MarketCache α}

/-- The number of an invalidation that has begun. -/
def MarketPoint.number : MarketPoint α → Option ℕ
  | .keys number | .del number _ | .resetStats number _ _ | .invalidated number _ => some number
  | _ => none

def MarketPoint.isInvalidated (number : ℕ) : MarketPoint α → Bool
  | .invalidated n _ => n = number
  | _ => false

/-- The invalidation is complete, or there was none. -/
def Complete (number : ℕ) (points : List (MarketPoint α)) : Prop :=
  number = 0 ∨ ∃ p ∈ points, p.isInvalidated number = true

/-- The snapshot of a request is as new as it must be, where it has one. -/
def Reads (w : Tasks (CacheState α) (MarketPoint α)) : MarketPoint α → Prop
  | .get _ floor | .fetch _ floor => Complete floor w.points ∧ floor ≤ w.shared.begun
  | .count _ next => next.number = none ∧ Reads w next
  | .fetching _ floor since _ => floor ≤ since
  | .set _ floor snapshot | .setMetadata _ floor snapshot => floor ≤ snapshot.since
  | .returned floor value _ => ∀ snapshot, value = .snapshot snapshot → floor ≤ snapshot.since
  | _ => True

/-- Two invalidations have numbers of their own. -/
def OwnNumbers (p q : MarketPoint α) : Prop := ∀ a ∈ p.number, ∀ b ∈ q.number, a ≠ b

/-- Every snapshot that can be read is in the namespace, and the invalidations that began after its
fetch will remove it. -/
structure Fresh (sha256 : String → String) (now : ℕ) (w : Tasks (CacheState α) (MarketPoint α)) :
    Prop where
  numbered : ∀ p ∈ w.points, ∀ number ∈ p.number, number ≤ w.shared.begun
  apart : Apart OwnNumbers w.points
  completed : Complete w.shared.completed w.points ∧ w.shared.completed ≤ w.shared.begun
  reads : ∀ p ∈ w.points, Reads w p
  stored : ∀ cacheKey snapshot,
    ExpiringStore.get now cacheKey w.shared.cache = some (.snapshot snapshot) →
      (∃ key, cacheKey = snapshotKey sha256 key) ∧ WillRemove cacheKey snapshot w

theorem number_of_willRemove (h : p.willRemove n cacheKey = true) : p.number = some n := by
  cases p with
  | keys number =>
    obtain rfl : number = n := of_decide_eq_true h
    rfl
  | del number cacheKeys =>
    obtain ⟨rfl, -⟩ := of_decide_eq_true h
    rfl
  | _ => cases h

theorem number_of_isInvalidated (h : p.isInvalidated n = true) : p.number = some n := by
  cases p with
  | invalidated number removed =>
    obtain rfl : number = n := of_decide_eq_true h
    rfl
  | _ => cases h

/-- Two points with one number are of the same task. -/
theorem Fresh.eq_of_number {r : MarketPoint α} (h : Fresh sha256 now ⟨s, points⟩)
    (hp : p ∈ points) (hr : r ∈ points) (hpn : p.number = some n) (hrn : r.number = some n) :
    p = r := by
  obtain ⟨i, hi⟩ := List.mem_iff_getElem?.mp hp
  obtain ⟨j, hj⟩ := List.mem_iff_getElem?.mp hr
  by_cases hij : i = j
  · subst hij
    exact Option.some.inj (hi.symm.trans hj)
  · exact absurd rfl (h.apart i j p r hij hi hj n hpn n hrn)

/-- An invalidation that is complete removes nothing any more. -/
theorem Fresh.not_willRemove (h : Fresh sha256 now ⟨s, points⟩) (hcomplete : Complete n points)
    (hpos : 0 < n) (hp : p ∈ points) : p.willRemove n cacheKey = false := by
  by_contra hremove
  rw [Bool.not_eq_false] at hremove
  obtain ⟨r, hr, hinvalidated⟩ := hcomplete.resolve_left hpos.ne'
  obtain rfl := h.eq_of_number hp hr (number_of_willRemove hremove)
    (number_of_isInvalidated hinvalidated)
  cases p with
  | invalidated => cases hremove
  | _ => cases hinvalidated

/-- A snapshot that is read is newer than the invalidations that are complete. -/
theorem Fresh.le_since (h : Fresh sha256 now ⟨s, points⟩) (hcomplete : Complete n points)
    (hle : n ≤ s.begun)
    (hread : ExpiringStore.get now cacheKey s.cache = some (.snapshot snapshot)) :
    n ≤ snapshot.since := by
  by_contra hlt
  obtain ⟨p, hp, hremove⟩ := (h.stored _ _ hread).2 n hle (not_le.mp hlt)
  rw [h.not_willRemove hcomplete (Nat.zero_lt_of_lt (not_le.mp hlt)) hp] at hremove
  cases hremove

theorem Complete.step (h : Complete n points) (hp : points[i]? = some p)
    (hend : p.isInvalidated n = false) : Complete n (points.set i q) := by
  refine h.imp_right fun hsome => (exists_mem_step hp fun hinvalidated => ?_).mpr (.inl hsome)
  rw [hend] at hinvalidated
  cases hinvalidated

theorem Reads.mono {w w' : Tasks (CacheState α) (MarketPoint α)} (h : Reads w p)
    (hcomplete : ∀ n, Complete n w.points → Complete n w'.points)
    (hbegun : w.shared.begun ≤ w'.shared.begun) : Reads w' p := by
  induction p with
  | get key floor | fetch key floor => exact ⟨hcomplete floor h.1, h.2.trans hbegun⟩
  | count counters next ih => exact ⟨h.1, ih h.2⟩
  | fetching => exact h
  | set => exact h
  | setMetadata => exact h
  | returned => exact h
  | _ => trivial

/-! ## Steps -/

/-- A step of a task that has not ended. -/
theorem Fresh.of_step (h : Fresh sha256 now ⟨s, points⟩) (hp : points[i]? = some p)
    (hend : ∀ n, p.isInvalidated n = false) (hbegun : s.begun ≤ s'.begun)
    (hnumber : ∀ n ∈ q.number, n ≤ s'.begun ∧ (p.number = some n ∨ s.begun < n))
    (hcompleted : s'.completed = s.completed ∨
      s'.completed ≤ s'.begun ∧ q.isInvalidated s'.completed = true)
    (hreads : Reads ⟨s, points⟩ q)
    (hstored : ∀ cacheKey snapshot,
      ExpiringStore.get now cacheKey s'.cache = some (.snapshot snapshot) →
        (∃ key, cacheKey = snapshotKey sha256 key) ∧
          WillRemove cacheKey snapshot ⟨s', points.set i q⟩) :
    Fresh sha256 now ⟨s', points.set i q⟩ := by
  have hcomplete : ∀ n, Complete n points → Complete n (points.set i q) := fun n hn =>
    hn.step hp (hend n)
  refine ⟨?_, Apart.set_of_keys (f := MarketPoint.number) (S := fun a b => a ≠ b) h.apart hp
    (fun _ _ => Ne.symm) fun n hn => ?_, ?_, ?_, hstored⟩
  · exact forall_mem_step (fun r hr n hn => (h.numbered r hr n hn).trans hbegun) fun n hn =>
      (hnumber n hn).1
  · rcases (hnumber n hn).2 with hsame | hlt
    · exact .inl ⟨n, hsame, fun _ hne => hne⟩
    · -- the number of an invalidation that begins is new
      exact .inr fun r hr b hb => ((h.numbered r hr b hb).trans_lt hlt).ne'
  · rcases hcompleted with hsame | ⟨hle, hinvalidated⟩
    · rw [hsame]
      exact ⟨hcomplete _ h.completed.1, h.completed.2.trans hbegun⟩
    · exact ⟨.inr ⟨q, List.mem_of_getElem? (getElem?_step_self hp), hinvalidated⟩, hle⟩
  · exact forall_mem_step (fun r hr => (h.reads r hr).mono hcomplete hbegun)
      (hreads.mono hcomplete hbegun)

/-- What is to remove a key still is, after a step of a request. -/
theorem WillRemove.step (h : WillRemove cacheKey snapshot ⟨s, points⟩) (hp : points[i]? = some p)
    (hnone : p.number = none) (hbegun : s'.begun = s.begun) :
    WillRemove cacheKey snapshot ⟨s', points.set i q⟩ := by
  intro n hn hlt
  refine (exists_mem_step hp fun hremove => ?_).mpr (.inl (h n (hn.trans_eq hbegun) hlt))
  rw [number_of_willRemove hremove] at hnone
  cases hnone

/-- A step of a request, which stores no snapshot but one in time. -/
theorem Fresh.request (h : Fresh sha256 now ⟨s, points⟩) (hp : points[i]? = some p)
    (hpnone : p.number = none) (hqnone : q.number = none) (hbegun : s'.begun = s.begun)
    (hcompleted : s'.completed = s.completed) (hreads : Reads ⟨s, points⟩ q)
    (hstored : ∀ cacheKey snapshot,
      ExpiringStore.get now cacheKey s'.cache = some (.snapshot snapshot) →
        ExpiringStore.get now cacheKey s.cache = some (.snapshot snapshot) ∨
          (∃ key, cacheKey = snapshotKey sha256 key) ∧ WillRemove cacheKey snapshot ⟨s, points⟩) :
    Fresh sha256 now ⟨s', points.set i q⟩ := by
  refine h.of_step hp (fun n => ?_) hbegun.ge (fun n hn => ?_) (.inl hcompleted) hreads ?_
  · by_contra hinvalidated
    rw [Bool.not_eq_false] at hinvalidated
    cases hpnone.symm.trans (number_of_isInvalidated hinvalidated)
  · cases hqnone.symm.trans hn
  · intro cacheKey snapshot hread
    obtain ⟨hkey, hremove⟩ := (hstored cacheKey snapshot hread).elim (h.stored cacheKey snapshot) id
    exact ⟨hkey, hremove.step hp hpnone hbegun⟩

/-- A step of an invalidation, which removes the keys that it does not go on to remove. -/
theorem Fresh.invalidation (h : Fresh sha256 now ⟨s, points⟩) (hp : points[i]? = some p)
    (hend : ∀ n, p.isInvalidated n = false) (hpn : p.number = some n) (hqn : q.number = some n)
    (hbegun : s'.begun = s.begun)
    (hcompleted : s'.completed = s.completed ∨
      s'.completed = max s.completed n ∧ q.isInvalidated n = true)
    (hreads : Reads ⟨s, points⟩ q)
    (hstored : ∀ cacheKey snapshot,
      ExpiringStore.get now cacheKey s'.cache = some (.snapshot snapshot) →
        ExpiringStore.get now cacheKey s.cache = some (.snapshot snapshot) ∧
          ∀ n, p.willRemove n cacheKey = true → q.willRemove n cacheKey = true) :
    Fresh sha256 now ⟨s', points.set i q⟩ := by
  have hn : n ≤ s'.begun := (h.numbered p (List.mem_of_getElem? hp) n hpn).trans_eq hbegun.symm
  refine h.of_step hp hend hbegun.ge (fun n' hn' => ?_) ?_ hreads fun cacheKey snapshot hread => ?_
  · obtain rfl := Option.some.inj (hqn.symm.trans hn')
    exact ⟨hn, .inl hpn⟩
  · rcases hcompleted with hsame | ⟨hmax, hinvalidated⟩
    · exact .inl hsame
    · rcases max_choice s.completed n with hleft | hright
      · exact .inl (hmax.trans hleft)
      · rw [hmax, hright]
        exact .inr ⟨hn, hinvalidated⟩
  · obtain ⟨hbefore, hkeep⟩ := hstored cacheKey snapshot hread
    obtain ⟨hkey, hremove⟩ := h.stored cacheKey snapshot hbefore
    refine ⟨hkey, fun n hn hlt => ?_⟩
    exact (exists_mem_step hp (hkeep n)).mpr (.inl (hremove n (hn.trans_eq hbegun) hlt))

theorem get_of_incr (h : incr now counter m = some m')
    (hread : ExpiringStore.get now cacheKey m' = some (.snapshot snapshot)) :
    ExpiringStore.get now cacheKey m = some (.snapshot snapshot) := by
  have hcounted : ∃ n : ℕ, m' = m.modify now counter fun _ => .counter n := by
    unfold incr at h
    split at h
    · exact ⟨1, (Option.some.inj h).symm⟩
    · exact ⟨_, (Option.some.inj h).symm⟩
    · cases h
  obtain ⟨n, rfl⟩ := hcounted
  rw [ExpiringStore.get_modify] at hread
  split at hread
  · cases hread
  · exact hread

theorem mem_matchingKeys {pattern : String} : cacheKey ∈ matchingKeys glob now pattern m ↔
    (ExpiringStore.get now cacheKey m).isSome ∧ glob pattern cacheKey = true := by
  unfold matchingKeys
  rw [List.mem_filter, Bool.and_eq_true, and_iff_right_of_imp]
  rintro ⟨hsome, -⟩
  obtain ⟨value, hread⟩ := Option.isSome_iff_exists.mp hsome
  obtain ⟨e, hlookup, -⟩ := ExpiringStore.get_eq_some.mp hread
  exact AList.lookup_isSome.mp (Option.isSome_of_eq_some hlookup)

theorem get_foldl_erase (cacheKeys : List String) :
    ExpiringStore.get now cacheKey (cacheKeys.foldl (fun cache key => cache.erase key) m) =
      if cacheKey ∈ cacheKeys then none else ExpiringStore.get now cacheKey m := by
  unfold ExpiringStore.get ExpiringStore.find
  rw [Store.lookup_foldl_erase]
  split <;> rfl

/-- The keys of snapshots match the pattern of their namespace. -/
theorem glob_snapshotKey (hglob : Quotas.MatchesPrefixes glob) (key : String) :
    glob (CacheNamespace.marketSnapshot.text ++ ":*") (snapshotKey sha256 key) = true :=
  (hglob (CacheNamespace.marketSnapshot.text ++ ":") _ (literal_ns .marketSnapshot)).mpr ⟨_, rfl⟩

/-- What is known of the snapshots stays known after a step that stores its snapshot in time. -/
theorem Fresh.step (hglob : Quotas.MatchesPrefixes glob) (h : Fresh sha256 now ⟨s, points⟩)
    (hp : points[i]? = some p) (hG : StoredInTime sha256 now assets i p ⟨s, points⟩)
    (hq : p.resume sha256 glob now assets s = some (q, s')) :
    Fresh sha256 now ⟨s', points.set i q⟩ := by
  have hpreads := h.reads p (List.mem_of_getElem? hp)
  cases p with
  | getMarketSnapshot assetFilter bypassCache =>
    simp only [MarketPoint.resume] at hq
    split at hq
    · obtain ⟨rfl, rfl⟩ := Prod.mk.inj (Option.some.inj hq)
      exact h.request hp rfl rfl rfl rfl h.completed.2 fun _ _ hread => .inl hread
    · obtain ⟨rfl, rfl⟩ := Prod.mk.inj (Option.some.inj hq)
      exact h.request hp rfl rfl rfl rfl h.completed fun _ _ hread => .inl hread
  | get key floor =>
    simp only [MarketPoint.resume] at hq
    split at hq
    · rename_i value hread
      obtain ⟨rfl, rfl⟩ := Prod.mk.inj (Option.some.inj hq)
      refine h.request hp rfl rfl rfl rfl ⟨rfl, fun snapshot hvalue => ?_⟩
        fun _ _ hread => .inl hread
      rw [hvalue] at hread
      exact h.le_since hpreads.1 hpreads.2 hread
    · obtain ⟨rfl, rfl⟩ := Prod.mk.inj (Option.some.inj hq)
      exact h.request hp rfl rfl rfl rfl ⟨rfl, hpreads⟩ fun _ _ hread => .inl hread
  | count counters next =>
    cases counters with
    | nil =>
      obtain ⟨rfl, rfl⟩ := Prod.mk.inj (Option.some.inj hq)
      exact h.request hp rfl hpreads.1 rfl rfl hpreads.2 fun _ _ hread => .inl hread
    | cons counter counters =>
      obtain ⟨cache, hincr, hnext⟩ := Option.map_eq_some_iff.mp hq
      obtain ⟨rfl, rfl⟩ := Prod.mk.inj hnext
      exact h.request hp rfl rfl rfl rfl hpreads fun _ _ hread => .inl (get_of_incr hincr hread)
  | fetch key floor =>
    obtain ⟨rfl, rfl⟩ := Prod.mk.inj (Option.some.inj hq)
    exact h.request hp rfl rfl rfl rfl hpreads.2 fun _ _ hread => .inl hread
  | fetching key floor since due =>
    simp only [MarketPoint.resume] at hq
    split at hq
    · obtain ⟨rfl, rfl⟩ := Prod.mk.inj (Option.some.inj hq)
      exact h.request hp rfl rfl rfl rfl hpreads fun _ _ hread => .inl hread
    · cases hq
  | set key floor snapshot =>
    obtain ⟨rfl, rfl⟩ := Prod.mk.inj (Option.some.inj hq)
    refine h.request hp rfl rfl rfl rfl hpreads fun cacheKey stored hread => ?_
    rw [ExpiringStore.get_setEx] at hread
    split at hread
    · -- the new snapshot, which is stored in time
      rename_i hkey
      obtain rfl := CacheValue.snapshot.inj (Option.some.inj hread)
      rw [hkey]
      exact .inr ⟨⟨key, rfl⟩, hG⟩
    · exact .inl hread
  | setMetadata key floor snapshot =>
    obtain ⟨rfl, rfl⟩ := Prod.mk.inj (Option.some.inj hq)
    refine h.request hp rfl rfl rfl rfl ⟨rfl, fun stored hvalue => ?_⟩
      fun cacheKey stored hread => ?_
    · obtain rfl := CacheValue.snapshot.inj hvalue
      exact hpreads
    · rw [ExpiringStore.get_setEx] at hread
      split at hread
      · cases hread
      · exact .inl hread
  | returned => cases hq
  | invalidateNamespace =>
    obtain ⟨rfl, rfl⟩ := Prod.mk.inj (Option.some.inj hq)
    refine h.of_step hp (fun _ => rfl) (Nat.le_succ _) (fun n hn => ?_) (.inl rfl) trivial
      fun cacheKey snapshot hread => ?_
    · obtain rfl := Option.some.inj hn
      exact ⟨le_refl _, .inr (Nat.lt_succ_self _)⟩
    · -- the new invalidation is to remove what is stored
      obtain ⟨hkey, hremove⟩ := h.stored cacheKey snapshot hread
      refine ⟨hkey, fun n hn hlt => ?_⟩
      rcases Nat.lt_succ_iff_lt_or_eq.mp (Nat.lt_succ_of_le hn) with hold | rfl
      · exact (exists_mem_step hp fun hremove => by cases hremove).mpr
          (.inl (hremove n (Nat.le_of_lt_succ hold) hlt))
      · exact ⟨_, List.mem_of_getElem? (getElem?_step_self hp), decide_eq_true rfl⟩
  | keys number =>
    simp only [MarketPoint.resume] at hq
    -- the snapshots that can be read are all listed
    have hlisted : ∀ cacheKey snapshot,
        ExpiringStore.get now cacheKey s.cache = some (.snapshot snapshot) →
          cacheKey ∈
            matchingKeys glob now (CacheNamespace.marketSnapshot.text ++ ":*") s.cache := by
      intro cacheKey snapshot hread
      obtain ⟨key, rfl⟩ := (h.stored cacheKey snapshot hread).1
      exact mem_matchingKeys.mpr ⟨Option.isSome_of_eq_some hread, glob_snapshotKey hglob key⟩
    split at hq
    · rename_i hnone
      obtain ⟨rfl, rfl⟩ := Prod.mk.inj (Option.some.inj hq)
      refine h.invalidation hp (fun _ => rfl) rfl rfl rfl (.inr ⟨rfl, decide_eq_true rfl⟩) trivial
        fun cacheKey snapshot hread => ?_
      have hmem := hlisted cacheKey snapshot hread
      rw [hnone] at hmem
      exact absurd hmem List.not_mem_nil
    · obtain ⟨rfl, rfl⟩ := Prod.mk.inj (Option.some.inj hq)
      refine h.invalidation hp (fun _ => rfl) rfl rfl rfl (.inl rfl) trivial
        fun cacheKey snapshot hread => ⟨hread, fun n hn => ?_⟩
      exact decide_eq_true ⟨of_decide_eq_true hn, hlisted cacheKey snapshot hread⟩
  | del number cacheKeys =>
    obtain ⟨rfl, rfl⟩ := Prod.mk.inj (Option.some.inj hq)
    refine h.invalidation hp (fun _ => rfl) rfl rfl rfl (.inl rfl) trivial
      fun cacheKey snapshot hread => ?_
    rw [get_foldl_erase] at hread
    split at hread
    · cases hread
    · -- what can still be read was not listed, and others are to remove it
      rename_i hnot
      exact ⟨hread, fun n hn => absurd (of_decide_eq_true hn).2 hnot⟩
  | resetStats number removed counters =>
    cases counters with
    | nil =>
      obtain ⟨rfl, rfl⟩ := Prod.mk.inj (Option.some.inj hq)
      exact h.invalidation hp (fun _ => rfl) rfl rfl rfl (.inr ⟨rfl, decide_eq_true rfl⟩) trivial
        fun _ _ hread => ⟨hread, fun _ hn => by cases hn⟩
    | cons counter counters =>
      obtain ⟨rfl, rfl⟩ := Prod.mk.inj (Option.some.inj hq)
      refine h.invalidation hp (fun _ => rfl) rfl rfl rfl (.inl rfl) trivial
        fun cacheKey snapshot hread => ⟨?_, fun _ hn => by cases hn⟩
      rw [ExpiringStore.get_erase] at hread
      split at hread
      · cases hread
      · exact hread
  | invalidated => cases hq

theorem Fresh.start (h : Fresh sha256 now ⟨s, points⟩)
    (hp : (marketTasks sha256 glob).starts s p = true) : Fresh sha256 now ⟨s, points ++ [p]⟩ := by
  have hnone : p.number = none ∧ Reads ⟨s, points⟩ p := by
    cases p with
    | getMarketSnapshot | invalidateNamespace => exact ⟨rfl, trivial⟩
    | _ => cases hp
  have hcomplete : ∀ n, Complete n points → Complete n (points ++ [p]) := fun n hn =>
    hn.imp_right exists_mem_start
  refine ⟨forall_mem_start h.numbered ?_,
    Apart.start_of_none (f := MarketPoint.number) (S := fun a b => a ≠ b) h.apart hnone.1,
    ⟨hcomplete _ h.completed.1, h.completed.2⟩, ?_, fun cacheKey snapshot hread => ?_⟩
  · rw [hnone.1]
    exact fun n hn => absurd hn (Option.not_mem_none n)
  · exact forall_mem_start (fun r hr => (h.reads r hr).mono hcomplete (le_refl _))
      (hnone.2.mono hcomplete (le_refl _))
  · obtain ⟨hkey, hremove⟩ := h.stored cacheKey snapshot hread
    exact ⟨hkey, fun n hn hlt => exists_mem_start (hremove n hn hlt)⟩

theorem Fresh.noStaleRead (h : Fresh sha256 now ⟨s, points⟩) : NoStaleRead points :=
  fun _ snapshot _ hp => h.reads _ hp snapshot rfl

end Fresh

/-! ## Runs -/

/-- **No stale read.** In a run in which every snapshot is stored in time, no request returns one
whose fetch started before an invalidation began that was complete when the request was made. -/
theorem noStaleRead_of_storedInTime {α : Type} {sha256 : String → String}
    {glob : String → String → Bool} (hglob : Quotas.MatchesPrefixes glob) {t₀ : ℕ}
    {w : World (Tasks (CacheState α) (MarketPoint α))}
    {log : Async.Log (CacheState α) (MarketPoint α) α}
    (h : (marketTasks sha256 glob).contract.Run ⟨t₀, ⟨⟨∅, 0, 0⟩, []⟩⟩ w log)
    (hG : ∀ c ∈ log, Async.OnStep (StoredInTime sha256) c) :
    NoStaleRead w.store.points ∧ ∀ c ∈ log, NoStaleRead c.after.points := by
  have hempty : Fresh sha256 t₀ (⟨⟨∅, 0, 0⟩, []⟩ : Tasks (CacheState α) (MarketPoint α)) :=
    ⟨fun _ hp => absurd hp List.not_mem_nil, apart_nil, ⟨.inl rfl, le_refl 0⟩,
      fun _ hp => absurd hp List.not_mem_nil, fun _ _ hread => (by cases hread)⟩
  -- with time, entries expire and none appears
  obtain ⟨hend, hlog⟩ := Async.invariant_timed (I := fun t w => Fresh sha256 t w)
    (fun t t' w hle hI => ⟨hI.numbered, hI.apart, hI.completed, hI.reads,
      fun cacheKey snapshot hread =>
        hI.stored cacheKey snapshot (ExpiringStore.get_mono hle hread)⟩)
    (fun _ _ _ _ hI hp => hI.start hp)
    (fun _ _ _ _ _ _ _ _ hI hp hg hq => hI.step hglob hp hg hq) h hempty hG
  exact ⟨hend.noStaleRead, fun c hc => (hlog c hc).2.noStaleRead⟩

/-- A task that was started goes on by so many steps. -/
def goOn (t task steps : ℕ) : List (ℕ × Move (MarketPoint ℕ) ℕ) :=
  List.replicate steps (t, .resume task 7)

/-- A request misses and stores its snapshot, an invalidation removes it, and another request
misses. -/
def invalidatedSnapshot : List (ℕ × Move (MarketPoint ℕ) ℕ) :=
  (0, .start (.getMarketSnapshot none false)) :: goOn 0 0 6 ++ goOn 500 0 5 ++
    (600, .start .invalidateNamespace) :: goOn 600 1 7 ++
    (700, .start (.getMarketSnapshot none false)) :: goOn 700 2 6 ++ goOn 1200 2 5

theorem noStaleRead_of_storedInTime_invalidated :
    let run := (marketTasks id Quotas.sampleGlob).contract.play ⟨0, ⟨⟨∅, 0, 0⟩, []⟩⟩
      invalidatedSnapshot
    run.1.store.points = [.returned 0 (.snapshot ⟨7, 500, 0⟩) false, .invalidated 1 4,
        .returned 1 (.snapshot ⟨7, 1200, 1⟩) false] ∧
      NoStaleRead run.1.store.points ∧ ∀ c ∈ run.2, NoStaleRead c.after.points :=
  ⟨by decide, noStaleRead_of_storedInTime Quotas.matchesPrefixes_sampleGlob
    (Contract.run_play _ _ invalidatedSnapshot (by decide)) (by decide)⟩

/-- An invalidation between the fetch of a request and its store: a later request reads the snapshot
that is older than the invalidation. -/
def overtakenSnapshot : List (ℕ × Move (MarketPoint ℕ) ℕ) :=
  (0, .start (.getMarketSnapshot none false)) :: goOn 0 0 6 ++
    (100, .start .invalidateNamespace) :: goOn 100 1 7 ++ goOn 500 0 5 ++
    (600, .start (.getMarketSnapshot none false)) :: goOn 600 2 5

theorem stale_snapshot_read :
    ¬ ∀ (α : Type) (sha256 : String → String) (glob : String → String → Bool),
      Quotas.MatchesPrefixes glob →
        ∀ w log, (marketTasks (α := α) sha256 glob).contract.Run ⟨0, ⟨⟨∅, 0, 0⟩, []⟩⟩ w log →
          NoStaleRead w.store.points := by
  intro hall
  have hread := hall ℕ id Quotas.sampleGlob Quotas.matchesPrefixes_sampleGlob _ _
    (Contract.run_play (marketTasks id Quotas.sampleGlob).contract ⟨0, ⟨⟨∅, 0, 0⟩, []⟩⟩
      overtakenSnapshot (by decide)) 1 ⟨7, 500, 0⟩ true (by decide)
  exact absurd hread (by decide)

end Stellara.MarketData
