import Stellara.Voice.QuotaReset

/-!
# The cache of the market data

The entries of the cache belong to namespaces. An entry is stored in a Redis database under the text
of its namespace and a hash of its key, and its metadata under a further text behind it; the
counters of a namespace are stored beside them. Entries are removed by their keys, by a pattern or
with all others of their namespace.

What is computed outside is the digest of a key, of which the first digits are taken, and how Redis
matches patterns. It is relied on that the hashes of the keys in use are different and have
hexadecimal digits only. The database is that of the keys that have not expired.

## Main definitions

* `generateCacheKey`, `entryKeys`: where an entry and its metadata are stored
* `invalidate`, `invalidateByPattern`, `invalidateNamespace`: the removals
* `RemovesExactly`: the entries that are to be removed are, and the others stay

## Main results

* `removesExactly_iff`: a removal is exact when it takes the stored keys of the entries it is to
  take
* `invalidate_removesExactly`: a removal by keys is exact
* `invalidateByPattern_iff`, `invalidateNamespace_iff`: when the other removals are
-/

namespace Stellara.MarketData

open Quotas (Literal MatchesPrefixes)

/-! ## Keys -/

inductive CacheNamespace where
  | marketSnapshot
  | news
  | assetData
  | priceData
deriving DecidableEq, Repr

def CacheNamespace.text : CacheNamespace → String
  | .marketSnapshot => "market:snapshot"
  | .news => "news"
  | .assetData => "asset:data"
  | .priceData => "price:data"

/-- The first digits of the digest of a key. -/
def keyHash (sha256 : String → String) (key : String) : String :=
  String.ofList ((sha256 key).toList.take 16)

/-- Generate deterministic cache key. -/
def generateCacheKey (sha256 : String → String) (key : String) (ns : CacheNamespace) : String :=
  ns.text ++ ":" ++ keyHash sha256 key

def metadataKey (cacheKey : String) : String := cacheKey ++ ":metadata"

def statsKey (ns : CacheNamespace) (counter : String) : String := ns.text ++ ":stats:" ++ counter

/-- Where an entry is stored: its data and its metadata. -/
def entryKeys (sha256 : String → String) (key : String) (ns : CacheNamespace) : List String :=
  [generateCacheKey sha256 key ns, metadataKey (generateCacheKey sha256 key ns)]

/-! ## Removals -/

variable {V : Type}

/-- `DEL` of some keys. -/
def del (keys : List String) (s : Store String V) : Store String V :=
  keys.foldl (fun s key => s.erase key) s

/-- Invalidate specific cache keys; the number of keys is returned. -/
def invalidate (sha256 : String → String) (keys : List String) (ns : CacheNamespace)
    (s : Store String V) : ℕ × Store String V :=
  if keys.length = 0 then (0, s)
  else
    let cacheKeys := keys.map fun key => generateCacheKey sha256 key ns
    let metadataKeys := cacheKeys.map metadataKey
    (keys.length, del (cacheKeys ++ metadataKeys) s)

/-- Invalidate cache entries matching a pattern. -/
def invalidateByPattern (glob : String → String → Bool) (pattern : String) (ns : CacheNamespace)
    (s : Store String V) : ℕ × Store String V :=
  -- the stored keys, which the pattern is compared with, have the hashes in place of the keys
  let keys := s.keys.filter (glob (ns.text ++ ":" ++ pattern ++ "*"))
  if keys.length = 0 then (0, s) else (keys.length, del keys s)

/-- Invalidate an entire namespace, and reset its counters. -/
def invalidateNamespace (glob : String → String → Bool) (ns : CacheNamespace)
    (s : Store String V) : ℕ × Store String V :=
  let keys := s.keys.filter (glob (ns.text ++ ":*"))
  if keys.length = 0 then (0, s)
  else (keys.length, del [statsKey ns "hits", statsKey ns "misses", statsKey ns "total-entries"]
    (del keys s))

/-! ## What removals are for -/

/-- The key begins with the pattern. -/
def StartsWith (pattern key : String) : Prop := ∃ rest, key = pattern ++ rest

/-- What is relied on of the matching of patterns that end in a star: of such a pattern, what comes
before the first special character matches itself only. -/
structure GlobRules (glob : String → String → Bool) : Prop where
  prefixes : MatchesPrefixes glob
  begins : ∀ text rest key, Literal text → glob (text ++ rest ++ "*") key = true →
    StartsWith text key

/-- The hashes of the keys in use are different, and have hexadecimal digits only. -/
structure Hashes (sha256 : String → String) (inUse : Set String) : Prop where
  inj : inUse.InjOn (keyHash sha256)
  hex : ∀ key ∈ inUse, ∀ c ∈ (keyHash sha256 key).toList, c ∈ "0123456789abcdef".toList

/-- Of the entries with keys in use those in `target` are removed with their metadata, and the
others stay with theirs. -/
structure RemovesExactly (sha256 : String → String) (inUse : Set String)
    (target : CacheNamespace → String → Prop) (s s' : Store String V) : Prop where
  removed : ∀ ns, ∀ key ∈ inUse, target ns key →
    ∀ stored ∈ entryKeys sha256 key ns, s'.lookup stored = none
  kept : ∀ ns, ∀ key ∈ inUse, ¬ target ns key →
    ∀ stored ∈ entryKeys sha256 key ns, s'.lookup stored = s.lookup stored

/-! ## Entries are stored apart -/

variable {sha256 : String → String} {inUse : Set String} {key key' stored : String}
  {ns ns' : CacheNamespace}

/-- The texts of the namespaces differ in their first characters. -/
theorem ns_eq_of_head (h : ns.text.toList.head? = ns'.text.toList.head?) : ns = ns' := by
  revert ns ns'
  intro ns ns'
  cases ns <;> cases ns' <;> decide

theorem generateCacheKey_toList (key : String) (ns : CacheNamespace) :
    (generateCacheKey sha256 key ns).toList =
      ns.text.toList ++ ':' :: (keyHash sha256 key).toList := by
  have hcolon : ":".toList = [':'] := rfl
  simp only [generateCacheKey, String.toList_append, hcolon, List.append_assoc, List.cons_append,
    List.nil_append]

theorem metadataKey_toList (cacheKey : String) :
    (metadataKey cacheKey).toList = cacheKey.toList ++ ':' :: "metadata".toList := by
  have hmetadata : ":metadata".toList = ':' :: "metadata".toList := rfl
  rw [metadataKey, String.toList_append, hmetadata]

theorem Hashes.colon_notMem (h : Hashes sha256 inUse) (hkey : key ∈ inUse) :
    ':' ∉ (keyHash sha256 key).toList :=
  fun hmem => absurd (h.hex key hkey ':' hmem) (by decide)

/-- The metadata of no entry is stored where the data of another is. -/
theorem Hashes.metadataKey_ne (h : Hashes sha256 inUse) (hkey : key ∈ inUse) (cacheKey : String) :
    generateCacheKey sha256 key ns ≠ metadataKey cacheKey := by
  intro heq
  have htext := congrArg String.toList heq
  rw [generateCacheKey_toList, metadataKey_toList,
    append_separator_inj (h.colon_notMem hkey) (by decide)] at htext
  -- the text behind the last colon is not hexadecimal
  have hmem : 'm' ∈ (keyHash sha256 key).toList := by
    rw [htext.2]
    decide
  exact absurd (h.hex key hkey 'm' hmem) (by decide)

theorem Hashes.generateCacheKey_inj (h : Hashes sha256 inUse) (hkey : key ∈ inUse)
    (hkey' : key' ∈ inUse)
    (heq : generateCacheKey sha256 key ns = generateCacheKey sha256 key' ns') :
    ns = ns' ∧ key = key' := by
  have htext := congrArg String.toList heq
  rw [generateCacheKey_toList, generateCacheKey_toList,
    append_separator_inj (h.colon_notMem hkey) (h.colon_notMem hkey')] at htext
  exact ⟨ns_eq_of_head (congrArg List.head? htext.1), h.inj hkey hkey' (String.ext htext.2)⟩

/-- Two entries that share a stored key are the same. -/
theorem Hashes.entry_eq (h : Hashes sha256 inUse) (hkey : key ∈ inUse) (hkey' : key' ∈ inUse)
    (hmem : stored ∈ entryKeys sha256 key ns) (hmem' : stored ∈ entryKeys sha256 key' ns') :
    ns = ns' ∧ key = key' := by
  simp only [entryKeys, List.mem_cons, List.not_mem_nil, or_false] at hmem hmem'
  rcases hmem with rfl | rfl <;> rcases hmem' with heq | heq
  · exact h.generateCacheKey_inj hkey hkey' heq
  · exact absurd heq (h.metadataKey_ne hkey _)
  · exact absurd heq.symm (h.metadataKey_ne hkey' _)
  · exact h.generateCacheKey_inj hkey hkey' ((String.append_left_inj _).mp heq)

/-- What the stored keys of an entry begin with. -/
theorem entryKeys_eq (hmem : stored ∈ entryKeys sha256 key ns) :
    stored = ns.text ++ ":" ++ keyHash sha256 key ∨
      stored = ns.text ++ ":" ++ (keyHash sha256 key ++ ":metadata") := by
  simp only [entryKeys, List.mem_cons, List.not_mem_nil, or_false] at hmem
  rcases hmem with rfl | rfl
  · exact .inl rfl
  · exact .inr (by simp only [metadataKey, generateCacheKey, String.append_assoc])

/-- The stored keys of an entry tell its namespace. -/
theorem startsWith_ns_iff (hmem : stored ∈ entryKeys sha256 key ns') :
    StartsWith (ns.text ++ ":") stored ↔ ns' = ns := by
  have hhead : ∀ (ns : CacheNamespace) (rest : String),
      (ns.text ++ ":" ++ rest).toList.head? = ns.text.toList.head? := by
    intro ns rest
    cases ns <;> simp [CacheNamespace.text]
  obtain ⟨rest, hstored⟩ : StartsWith (ns'.text ++ ":") stored := by
    rcases entryKeys_eq hmem with h | h
    · exact ⟨_, h⟩
    · exact ⟨_, h⟩
  constructor
  · rintro ⟨rest', hstored'⟩
    have htext := congrArg (fun text => text.toList.head?) (hstored.symm.trans hstored')
    rw [hhead, hhead] at htext
    exact ns_eq_of_head htext
  · rintro rfl
    exact ⟨rest, hstored⟩

/-! ## When removals are exact -/

variable {glob : String → String → Bool} {s s' : Store String V}
  {target : CacheNamespace → String → Prop}

/-- An entry has its data or its metadata in the database. -/
def Cached (sha256 : String → String) (s : Store String V) (ns : CacheNamespace) (key : String) :
    Prop :=
  ∃ stored ∈ entryKeys sha256 key ns, stored ∈ s

/-- A removal of stored keys is exact when, of the entries, it takes those it is to take. -/
theorem removesExactly_iff {taken : String → Prop} [DecidablePred taken]
    (h : ∀ ns, ∀ key ∈ inUse, ∀ stored ∈ entryKeys sha256 key ns,
      s'.lookup stored = if taken stored then none else s.lookup stored) :
    RemovesExactly sha256 inUse target s s' ↔
      ∀ ns, ∀ key ∈ inUse, ∀ stored ∈ entryKeys sha256 key ns, stored ∈ s →
        (taken stored ↔ target ns key) := by
  constructor
  · intro hexact ns key hkey stored hmem hstored
    have hsome : (s.lookup stored).isSome = true := AList.lookup_isSome.mpr hstored
    have hlookup := h ns key hkey stored hmem
    -- what is stored is gone afterwards exactly when it was taken
    by_cases htarget : target ns key
    · refine iff_of_true ?_ htarget
      by_contra htaken
      rw [if_neg htaken, hexact.removed ns key hkey htarget stored hmem] at hlookup
      rw [← hlookup] at hsome
      cases hsome
    · refine iff_of_false (fun htaken => ?_) htarget
      rw [if_pos htaken, hexact.kept ns key hkey htarget stored hmem] at hlookup
      rw [hlookup] at hsome
      cases hsome
  · intro htaken
    refine ⟨fun ns key hkey htarget stored hmem => ?_, fun ns key hkey htarget stored hmem => ?_⟩
    · by_cases hstored : stored ∈ s
      · rw [h ns key hkey stored hmem,
          if_pos ((htaken ns key hkey stored hmem hstored).mpr htarget)]
      · rw [h ns key hkey stored hmem, AList.lookup_eq_none.mpr hstored, ite_self]
    · by_cases hstored : stored ∈ s
      · rw [h ns key hkey stored hmem,
          if_neg fun hmatch => htarget ((htaken ns key hkey stored hmem hstored).mp hmatch)]
      · rw [h ns key hkey stored hmem, AList.lookup_eq_none.mpr hstored, ite_self]

/-- A removal of the keys that match takes these. -/
theorem lookup_del_filter (p : String → Bool) (stored : String) :
    (del (s.keys.filter p) s).lookup stored =
      if p stored = true then none else s.lookup stored := by
  rw [del, Store.lookup_foldl_erase]
  by_cases hstored : stored ∈ s.keys
  · simp [hstored]
  · simp [hstored, AList.lookup_eq_none.mpr hstored]

/-- Where no key matches, nothing is taken. -/
theorem lookup_of_filter_nil {p : String → Bool} (h : (s.keys.filter p).length = 0)
    (stored : String) : s.lookup stored = if p stored = true then none else s.lookup stored := by
  rw [← lookup_del_filter, List.length_eq_zero_iff.mp h]
  rfl

theorem lookup_invalidateByPattern (pattern stored : String) (ns : CacheNamespace) :
    (invalidateByPattern glob pattern ns s).2.lookup stored =
      if glob (ns.text ++ ":" ++ pattern ++ "*") stored = true then none else s.lookup stored := by
  unfold invalidateByPattern
  dsimp only
  split
  · exact lookup_of_filter_nil ‹_› stored
  · exact lookup_del_filter _ stored

/-- The counters of a namespace are not stored where an entry is. -/
theorem Hashes.statsKey_ne (h : Hashes sha256 inUse) (hkey : key ∈ inUse)
    (hmem : stored ∈ entryKeys sha256 key ns) {counter : String}
    (hcounter : counter ∈ ["hits", "misses", "total-entries"]) : stored ≠ statsKey ns' counter := by
  have hstats : (statsKey ns' counter).toList =
      (ns'.text ++ ":stats").toList ++ ':' :: counter.toList := by
    have htext : ":stats:" = ":stats" ++ ":" := by decide
    have hcolon : ":".toList = [':'] := rfl
    simp only [statsKey, htext, String.toList_append, hcolon, List.append_assoc, List.cons_append,
      List.nil_append]
  have hfree : ∀ counter ∈ ["hits", "misses", "total-entries"], ':' ∉ counter.toList ∧
      counter.toList ≠ "metadata".toList ∧ 's' ∈ counter.toList := by decide
  obtain ⟨hcolon, hmetadata, hs⟩ := hfree counter hcounter
  intro heq
  have htext := congrArg String.toList heq
  rw [hstats] at htext
  simp only [entryKeys, List.mem_cons, List.not_mem_nil, or_false] at hmem
  rcases hmem with rfl | rfl
  · rw [generateCacheKey_toList, append_separator_inj (h.colon_notMem hkey) hcolon] at htext
    rw [← htext.2] at hs
    exact absurd (h.hex key hkey 's' hs) (by decide)
  · rw [metadataKey_toList, append_separator_inj (by decide) hcolon] at htext
    exact hmetadata htext.2.symm

theorem lookup_invalidateNamespace (h : Hashes sha256 inUse) (hkey : key ∈ inUse)
    (hmem : stored ∈ entryKeys sha256 key ns') (ns : CacheNamespace) :
    (invalidateNamespace glob ns s).2.lookup stored =
      if glob (ns.text ++ ":*") stored = true then none else s.lookup stored := by
  have hstats : ∀ {counter}, counter ∈ ["hits", "misses", "total-entries"] →
      stored ≠ statsKey ns counter := fun hcounter => h.statsKey_ne hkey hmem hcounter
  unfold invalidateNamespace
  dsimp only
  split
  · exact lookup_of_filter_nil ‹_› stored
  · rw [del, Store.lookup_foldl_erase, if_neg]
    · exact lookup_del_filter _ stored
    · -- an entry is none of the counters that are reset
      simp only [List.mem_cons, List.not_mem_nil, or_false, not_or]
      exact ⟨hstats (by decide), hstats (by decide), hstats (by decide)⟩

/-- The stored key is one of an entry that is listed. -/
theorem mem_listed_iff (h : Hashes sha256 inUse) {keys : List String}
    (hkeys : ∀ key ∈ keys, key ∈ inUse) (hkey : key ∈ inUse)
    (hmem : stored ∈ entryKeys sha256 key ns') :
    (stored ∈ (keys.map fun key => generateCacheKey sha256 key ns) ++
        (keys.map fun key => generateCacheKey sha256 key ns).map metadataKey) ↔
      ns' = ns ∧ key ∈ keys := by
  have hlisted : (stored ∈ (keys.map fun key => generateCacheKey sha256 key ns) ++
      (keys.map fun key => generateCacheKey sha256 key ns).map metadataKey) ↔
      ∃ key' ∈ keys, stored ∈ entryKeys sha256 key' ns := by
    simp only [entryKeys, List.mem_append, List.mem_map, List.mem_cons, List.not_mem_nil, or_false,
      exists_exists_and_eq_and, eq_comm (a := stored)]
    constructor
    · rintro (⟨key', hkey', heq⟩ | ⟨key', hkey', heq⟩)
      · exact ⟨key', hkey', .inl heq⟩
      · exact ⟨key', hkey', .inr heq⟩
    · rintro ⟨key', hkey', heq | heq⟩
      · exact .inl ⟨key', hkey', heq⟩
      · exact .inr ⟨key', hkey', heq⟩
  rw [hlisted]
  constructor
  · rintro ⟨key', hkey', hmem'⟩
    obtain ⟨rfl, rfl⟩ := h.entry_eq hkey (hkeys key' hkey') hmem hmem'
    exact ⟨rfl, hkey'⟩
  · rintro ⟨rfl, hkey'⟩
    exact ⟨key, hkey', hmem⟩

/-- A removal by keys takes the listed entries and no others. -/
theorem invalidate_removesExactly (h : Hashes sha256 inUse) {keys : List String}
    (hkeys : ∀ key ∈ keys, key ∈ inUse) (ns : CacheNamespace) (s : Store String V) :
    RemovesExactly sha256 inUse (fun ns' key => ns' = ns ∧ key ∈ keys) s
      (invalidate sha256 keys ns s).2 := by
  have hlookup : ∀ ns', ∀ key ∈ inUse, ∀ stored ∈ entryKeys sha256 key ns',
      (invalidate sha256 keys ns s).2.lookup stored =
        if ns' = ns ∧ key ∈ keys then none else s.lookup stored := by
    intro ns' key hkey stored hmem
    unfold invalidate
    split
    · rename_i hnone
      rw [List.length_eq_zero_iff.mp hnone, if_neg (fun hlisted => List.not_mem_nil hlisted.2)]
    · dsimp only
      rw [del, Store.lookup_foldl_erase]
      exact if_congr (mem_listed_iff h hkeys hkey hmem) rfl rfl
  refine ⟨fun ns' key hkey htarget stored hmem => ?_, fun ns' key hkey htarget stored hmem => ?_⟩
  · rw [hlookup ns' key hkey stored hmem, if_pos htarget]
  · rw [hlookup ns' key hkey stored hmem, if_neg htarget]

theorem literal_ns (ns : CacheNamespace) : Literal (ns.text ++ ":") := by
  cases ns <;> decide

/-- Of the entries that are stored in the namespace, the pattern matches the stored keys of those
whose keys begin with it. -/
def PatternHits (sha256 : String → String) (glob : String → String → Bool) (inUse : Set String)
    (ns : CacheNamespace) (pattern : String) (s : Store String V) : Prop :=
  ∀ key ∈ inUse, ∀ stored ∈ entryKeys sha256 key ns, stored ∈ s →
    (glob (ns.text ++ ":" ++ pattern ++ "*") stored = true ↔ StartsWith pattern key)

/-- A pattern matches no entry of another namespace. -/
theorem ns_eq_of_glob (hglob : GlobRules glob) {pattern : String}
    (hmem : stored ∈ entryKeys sha256 key ns')
    (hmatch : glob (ns.text ++ ":" ++ pattern ++ "*") stored = true) : ns' = ns :=
  (startsWith_ns_iff hmem).mp (hglob.begins _ pattern stored (literal_ns ns) hmatch)

/-- A removal by a pattern is exact when the pattern, which is compared with the hashes, matches
those of the keys that begin with it. -/
theorem invalidateByPattern_iff (hglob : GlobRules glob) (pattern : String) (ns : CacheNamespace)
    (s : Store String V) :
    RemovesExactly sha256 inUse (fun ns' key => ns' = ns ∧ StartsWith pattern key) s
        (invalidateByPattern glob pattern ns s).2 ↔
      PatternHits sha256 glob inUse ns pattern s := by
  rw [removesExactly_iff fun _ _ _ stored _ => lookup_invalidateByPattern pattern stored ns]
  constructor
  · intro htaken key hkey stored hmem hstored
    rw [htaken ns key hkey stored hmem hstored, and_iff_right rfl]
  · intro hhits ns' key hkey stored hmem hstored
    -- the entries of other namespaces are neither meant nor matched
    by_cases hns : ns' = ns
    · subst hns
      rw [hhits key hkey stored hmem hstored, and_iff_right rfl]
    · exact iff_of_false (fun hmatch => hns (ns_eq_of_glob hglob hmem hmatch)) fun h => hns h.1

/-- The pattern of a namespace matches its entries. -/
theorem glob_ns_iff (hglob : GlobRules glob) (hmem : stored ∈ entryKeys sha256 key ns') :
    glob (ns.text ++ ":*") stored = true ↔ ns' = ns := by
  have htext : ns.text ++ ":*" = ns.text ++ ":" ++ "*" := by
    rw [String.append_assoc]
    rfl
  rw [htext, hglob.prefixes _ _ (literal_ns ns)]
  exact startsWith_ns_iff hmem

/-- A removal of a namespace takes all of its entries. -/
theorem invalidateNamespace_iff (h : Hashes sha256 inUse) (hglob : GlobRules glob)
    (ns : CacheNamespace) (s : Store String V) :
    RemovesExactly sha256 inUse target s (invalidateNamespace glob ns s).2 ↔
      ∀ ns', ∀ key ∈ inUse, Cached sha256 s ns' key → (ns' = ns ↔ target ns' key) := by
  rw [removesExactly_iff fun _ _ hkey _ hmem => lookup_invalidateNamespace h hkey hmem ns]
  constructor
  · rintro htaken ns' key hkey ⟨stored, hmem, hstored⟩
    rw [← htaken ns' key hkey stored hmem hstored]
    exact (glob_ns_iff hglob hmem).symm
  · intro hcached ns' key hkey stored hmem hstored
    rw [glob_ns_iff hglob hmem]
    exact hcached ns' key hkey ⟨stored, hmem, hstored⟩

/-! ## Patterns without special characters -/

/-- The hashes of the stored entries of a namespace begin with the pattern as their keys do, and so
do the hashes with the further text of the metadata. -/
def HashesLikeKeys (sha256 : String → String) (inUse : Set String) (ns : CacheNamespace)
    (pattern : String) (s : Store String V) : Prop :=
  ∀ key ∈ inUse,
    (generateCacheKey sha256 key ns ∈ s →
      (StartsWith pattern (keyHash sha256 key) ↔ StartsWith pattern key)) ∧
    (metadataKey (generateCacheKey sha256 key ns) ∈ s →
      (StartsWith pattern (keyHash sha256 key ++ ":metadata") ↔ StartsWith pattern key))

theorem startsWith_append_iff (text pattern rest : String) :
    StartsWith (text ++ pattern) (text ++ rest) ↔ StartsWith pattern rest := by
  constructor
  · rintro ⟨rest', h⟩
    rw [String.append_assoc] at h
    exact ⟨rest', (String.append_right_inj text).mp h⟩
  · rintro ⟨rest', rfl⟩
    exact ⟨rest', (String.append_assoc ..).symm⟩

theorem Literal.append {text rest : String} (h : Literal text) (h' : Literal rest) :
    Literal (text ++ rest) := by
  intro c hc
  rw [String.toList_append, List.mem_append] at hc
  exact hc.elim (h c) (h' c)

/-- A pattern without special characters hits when the hashes begin as the keys do. -/
theorem patternHits_iff (hglob : GlobRules glob) {pattern : String} (hliteral : Literal pattern)
    (ns : CacheNamespace) (s : Store String V) :
    PatternHits sha256 glob inUse ns pattern s ↔ HashesLikeKeys sha256 inUse ns pattern s := by
  have hmatch : ∀ rest, glob (ns.text ++ ":" ++ pattern ++ "*") (ns.text ++ ":" ++ rest) = true ↔
      StartsWith pattern rest := fun rest =>
    (hglob.prefixes _ _ (Literal.append (literal_ns ns) hliteral)).trans
      (startsWith_append_iff _ pattern rest)
  have hmetadata : ∀ key, metadataKey (generateCacheKey sha256 key ns) =
      ns.text ++ ":" ++ (keyHash sha256 key ++ ":metadata") := fun key => by
    simp only [metadataKey, generateCacheKey, String.append_assoc]
  refine forall₂_congr fun key hkey => ?_
  simp only [entryKeys, List.forall_mem_cons, List.not_mem_nil, false_imp_iff, implies_true,
    and_true]
  refine and_congr (imp_congr_right fun _ => ?_) (imp_congr_right fun _ => ?_)
  · rw [generateCacheKey, hmatch]
  · rw [hmetadata, hmatch]

end Stellara.MarketData
