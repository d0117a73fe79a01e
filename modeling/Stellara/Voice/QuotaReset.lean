import Stellara.Lib.Keys
import Stellara.Voice.Quota

/-!
# The reset of a quota

The keys of the counters and of the limits of all users are texts in one database. A reset deletes
the keys that match a pattern, which begins with the id of the user: it is to delete the counters of
the months of this user, and nothing else. The limit that was set for the user matches as well, and
so do the keys of a user whose id goes on behind a colon.

How Redis matches patterns comes from outside. It is relied on for patterns whose only special
character is a final star. The database is that of the keys that have not expired.

## Main definitions

* `QuotaKey.text`, `limitKey`: the keys of the database
* `resetUserQuota`: the deletion of the keys that match
* `MonthCounter`, `MinuteCounter`: the usage counters of a user
* `Framed counter s s'`: the counters are removed, and nothing else is changed

## Main results

* `not_monthCounter_limitKey`: a limit is none of the counters
* `framed_iff`: a reset removes the counters exactly when they are what matches
* `reset_removes_limit`: a reset removes the limit of the user
* `reset_iff`: what must not be stored for a reset to remove nothing else
-/

namespace Stellara.Quotas

variable {V : Type}

/-! ## Keys -/

def QuotaKey.text : QuotaKey → String
  | .monthly userId year month =>
    "quota:monthly:" ++ userId ++ ":" ++ toString year ++ "-" ++ toString month
  | .session sessionId => "quota:session:" ++ sessionId
  | .rpm userId minute => "quota:rpm:" ++ userId ++ ":" ++ toString minute

def limitKey (userId : String) : String := "quota:monthly:" ++ userId ++ ":limit"

/-- What the pattern of a user begins with. -/
def quotaPrefix (userId : String) : String := "quota:monthly:" ++ userId ++ ":"

/-- The key is a counter of a month of the user. -/
def MonthCounter (userId key : String) : Prop := ∃ now, key = (monthKey userId now).text

/-- The key is a counter of a minute of the user. -/
def MinuteCounter (userId key : String) : Prop := ∃ now, key = (rpmKey userId now).text

/-- The text has none of the special characters of patterns. -/
def Literal (text : String) : Prop := ∀ c ∈ text.toList, c ∉ ['*', '?', '[', '\\']

instance (text : String) : Decidable (Literal text) :=
  List.decidableBAll (fun c => c ∉ ['*', '?', '[', '\\']) text.toList

/-! ## The reset -/

def setUserMonthlyQuota (userId : String) (limit : V) (s : Store String V) : Store String V :=
  s.insert (limitKey userId) limit

def resetUserQuota (glob : String → String → Bool) (userId : String) (s : Store String V) :
    Store String V :=
  let keys := s.keys.filter (glob (quotaPrefix userId ++ "*"))
  if keys.length > 0 then keys.foldl (fun s key => s.erase key) s else s

/-- The counters are removed, and nothing else is changed. -/
structure Framed (counter : String → Prop) (s s' : Store String V) : Prop where
  removed : ∀ key, counter key → s'.lookup key = none
  kept : ∀ key, ¬ counter key → s'.lookup key = s.lookup key

/-! ## Keys of different kinds -/

variable {userId userId' key : String} {now : ℕ}

theorem text_monthly (userId : String) (year month : ℕ) :
    (QuotaKey.monthly userId year month).text =
      "quota:monthly:" ++ userId ++ ":" ++ toString year ++ "-" ++ toString month := rfl

theorem text_rpm (userId : String) (minute : ℕ) :
    (QuotaKey.rpm userId minute).text = "quota:rpm:" ++ userId ++ ":" ++ toString minute := rfl

/-- The id of the user and the month in the key of a counter. -/
theorem monthly_toList (userId : String) (year month : ℕ) :
    (QuotaKey.monthly userId year month).text.toList = ("quota:monthly:" ++ userId).toList ++
      ':' :: ((toString year).toList ++ '-' :: (toString month).toList) := by
  have hcolon : ":".toList = [':'] := rfl
  have hdash : "-".toList = ['-'] := rfl
  simp only [text_monthly, String.toList_append, hcolon, hdash, List.append_assoc,
    List.cons_append, List.nil_append]

theorem colon_notMem_month (year month : ℕ) :
    ':' ∉ (toString year).toList ++ '-' :: (toString month).toList := by
  rw [List.mem_append, List.mem_cons]
  rintro (hyear | hdash | hmonth)
  · exact notMem_toString (by decide) _ hyear
  · exact absurd hdash (by decide)
  · exact notMem_toString (by decide) _ hmonth

/-- A limit is not a counter of a month. -/
theorem not_monthCounter_limitKey : ¬ MonthCounter userId (limitKey userId') := by
  rintro ⟨now, h⟩
  have htext := congrArg String.toList h
  have hlimit : (limitKey userId').toList =
      ("quota:monthly:" ++ userId').toList ++ ':' :: "limit".toList := by
    simp only [limitKey, String.toList_append, List.append_assoc]
    rfl
  rw [monthKey, monthly_toList, hlimit,
    append_separator_inj (by decide) (colon_notMem_month _ _)] at htext
  -- the month has a dash
  have hdash : '-' ∈ "limit".toList := by
    rw [htext.2]
    exact List.mem_append_right _ List.mem_cons_self
  revert hdash
  decide

/-- The counters of the months of a user have the prefix of its pattern. -/
theorem prefix_of_monthCounter (h : MonthCounter userId key) :
    ∃ rest, key = quotaPrefix userId ++ rest := by
  obtain ⟨now, rfl⟩ := h
  refine ⟨toString (utcMonth now).1 ++ "-" ++ toString (utcMonth now).2, ?_⟩
  rw [monthKey, text_monthly, quotaPrefix]
  simp only [String.append_assoc]

/-- The counters of its minutes do not. -/
theorem prefix_ne_minuteCounter (rest : String) :
    ¬ MinuteCounter userId (quotaPrefix userId' ++ rest) := by
  rintro ⟨now, h⟩
  rw [rpmKey, text_rpm, quotaPrefix] at h
  generalize now / 60000 = minute at h
  have htext := congrArg (fun text => text.toList[6]?) h
  simp at htext

/-! ## Resets -/

variable {glob : String → String → Bool} {s : Store String V}

/-- A reset removes the keys that match. -/
theorem lookup_resetUserQuota (key : String) : (resetUserQuota glob userId s).lookup key =
    if glob (quotaPrefix userId ++ "*") key = true then none else s.lookup key := by
  unfold resetUserQuota
  dsimp only
  split
  · rw [Store.lookup_foldl_erase]
    by_cases hstored : key ∈ s.keys
    · simp [hstored]
    · simp [hstored, AList.lookup_eq_none.mpr hstored]
  · rename_i hnone
    have hkeys : s.keys.filter (glob (quotaPrefix userId ++ "*")) = [] :=
      List.length_eq_zero_iff.mp (by omega)
    split
    · rename_i hmatch
      rw [AList.lookup_eq_none]
      intro hstored
      exact List.filter_eq_nil_iff.mp hkeys key hstored hmatch
    · rfl

/-- A reset removes the counters and nothing else exactly when what matches are the counters. -/
theorem framed_iff {counter : String → Prop} :
    Framed counter s (resetUserQuota glob userId s) ↔
      ∀ key ∈ s, glob (quotaPrefix userId ++ "*") key = true ↔ counter key := by
  constructor
  · intro hframed key hstored
    have hsome : (s.lookup key).isSome = true := AList.lookup_isSome.mpr hstored
    constructor
    · -- another key that matches is removed
      intro hmatch
      by_contra hother
      have hkept := hframed.kept key hother
      rw [lookup_resetUserQuota, if_pos hmatch] at hkept
      rw [← hkept] at hsome
      cases hsome
    · -- a counter that does not match stays
      intro hcounter
      by_contra hmatch
      have hremoved := hframed.removed key hcounter
      rw [lookup_resetUserQuota, if_neg hmatch] at hremoved
      rw [hremoved] at hsome
      cases hsome
  · intro hmatches
    constructor
    · intro key hcounter
      rw [lookup_resetUserQuota]
      split
      · rfl
      · rename_i hmatch
        rw [AList.lookup_eq_none]
        intro hstored
        exact hmatch ((hmatches key hstored).mpr hcounter)
    · intro key hother
      rw [lookup_resetUserQuota]
      split
      · rename_i hmatch
        have hfree : s.lookup key = none := by
          rw [AList.lookup_eq_none]
          intro hstored
          exact hother ((hmatches key hstored).mp hmatch)
        exact hfree.symm
      · rfl

/-! ## Ids without special characters -/

/-- A pattern that is literal up to its final star matches what begins like it. -/
def MatchesPrefixes (glob : String → String → Bool) : Prop :=
  ∀ text key, Literal text → (glob (text ++ "*") key = true ↔ ∃ rest, key = text ++ rest)

theorem literal_quotaPrefix (h : Literal userId) : Literal (quotaPrefix userId) := by
  intro c hc
  rw [quotaPrefix, String.toList_append, String.toList_append, List.append_assoc,
    List.mem_append, List.mem_append] at hc
  have hprefix : Literal "quota:monthly:" := by decide
  have hcolon : Literal ":" := by decide
  rcases hc with hc | hc | hc
  · exact hprefix c hc
  · exact h c hc
  · exact hcolon c hc

/-- A reset removes the limit that was set for the user. -/
theorem reset_removes_limit (hglob : MatchesPrefixes glob) (hliteral : Literal userId) (limit : V) :
    (resetUserQuota glob userId (setUserMonthlyQuota userId limit s)).lookup (limitKey userId) =
      none := by
  have hprefix : limitKey userId = quotaPrefix userId ++ "limit" := by
    have hlimit : ":limit" = ":" ++ "limit" := by decide
    rw [limitKey, hlimit, quotaPrefix, ← String.append_assoc]
  rw [lookup_resetUserQuota,
    if_pos ((hglob _ _ (literal_quotaPrefix hliteral)).mpr ⟨"limit", hprefix⟩)]

/-- All keys that begin like the pattern of the user are counters of its months. -/
def OnlyCounters (userId : String) (s : Store String V) : Prop :=
  ∀ rest, quotaPrefix userId ++ rest ∈ s → MonthCounter userId (quotaPrefix userId ++ rest)

/-- A reset removes the usage counters of the months and nothing else exactly when these are the
keys that match. For an id without special characters this is when no other key begins like the
pattern; if the counters of minutes are to be removed as well, there must be none. -/
theorem reset_iff (hglob : MatchesPrefixes glob) (userId : String) (s : Store String V) :
    (Framed (MonthCounter userId) s (resetUserQuota glob userId s) ↔
      ∀ key ∈ s, glob (quotaPrefix userId ++ "*") key = true ↔ MonthCounter userId key) ∧
    (Literal userId →
      (Framed (MonthCounter userId) s (resetUserQuota glob userId s) ↔ OnlyCounters userId s) ∧
      (Framed (fun key => MonthCounter userId key ∨ MinuteCounter userId key) s
        (resetUserQuota glob userId s) ↔
          OnlyCounters userId s ∧ ∀ key ∈ s, ¬ MinuteCounter userId key)) := by
  refine ⟨framed_iff, ?_⟩
  intro hliteral
  have hmatch := fun key => hglob _ key (literal_quotaPrefix hliteral)
  constructor
  · rw [framed_iff]
    constructor
    · intro h rest hstored
      exact (h _ hstored).mp ((hmatch _).mpr ⟨rest, rfl⟩)
    · intro honly key hstored
      rw [hmatch]
      constructor
      · rintro ⟨rest, rfl⟩
        exact honly rest hstored
      · exact prefix_of_monthCounter
  · rw [framed_iff]
    constructor
    · intro h
      constructor
      · intro rest hstored
        have hcounter := (h _ hstored).mp ((hmatch _).mpr ⟨rest, rfl⟩)
        exact hcounter.resolve_right (prefix_ne_minuteCounter rest)
      · intro key hstored hminute
        obtain ⟨rest, rfl⟩ := (hmatch key).mp ((h key hstored).mpr (.inr hminute))
        exact prefix_ne_minuteCounter rest hminute
    · rintro ⟨honly, hnone⟩ key hstored
      rw [hmatch]
      constructor
      · rintro ⟨rest, rfl⟩
        exact .inl (honly rest hstored)
      · rintro (hmonth | hminute)
        · exact prefix_of_monthCounter hmonth
        · exact absurd hminute (hnone key hstored)

/-! ## Samples -/

/-- Patterns that are literal up to a final star. -/
def sampleGlob (pattern key : String) : Bool := pattern.toList.dropLast.isPrefixOf key.toList

theorem matchesPrefixes_sampleGlob : MatchesPrefixes sampleGlob := by
  intro text key _
  have hdrop : (text ++ "*").toList.dropLast = text.toList := by
    have hstar : "*".toList = ['*'] := rfl
    rw [String.toList_append, hstar, List.dropLast_concat]
  rw [sampleGlob, hdrop, List.isPrefixOf_iff_prefix]
  constructor
  · rintro ⟨rest, hrest⟩
    refine ⟨String.ofList rest, String.ext ?_⟩
    rw [String.toList_append, String.toList_ofList, hrest]
  · rintro ⟨rest, rfl⟩
    rw [String.toList_append]
    exact List.prefix_append _ _

/-- A database with the counter of a month. -/
def sampleRedis : Store String ℕ := AList.singleton "quota:monthly:u1:2025-1" 42

theorem monthCounter_sample : MonthCounter "u1" "quota:monthly:u1:2025-1" :=
  ⟨1735689600000, by decide⟩

/-- A limit that was set for the user is removed with the counter. -/
theorem limit_removed :
    (setUserMonthlyQuota "u1" 500 sampleRedis).lookup (limitKey "u1") = some 500 ∧
    (resetUserQuota sampleGlob "u1" (setUserMonthlyQuota "u1" 500 sampleRedis)).lookup
      (limitKey "u1") = none ∧
    ¬ Framed (MonthCounter "u1") (setUserMonthlyQuota "u1" 500 sampleRedis)
      (resetUserQuota sampleGlob "u1" (setUserMonthlyQuota "u1" 500 sampleRedis)) := by
  have hset : (setUserMonthlyQuota "u1" 500 sampleRedis).lookup (limitKey "u1") = some 500 :=
    AList.lookup_insert _
  have hremoved : (resetUserQuota sampleGlob "u1"
      (setUserMonthlyQuota "u1" 500 sampleRedis)).lookup (limitKey "u1") = none :=
    reset_removes_limit matchesPrefixes_sampleGlob (by decide) 500
  refine ⟨hset, hremoved, ?_⟩
  intro hframed
  have hkept := hframed.kept (limitKey "u1") not_monthCounter_limitKey
  rw [hremoved, hset] at hkept
  cases hkept

/-- Without a limit, the reset removes the counter and nothing else. -/
theorem reset_iff_sample :
    Framed (MonthCounter "u1") sampleRedis (resetUserQuota sampleGlob "u1" sampleRedis) := by
  refine ((reset_iff matchesPrefixes_sampleGlob "u1" sampleRedis).2 (by decide)).1.mpr ?_
  intro rest hstored
  have hkey : quotaPrefix "u1" ++ rest = "quota:monthly:u1:2025-1" := by
    simpa [sampleRedis, AList.mem_keys] using hstored
  rw [hkey]
  exact monthCounter_sample

end Stellara.Quotas
