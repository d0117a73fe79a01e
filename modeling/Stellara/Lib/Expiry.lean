import Stellara.Lib.Store

/-!
# Stores with deadlines

The entries of a store may have deadlines, after which they are not read any more. An entry that has
expired stays where it is until something is written there, so that the passing of time changes what
is read, but not what is stored.

## Main definitions

* `Expiring V`: a value with its deadline, if any
* `Expiring.live now e`: the entry is still read
* `ExpiringStore.get`, `setEx`, `expire`, `modify`: reading and writing an entry

## Main results

* `Expiring.live_mono`: an entry that is live was so before
* `ExpiringStore.get_eq_some`, `get_mono`: what is read is stored and live, and could be read before
* `ExpiringStore.lookup_setEx_ne`, `lookup_modify_ne`, `lookup_expire_ne`: other entries stay
* `ExpiringStore.get_setEx`, `get_modify`, `get_erase`: reading an updated store
-/

universe u v

/-- A value with its deadline, if any. -/
structure Expiring (V : Type v) where
  value : V
  deadline : Option ℕ
deriving DecidableEq, Repr

/-- The entry has not expired. -/
def Expiring.live {V : Type v} (now : ℕ) (e : Expiring V) : Bool := e.deadline.all (now ≤ ·)

/-- Stores whose entries may have deadlines. -/
abbrev ExpiringStore (K : Type u) (V : Type v) := Store K (Expiring V)

/-- An entry that is live was so before. -/
theorem Expiring.live_mono {V : Type v} {now now' : ℕ} {e : Expiring V} (hle : now ≤ now')
    (h : e.live now' = true) : e.live now = true := by
  unfold live at h ⊢
  cases hdeadline : e.deadline with
  | none => rfl
  | some deadline =>
    rw [hdeadline, Option.all_some, decide_eq_true_eq] at h
    rw [Option.all_some, decide_eq_true_eq]
    exact hle.trans h

namespace ExpiringStore

variable {K : Type u} {V : Type v} [DecidableEq K] {m : ExpiringStore K V} {k k' : K} {v : V}
  {now ttl : ℕ} {f : Option V → V}

/-- The entry of a key, if it is live. -/
def find (now : ℕ) (k : K) (m : ExpiringStore K V) : Option (Expiring V) :=
  (m.lookup k).filter (·.live now)

def get (now : ℕ) (k : K) (m : ExpiringStore K V) : Option V := (find now k m).map (·.value)

/-- Store a value that expires after a time. -/
def setEx (now ttl : ℕ) (k : K) (v : V) (m : ExpiringStore K V) : ExpiringStore K V :=
  AList.insert k ⟨v, some (now + ttl)⟩ m

/-- Let an entry that is live expire after a time. -/
def expire (now ttl : ℕ) (k : K) (m : ExpiringStore K V) : ExpiringStore K V :=
  match find now k m with
  | some e => AList.insert k ⟨e.value, some (now + ttl)⟩ m
  | none => m

/-- Change the value of an entry that is live, or store one without a deadline. -/
def modify (now : ℕ) (k : K) (f : Option V → V) (m : ExpiringStore K V) : ExpiringStore K V :=
  match find now k m with
  | some e => AList.insert k ⟨f (some e.value), e.deadline⟩ m
  | none => AList.insert k ⟨f none, none⟩ m

theorem find_eq_some {e : Expiring V} :
    find now k m = some e ↔ m.lookup k = some e ∧ e.live now = true :=
  Option.filter_eq_some_iff

theorem get_eq_some :
    get now k m = some v ↔ ∃ e, m.lookup k = some e ∧ e.live now = true ∧ e.value = v := by
  rw [get, Option.map_eq_some_iff]
  simp only [find_eq_some, and_assoc]

theorem get_mono {now' : ℕ} (hle : now ≤ now') (h : get now' k m = some v) :
    get now k m = some v := by
  obtain ⟨e, hread, hlive, hvalue⟩ := get_eq_some.mp h
  exact get_eq_some.mpr ⟨e, hread, Expiring.live_mono hle hlive, hvalue⟩

theorem lookup_setEx_ne (h : k' ≠ k) : (setEx now ttl k v m).lookup k' = m.lookup k' := by
  rw [setEx, Store.lookup_insert_ite, if_neg h]

theorem lookup_expire_ne (h : k' ≠ k) : (expire now ttl k m).lookup k' = m.lookup k' := by
  unfold expire
  split
  · rw [Store.lookup_insert_ite, if_neg h]
  · rfl

theorem lookup_modify_ne (h : k' ≠ k) : (modify now k f m).lookup k' = m.lookup k' := by
  unfold modify
  split <;> rw [Store.lookup_insert_ite, if_neg h]

theorem get_insert {e : Expiring V} (hlive : e.live now = true) :
    get now k' (AList.insert k e m) = if k' = k then some e.value else get now k' m := by
  unfold get find
  rw [Store.lookup_insert_ite]
  split
  · rw [Option.filter_some_pos hlive]
    rfl
  · rfl

theorem get_setEx : get now k' (setEx now ttl k v m) = if k' = k then some v else get now k' m :=
  get_insert (decide_eq_true (Nat.le_add_right now ttl))

theorem get_modify :
    get now k' (modify now k f m) = if k' = k then some (f (get now k m)) else get now k' m := by
  have hget : get now k m = (find now k m).map (·.value) := rfl
  rw [hget]
  unfold modify
  cases hfind : find now k m with
  | some e =>
    -- the entry keeps its deadline
    have hlive : Expiring.live now ⟨f (some e.value), e.deadline⟩ = true :=
      (find_eq_some.mp hfind).2
    exact get_insert hlive
  | none => exact get_insert rfl

theorem get_erase : get now k' (m.erase k) = if k' = k then none else get now k' m := by
  unfold get find
  rw [Store.lookup_erase_ite]
  split <;> rfl

end ExpiringStore
