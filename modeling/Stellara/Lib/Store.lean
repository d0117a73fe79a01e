import Mathlib.Data.List.AList
import Mathlib.Algebra.BigOperators.Group.List.Basic
import Mathlib.Algebra.BigOperators.Ring.List
import Mathlib.Algebra.Order.BigOperators.Group.List
import Mathlib.Algebra.Order.Group.Nat
import Mathlib.Algebra.Ring.Int.Defs

/-!
# Finite stores

A store is a finite map from keys to values, kept as an association list. The quantities a
program keeps about a store are sums over its entries, and an update of the store changes
such a sum by the contributions of the old and the new entry.

## Main definitions

* `Store K V`: finite maps from `K` to `V`
* `Store.total f m`: the sum of `f` over the entries of `m`
* `Store.find? P m`, `Store.mapValues f m`: the first entry of a kind, and a change of every entry
* `Store.Numbers m l`: the store `m` holds the entries of `l` under the keys 1, 2, …

## Main results

* `Store.lookup_insert_ite`, `Store.lookup_erase_ite`, `Store.eq_or_lookup_of_insert`: reading an
  updated store
* `Store.isSome_insert`, `Store.isSome_insert_next`: the keys of an updated store
* `Store.total_insert_new`, `Store.total_insert_old`, `Store.total_erase`: how a sum changes
* `Store.total_le_total`: a sum is monotone
* `Store.total_mem_le`: a count of entries whose keys are in a list is at most its length
* `Store.le_total`: a non-negative contribution is at most the sum
* `Store.find?_eq_some`, `Store.find?_eq_none`, `Store.lookup_mapValues`: what a query reads, and
  what a change of every entry leaves
* `Store.Numbers.insert`: storing under the next key appends to the list
-/

universe u v

/-- Finite maps from `K` to `V`. -/
abbrev Store (K : Type u) (V : Type v) := AList fun _ : K => V

namespace Store

variable {K : Type u} {V : Type v} [DecidableEq K]

theorem lookup_insert_ite (m : Store K V) (k k' : K) (v : V) :
    (m.insert k v).lookup k' = if k' = k then some v else m.lookup k' := by
  by_cases h : k' = k
  · subst h; simp
  · simp [h, AList.lookup_insert_ne h]

/-- An entry of an updated store is the new one, or an old one under another key. -/
theorem eq_or_lookup_of_insert {m : Store K V} {k k' : K} {v v' : V}
    (h : (m.insert k v).lookup k' = some v') :
    (k' = k ∧ v' = v) ∨ (k' ≠ k ∧ m.lookup k' = some v') := by
  rw [lookup_insert_ite] at h
  split at h
  · exact .inl ⟨‹_›, (Option.some.inj h).symm⟩
  · exact .inr ⟨‹_›, h⟩

/-- Writing a free key keeps what is stored. -/
theorem lookup_insert_of_free {m : Store K V} {k k' : K} {v v' : V} (hfree : m.lookup k = none)
    (hread : m.lookup k' = some v') : (m.insert k v).lookup k' = some v' := by
  have hne : k' ≠ k := by
    rintro rfl
    rw [hfree] at hread
    cases hread
  rw [lookup_insert_ite, if_neg hne, hread]

/-- A key is free in an updated store when it is another free key. -/
theorem lookup_insert_eq_none {m : Store K V} {k k' : K} {v : V} :
    (m.insert k v).lookup k' = none ↔ k' ≠ k ∧ m.lookup k' = none := by
  rw [lookup_insert_ite]
  split <;> simp [*]

/-- The keys of an updated store are the new one and the old ones. -/
theorem isSome_insert {m : Store K V} {k k' : K} {v : V} :
    ((m.insert k v).lookup k').isSome ↔ k' = k ∨ (m.lookup k').isSome := by
  rw [lookup_insert_ite]
  split <;> simp [*]

/-- Overwriting an entry keeps the keys. -/
theorem isSome_insert_of_lookup {m : Store K V} {k k' : K} {v v₀ : V} (h : m.lookup k = some v₀) :
    ((m.insert k v).lookup k').isSome ↔ (m.lookup k').isSome := by
  rw [isSome_insert, or_iff_right_of_imp]
  rintro rfl
  rw [h]
  rfl

theorem lookup_erase_ite (m : Store K V) (k k' : K) :
    (m.erase k).lookup k' = if k' = k then none else m.lookup k' := by
  by_cases h : k' = k
  · subst h; simp
  · simp [h, AList.lookup_erase_ne h]

theorem erase_eq_self {m : Store K V} {k : K} (h : m.lookup k = none) : m.erase k = m := by
  apply AList.ext
  exact List.kerase_of_notMem_keys (AList.lookup_eq_none.mp h)

/-- Reading a store after some keys were removed. -/
theorem lookup_foldl_erase (keys : List K) (m : Store K V) (k : K) :
    (keys.foldl (fun m k' => m.erase k') m).lookup k = if k ∈ keys then none else m.lookup k := by
  induction keys generalizing m with
  | nil => rfl
  | cons k' keys ih =>
    rw [List.foldl_cons, ih, lookup_erase_ite]
    by_cases hk : k = k'
    · simp [hk]
    · simp [hk]

section Query

variable {m : Store K V} {k : K} {v : V}

/-- The first entry of a kind. -/
def find? (P : K → V → Bool) (m : Store K V) : Option (K × V) :=
  (m.entries.find? fun e => P e.1 e.2).map fun e => (e.1, e.2)

/-- Change every entry. -/
def mapValues (f : K → V → V) (m : Store K V) : Store K V where
  entries := m.entries.map fun e => ⟨e.1, f e.1 e.2⟩
  nodupKeys := by
    have hkeys : (m.entries.map fun e => (⟨e.1, f e.1 e.2⟩ : Sigma fun _ : K => V)).keys =
        m.entries.keys := by
      simp only [List.keys, List.map_map, Function.comp_def]
    rw [List.NodupKeys, hkeys]
    exact m.nodupKeys

variable {P : K → V → Bool} {f : K → V → V}

theorem find?_eq_some (h : find? P m = some (k, v)) : m.lookup k = some v ∧ P k v = true := by
  obtain ⟨e, he, hkv⟩ := Option.map_eq_some_iff.mp h
  obtain ⟨rfl, rfl⟩ := Prod.mk.inj hkv
  have hP := List.find?_some he
  exact ⟨AList.mem_lookup_iff.mpr (List.mem_of_find?_eq_some he), hP⟩

theorem find?_eq_none : find? P m = none ↔ ∀ k v, m.lookup k = some v → P k v = false := by
  rw [find?, Option.map_eq_none_iff, List.find?_eq_none]
  constructor
  · intro h k v hk
    have hP := h ⟨k, v⟩ (AList.mem_lookup_iff.mp hk)
    simpa using hP
  · intro h e he
    have hP := h e.1 e.2 (AList.mem_lookup_iff.mpr he)
    simp [hP]

theorem lookup_mapValues : (mapValues f m).lookup k = (m.lookup k).map (f k) := by
  ext v
  rw [Option.map_eq_some_iff]
  constructor
  · intro h
    obtain ⟨e, he, hkv⟩ := List.mem_map.mp (AList.mem_lookup_iff.mp h)
    obtain ⟨rfl, hv⟩ := Sigma.mk.inj hkv
    exact ⟨e.2, AList.mem_lookup_iff.mpr he, eq_of_heq hv⟩
  · rintro ⟨v₀, hv₀, rfl⟩
    exact AList.mem_lookup_iff.mpr (List.mem_map.mpr ⟨⟨k, v₀⟩, AList.mem_lookup_iff.mp hv₀, rfl⟩)

/-- A change that leaves every entry leaves the store. -/
theorem mapValues_eq_self (h : ∀ k v, m.lookup k = some v → f k v = v) : mapValues f m = m := by
  apply AList.ext
  refine (List.map_congr_left fun e he => ?_).trans (List.map_id m.entries)
  rw [h e.1 e.2 (AList.mem_lookup_iff.mpr he)]
  rfl

end Query

section Total

variable {M : Type*} [AddCommMonoid M]

/-- The sum of `f` over the entries of a store. -/
def total (f : K → V → M) (m : Store K V) : M :=
  (m.entries.map fun e => f e.1 e.2).sum

variable {f g : K → V → M} {m : Store K V} {k : K} {v v₀ : V}

omit [DecidableEq K] in
@[simp] theorem total_empty : total f (∅ : Store K V) = 0 := rfl

theorem total_insert : total f (m.insert k v) = f k v + total f (m.erase k) := by
  rw [total, AList.entries_insert, List.map_cons, List.sum_cons]
  rfl

/-- A new entry adds its contribution. -/
theorem total_insert_new (h : m.lookup k = none) :
    total f (m.insert k v) = f k v + total f m := by
  rw [total, AList.entries_insert_of_notMem (AList.lookup_eq_none.mp h), List.map_cons,
    List.sum_cons, total]

/-- A removed entry takes its contribution away. -/
theorem total_erase (h : m.lookup k = some v) : f k v + total f (m.erase k) = total f m := by
  have hmem : (⟨k, v⟩ : Sigma fun _ : K => V) ∈ m.entries := AList.mem_lookup_iff.mp h
  obtain ⟨l₁, l₂, hl⟩ := List.append_of_mem hmem
  have hkeys : (l₁ ++ ⟨k, v⟩ :: l₂).NodupKeys := hl ▸ m.nodupKeys
  have hnot : k ∉ l₁.keys := by
    intro hk
    have hnd : ((l₁ ++ ⟨k, v⟩ :: l₂).map Sigma.fst).Nodup := hkeys
    rw [List.map_append, List.nodup_append] at hnd
    exact hnd.2.2 k hk k (by simp) rfl
  have herase : List.kerase k m.entries = l₁ ++ l₂ := by
    rw [hl, List.kerase_append_right hnot]
    simp
  have hsum : total f (m.erase k) = ((l₁ ++ l₂).map fun e => f e.1 e.2).sum := by
    rw [← herase]; rfl
  rw [hsum, total, hl]
  simp only [List.map_append, List.sum_append, List.map_cons, List.sum_cons]
  exact add_left_comm _ _ _

/-- An overwritten entry exchanges its old contribution for the new one. -/
theorem total_insert_old (h : m.lookup k = some v₀) :
    f k v₀ + total f (m.insert k v) = f k v + total f m := by
  rw [total_insert, ← total_erase (f := f) h, add_left_comm]

/-- An entry that is written back as it was leaves the sum. -/
theorem total_insert_same {M : Type*} [AddCancelCommMonoid M] {f : K → V → M}
    (h : m.lookup k = some v) : total f (m.insert k v) = total f m :=
  add_left_cancel (total_insert_old h)

/-- A stored entry exchanges the contribution of what was stored before, if anything. -/
theorem total_insert_elim :
    (m.lookup k).elim 0 (f k) + total f (m.insert k v) = f k v + total f m := by
  cases h : m.lookup k with
  | none => rw [total_insert_new h, Option.elim_none, zero_add]
  | some v₀ => rw [Option.elim_some, total_insert_old h]

theorem total_congr (h : ∀ k v, m.lookup k = some v → f k v = g k v) : total f m = total g m := by
  refine congrArg List.sum (List.map_congr_left fun e he => h e.1 e.2 ?_)
  exact AList.mem_lookup_iff.mpr he

/-- A sum without contributions. -/
theorem total_eq_zero (h : ∀ k v, m.lookup k = some v → f k v = 0) : total f m = 0 := by
  rw [total_congr (g := fun _ _ => 0) h, total]
  simp

omit [DecidableEq K] in
theorem total_ite (p : Prop) [Decidable p] :
    total (fun k v => if p then f k v else 0) m = if p then total f m else 0 := by
  split
  · rfl
  · simp [total]

omit [DecidableEq K] in
theorem total_add : total (fun k v => f k v + g k v) m = total f m + total g m :=
  List.sum_map_add

end Total

section Length

variable {m : Store K V} {k : K} {v v₀ : V}

omit [DecidableEq K] in
theorem total_one : total (fun _ _ => 1) m = m.entries.length := by simp [total]

theorem length_insert_new (h : m.lookup k = none) :
    (m.insert k v).entries.length = m.entries.length + 1 := by
  rw [← total_one, total_insert_new h, total_one, add_comm]

theorem length_insert_old (h : m.lookup k = some v₀) :
    (m.insert k v).entries.length = m.entries.length := by
  have hsum := total_insert_old (f := fun _ _ => (1 : ℕ)) (v := v) h
  rw [total_one, total_one] at hsum
  exact Nat.add_left_cancel hsum

end Length

section Order

/-- Smaller contributions have a smaller sum. -/
theorem total_le_total {M : Type*} [AddCommMonoid M] [Preorder M] [AddLeftMono M] [AddRightMono M]
    {f g : K → V → M} {m : Store K V} (h : ∀ k v, m.lookup k = some v → f k v ≤ g k v) :
    total f m ≤ total g m := by
  refine List.sum_le_sum fun e he => ?_
  exact h e.1 e.2 (AList.mem_lookup_iff.mpr he)

/-- A sum of ones over the keys of a list is at most the length of the list. -/
theorem total_mem_le {m : Store K V} (l : List K) :
    total (fun k _ => if k ∈ l then 1 else 0) m ≤ l.length := by
  induction l with
  | nil => exact Nat.le_of_eq (total_eq_zero fun _ _ _ => if_neg List.not_mem_nil)
  | cons a l ih =>
    have hone : total (fun k _ => if k = a then 1 else 0) m ≤ 1 := by
      cases h : m.lookup a with
      | none =>
        refine (Nat.le_of_eq (total_eq_zero fun k v hk => if_neg ?_)).trans (Nat.zero_le 1)
        rintro rfl
        cases h.symm.trans hk
      | some v =>
        have hrest : total (fun k _ => if k = a then 1 else 0) (m.erase a) = 0 := by
          refine total_eq_zero fun k v hk => if_neg ?_
          rintro rfl
          rw [lookup_erase_ite, if_pos rfl] at hk
          cases hk
        rw [← total_erase h, hrest, if_pos rfl]
    calc total (fun k _ => if k ∈ a :: l then 1 else 0) m
        ≤ total (fun k _ => (if k = a then 1 else 0) + if k ∈ l then 1 else 0) m := by
          refine total_le_total fun k v _ => ?_
          by_cases hka : k = a <;> by_cases hkl : k ∈ l <;> simp [hka, hkl]
      _ = total (fun k _ => if k = a then 1 else 0) m +
          total (fun k _ => if k ∈ l then 1 else 0) m := total_add
      _ ≤ (a :: l).length := by
          rw [List.length_cons]
          omega

variable {f : K → V → ℤ} {m : Store K V} {k : K} {v : V}

/-- A sum of non-negative contributions is non-negative. -/
theorem total_nonneg (h : ∀ k v, m.lookup k = some v → 0 ≤ f k v) : 0 ≤ total f m := by
  refine List.sum_nonneg fun x hx => ?_
  obtain ⟨e, he, rfl⟩ := List.mem_map.mp hx
  exact h e.1 e.2 (AList.mem_lookup_iff.mpr he)

omit [DecidableEq K] in
theorem total_mul_left (a : ℤ) : total (fun k v => a * f k v) m = a * total f m :=
  List.sum_map_mul_left m.entries (fun e => f e.1 e.2) a

/-- A contribution is at most the sum when all contributions are non-negative. -/
theorem le_total (h : ∀ k v, m.lookup k = some v → 0 ≤ f k v) (hk : m.lookup k = some v) :
    f k v ≤ total f m := by
  have hrest : 0 ≤ total f (m.erase k) := by
    refine total_nonneg fun k' v' hk' => h k' v' ?_
    rw [lookup_erase_ite] at hk'
    split at hk' <;> simp_all
  have := total_erase (f := f) hk
  omega

end Order

section Counted

variable {m : Store ℕ V} {count : ℕ}

/-- Where the keys are 1, 2, … up to a count, the next key is free. -/
theorem lookup_next (h : ∀ k, (m.lookup k).isSome ↔ 1 ≤ k ∧ k ≤ count) :
    m.lookup (count + 1) = none := by
  rw [← Option.not_isSome_iff_eq_none, h]
  omega

/-- Storing under the next key adds one to the count. -/
theorem isSome_insert_next (h : ∀ k, (m.lookup k).isSome ↔ 1 ≤ k ∧ k ≤ count) (v : V) (k : ℕ) :
    ((m.insert (count + 1) v).lookup k).isSome ↔ 1 ≤ k ∧ k ≤ count + 1 := by
  rw [isSome_insert, h]
  omega

end Counted

section Numbers

variable {m : Store ℕ V} {l : List V} {v : V} {k : ℕ}

/-- The store holds the entries of `l` in order, under the keys 1, 2, …. -/
structure Numbers (m : Store ℕ V) (l : List V) : Prop where
  lookup_zero : m.lookup 0 = none
  lookup_succ : ∀ i, m.lookup (i + 1) = l[i]?

theorem numbers_empty : Numbers (∅ : Store ℕ V) [] := ⟨rfl, fun _ => rfl⟩

theorem Numbers.lookup_next (h : Numbers m l) : m.lookup (l.length + 1) = none := by
  rw [h.lookup_succ]
  simp

/-- Storing under the next key appends to the list. -/
theorem Numbers.insert (h : Numbers m l) (v : V) :
    Numbers (AList.insert (l.length + 1) v m) (l ++ [v]) := by
  constructor
  · rw [lookup_insert_ite, if_neg (by omega)]
    exact h.lookup_zero
  · intro i
    rw [lookup_insert_ite, h.lookup_succ]
    by_cases hi : i = l.length
    · simp [hi]
    · rw [if_neg (by omega)]
      rcases Nat.lt_or_ge i l.length with hlt | hge
      · rw [List.getElem?_append_left hlt]
      · rw [List.getElem?_append_right hge, List.getElem?_eq_none hge, List.getElem?_eq_none]
        simp
        omega

/-- The keys in use are 1, 2, …, up to the length of the list. -/
theorem Numbers.isSome_iff (h : Numbers m l) : (m.lookup k).isSome ↔ 1 ≤ k ∧ k ≤ l.length := by
  cases k with
  | zero => simp [h.lookup_zero]
  | succ i =>
    rw [h.lookup_succ, ← Option.ne_none_iff_isSome, ne_eq, List.getElem?_eq_none_iff, not_le]
    omega

/-- An entry keeps its key when the list grows. -/
theorem Numbers.lookup_append {m' : Store ℕ V} {l' : List V} (h : Numbers m l)
    (h' : Numbers m' (l ++ l')) (hk : m.lookup k = some v) : m'.lookup k = some v := by
  cases k with
  | zero => rw [h.lookup_zero] at hk; cases hk
  | succ i =>
    rw [h.lookup_succ] at hk
    rw [h'.lookup_succ, List.getElem?_append_left (List.getElem?_eq_some_iff.mp hk).1]
    exact hk

end Numbers

end Store
