import Stellara.Lib.Index

/-!
# Stores and indexes that follow a list

A program appends records to a list, and changes some of them later. It keeps the records in a
store under their keys, and the keys of every owner in an index. Reading the index of an owner, and
the store under the keys that it lists, gives the records of the owner in their order.

## Main definitions

* `List.modifyKey key k f l`: the records of `l`, with `f` applied to the ones of the key `k`
* `Store.Holds key m l`: the store holds the records of `l` under their keys, which differ
* `Store.Lists key owner index l`: the index lists the keys of every owner in the order of `l`

## Main results

* `Holds.concat`, `Lists.concat`: what appending a record is on the store and on the index
* `Holds.modify`, `Lists.modify`: what changing a record is
* `Holds.filterMap`: the records that are read through an index
-/

universe u v w

variable {K : Type u} {V : Type v} {O : Type w} [DecidableEq K] [DecidableEq O]

/-- Apply `f` to the records of the key `k`. -/
def List.modifyKey (key : V → K) (k : K) (f : V → V) (l : List V) : List V :=
  l.map fun v => if key v = k then f v else v

section ModifyKey

variable {key : V → K} {k : K} {f : V → V} {l : List V}

theorem List.map_modifyKey {W : Type*} {g : V → W} (hf : ∀ v, key v = k → g (f v) = g v) :
    (l.modifyKey key k f).map g = l.map g := by
  rw [List.modifyKey, List.map_map]
  refine List.map_congr_left fun v _ => ?_
  rw [Function.comp_apply]
  split
  · exact hf v ‹_›
  · rfl

/-- What the changed records are found by does not change. -/
theorem List.filter_modifyKey {p : V → Bool} (hf : ∀ v, key v = k → p (f v) = p v) :
    (l.modifyKey key k f).filter p = (l.filter p).modifyKey key k f := by
  rw [List.modifyKey, List.modifyKey, List.filter_map]
  congr 1
  refine List.filter_congr fun v _ => ?_
  rw [Function.comp_apply]
  split
  · exact hf v ‹_›
  · rfl

end ModifyKey

namespace Store

variable {key : V → K} {owner : V → O} {m : Store K V} {index : Store O (List K)} {l : List V}
  {v : V} {k : K} {o : O} {f : V → V}

/-- The store holds the records of a list under their keys, and no two of them share one. -/
structure Holds (key : V → K) (m : Store K V) (l : List V) : Prop where
  nodup : (l.map key).Nodup
  lookup_eq_some : ∀ k v, m.lookup k = some v ↔ v ∈ l ∧ key v = k

/-- The index lists the keys of the records of every owner, in the order of the records. -/
def Lists (key : V → K) (owner : V → O) (index : Store O (List K)) (l : List V) : Prop :=
  ∀ o, listAt index o = (l.filter fun v => owner v = o).map key

theorem holds_empty : Holds key (∅ : Store K V) [] := ⟨List.nodup_nil, by simp⟩

omit [DecidableEq K] in
theorem lists_empty : Lists key owner (∅ : Store O (List K)) [] := fun _ => rfl

/-- A new record is stored under its key. -/
theorem Holds.concat (h : Holds key m l) (hnew : m.lookup (key v) = none) :
    Holds key (m.insert (key v) v) (l ++ [v]) where
  nodup := by
    rw [List.map_append, List.map_singleton, ← List.concat_eq_append, List.nodup_concat]
    refine ⟨fun hmem => ?_, h.nodup⟩
    obtain ⟨v', hv', hkey⟩ := List.mem_map.mp hmem
    rw [(h.lookup_eq_some _ _).mpr ⟨hv', hkey⟩] at hnew
    cases hnew
  lookup_eq_some k v' := by
    rw [lookup_insert_ite]
    split
    · rename_i hk
      subst hk
      have hold : ¬ (v' ∈ l ∧ key v' = key v) := by
        rw [← h.lookup_eq_some, hnew]
        simp
      grind
    · rw [h.lookup_eq_some]
      grind

omit [DecidableEq K] in
/-- The key of a new record is appended to the list of its owner. -/
theorem Lists.concat (h : Lists key owner index l) :
    Lists key owner (index.insert (owner v) (listAt index (owner v) ++ [key v])) (l ++ [v]) := by
  intro o
  rw [listAt_insert, List.filter_append, List.map_append]
  split
  · rename_i ho
    subst ho
    rw [h, List.filter_cons_of_pos (by simp)]
    rfl
  · rename_i ho
    rw [h, List.filter_cons_of_neg (by simpa using Ne.symm ho), List.filter_nil, List.map_nil,
      List.append_nil]

/-- A record is overwritten by what it is changed to. -/
theorem Holds.modify (h : Holds key m l) (hold : m.lookup k = some v)
    (hf : ∀ v, key v = k → key (f v) = key v) :
    Holds key (m.insert k (f v)) (l.modifyKey key k f) where
  nodup := by
    rw [List.map_modifyKey hf]
    exact h.nodup
  lookup_eq_some k' v' := by
    obtain ⟨hmem, hkey⟩ := (h.lookup_eq_some _ _).mp hold
    simp only [List.modifyKey, List.mem_map]
    rw [lookup_insert_ite]
    split
    · rename_i hk
      subst hk
      constructor
      · rintro hv'
        obtain rfl := Option.some.inj hv'
        exact ⟨⟨v, hmem, if_pos hkey⟩, (hf v hkey).trans hkey⟩
      · rintro ⟨⟨v₀, hv₀, rfl⟩, hkey'⟩
        split at hkey'
        · rename_i hkey₀
          -- the record of the key is the only one
          have := (h.lookup_eq_some _ _).mpr ⟨hv₀, hkey₀⟩
          rw [hold] at this
          rw [if_pos hkey₀, Option.some.inj this]
        · contradiction
    · rename_i hk
      rw [h.lookup_eq_some]
      constructor
      · rintro ⟨hv', hkey'⟩
        exact ⟨⟨v', hv', if_neg fun heq => hk (hkey'.symm.trans heq)⟩, hkey'⟩
      · rintro ⟨⟨v₀, hv₀, rfl⟩, hkey'⟩
        split at hkey'
        · rename_i hkey₀
          exact absurd (hkey'.symm.trans ((hf v₀ hkey₀).trans hkey₀)) hk
        · rename_i hkey₀
          rw [if_neg hkey₀]
          exact ⟨hv₀, hkey'⟩

/-- A record that keeps its key and its owner stays where it is listed. -/
theorem Lists.modify (h : Lists key owner index l)
    (hf : ∀ v, key v = k → key (f v) = key v ∧ owner (f v) = owner v) :
    Lists key owner index (l.modifyKey key k f) := by
  intro o
  rw [List.filter_modifyKey fun v hv => by rw [(hf v hv).2], List.map_modifyKey fun v hv =>
    (hf v hv).1]
  exact h o

/-- Through the index the records of an owner are read in their order. -/
theorem Holds.filterMap (h : Holds key m l) (hlists : Lists key owner index l) :
    (listAt index o).filterMap m.lookup = l.filter fun v => owner v = o := by
  rw [hlists, List.filterMap_map]
  have hlookup : ∀ v ∈ l.filter fun v => owner v = o, (m.lookup ∘ key) v = some v := fun v hv =>
    (h.lookup_eq_some _ _).mpr ⟨(List.mem_filter.mp hv).1, rfl⟩
  rw [List.filterMap_congr hlookup, List.filterMap_some]

end Store
