import Stellara.Lib.Store

/-!
# Indexes of stores

Beside a store whose entries have owners, a program keeps the keys of every owner in a list. The
lists are an index of the store when they hold the keys of what their owners have, each once. The
updates of the store are matched by updates of one list.

## Main definitions

* `Store.listAt index o`: the list of `o`
* `Store.Indexes owner m index`: the lists hold the keys of the entries of their owners

## Main results

* `Store.Indexes.insert_new`, `Store.Indexes.insert_old`, `Store.Indexes.erase`: the updates that
  keep an index
* `Store.Indexes.mem_filterMap`: the entries that are read through an index
-/

namespace Store

universe u v w

variable {K : Type u} {V : Type v} {O : Type w} [DecidableEq K] [DecidableEq O]

/-- The list that is stored for `o`. It is empty when nothing is stored. -/
def listAt (index : Store O (List K)) (o : O) : List K := (index.lookup o).getD []

omit [DecidableEq K] in
theorem listAt_insert (index : Store O (List K)) (o o' : O) (l : List K) :
    listAt (index.insert o l) o' = if o' = o then l else listAt index o' := by
  unfold listAt
  rw [lookup_insert_ite]
  split <;> rfl

/-- The lists hold the keys of the entries of their owners, each once. -/
structure Indexes (owner : V → O) (m : Store K V) (index : Store O (List K)) : Prop where
  mem_iff : ∀ o k, k ∈ listAt index o ↔ ∃ v, m.lookup k = some v ∧ owner v = o
  nodup : ∀ o, (listAt index o).Nodup

namespace Indexes

variable {owner : V → O} {m : Store K V} {index : Store O (List K)} {k : K} {v v₀ : V}

theorem empty : Indexes owner (∅ : Store K V) (∅ : Store O (List K)) where
  mem_iff o k := by simp [listAt]
  nodup o := List.nodup_nil

/-- The key of a new entry is appended to the list of its owner. -/
theorem insert_new (h : Indexes owner m index) (hnew : m.lookup k = none) :
    Indexes owner (m.insert k v)
      (index.insert (owner v) (listAt index (owner v) ++ [k])) where
  mem_iff o k' := by
    rw [listAt_insert, lookup_insert_ite]
    by_cases ho : o = owner v
    · subst ho
      rw [if_pos rfl, List.mem_append, List.mem_singleton, h.mem_iff]
      by_cases hk : k' = k
      · subst hk
        simp
      · simp [hk]
    · rw [if_neg ho, h.mem_iff]
      by_cases hk : k' = k
      · subst hk
        simp [hnew, Ne.symm ho]
      · simp [hk]
  nodup o := by
    rw [listAt_insert]
    split
    · rw [← List.concat_eq_append, List.nodup_concat]
      refine ⟨fun hmem => ?_, h.nodup _⟩
      obtain ⟨v', hv', -⟩ := (h.mem_iff _ _).mp hmem
      rw [hnew] at hv'
      cases hv'
    · exact h.nodup o

/-- An entry that is overwritten by one of the same owner stays where it is listed. -/
theorem insert_old (h : Indexes owner m index) (hold : m.lookup k = some v₀)
    (howner : owner v = owner v₀) : Indexes owner (m.insert k v) index where
  mem_iff o k' := by
    rw [h.mem_iff, lookup_insert_ite]
    by_cases hk : k' = k
    · subst hk
      simp [hold, howner]
    · rw [if_neg hk]
  nodup := h.nodup

/-- The key of an erased entry is taken out of the list of its owner. -/
theorem erase (h : Indexes owner m index) (hold : m.lookup k = some v₀) :
    Indexes owner (m.erase k)
      (index.insert (owner v₀) ((listAt index (owner v₀)).filter (· ≠ k))) where
  mem_iff o k' := by
    rw [listAt_insert, lookup_erase_ite]
    by_cases hk : k' = k
    · subst hk
      rw [if_pos rfl]
      by_cases ho : o = owner v₀
      · simp [ho]
      · simp [ho, h.mem_iff, hold, Ne.symm ho]
    · rw [if_neg hk]
      by_cases ho : o = owner v₀
      · subst ho
        simp [hk, h.mem_iff]
      · rw [if_neg ho, h.mem_iff]
  nodup o := by
    rw [listAt_insert]
    split
    · exact (h.nodup _).filter _
    · exact h.nodup o

/-- Through the list of an owner exactly the entries of that owner are read. -/
theorem mem_filterMap (h : Indexes owner m index) {o : O} :
    v ∈ (listAt index o).filterMap m.lookup ↔ owner v = o ∧ ∃ k, m.lookup k = some v := by
  rw [List.mem_filterMap]
  constructor
  · rintro ⟨k, hk, hv⟩
    obtain ⟨v', hv', ho⟩ := (h.mem_iff o k).mp hk
    obtain rfl := Option.some.inj (hv'.symm.trans hv)
    exact ⟨ho, k, hv⟩
  · rintro ⟨ho, k, hv⟩
    exact ⟨k, (h.mem_iff o k).mpr ⟨v, hv, ho⟩, hv⟩

end Indexes

end Store
