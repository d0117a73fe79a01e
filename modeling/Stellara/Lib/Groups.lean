import Mathlib.Algebra.BigOperators.Group.List.Basic
import Stellara.Lib.FirstMatch

/-!
# Groups of entries

The entries of a list that have the same key. A sum over the list is the sum over its groups, and
an update of the first entry with a key changes the group of that key in its head only.

## Main definitions

* `groupOf key k l`: the entries of `l` with the key `k`

## Main results

* `sum_map_groupOf`: a sum, group by group
* `groupOf_of_updateFirst`, `groupOf_of_updateFirst_ne`: the groups after an update
-/

universe u v w

variable {α : Type u} {κ : Type v} [DecidableEq κ] {key : α → κ} {k k' : κ} {l l' : List α}

/-- The entries with a key, in order. -/
def groupOf (key : α → κ) (k : κ) (l : List α) : List α := l.filter fun a => key a = k

theorem groupOf_append (l₁ l₂ : List α) :
    groupOf key k (l₁ ++ l₂) = groupOf key k l₁ ++ groupOf key k l₂ := List.filter_append ..

theorem groupOf_cons_pos {a : α} (h : key a = k) :
    groupOf key k (a :: l) = a :: groupOf key k l := List.filter_cons_of_pos (by simpa using h)

theorem groupOf_cons_neg {a : α} (h : key a ≠ k) : groupOf key k (a :: l) = groupOf key k l :=
  List.filter_cons_of_neg (by simpa using h)

theorem groupOf_eq_nil (h : ∀ a ∈ l, key a ≠ k) : groupOf key k l = [] :=
  List.filter_eq_nil_iff.mpr fun a ha => by simpa using h a ha

section Sum

variable {M : Type w} [AddCommMonoid M] {f : α → M}

/-- One more entry counts in the group of its key, and in no other. -/
theorem sum_groups_cons {a : α} {keys : List κ} (hnodup : keys.Nodup) (ha : key a ∈ keys) :
    (keys.map fun k => ((groupOf key k (a :: l)).map f).sum).sum =
      f a + (keys.map fun k => ((groupOf key k l).map f).sum).sum := by
  induction keys with
  | nil => cases ha
  | cons k keys ih =>
    obtain ⟨hk, hnodup⟩ := List.nodup_cons.mp hnodup
    rw [List.map_cons, List.sum_cons, List.map_cons, List.sum_cons]
    by_cases heq : key a = k
    · -- the keys behind are other ones
      have hrest : (keys.map fun k' => ((groupOf key k' (a :: l)).map f).sum) =
          keys.map fun k' => ((groupOf key k' l).map f).sum := by
        refine List.map_congr_left fun k' hk' => ?_
        rw [groupOf_cons_neg fun h => hk (by rwa [← heq, h])]
      rw [groupOf_cons_pos heq, hrest, List.map_cons, List.sum_cons, add_assoc]
    · rw [groupOf_cons_neg heq, ih hnodup ((List.mem_cons.mp ha).resolve_left heq), add_left_comm]

/-- A sum is the sum over the groups of a list of distinct keys in which all keys are. -/
theorem sum_map_groupOf {keys : List κ} (hnodup : keys.Nodup) (hkeys : ∀ a ∈ l, key a ∈ keys) :
    (keys.map fun k => ((groupOf key k l).map f).sum).sum = (l.map f).sum := by
  induction l with
  | nil => simp [groupOf]
  | cons a l ih =>
    obtain ⟨ha, hl⟩ := List.forall_mem_cons.mp hkeys
    rw [sum_groups_cons hnodup ha, ih hl, List.map_cons, List.sum_cons]

end Sum

section Update

variable {ε : Type w} {f : α → Except ε α}

/-- An update of the first entry with a key leaves the groups of other keys. -/
theorem groupOf_of_updateFirst_ne (h : updateFirst (fun a => key a = k) f l = .ok l')
    (hf : ∀ a b, key a = k → f a = .ok b → key b = key a) (hne : k' ≠ k) :
    groupOf key k' l' = groupOf key k' l := by
  rcases updateFirst_eq_ok h with ⟨-, rfl⟩ | ⟨l₁, a, b, l₂, rfl, -, ha, hb, rfl⟩
  · rfl
  · have hb' : key b = k := (hf a b ha hb).trans ha
    rw [groupOf_append, groupOf_append, groupOf_cons_neg (ha.trans_ne hne.symm),
      groupOf_cons_neg (hb'.trans_ne hne.symm)]

/-- It rewrites the head of the group of its key, if there is one. -/
theorem groupOf_of_updateFirst (h : updateFirst (fun a => key a = k) f l = .ok l')
    (hf : ∀ a b, key a = k → f a = .ok b → key b = key a) :
    groupOf key k l = [] ∧ l' = l ∨ ∃ a b rest, groupOf key k l = a :: rest ∧ f a = .ok b ∧
      groupOf key k l' = b :: rest := by
  rcases updateFirst_eq_ok h with ⟨hnone, rfl⟩ | ⟨l₁, a, b, l₂, rfl, hfirst, ha, hb, rfl⟩
  · exact .inl ⟨groupOf_eq_nil hnone, rfl⟩
  · have hb' : key b = k := (hf a b ha hb).trans ha
    refine .inr ⟨a, b, groupOf key k l₂, ?_, hb, ?_⟩
    · rw [groupOf_append, groupOf_eq_nil hfirst, groupOf_cons_pos ha, List.nil_append]
    · rw [groupOf_append, groupOf_eq_nil hfirst, groupOf_cons_pos hb', List.nil_append]

end Update
