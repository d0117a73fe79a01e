import Mathlib.Data.List.Perm.Basic
import Mathlib.Data.List.Nodup

/-!
# Removal by count

Some entries of a list are taken out, and then as many entries are removed from its front. What was
taken out is what was removed exactly when the entries at the front that were not taken are, up to
order, those behind them that were.

## Main definitions

* `taken l`, `left l`: the entries that are marked, and those that are not
* `Exchanged l`, `InOrder l`: removal by count removes the marked entries, and the marked entries
  come first

## Main results

* `taken_perm_iff`: when the marked entries are those at the front, up to order
* `exchanged_iff_inOrder`: among distinct entries, when no unmarked one stands before a marked one
-/

namespace Trim

variable {α : Type*} {l l' : List (α × Bool)} {n : ℕ}

/-- The marked entries. -/
def taken (l : List (α × Bool)) : List α := (l.filter Prod.snd).map Prod.fst

/-- The entries that are not marked. -/
def left (l : List (α × Bool)) : List α := (l.filter fun e => !e.2).map Prod.fst

/-- As many entries as are marked are at the front, and those of them that are not marked are, up to
order, the marked ones behind them. -/
def Exchanged (l : List (α × Bool)) : Prop :=
  (left (l.take (taken l).length)).Perm (taken (l.drop (taken l).length))

/-- No entry that is not marked stands before one that is. -/
def InOrder (l : List (α × Bool)) : Prop := l.Pairwise fun a b => b.2 = true → a.2 = true

instance (l : List (α × Bool)) : Decidable (InOrder l) :=
  inferInstanceAs (Decidable (l.Pairwise fun a b => b.2 = true → a.2 = true))

theorem taken_append : taken (l ++ l') = taken l ++ taken l' := by
  rw [taken, List.filter_append, List.map_append]
  rfl

/-- Every entry is marked or not. -/
theorem taken_append_left_perm (l : List (α × Bool)) : (taken l ++ left l).Perm (l.map Prod.fst) := by
  rw [taken, left, ← List.map_append]
  exact (List.filter_append_perm Prod.snd l).map Prod.fst

theorem taken_sublist (l : List (α × Bool)) : (taken l).Sublist (l.map Prod.fst) :=
  List.filter_sublist.map Prod.fst

theorem left_sublist (l : List (α × Bool)) : (left l).Sublist (l.map Prod.fst) :=
  List.filter_sublist.map Prod.fst

/-- The marked entries are those at the front, as many as they are, when those that stand in their
places are exchanged for them. -/
theorem taken_perm_iff :
    (taken l).Perm ((l.take (taken l).length).map Prod.fst) ↔ Exchanged l := by
  unfold Exchanged
  generalize (taken l).length = n
  have hsplit : taken l = taken (l.take n) ++ taken (l.drop n) := by
    rw [← taken_append, List.take_append_drop]
  have hfront := taken_append_left_perm (l.take n)
  calc (taken l).Perm ((l.take n).map Prod.fst)
      ↔ ((l.take n).map Prod.fst).Perm (taken l) := List.perm_comm
    _ ↔ (taken (l.take n) ++ left (l.take n)).Perm (taken l) :=
      ⟨fun h => hfront.trans h, fun h => hfront.symm.trans h⟩
    _ ↔ (left (l.take n)).Perm (taken (l.drop n)) := by
      rw [hsplit, List.perm_append_left_iff]

/-- What takes the place of the front of a list is that front, up to order. -/
theorem perm_append_drop_iff {t a : List α} : (t ++ a.drop n).Perm a ↔ t.Perm (a.take n) := by
  have hsplit := List.take_append_drop n a
  constructor
  · intro h
    rw [← List.perm_append_right_iff (a.drop n), hsplit]
    exact h
  · intro h
    have h' := h.append_right (a.drop n)
    rwa [hsplit] at h'

theorem left_eq_nil : left l = [] ↔ ∀ e ∈ l, e.2 = true := by
  rw [left, List.map_eq_nil_iff, List.filter_eq_nil_iff]
  simp

theorem taken_eq_nil : taken l = [] ↔ ∀ e ∈ l, e.2 = false := by
  rw [taken, List.map_eq_nil_iff, List.filter_eq_nil_iff]
  simp

/-- Where no unmarked entry stands before a marked one, the marked ones come first. -/
theorem InOrder.filter_append (h : InOrder l) :
    l.filter Prod.snd ++ l.filter (fun e => !e.2) = l := by
  induction l with
  | nil => rfl
  | cons e l ih =>
    obtain ⟨hall, hrest⟩ := List.pairwise_cons.mp h
    cases he : e.2 with
    | true =>
      rw [List.filter_cons_of_pos he, List.filter_cons_of_neg (by simp [he]), List.cons_append,
        ih hrest]
    | false =>
      -- nothing behind an unmarked entry is marked
      have hnone : l.filter Prod.snd = [] := by
        rw [List.filter_eq_nil_iff]
        intro b hb hmarked
        have hmarked' := hall b hb hmarked
        rw [he] at hmarked'
        cases hmarked'
      have hrest' := ih hrest
      rw [hnone, List.nil_append] at hrest'
      rw [List.filter_cons_of_neg (by simp [he]), hnone, List.nil_append,
        List.filter_cons_of_pos (by simp [he]), hrest']

/-- A list is in order when its front is marked and what is behind it is not. -/
theorem inOrder_of_take_drop (hfront : ∀ e ∈ l.take n, e.2 = true)
    (hback : ∀ e ∈ l.drop n, e.2 = false) : InOrder l := by
  rw [InOrder, ← List.take_append_drop n l, List.pairwise_append]
  refine ⟨?_, ?_, ?_⟩
  · refine List.pairwise_of_forall_mem_list ?_
    intro a ha b hb hmarked
    exact hfront a ha
  · refine List.pairwise_of_forall_mem_list ?_
    intro a ha b hb hmarked
    rw [hback b hb] at hmarked
    cases hmarked
  · intro a ha b hb hmarked
    exact hfront a ha

/-- In a list that is in order, the front is marked and what is behind it is not. -/
theorem InOrder.take_drop (h : InOrder l) : l.take (taken l).length = l.filter Prod.snd ∧
    l.drop (taken l).length = l.filter fun e => !e.2 := by
  have hlength : (taken l).length = (l.filter Prod.snd).length := List.length_map _
  have hsplit := h.filter_append
  constructor
  · have htake : (l.filter Prod.snd ++ l.filter fun e => !e.2).take (l.filter Prod.snd).length =
      l.filter Prod.snd := List.take_left
    rwa [hsplit, ← hlength] at htake
  · have hdrop : (l.filter Prod.snd ++ l.filter fun e => !e.2).drop (l.filter Prod.snd).length =
      l.filter fun e => !e.2 := List.drop_left
    rwa [hsplit, ← hlength] at hdrop

/-- Among distinct entries, those at the front that are not marked are the marked ones behind them
only when there are none of either kind. -/
theorem exchanged_iff_inOrder (hnodup : (l.map Prod.fst).Nodup) : Exchanged l ↔ InOrder l := by
  unfold Exchanged
  constructor
  · intro hperm
    rw [← List.take_append_drop (taken l).length l, List.map_append] at hnodup
    have hdisjoint := List.disjoint_of_nodup_append hnodup
    -- an entry of one kind would be an entry of the other
    have hleft : left (l.take (taken l).length) = [] := by
      rw [List.eq_nil_iff_forall_not_mem]
      intro a ha
      exact hdisjoint ((left_sublist _).subset ha) ((taken_sublist _).subset (hperm.subset ha))
    have htaken : taken (l.drop (taken l).length) = [] := by
      rw [hleft] at hperm
      exact hperm.nil_eq.symm
    exact inOrder_of_take_drop (left_eq_nil.mp hleft) (taken_eq_nil.mp htaken)
  · intro hinOrder
    obtain ⟨hfront, hback⟩ := hinOrder.take_drop
    have hleft : left (l.take (taken l).length) = [] := by
      rw [left_eq_nil, hfront]
      intro e he
      exact (List.mem_filter.mp he).2
    have htaken : taken (l.drop (taken l).length) = [] := by
      rw [taken_eq_nil, hback]
      intro e he
      simpa using (List.mem_filter.mp he).2
    rw [hleft, htaken]

end Trim
