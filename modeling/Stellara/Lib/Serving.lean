import Mathlib.Data.List.Sort
import Mathlib.Algebra.Order.BigOperators.Group.List
import Mathlib.Algebra.Order.Ring.Int

/-!
# Serving a demand in order of priority

A demand is served from a queue: each entry gives what it has, until the demand is met. The queue is
sorted by priority, and entries of the same priority keep the order in which they were listed.

## Main definitions

* `serve capacity demand queue`: the entries that serve a demand, and what each of them gives

## Main results

* `serve_prefix`, `serve_dropLast`, `serve_sum`: who serves, who gives all it has, and what is
  served
* `insertionSort_split`: the first entry of highest priority heads the sorted queue
* `pairwise_insertionSort_of_listed`: the queue is sorted by a finer order that the listing follows
-/

universe u

variable {α : Type u}

/-! ## Serving -/

section Serve

variable (capacity : α → ℤ)

/-- The entries of a queue that serve a demand, and what each of them gives. -/
def serve : ℤ → List α → List (α × ℤ)
  | _, [] => []
  | demand, a :: queue =>
    if demand ≤ 0 then []
    else (a, min demand (capacity a)) :: serve (demand - min demand (capacity a)) queue

variable {capacity} {demand : ℤ} {queue : List α}

theorem serve_of_nonpos (h : demand ≤ 0) : serve capacity demand queue = [] := by
  cases queue with
  | nil => rfl
  | cons a queue => rw [serve, if_pos h]

theorem serve_cons {a : α} (h : 0 < demand) : serve capacity demand (a :: queue) =
    (a, min demand (capacity a)) :: serve capacity (demand - min demand (capacity a)) queue := by
  rw [serve, if_neg h.not_ge]

/-- The entries at the front of the queue serve. -/
theorem serve_prefix : (serve capacity demand queue).map Prod.fst <+: queue := by
  induction queue generalizing demand with
  | nil => exact List.prefix_refl _
  | cons a queue ih =>
    by_cases h : demand ≤ 0
    · rw [serve_of_nonpos h]
      exact List.nil_prefix
    · rw [serve_cons (not_le.mp h), List.map_cons, List.prefix_cons_inj]
      exact ih

/-- Who serves gives something, and no more than it has. -/
theorem serve_mem (demand : ℤ) (hpos : ∀ a ∈ queue, 0 < capacity a) :
    ∀ p ∈ serve capacity demand queue, p.1 ∈ queue ∧ 0 < p.2 ∧ p.2 ≤ capacity p.1 := by
  induction queue generalizing demand with
  | nil => simp [serve]
  | cons a queue ih =>
    rw [List.forall_mem_cons] at hpos
    by_cases h : demand ≤ 0
    · simp [serve_of_nonpos h]
    · rw [serve_cons (not_le.mp h), List.forall_mem_cons]
      refine ⟨⟨List.mem_cons_self, lt_min (not_le.mp h) hpos.1, min_le_right _ _⟩, fun p hp => ?_⟩
      obtain ⟨hmem, hp⟩ := ih _ hpos.2 p hp
      exact ⟨List.mem_cons_of_mem a hmem, hp⟩

/-- All but the last that serve give all they have. -/
theorem serve_dropLast : ∀ p ∈ (serve capacity demand queue).dropLast, p.2 = capacity p.1 := by
  induction queue generalizing demand with
  | nil => simp [serve]
  | cons a queue ih =>
    by_cases h : demand ≤ 0
    · simp [serve_of_nonpos h]
    · rw [serve_cons (not_le.mp h)]
      -- the first is not the last exactly when its capacity does not meet the demand
      by_cases hlast : demand ≤ capacity a
      · rw [serve_of_nonpos (by rw [min_eq_left hlast]; omega)]
        simp
      · rw [min_eq_right (not_le.mp hlast).le]
        intro p hp
        rcases hrest : serve capacity (demand - capacity a) queue with _ | ⟨q, rest⟩
        · simp [hrest] at hp
        · rw [hrest, List.dropLast_cons_cons, List.mem_cons] at hp
          rcases hp with rfl | hp
          · rfl
          · exact ih p (by rwa [hrest])

/-- A demand is met, or all there is serves it. -/
theorem serve_sum (hdemand : 0 ≤ demand) (hnn : ∀ a ∈ queue, 0 ≤ capacity a) :
    ((serve capacity demand queue).map Prod.snd).sum = min demand (queue.map capacity).sum := by
  induction queue generalizing demand with
  | nil => simp [serve, hdemand]
  | cons a queue ih =>
    rw [List.forall_mem_cons] at hnn
    have hrest : 0 ≤ (queue.map capacity).sum := List.sum_nonneg (by simpa using hnn.2)
    have ha := hnn.1
    by_cases h : demand ≤ 0
    · rw [serve_of_nonpos h, List.map_cons, List.sum_cons]
      simp only [List.map_nil, List.sum_nil]
      omega
    · rw [serve_cons (not_le.mp h), List.map_cons, List.sum_cons, List.map_cons, List.sum_cons,
        ih (by omega) hnn.2]
      omega

end Serve

/-! ## Queues -/

section Sorted

variable {r : α → α → Prop} [DecidableRel r]

/-- The first entry of highest priority heads the queue, and the others follow as without it. -/
theorem insertionSort_split {l₁ l₂ : List α} {a : α} (hfirst : ∀ b ∈ l₁, ¬ r b a)
    (hbest : ∀ b ∈ l₁ ++ l₂, r a b) :
    (l₁ ++ a :: l₂).insertionSort r = a :: (l₁ ++ l₂).insertionSort r := by
  induction l₁ with
  | nil => exact List.insertionSort_cons_of_forall_rel r hbest
  | cons b l₁ ih =>
    rw [List.forall_mem_cons] at hfirst
    rw [List.cons_append, List.insertionSort_cons,
      ih hfirst.2 fun c hc => hbest c (List.mem_cons_of_mem b hc),
      List.orderedInsert_of_not_le r _ hfirst.1, List.cons_append, List.insertionSort_cons]

/-- Let the listing follow a finer order among entries of the same priority. Then the queue is
sorted by it. -/
theorem pairwise_insertionSort_of_listed {p : α → α → Prop} (htrans : ∀ a b c, p a b → p b c → p a c)
    {l : List α} (hlisted : l.Pairwise fun a b => (r a b → p a b) ∧ (¬ r a b → p b a)) :
    (l.insertionSort r).Pairwise p := by
  induction l with
  | nil => exact List.Pairwise.nil
  | cons a l ih =>
    rw [List.pairwise_cons] at hlisted
    obtain ⟨ha, hl⟩ := hlisted
    rw [List.insertionSort_cons]
    have hsorted := ih hl
    have hmem : ∀ b ∈ l.insertionSort r, (r a b → p a b) ∧ (¬ r a b → p b a) := by
      intro b hb
      exact ha b ((List.mem_insertionSort r).mp hb)
    -- insert `a` into the queue of the others
    generalize l.insertionSort r = queue at hsorted hmem
    induction queue with
    | nil => exact List.pairwise_singleton _ _
    | cons b queue ihq =>
      rw [List.pairwise_cons] at hsorted
      rw [List.forall_mem_cons] at hmem
      by_cases hab : r a b
      · rw [List.orderedInsert_cons_of_le r _ hab, List.pairwise_cons, List.pairwise_cons]
        refine ⟨?_, hsorted⟩
        rw [List.forall_mem_cons]
        exact ⟨hmem.1.1 hab, fun c hc => htrans a b c (hmem.1.1 hab) (hsorted.1 c hc)⟩
      · rw [List.orderedInsert_of_not_le r _ hab, List.pairwise_cons]
        refine ⟨fun c hc => ?_, ihq hsorted.2 hmem.2⟩
        rcases (List.mem_orderedInsert r).mp hc with rfl | hc
        · exact hmem.1.2 hab
        · exact hsorted.1 c hc

end Sorted
