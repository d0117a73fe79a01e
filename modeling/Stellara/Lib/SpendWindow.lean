import Mathlib.Algebra.BigOperators.Group.List.Basic
import Mathlib.Algebra.Order.Ring.Nat
import Mathlib.Order.Basic

/-!
# Spending windows

Time is divided into windows of equal length, and a counter keeps what was paid in the window of
the last payment. A payment in a later window starts the counter anew. As time never decreases,
the counter is the sum of the payments in the window that it is for.

## Main definitions

* `spentIn unit window payments`: the sum of the payments in a window
* `Counts`: a counter and its window are right

## Main results

* `Counts.tick`, `Counts.pay`: time may pass, and a payment is counted once
-/

namespace SpendWindow

/-- The sum of the payments at times in the given window of `unit` seconds. A payment is its time
and its amount. -/
def spentIn (unit window : ℕ) (payments : List (ℕ × ℕ)) : ℕ :=
  ((payments.filter fun p => p.1 / unit = window).map Prod.snd).sum

/-- The counter `spent` of the window `start` is right at the time `now`. -/
structure Counts (unit now start spent : ℕ) (payments : List (ℕ × ℕ)) : Prop where
  start_le : start ≤ now / unit
  recent : ∀ p ∈ payments, p.1 / unit ≤ start
  spent_eq : spent = spentIn unit start payments

variable {unit now now' start spent : ℕ} {payments : List (ℕ × ℕ)}

theorem spentIn_append (window : ℕ) (p : ℕ × ℕ) : spentIn unit window (payments ++ [p]) =
    spentIn unit window payments + if p.1 / unit = window then p.2 else 0 := by
  unfold spentIn
  rw [List.filter_append, List.map_append, List.sum_append]
  split <;> simp [*]

/-- In a window after all payments nothing was spent. -/
theorem spentIn_of_lt {window : ℕ} (h : ∀ p ∈ payments, p.1 / unit < window) :
    spentIn unit window payments = 0 := by
  have hnone : payments.filter (fun p => p.1 / unit = window) = [] := by
    apply List.filter_eq_nil_iff.mpr
    intro p hp hwindow
    exact absurd (of_decide_eq_true hwindow) (h p hp).ne
  rw [spentIn, hnone]
  rfl

/-- A counter without payments. -/
theorem counts_nil : Counts unit now (now / unit) 0 [] := ⟨le_rfl, by simp, rfl⟩

/-- Time may pass. -/
theorem Counts.tick (h : Counts unit now start spent payments) (hle : now ≤ now') :
    Counts unit now' start spent payments where
  start_le := h.start_le.trans (Nat.div_le_div_right hle)
  recent := h.recent
  spent_eq := h.spent_eq

/-- A payment is added to the counter, or starts it anew when its window is a later one. -/
theorem Counts.pay (h : Counts unit now start spent payments) (amount : ℕ) :
    Counts unit now (now / unit) ((if start = now / unit then spent else 0) + amount)
      (payments ++ [(now, amount)]) where
  start_le := le_rfl
  recent := by
    intro p hp
    rcases List.mem_append.mp hp with hp | hp
    · exact (h.recent p hp).trans h.start_le
    · obtain rfl := List.mem_singleton.mp hp
      exact le_rfl
  spent_eq := by
    rw [spentIn_append, if_pos rfl]
    split
    · rename_i hsame
      rw [h.spent_eq, hsame]
    · rename_i hnew
      -- all earlier payments are in earlier windows
      have hlt : start < now / unit := lt_of_le_of_ne h.start_le hnew
      rw [spentIn_of_lt fun p hp => (h.recent p hp).trans_lt hlt]

end SpendWindow
