import Mathlib.Data.Finset.Max

/-!
# Counters of fixed windows

A counter that expires a fixed time after it was started limits the calls of each of its periods. A
window of that length can meet two periods, since it can begin in the middle of one, but not three.
So in any window there are at most twice as many calls as in a period.

## Main definitions

* `Periods width limit calls`: the calls with the starts of their periods

## Main results

* `Periods.concat`: a call joins the last period, or starts a new one
* `Periods.countP_le`: how many calls are in a window
-/

/-- Calls that are counted in periods, each with its time and the start of its period. -/
structure Periods (width limit : ℕ) (calls : List (ℕ × ℕ)) : Prop where
  started : ∀ c ∈ calls, c.2 ≤ c.1
  /-- A period begins after the calls of earlier ones, and later than these are wide. -/
  apart : ∀ c ∈ calls, ∀ c' ∈ calls, c.2 < c'.2 → c.1 ≤ c'.2 ∧ c.2 + width ≤ c'.2
  few : ∀ start, (calls.countP fun c => c.2 = start) ≤ limit

section Periods

variable {width limit t start time : ℕ} {calls : List (ℕ × ℕ)}

theorem periods_nil : Periods width limit [] := ⟨by simp, by simp, by simp⟩

/-- A call of a period that is not over, in which the limit is not reached. -/
theorem Periods.concat (h : Periods width limit calls) (hstart : start ≤ time)
    (hlater : ∀ c ∈ calls, c.2 = start ∨ c.1 ≤ start ∧ c.2 + width ≤ start)
    (hfew : (calls.countP fun c => c.2 = start) < limit) :
    Periods width limit (calls ++ [(time, start)]) := by
  constructor
  case started =>
    rw [List.forall_mem_append, List.forall_mem_singleton]
    exact ⟨h.started, hstart⟩
  case apart =>
    intro c hc c' hc' hlt
    rcases List.mem_append.mp hc with hc | hc <;> rcases List.mem_append.mp hc' with hc' | hc'
    · exact h.apart c hc c' hc' hlt
    · obtain rfl := List.mem_singleton.mp hc'
      exact (hlater c hc).resolve_left hlt.ne
    · -- the period of the new call is the last one
      obtain rfl := List.mem_singleton.mp hc
      have hold := hlater c' hc'
      dsimp only at hlt
      omega
    · obtain rfl := List.mem_singleton.mp hc
      obtain rfl := List.mem_singleton.mp hc'
      exact absurd hlt (lt_irrefl _)
  case few =>
    intro start'
    have hold := h.few start'
    rw [List.countP_append, List.countP_singleton]
    by_cases heq : start = start'
    · subst heq
      simp only [decide_true, if_true]
      omega
    · simpa [heq] using hold

theorem countP_le_add {α : Type*} {p q r : α → Bool} {l : List α}
    (h : ∀ a ∈ l, p a = true → q a = true ∨ r a = true) : l.countP p ≤ l.countP q + l.countP r := by
  induction l with
  | nil => exact Nat.zero_le _
  | cons a l ih =>
    have hrest := ih fun b hb => h b (List.mem_cons_of_mem a hb)
    have ha := h a List.mem_cons_self
    simp only [List.countP_cons]
    by_cases hp : p a = true
    · rcases ha hp with hq | hr
      · simp only [hp, hq, if_true]
        split <;> omega
      · simp only [hp, hr, if_true]
        split <;> omega
    · rw [if_neg hp]
      split <;> split <;> omega

/-- A window of the width of a period has at most twice as many calls as a period. -/
theorem Periods.countP_le (h : Periods width limit calls) (t : ℕ) :
    (calls.countP fun c => t < c.1 ∧ c.1 ≤ t + width) ≤ 2 * limit := by
  let inside := calls.filter fun c => t < c.1 ∧ c.1 ≤ t + width
  have hinside : ∀ c, c ∈ inside ↔ c ∈ calls ∧ t < c.1 ∧ c.1 ≤ t + width := by
    intro c
    simp [inside]
  rcases List.eq_nil_or_concat inside with hnil | ⟨rest, last, hconcat⟩
  · have hnone : ∀ c ∈ calls, ¬ (t < c.1 ∧ c.1 ≤ t + width) := by
      intro c hc hin
      have hmem := (hinside c).mpr ⟨hc, hin⟩
      rw [hnil] at hmem
      cases hmem
    have hzero : (calls.countP fun c => t < c.1 ∧ c.1 ≤ t + width) = 0 :=
      List.countP_eq_zero.mpr fun c hc => by simpa using hnone c hc
    omega
  · -- the first and the last period in the window are all of them
    have hne : inside.toFinset.Nonempty := by
      refine ⟨last, List.mem_toFinset.mpr ?_⟩
      rw [hconcat]
      simp
    obtain ⟨first, hfirst, hmin⟩ := Finset.exists_min_image inside.toFinset Prod.snd hne
    obtain ⟨final, hfinal, hmax⟩ := Finset.exists_max_image inside.toFinset Prod.snd hne
    obtain ⟨hfirst, hfirst_in⟩ := (hinside first).mp (List.mem_toFinset.mp hfirst)
    obtain ⟨hfinal, hfinal_in⟩ := (hinside final).mp (List.mem_toFinset.mp hfinal)
    have htwo : ∀ c ∈ calls, t < c.1 ∧ c.1 ≤ t + width → c.2 = first.2 ∨ c.2 = final.2 := by
      intro c hc hin
      have hmem := List.mem_toFinset.mpr ((hinside c).mpr ⟨hc, hin⟩)
      by_contra hneither
      rw [not_or] at hneither
      have hlt₁ : first.2 < c.2 := lt_of_le_of_ne (hmin c hmem) (Ne.symm hneither.1)
      have hlt₂ : c.2 < final.2 := lt_of_le_of_ne (hmax c hmem) hneither.2
      have hafter := (h.apart first hfirst c hc hlt₁).1
      have hwide := (h.apart c hc final hfinal hlt₂).2
      have hstarted := h.started final hfinal
      omega
    have hsum := countP_le_add (l := calls) (p := fun c => t < c.1 ∧ c.1 ≤ t + width)
      (q := fun c => c.2 = first.2) (r := fun c => c.2 = final.2)
      fun c hc hin => by simpa using htwo c hc (of_decide_eq_true hin)
    have hfew₁ := h.few first.2
    have hfew₂ := h.few final.2
    omega

end Periods
