import Stellara.Lib.Tasks

/-!
# Trails of tasks

What one task of a run has done is told by its own steps: where it was, what came from outside, and
the shared state that it found. What its start establishes and its own steps extend relates the
point of a task to its trail in every interleaving, whatever the other tasks do in between.

## Main definitions

* `OwnStep`: a step, as the task sees it
* `Async.trail i log`: the steps of the task `i`, in order

## Main results

* `Async.Run.trail`: the rule of trails
-/

/-- A step as its task sees it: the point from which it goes on, and what it finds there. -/
structure OwnStep (σ π ι : Type) where
  time : ℕ
  input : ι
  point : π
  shared : σ

namespace Async

variable {σ π ι : Type} {A : Async σ π ι}

/-- The step, if it is one of the task `i`. -/
def ownStep? (i : ℕ) (c : Commit (Tasks σ π) (Move π ι) Unit) : Option (OwnStep σ π ι) :=
  match c.call with
  | .start _ => none
  | .resume j input =>
    if j = i then c.before.points[i]?.map fun p => ⟨c.time, input, p, c.before.shared⟩ else none

def trail (i : ℕ) (log : Log σ π ι) : List (OwnStep σ π ι) := log.filterMap (ownStep? i)

variable {i j : ℕ} {log : Log σ π ι} {t : ℕ} {input : ι} {before after : Tasks σ π} {p : π}
  {r : Unit}

theorem trail_concat_start :
    trail i (log ++ [⟨t, .start p, r, before, after⟩]) = trail i log := by
  rw [trail, List.filterMap_append]
  exact List.append_nil _

theorem trail_concat_own (hp : before.points[i]? = some p) :
    trail i (log ++ [⟨t, .resume i input, r, before, after⟩]) =
      trail i log ++ [⟨t, input, p, before.shared⟩] := by
  simp [trail, List.filterMap_append, ownStep?, hp]

theorem trail_concat_other (hne : j ≠ i) :
    trail i (log ++ [⟨t, .resume j input, r, before, after⟩]) = trail i log := by
  simp [trail, List.filterMap_append, ownStep?, hne]

/-- What holds of every start, with an empty trail, and is extended by every step of a task, holds
of all tasks of a run and their trails; what was not started has none. -/
theorem trail_of_run {I : π → List (OwnStep σ π ι) → Prop} {t₀ : ℕ} {s₀ : σ}
    {w : World (Tasks σ π)} (hstart : ∀ s p, A.starts s p = true → I p [])
    (hstep : ∀ t input p q s s' trail, I p trail → A.resume t input p s = some (q, s') →
      I q (trail ++ [⟨t, input, p, s⟩]))
    (h : A.contract.Run ⟨t₀, ⟨s₀, []⟩⟩ w log) (i : ℕ) :
    w.store.points[i]?.elim (trail i log = []) fun p => I p (trail i log) := by
  refine h.invariant_log (I := fun _ (w : Tasks σ π) log => ∀ i : ℕ,
    w.points[i]?.elim (trail i log = []) fun p => I p (trail i log)) (by exact fun _ => rfl)
    (fun _ _ _ _ _ h => h) (fun t call r before after log ih he i => ?_) i
  have hmove : A.Step t before call after := step_of_exec he
  cases hmove with
  | @start p hp =>
    rw [trail_concat_start]
    have hi := ih i
    rw [List.getElem?_append]
    split
    · exact hi
    · rw [List.getElem?_eq_none (by omega), Option.elim_none] at hi
      rw [hi, List.getElem?_singleton]
      split
      · exact hstart _ _ hp
      · rfl
  | @resume j input p q s' hp hq =>
    have hi := ih i
    by_cases hj : j = i
    · subst hj
      rw [hp] at hi
      rw [getElem?_step_self hp, trail_concat_own hp]
      exact hstep _ _ _ _ _ _ _ hi hq
    · rw [getElem?_step_ne (Ne.symm hj), trail_concat_other hj]
      exact hi

end Async
