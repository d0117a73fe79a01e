import Mathlib.Data.List.Nodup
import Mathlib.Data.List.Perm.Basic
import Stellara.Lib.Tasks

/-!
# What tasks have done

Where each task has done a list of things at its point, the tasks together have done all of these
lists. A start that has done nothing yet adds nothing, and a step adds what its task does by it. So
a state that records exactly what every step does holds, in some order, what the tasks have done:
nothing is recorded twice, and nothing without the task that did it.

## Main results

* `flatMap_start`, `flatMap_step`: what a start and a step add
* `Async.recorded_of_run`: a state that records every step holds what the tasks have done
* `eq_of_flatMap_nodup`: what is not done twice is done by one task alone
-/

section Points

variable {π β : Type} {points : List π} {i j : ℕ} {p q : π} {f : π → List β} {new : List β}

theorem flatMap_start (hp : f p = []) : (points ++ [p]).flatMap f = points.flatMap f := by
  rw [List.flatMap_append, List.flatMap_singleton, hp, List.append_nil]

/-- A step adds what its task does. -/
theorem flatMap_step (h : points[i]? = some p) (hq : f q = f p ++ new) :
    ((points.set i q).flatMap f).Perm (points.flatMap f ++ new) := by
  obtain ⟨hi, rfl⟩ := List.getElem?_eq_some_iff.mp h
  have hold : (points.flatMap f).Perm (f points[i] ++ (points.eraseIdx i).flatMap f) :=
    (List.getElem_cons_eraseIdx_perm hi).symm.flatMap_right f
  have hset : ((points.set i q).flatMap f).Perm (f q ++ (points.eraseIdx i).flatMap f) :=
    (List.set_perm_cons_eraseIdx hi q).flatMap_right f
  rw [hq, List.append_assoc] at hset
  refine hset.trans (List.Perm.trans ?_ (hold.append_right new).symm)
  rw [List.append_assoc]
  exact List.perm_append_comm.append_left _

/-- Where nothing is done twice, what a task has done is done by no other one. -/
theorem eq_of_flatMap_nodup {b : β} (hnodup : (points.flatMap f).Nodup) (hp : points[i]? = some p)
    (hq : points[j]? = some q) (hbp : b ∈ f p) (hbq : b ∈ f q) : i = j := by
  by_contra hne
  rw [List.nodup_flatMap] at hnodup
  have hpair := List.pairwise_iff_getElem.mp hnodup.2
  obtain ⟨hi, rfl⟩ := List.getElem?_eq_some_iff.mp hp
  obtain ⟨hj, rfl⟩ := List.getElem?_eq_some_iff.mp hq
  rcases Nat.lt_or_gt_of_ne hne with hlt | hgt
  · exact hpair i j hi hj hlt hbp hbq
  · exact hpair j i hj hi hgt hbq hbp

end Points

namespace Async

variable {σ π ι β : Type} {A : Async σ π ι} {f : π → List β} {g : σ → List β}
  {w₀ w : World (Tasks σ π)} {log : Log σ π ι}

/-- The commit is a start, or a step that adds to the record of the state what its task does. -/
def Records (f : π → List β) (g : σ → List β) (c : Commit (Tasks σ π) (Move π ι) Unit) : Prop :=
  ∀ i input p q, c.call = .resume i input → c.before.points[i]? = some p →
    c.after.points[i]? = some q →
    ∃ new, f q = f p ++ new ∧ (g c.after.shared).Perm (g c.before.shared ++ new)

/-- A state that records what every step does holds what the tasks have done. -/
theorem recorded_of_run (hstart : ∀ s p, A.starts s p = true → f p = [])
    (h : A.contract.Run w₀ w log) (hlog : ∀ c ∈ log, Records f g c)
    (h₀ : (g w₀.store.shared).Perm (w₀.store.points.flatMap f)) :
    (g w.store.shared).Perm (w.store.points.flatMap f) := by
  refine h.invariant_log (I := fun _ w log => (∀ c ∈ log, Records f g c) →
    (g w.shared).Perm (w.points.flatMap f)) (fun _ => h₀) (fun _ _ _ _ _ hs => hs)
    (fun t m r w w' log ih he hall => ?_) hlog
  rw [List.forall_mem_append, List.forall_mem_singleton] at hall
  have hmove : A.Step t w m w' := step_of_exec he
  cases hmove with
  | start hp =>
    rw [flatMap_start (hstart _ _ hp)]
    exact ih hall.1
  | @resume i input p q s hp hq =>
    obtain ⟨new, hf, hg⟩ := hall.2 i input p q rfl hp (getElem?_step_self hp)
    exact hg.trans (((ih hall.1).append_right new).trans (flatMap_step hp hf).symm)

end Async
