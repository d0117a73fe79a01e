import Mathlib.Data.List.Basic
import Stellara.Lib.Contract

/-!
# Concurrent tasks

Asynchronous code runs in tasks that share a state. A task does what it does between two awaits in
one step, and between its steps the other tasks take any number of steps of their own. Its point
says where it waits and what it holds in local variables; a point at which it does not go on is an
end of the task, and a task that has ended keeps that point.

The tasks as a whole form a contract, whose calls are the starts of tasks and their steps, so that
the runs and the rules of `Contract` are those of all interleavings.

## Main definitions

* `Async`: asynchronous code, by what a task does from one point to the next
* `Tasks`: the shared state, and the points of the tasks that were started
* `Async.contract`: the starts and the steps of tasks as the calls of a contract
* `Async.Step A t w m w'`: what the move `m` does
* `OnStep G c`: the commit `c` is a start, or a step that meets `G`
* `Apart R points`: any two tasks are related by `R`
* `Async.Idle A w`: all tasks have ended
* `Async.Path A R G`: what one task does while the others change the state as `R` admits

## Main results

* `Async.invariant`, `Async.invariant_timed`: what every start, and every step that meets a
  condition, preserves
* `Async.invariant_iff`: what a step preserves exactly when it meets a condition
* `Async.alone`, `Async.alone_log`, `Async.Path.invariant`: the rules of a task that runs alone, or
  among others
* `Apart.start`, `Apart.set`: what a start or a step leaves of a relation between tasks
* `Apart.start_of_none`, `Apart.set_of_keys`: the same for tasks that have keys of their own
* `forall_mem_start`, `exists_mem_step`, `forall_mem_step`: what a start or a step does to the
  tasks that are in some state
* `countP_set`, `countP_step_le`: what a step does to the number of tasks of a kind
-/

/-- Asynchronous code. -/
structure Async (σ π ι : Type) where
  /-- A task can start at this point. -/
  starts : σ → π → Bool
  /-- What a task does at a time from a point to the next, with what comes from outside; `none`
  where it does not go on. -/
  resume : ℕ → ι → π → σ → Option (π × σ)

/-- The shared state, and the points of the tasks in the order in which they were started. -/
structure Tasks (σ π : Type) where
  shared : σ
  points : List π
deriving DecidableEq, Repr

inductive Move (π ι : Type) where
  | start (p : π)
  /-- The task goes on, with what comes from outside. -/
  | resume (task : ℕ) (input : ι)
deriving DecidableEq, Repr

namespace Async

variable {σ π ι : Type}

/-- A move; an error stands for one that is not possible. -/
def exec (A : Async σ π ι) (now : ℕ) : Move π ι → Tasks σ π → Except Unit (Unit × Tasks σ π)
  | .start p, w =>
    if A.starts w.shared p then .ok ((), { w with points := w.points ++ [p] }) else .error ()
  | .resume i input, w =>
    match w.points[i]?.bind fun p => A.resume now input p w.shared with
    | some (q, s) => .ok ((), ⟨s, w.points.set i q⟩)
    | none => .error ()

/-- The tasks as a contract. -/
def contract (A : Async σ π ι) : Contract (Tasks σ π) (Move π ι) Unit Unit where
  exec := A.exec

/-- The moves of a run, in order. -/
abbrev Log (σ π ι : Type) := List (Commit (Tasks σ π) (Move π ι) Unit)

/-- What the move does at a time. -/
inductive Step (A : Async σ π ι) (t : ℕ) (w : Tasks σ π) : Move π ι → Tasks σ π → Prop
  | start {p : π} : A.starts w.shared p = true → Step A t w (.start p) ⟨w.shared, w.points ++ [p]⟩
  | resume {i : ℕ} {input : ι} {p q : π} {s : σ} : w.points[i]? = some p →
      A.resume t input p w.shared = some (q, s) →
      Step A t w (.resume i input) ⟨s, w.points.set i q⟩

variable {A : Async σ π ι} {t : ℕ} {w w' : Tasks σ π} {m : Move π ι} {r : Unit}

theorem step_of_exec (h : A.contract.exec t m w = .ok (r, w')) : A.Step t w m w' := by
  cases m with
  | start p =>
    simp only [contract, exec] at h
    split at h
    · rename_i hp
      obtain ⟨-, rfl⟩ := Prod.mk.inj (Except.ok.inj h)
      exact .start hp
    · cases h
  | resume i input =>
    simp only [contract, exec] at h
    split at h
    · rename_i q s hbind
      obtain ⟨-, rfl⟩ := Prod.mk.inj (Except.ok.inj h)
      obtain ⟨p, hp, hq⟩ := Option.bind_eq_some_iff.mp hbind
      exact .resume hp hq
    · cases h

/-- The commit is a start, or a step of a task that meets `G`. -/
def OnStep (G : ℕ → ι → ℕ → π → Tasks σ π → Prop)
    (c : Commit (Tasks σ π) (Move π ι) Unit) : Prop :=
  match c.call with
  | .start _ => True
  | .resume i input => ∀ p, c.before.points[i]? = some p → G c.time input i p c.before

instance {G : ℕ → ι → ℕ → π → Tasks σ π → Prop} [∀ t input i p w, Decidable (G t input i p w)] :
    DecidablePred (OnStep G) := fun c =>
  match c with
  | ⟨_, .start _, _, _, _⟩ => isTrue trivial
  | ⟨t, .resume i input, _, before, _⟩ =>
    inferInstanceAs (Decidable (∀ p ∈ before.points[i]?, G t input i p before))

/-- All tasks have ended. -/
def Idle (A : Async σ π ι) (w : Tasks σ π) : Prop :=
  ∀ p ∈ w.points, ∀ t input s, A.resume t input p s = none

/-! ## The rule of invariants -/

/-- What the passing of time preserves, every start, and every step that meets `G`, holds
throughout a run whose steps all meet `G`. -/
theorem invariant_timed {I : ℕ → Tasks σ π → Prop} {G : ℕ → ι → ℕ → π → Tasks σ π → Prop}
    {w₀ w : World (Tasks σ π)} {log : Log σ π ι}
    (htime : ∀ t t' w, t ≤ t' → I t w → I t' w)
    (hstart : ∀ t s points p, I t ⟨s, points⟩ → A.starts s p = true → I t ⟨s, points ++ [p]⟩)
    (hresume : ∀ t input i p q s s' points, I t ⟨s, points⟩ → points[i]? = some p →
      G t input i p ⟨s, points⟩ → A.resume t input p s = some (q, s') →
      I t ⟨s', points.set i q⟩)
    (h : A.contract.Run w₀ w log) (h₀ : I w₀.now w₀.store) (hG : ∀ c ∈ log, OnStep G c) :
    I w.now w.store ∧ ∀ c ∈ log, I c.time c.before ∧ I c.time c.after := by
  refine h.invariant_log (I := fun t s log => (∀ c ∈ log, OnStep G c) →
    I t s ∧ ∀ c ∈ log, I c.time c.before ∧ I c.time c.after) (fun _ => ⟨h₀, by simp⟩)
    (fun t t' s log hle hs hlog => ⟨htime t t' s hle (hs hlog).1, (hs hlog).2⟩) ?_ hG
  intro t call r before after log ih he hlog
  rw [List.forall_mem_append, List.forall_mem_singleton] at hlog
  obtain ⟨hbefore, hmem⟩ := ih hlog.1
  have hafter : I t after := by
    have hstep : A.Step t before call after := step_of_exec he
    cases hstep with
    | start hp => exact hstart _ _ _ _ hbefore hp
    | resume hp hq => exact hresume _ _ _ _ _ _ _ _ hbefore hp (hlog.2 _ hp) hq
  rw [List.forall_mem_append, List.forall_mem_singleton]
  exact ⟨hafter, hmem, hbefore, hafter⟩

/-- What every start preserves, and every step that meets `G`, holds throughout a run whose steps
all meet `G`. -/
theorem invariant {I : Tasks σ π → Prop} {G : ℕ → ι → ℕ → π → Tasks σ π → Prop}
    {w₀ w : World (Tasks σ π)} {log : Log σ π ι}
    (hstart : ∀ s points p, I ⟨s, points⟩ → A.starts s p = true → I ⟨s, points ++ [p]⟩)
    (hresume : ∀ t input i p q s s' points, I ⟨s, points⟩ → points[i]? = some p →
      G t input i p ⟨s, points⟩ → A.resume t input p s = some (q, s') →
      I ⟨s', points.set i q⟩)
    (h : A.contract.Run w₀ w log) (h₀ : I w₀.store) (hG : ∀ c ∈ log, OnStep G c) :
    I w.store ∧ ∀ c ∈ log, I c.before ∧ I c.after :=
  invariant_timed (I := fun _ => I) (fun _ _ _ _ hI => hI) (fun _ => hstart) hresume h h₀ hG

theorem onStep_resume {G : ℕ → ι → ℕ → π → Tasks σ π → Prop} {i : ℕ} {input : ι} {p : π} {u : Unit}
    (hp : w.points[i]? = some p) :
    OnStep G ⟨t, .resume i input, u, w, w'⟩ ↔ G t input i p w := by
  constructor
  · exact fun h => h p hp
  · intro h q hq
    obtain rfl := Option.some.inj (hp.symm.trans hq)
    exact h

/-- Beside an invariant `S`, let every start preserve `I`, and a step exactly when it meets `G`.
Then `I` holds throughout a run exactly when all of its steps meet `G`. -/
theorem invariant_iff {S I : Tasks σ π → Prop} {G : ℕ → ι → ℕ → π → Tasks σ π → Prop}
    {w₀ w : World (Tasks σ π)} {log : Log σ π ι}
    (hstart : ∀ s points p, S ⟨s, points⟩ → A.starts s p = true →
      S ⟨s, points ++ [p]⟩ ∧ (I ⟨s, points⟩ → I ⟨s, points ++ [p]⟩))
    (hresume : ∀ t input i p q s s' points, S ⟨s, points⟩ → points[i]? = some p →
      A.resume t input p s = some (q, s') → S ⟨s', points.set i q⟩ ∧
        (I ⟨s, points⟩ → (I ⟨s', points.set i q⟩ ↔ G t input i p ⟨s, points⟩)))
    (h : A.contract.Run w₀ w log) (hS₀ : S w₀.store) (hI₀ : I w₀.store) :
    (I w.store ∧ ∀ c ∈ log, I c.before ∧ I c.after) ↔ ∀ c ∈ log, OnStep G c := by
  refine h.invariant_iff (S := S) (fun t call r before after hS he => ?_)
    (fun c hS hI he => ?_) hS₀ hI₀
  · have hstep : A.Step t before call after := step_of_exec he
    cases hstep with
    | start hp => exact (hstart _ _ _ hS hp).1
    | resume hp hq => exact (hresume _ _ _ _ _ _ _ _ hS hp hq).1
  · obtain ⟨t, call, r, before, after⟩ := c
    have hstep : A.Step t before call after := step_of_exec he
    cases hstep with
    | start hp => exact ⟨fun _ => trivial, fun _ => (hstart _ _ _ hS hp).2 hI⟩
    | resume hp hq => exact ((hresume _ _ _ _ _ _ _ _ hS hp hq).2 hI).trans (onStep_resume hp).symm

/-! ## The rules of a single task -/

/-- A relation between a task that runs alone and its steps so far, which every step extends. -/
theorem alone_log {t₀ : ℕ} {s₀ : σ} {p₀ : π} {w : World (Tasks σ π)} {log : Log σ π ι}
    {I : σ → π → Log σ π ι → Prop}
    (hstep : ∀ t input p q s s' log, t₀ ≤ t → I s p log → A.resume t input p s = some (q, s') →
      I s' q (log ++ [⟨t, .resume 0 input, (), ⟨s, [p]⟩, ⟨s', [q]⟩⟩]))
    (h : A.contract.Run ⟨t₀, ⟨s₀, [p₀]⟩⟩ w log) (halone : ∀ c ∈ log, ∀ p, c.call ≠ .start p)
    (h₀ : I s₀ p₀ []) : ∃ q, w.store.points = [q] ∧ I w.store.shared q log := by
  refine (h.invariant_log (I := fun t w log => t₀ ≤ t ∧ ((∀ c ∈ log, ∀ p : π, c.call ≠ .start p) →
      ∃ q, w.points = [q] ∧ I w.shared q log)) ⟨le_refl t₀, fun _ => ⟨p₀, rfl, h₀⟩⟩
    (fun _ _ _ _ hle hs => by exact ⟨hs.1.trans hle, hs.2⟩) ?_).2 halone
  rintro t call r ⟨s, points⟩ after log ⟨ht, ih⟩ he
  refine ⟨ht, fun halone => ?_⟩
  rw [List.forall_mem_append, List.forall_mem_singleton] at halone
  obtain ⟨p, rfl, hI⟩ := ih halone.1
  have hmove : A.Step t ⟨s, [p]⟩ call after := step_of_exec he
  cases hmove with
  | @start p' _ => exact absurd rfl (halone.2 p')
  | @resume i input p' q s' hp hq =>
    obtain rfl : i = 0 := by
      by_contra hne
      rw [List.getElem?_eq_none (by simp; omega)] at hp
      cases hp
    obtain rfl : p = p' := Option.some.inj hp
    exact ⟨q, rfl, hstep t input p q s s' log ht hI hq⟩

/-- What a task keeps that runs alone, and what holds of its steps. -/
theorem alone {t₀ : ℕ} {s₀ : σ} {p₀ : π} {w : World (Tasks σ π)} {log : Log σ π ι}
    {I : σ → π → Prop} {P : Commit (Tasks σ π) (Move π ι) Unit → Prop}
    (hstep : ∀ t input p q s s', t₀ ≤ t → I s p → A.resume t input p s = some (q, s') →
      I s' q ∧ P ⟨t, .resume 0 input, (), ⟨s, [p]⟩, ⟨s', [q]⟩⟩)
    (h : A.contract.Run ⟨t₀, ⟨s₀, [p₀]⟩⟩ w log) (halone : ∀ c ∈ log, ∀ p, c.call ≠ .start p)
    (h₀ : I s₀ p₀) : (∃ q, w.store.points = [q] ∧ I w.store.shared q) ∧ ∀ c ∈ log, P c := by
  obtain ⟨q, hpoints, hI, hP⟩ := alone_log (I := fun s p log => I s p ∧ ∀ c ∈ log, P c)
    (fun t input p q s s' log ht hI hq => by
      obtain ⟨hI', hP⟩ := hstep t input p q s s' ht hI.1 hq
      rw [List.forall_mem_append, List.forall_mem_singleton]
      exact ⟨hI', hI.2, hP⟩) h halone ⟨h₀, by simp⟩
  exact ⟨⟨q, hpoints, hI⟩, hP⟩

/-- What one task does from a point to another, with times and inputs that `G` admits, while the
others change the shared state as `R` admits. -/
inductive Path (A : Async σ π ι) (R : σ → σ → Prop) (G : ℕ → ι → Prop) (s₀ : σ) (p₀ : π) :
    σ → π → Prop
  | start : Path A R G s₀ p₀ s₀ p₀
  | others {s s' : σ} {p : π} : Path A R G s₀ p₀ s p → R s s' → Path A R G s₀ p₀ s' p
  | step {t : ℕ} {input : ι} {s s' : σ} {p q : π} : Path A R G s₀ p₀ s p → G t input →
      A.resume t input p s = some (q, s') → Path A R G s₀ p₀ s' q

/-- What the others and every step of the task preserve holds along its path. -/
theorem Path.invariant {R : σ → σ → Prop} {G : ℕ → ι → Prop} {s₀ s : σ} {p₀ p : π}
    {I : σ → π → Prop} (hothers : ∀ s s' p, I s p → R s s' → I s' p)
    (hstep : ∀ t input s s' p q, I s p → G t input → A.resume t input p s = some (q, s') → I s' q)
    (h : A.Path R G s₀ p₀ s p) (h₀ : I s₀ p₀) : I s p := by
  induction h with
  | start => exact h₀
  | others _ hR ih => exact hothers _ _ _ ih hR
  | step _ hG hq ih => exact hstep _ _ _ _ _ _ ih hG hq

end Async

/-! ## Points -/

section Points

variable {π : Type} {points : List π} {i j : ℕ} {p q r : π}

theorem getElem?_start (h : (points ++ [p])[j]? = some r) :
    points[j]? = some r ∨ j = points.length ∧ r = p := by
  rw [List.getElem?_append] at h
  split at h
  · exact .inl h
  · rw [List.getElem?_singleton] at h
    split at h
    · exact .inr ⟨by omega, (Option.some.inj h).symm⟩
    · cases h

theorem getElem?_step (h : (points.set i q)[j]? = some r) :
    j ≠ i ∧ points[j]? = some r ∨ j = i ∧ r = q := by
  rw [List.getElem?_set] at h
  split at h
  · split at h
    · exact .inr ⟨by omega, (Option.some.inj h).symm⟩
    · cases h
  · exact .inl ⟨by omega, h⟩

theorem getElem?_step_self (h : points[i]? = some p) : (points.set i q)[i]? = some q := by
  obtain ⟨hi, -⟩ := List.getElem?_eq_some_iff.mp h
  rw [List.getElem?_set_self hi]

theorem getElem?_step_ne (h : j ≠ i) : (points.set i q)[j]? = points[j]? :=
  List.getElem?_set_ne (Ne.symm h)

theorem exists_mem_start {P : π → Prop} (h : ∃ r ∈ points, P r) : ∃ r ∈ points ++ [p], P r := by
  obtain ⟨r, hr, hP⟩ := h
  exact ⟨r, List.mem_append_left _ hr, hP⟩

theorem forall_mem_start {P : π → Prop} (h : ∀ r ∈ points, P r) (hp : P p) :
    ∀ r ∈ points ++ [p], P r := by
  rw [List.forall_mem_append, List.forall_mem_singleton]
  exact ⟨h, hp⟩

theorem countP_start {P : π → Bool} (h : P p = false) :
    (points ++ [p]).countP P = points.countP P := by
  rw [List.countP_append, List.countP_singleton, h]
  rfl

theorem mem_of_mem_step (h : r ∈ points.set i q) (hne : r ≠ q) : r ∈ points :=
  (List.mem_or_eq_of_mem_set h).resolve_right hne

theorem forall_mem_step {P : π → Prop} (h : ∀ r ∈ points, P r) (hq : P q) :
    ∀ r ∈ points.set i q, P r := by
  intro r hr
  rcases List.mem_or_eq_of_mem_set hr with hold | rfl
  · exact h r hold
  · exact hq

/-- What a task keeps when it goes on holds of some task after a step if it did before, or if it
does of the task itself. -/
theorem exists_mem_step {P : π → Prop} (h : points[i]? = some p) (hkeep : P p → P q) :
    (∃ r ∈ points.set i q, P r) ↔ (∃ r ∈ points, P r) ∨ P q := by
  constructor
  · rintro ⟨r, hr, hP⟩
    rcases List.mem_or_eq_of_mem_set hr with hold | rfl
    · exact .inl ⟨r, hold, hP⟩
    · exact .inr hP
  · rintro (⟨r, hr, hP⟩ | hq)
    · obtain ⟨j, hj⟩ := List.mem_iff_getElem?.mp hr
      by_cases hji : j = i
      · subst hji
        obtain rfl := Option.some.inj (h.symm.trans hj)
        exact ⟨q, List.mem_of_getElem? (getElem?_step_self h), hkeep hP⟩
      · exact ⟨r, List.mem_of_getElem? ((getElem?_step_ne hji).trans hj), hP⟩
    · exact ⟨q, List.mem_of_getElem? (getElem?_step_self h), hq⟩

/-- A step changes the number of tasks of a kind by its own task. -/
theorem countP_set (P : π → Bool) (h : points[i]? = some p) :
    (points.set i q).countP P + (if P p then 1 else 0) =
      points.countP P + (if P q then 1 else 0) := by
  induction points generalizing i with
  | nil => cases h
  | cons a points ih =>
    -- the task that goes on is the first one, or among the others
    cases i with
    | zero =>
      obtain rfl : a = p := by simpa using h
      rw [List.set_cons_zero, List.countP_cons, List.countP_cons]
      omega
    | succ i =>
      have hrest := ih (i := i) (by simpa using h)
      rw [List.set_cons_succ, List.countP_cons, List.countP_cons]
      omega

/-- A step of a task that gets to no kind of which it was not before adds none to it. -/
theorem countP_step_le {P : π → Bool} (h : points[i]? = some p) (hkeep : P q = true → P p = true) :
    (points.set i q).countP P ≤ points.countP P := by
  have hcount := countP_set (q := q) P h
  by_cases hq : P q = true
  · rw [if_pos hq, if_pos (hkeep hq)] at hcount
    omega
  · rw [if_neg hq] at hcount
    omega

theorem countP_step_le_succ {P : π → Bool} (h : points[i]? = some p) :
    (points.set i q).countP P ≤ points.countP P + 1 := by
  have hcount := countP_set (q := q) P h
  by_cases hq : P q = true
  · rw [if_pos hq] at hcount
    omega
  · rw [if_neg hq] at hcount
    omega

/-- Any two tasks are related. -/
def Apart (R : π → π → Prop) (points : List π) : Prop :=
  ∀ (i j : ℕ) (p q : π), i ≠ j → points[i]? = some p → points[j]? = some q → R p q

variable {R : π → π → Prop}

theorem apart_nil : Apart R [] := fun _ _ _ _ _ h _ => by cases h

theorem Apart.start (h : Apart R points) (hp : ∀ r ∈ points, R p r ∧ R r p) :
    Apart R (points ++ [p]) := by
  intro j k a b hne ha hb
  rcases getElem?_start ha with ha' | ⟨hj, rfl⟩ <;>
    rcases getElem?_start hb with hb' | ⟨hk, rfl⟩
  · exact h j k a b hne ha' hb'
  · exact (hp a (List.mem_of_getElem? ha')).2
  · exact (hp b (List.mem_of_getElem? hb')).1
  · exact absurd (hj.trans hk.symm) hne

theorem Apart.set (h : Apart R points)
    (hq : ∀ j r, j ≠ i → points[j]? = some r → R q r ∧ R r q) : Apart R (points.set i q) := by
  intro j k a b hne ha hb
  rcases getElem?_step ha with ⟨hj, ha'⟩ | ⟨hj, rfl⟩ <;>
    rcases getElem?_step hb with ⟨hk, hb'⟩ | ⟨hk, rfl⟩
  · exact h j k a b hne ha' hb'
  · exact (hq j a hj ha').2
  · exact (hq k b hk hb').1
  · exact absurd (hj.trans hk.symm) hne

section Keys

variable {κ : Type} {f : π → Option κ} {S : κ → κ → Prop}

/-- A task that has no key yet can start beside the others. -/
theorem Apart.start_of_none (h : Apart (fun p q => ∀ a ∈ f p, ∀ b ∈ f q, S a b) points)
    (hp : f p = none) : Apart (fun p q => ∀ a ∈ f p, ∀ b ∈ f q, S a b) (points ++ [p]) := by
  refine h.start fun r _ => ⟨fun a ha => ?_, fun _ _ b hb => ?_⟩
  · rw [hp] at ha
    exact absurd ha (Option.not_mem_none a)
  · rw [hp] at hb
    exact absurd hb (Option.not_mem_none b)

/-- A step keeps the keys of the tasks apart if its task has a key like the one before it, or one
that is apart from all of them. -/
theorem Apart.set_of_keys (h : Apart (fun p q => ∀ a ∈ f p, ∀ b ∈ f q, S a b) points)
    (hp : points[i]? = some p) (hsymm : ∀ a b, S a b → S b a)
    (hq : ∀ a ∈ f q, (∃ own ∈ f p, ∀ b, S own b → S a b) ∨ ∀ r ∈ points, ∀ b ∈ f r, S a b) :
    Apart (fun p q => ∀ a ∈ f p, ∀ b ∈ f q, S a b) (points.set i q) := by
  refine h.set fun j r hne hr => ?_
  have hapart : ∀ a ∈ f q, ∀ b ∈ f r, S a b := by
    intro a ha b hb
    rcases hq a ha with ⟨own, hown, hlike⟩ | hnew
    · exact hlike b (h i j p r (Ne.symm hne) hp hr own hown b hb)
    · exact hnew r (List.mem_of_getElem? hr) b hb
  exact ⟨hapart, fun b hb a ha => hsymm a b (hapart a ha b hb)⟩

end Keys

end Points
