import Mathlib.Data.List.Nodup
import Mathlib.Data.Nat.Notation
import Mathlib.Order.Nat

/-!
# Quorum decisions

A motion passes when enough of its voters approve it, and takes effect once, not before its
opening time, unless it was rejected before it passed or cancelled before it took effect. The
life of a motion is the list of the actions on it, which determines the stage it is in.

## Main definitions

* `Motion A`: voters, threshold and opening time
* `Motion.Life m trail stage`: the actions `trail` take the motion `m` to `stage`
* `approvals`, `executions`: the voters who approved, and the times of execution

## Main results

* `Life.approvals_sound`: each approval is of another voter
* `Life.approvals_lt_of_pending`, `Life.le_approvals`: a motion passes exactly at its threshold
* `Life.not_stopped`: a motion that passed was neither rejected nor cancelled
* `Life.length_executions`, `Life.opens_le_of_mem`: it takes effect once, and not too early
-/

universe u

/-- A motion, put to its voters. -/
structure Motion (A : Type u) where
  voters : List A
  threshold : ℕ
  /-- The time from which the motion can take effect. -/
  opens : ℕ
  threshold_pos : 0 < threshold

namespace Motion

variable {A : Type u}

/-- The actions on a motion. -/
inductive Action (A : Type u) where
  | approve (a : A)
  | reject
  | cancel
  | execute (time : ℕ)
deriving DecidableEq, Repr

inductive Stage where
  | pending
  | approved
  | rejected
  | executed
  | cancelled
deriving DecidableEq, Repr

def Action.approval? : Action A → Option A
  | .approve a => some a
  | _ => none

def Action.execution? : Action A → Option ℕ
  | .execute time => some time
  | _ => none

/-- The voters who approved, in order. -/
def approvals (trail : List (Action A)) : List A := trail.filterMap Action.approval?

/-- The times at which the motion took effect. -/
def executions (trail : List (Action A)) : List ℕ := trail.filterMap Action.execution?

theorem approvals_snoc (trail : List (Action A)) (x : Action A) :
    approvals (trail ++ [x]) = approvals trail ++ x.approval?.toList := by
  cases x <;> simp [approvals, List.filterMap_append, Action.approval?]

theorem executions_snoc (trail : List (Action A)) (x : Action A) :
    executions (trail ++ [x]) = executions trail ++ x.execution?.toList := by
  cases x <;> simp [executions, List.filterMap_append, Action.execution?]

@[simp] theorem mem_approvals {trail : List (Action A)} {a : A} :
    a ∈ approvals trail ↔ .approve a ∈ trail := by
  simp only [approvals, List.mem_filterMap]
  constructor
  · rintro ⟨x, hx, hxa⟩
    cases x <;> simp_all [Action.approval?]
  · intro h
    exact ⟨_, h, rfl⟩

@[simp] theorem mem_executions {trail : List (Action A)} {time : ℕ} :
    time ∈ executions trail ↔ .execute time ∈ trail := by
  simp only [executions, List.mem_filterMap]
  constructor
  · rintro ⟨x, hx, hxt⟩
    cases x <;> simp_all [Action.execution?]
  · intro h
    exact ⟨_, h, rfl⟩

/-- The actions `trail`, in order, take the motion to a stage. -/
inductive Life (m : Motion A) : List (Action A) → Stage → Prop
  | start : Life m [] .pending
  | approve {trail : List (Action A)} {a : A} : Life m trail .pending → a ∈ m.voters →
      a ∉ approvals trail → (approvals trail).length + 1 < m.threshold →
      Life m (trail ++ [.approve a]) .pending
  | pass {trail : List (Action A)} {a : A} : Life m trail .pending → a ∈ m.voters →
      a ∉ approvals trail → m.threshold ≤ (approvals trail).length + 1 →
      Life m (trail ++ [.approve a]) .approved
  | reject {trail : List (Action A)} : Life m trail .pending →
      Life m (trail ++ [.reject]) .rejected
  | cancel {trail : List (Action A)} {stage : Stage} : Life m trail stage → stage ≠ .executed →
      Life m (trail ++ [.cancel]) .cancelled
  | execute {trail : List (Action A)} {time : ℕ} : Life m trail .approved → m.opens ≤ time →
      Life m (trail ++ [.execute time]) .executed

namespace Life

variable {m : Motion A} {trail : List (Action A)} {stage : Stage}

/-- Every approval is by a voter who had not approved before. -/
theorem approvals_sound (h : Life m trail stage) :
    (approvals trail).Nodup ∧ ∀ a ∈ approvals trail, a ∈ m.voters := by
  -- only the two kinds of approval extend the list of approvals
  induction h with
  | start => exact ⟨List.nodup_nil, fun a ha => by cases ha⟩
  | approve _ ha hnew _ ih | pass _ ha hnew _ ih =>
    rw [approvals_snoc]
    constructor
    · rw [Action.approval?, Option.toList_some, ← List.concat_eq_append, List.nodup_concat]
      exact ⟨hnew, ih.1⟩
    · intro b hb
      rcases List.mem_append.mp hb with hb | hb
      · exact ih.2 b hb
      · obtain rfl := List.mem_singleton.mp hb
        exact ha
  | reject _ ih | cancel _ _ ih | execute _ _ ih =>
    rw [approvals_snoc]
    simpa only [Action.approval?, Option.toList_none, List.append_nil] using ih

/-- A pending motion is short of its threshold. -/
theorem approvals_lt_of_pending (h : Life m trail .pending) :
    (approvals trail).length < m.threshold := by
  cases h with
  | start => exact m.threshold_pos
  | approve _ _ _ hlt =>
    rw [approvals_snoc]
    simpa [Action.approval?] using hlt

/-- A motion that passed has reached its threshold. -/
theorem le_approvals (h : Life m trail stage) (hstage : stage = .approved ∨ stage = .executed) :
    m.threshold ≤ (approvals trail).length := by
  induction h with
  | start => simp at hstage
  | approve => simp at hstage
  | pass _ _ _ hle _ =>
    rw [approvals_snoc]
    simpa [Action.approval?] using hle
  | reject => simp at hstage
  | cancel => simp at hstage
  | execute _ _ ih =>
    rw [approvals_snoc]
    simpa [Action.approval?] using ih (.inl rfl)

/-- A motion that is neither rejected nor cancelled never was. -/
theorem not_stopped (h : Life m trail stage) (hrejected : stage ≠ .rejected)
    (hcancelled : stage ≠ .cancelled) : .reject ∉ trail ∧ .cancel ∉ trail := by
  induction h with
  | start => exact ⟨List.not_mem_nil, List.not_mem_nil⟩
  | approve _ _ _ _ ih | pass _ _ _ _ ih | execute _ _ ih =>
    simpa using ih (by decide) (by decide)
  | reject => exact absurd rfl hrejected
  | cancel => exact absurd rfl hcancelled

/-- An executed motion took effect once, and no other motion ever did. -/
theorem length_executions (h : Life m trail stage) :
    (executions trail).length = if stage = .executed then 1 else 0 := by
  induction h with
  | start => rfl
  | approve _ _ _ _ ih | pass _ _ _ _ ih | reject _ ih =>
    rw [executions_snoc]
    simpa [Action.execution?] using ih
  | cancel _ hstage ih =>
    -- only a motion that was not executed is cancelled
    rw [if_neg hstage] at ih
    rw [executions_snoc]
    simpa [Action.execution?] using ih
  | execute _ _ ih =>
    rw [executions_snoc]
    simpa [Action.execution?] using ih

/-- A motion takes effect at its opening time or later. -/
theorem opens_le_of_mem (h : Life m trail stage) {time : ℕ} (ht : .execute time ∈ trail) :
    m.opens ≤ time := by
  induction h with
  | start => cases ht
  | approve _ _ _ _ ih | pass _ _ _ _ ih | reject _ ih | cancel _ _ ih =>
    exact ih (by simpa using ht)
  | execute _ hopen ih =>
    rcases List.mem_append.mp ht with ht | ht
    · exact ih ht
    · simp only [List.mem_singleton, Action.execute.injEq] at ht
      exact ht ▸ hopen

end Life

end Motion
