import Mathlib.Tactic.Common
import Stellara.Lib.Guard

/-!
# Discarded writes

The body of a call writes the stored state as it goes, and can fail after it has written something.
The host keeps what it wrote only when it returns. Seen through the host, bodies compose as
computations on the state that fail without writing.

## Main definitions

* `Body σ ε α`: the body of a call on the state `σ`
* `Body.commit`, `Body.after`: what the host makes of it

## Main results

* `Body.commit_bind`: the host keeps sequences; `commit_of_bind`, `commit_modify_bind`, …: their
  steps
* `Body.after_of_error`: a body that fails leaves the state
-/

universe u

/-- The body of a call: it reads and writes the state, and may fail. -/
abbrev Body (σ ε α : Type u) := ExceptT ε (StateM σ) α

namespace Body

variable {σ ε α β : Type u}

/-- A fallible computation that writes nothing. -/
def of (x : Except ε α) : Body σ ε α := ExceptT.mk (pure x)

/-- The host keeps what the body wrote when it returns, and discards it when it fails. -/
def commit (x : Body σ ε α) (s : σ) : Except ε (α × σ) :=
  match x.run.run s with
  | (.ok a, s') => .ok (a, s')
  | (.error e, _) => .error e

/-- The stored state after the call. -/
def after (x : Body σ ε α) (s : σ) : σ :=
  match x.commit s with
  | .ok (_, s') => s'
  | .error _ => s

variable {x : Body σ ε α} {f : α → Body σ ε β} {s s' : σ} {a : α} {e : ε}

/-- The host keeps sequences. -/
theorem commit_bind : (x >>= f).commit s = x.commit s >>= fun p => (f p.1).commit p.2 := by
  have hrun : (x >>= f).run.run s = match x.run.run s with
      | (.ok a, s') => (f a).run.run s'
      | (.error e, s') => (.error e, s') := by
    rw [ExceptT.run_bind, StateT.run_bind]
    rcases x.run.run s with ⟨r, s'⟩
    cases r <;> rfl
  rw [commit, commit, hrun]
  rcases x.run.run s with ⟨r, s'⟩
  cases r <;> rfl

@[simp] theorem commit_pure : (pure a : Body σ ε α).commit s = .ok (a, s) := rfl

@[simp] theorem commit_throw : (throw e : Body σ ε α).commit s = .error e := rfl

@[simp] theorem commit_ite (p : Prop) [Decidable p] (x y : Body σ ε α) :
    (if p then x else y).commit s = if p then x.commit s else y.commit s := by
  split <;> rfl

@[simp] theorem commit_of_bind (y : Except ε α) :
    (of y >>= f).commit s = y >>= fun a => (f a).commit s := by
  rw [commit_bind]
  cases y <;> rfl

@[simp] theorem commit_get_bind {f : σ → Body σ ε β} : (get >>= f).commit s = (f s).commit s :=
  commit_bind

@[simp] theorem commit_set_bind {f : PUnit → Body σ ε β} :
    ((set s' : Body σ ε PUnit) >>= f).commit s = (f ⟨⟩).commit s' := commit_bind

@[simp] theorem commit_modify_bind (g : σ → σ) {f : PUnit → Body σ ε β} :
    ((modify g : Body σ ε PUnit) >>= f).commit s = (f ⟨⟩).commit (g s) := commit_bind

/-- A body that fails leaves the state as it was, whatever it wrote. -/
theorem after_of_error (h : x.commit s = .error e) : x.after s = s := by
  rw [after, h]

end Body
