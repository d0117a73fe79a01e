import Mathlib.Algebra.BigOperators.Group.List.Basic
import Stellara.Lib.Reentrancy

/-!
# The calls of a contract to itself

A call that ends with a call of the contract to itself is followed by this very call, before any
code of others runs, or it is undone. So in the log of a run every such call follows the one that
ended with it, and all other calls are ones that others can make; where the contract is about to
call itself, the log awaits that call.

## Main definitions

* `Exit.self?`: the call of the contract to itself with which a call ends
* `Awaits C log k`: the calls of `log` follow each other, and `k` is to follow next

## Main results

* `Run.follows`: the log of a run awaits the call that the contract is about to make
* `Run.awaits_none`: where code of others can act, all of these calls were made
* `Awaits.sum`: a sum over the calls of the contract to itself is one over the calls that end with
  them
-/

universe u

/-- The call of the contract to itself that follows. -/
def Exit.self? {κ : Type} : Exit κ → Option κ
  | .self k => some k
  | _ => none

namespace Reentrant

variable {σ κ ε : Type}

/-- Every call of the log is one that others can make, or the one that the call before it ended
with; and the call that the last one ended with, if any, is to follow. -/
inductive Awaits (C : Reentrant σ κ ε) : Log σ κ → Option κ → Prop
  | nil : Awaits C [] none
  | others {log : Log σ κ} {e : Commit σ κ (Exit κ)} : Awaits C log none →
      C.admissible e.call = true → Awaits C (log ++ [e]) e.result.self?
  | own {log : Log σ κ} {e : Commit σ κ (Exit κ)} : Awaits C log (some e.call) →
      Awaits C (log ++ [e]) e.result.self?

variable {C : Reentrant σ κ ε} {c₀ c c' : Config σ κ} {stack : List (Frame σ κ)}
  {effects before after : Effects σ κ} {log : Log σ κ} {made : List κ}

/-- A call that waits for another one is the next to go on. -/
def waits : List (Frame σ κ) → Bool
  | .waiting _ :: _ => true
  | _ => false

/-- No call of the contract to itself is missing in what the frames restore. -/
def Restores (C : Reentrant σ κ ε) : List (Frame σ κ) → Prop
  | [] => True
  | .outside saved :: rest => Awaits C saved.log none ∧ Restores C rest
  | .waiting saved :: rest => (waits rest = false → Awaits C saved.log none) ∧ Restores C rest
  | .pending _ :: _ => False

/-- The log awaits the call that the contract is about to make. -/
def Follows (C : Reentrant σ κ ε) (log : Log σ κ) : List (Frame σ κ) → Prop
  | .pending k :: rest => Awaits C log (some k) ∧ Restores C rest ∧ waits rest = true
  | stack => Awaits C log none ∧ Restores C stack

theorem follows_of_restores (hlog : Awaits C log none) (hstack : Restores C stack) :
    Follows C log stack := by
  cases stack with
  | nil => exact ⟨hlog, hstack⟩
  | cons f rest =>
    cases f with
    | outside | waiting => exact ⟨hlog, hstack⟩
    | pending => exact hstack.elim

theorem Restores.resume (h : Restores C stack) : Restores C (resume stack) := by
  induction stack with
  | nil => exact h
  | cons f rest ih =>
    cases f with
    | waiting => exact ih h.2
    | outside => exact h
    | pending => exact h.elim

/-- A failure undoes the calls that ended with a call of the contract to itself that failed. -/
theorem Restores.unwind (h : Restores C stack)
    (heffects : waits stack = false → Awaits C effects.log none) :
    Awaits C (unwind effects stack).1.log none ∧ Restores C (unwind effects stack).2 := by
  induction stack generalizing effects with
  | nil => exact ⟨heffects rfl, h⟩
  | cons f rest ih =>
    cases f with
    | waiting saved => exact ih h.2 h.1
    | outside => exact ⟨heffects rfl, h⟩
    | pending => exact h.elim

theorem Restores.fail {now : ℕ} (h : Restores C stack)
    (heffects : waits stack = false → Awaits C effects.log none) :
    Follows C (fail now effects stack).log (fail now effects stack).stack := by
  obtain ⟨hlog, hstack⟩ := h.unwind heffects
  exact follows_of_restores hlog hstack

/-- A call that is made is one of others, or the one that is awaited. -/
theorem Restores.attempt {k : κ} (h : Restores C stack)
    (hcall : Awaits C c.log none ∧ C.admissible k = true ∨
      Awaits C c.log (some k) ∧ waits stack = true) :
    Follows C (attempt C c stack k).log (attempt C c stack k).stack := by
  have hbefore : waits stack = false → Awaits C c.log none := fun hwaits => by
    rcases hcall with ⟨hlog, -⟩ | ⟨-, hwaiting⟩
    · exact hlog
    · rw [hwaits] at hwaiting
      cases hwaiting
  unfold Reentrant.attempt
  split
  · rename_i s exit he
    have hafter : Awaits C (c.log ++ [⟨c.now, k, exit, c.store, s⟩]) exit.self? := by
      rcases hcall with ⟨hlog, hadmissible⟩ | ⟨hlog, -⟩
      · exact .others hlog hadmissible
      · exact .own hlog
    cases exit with
    | returns => exact follows_of_restores hafter h.resume
    | outside => exact ⟨hafter, hafter, hbefore, h⟩
    | self k' => exact ⟨hafter, ⟨hbefore, h⟩, rfl⟩
  · exact h.fail hbefore

theorem Follows.of_othersAct (h : Follows C log stack) (hact : othersAct stack = true) :
    Awaits C log none ∧ Restores C stack := by
  cases stack with
  | nil => exact h
  | cons f rest =>
    cases f with
    | outside => exact h
    | waiting | pending => cases hact

/-- A step of a run. -/
theorem Follows.step {a : Action κ} {call : Option κ} (h : Follows C c.log c.stack)
    (hstep : C.step c a = some (c', call)) : Follows C c'.log c'.stack := by
  cases a with
  | tick t =>
    simp only [Reentrant.step, Option.ite_none_right_eq_some, Option.some.injEq,
      Prod.mk.injEq] at hstep
    obtain ⟨-, rfl, -⟩ := hstep
    exact h
  | start =>
    simp only [Reentrant.step, Option.ite_none_right_eq_some, Option.some.injEq,
      Prod.mk.injEq] at hstep
    obtain ⟨hact, rfl, -⟩ := hstep
    obtain ⟨hlog, hstack⟩ := h.of_othersAct hact
    exact ⟨hlog, hlog, hstack⟩
  | call k =>
    simp only [Reentrant.step, Option.ite_none_right_eq_some, Option.some.injEq,
      Prod.mk.injEq] at hstep
    obtain ⟨⟨hact, hadmissible⟩, rfl, -⟩ := hstep
    obtain ⟨hlog, hstack⟩ := h.of_othersAct hact
    exact hstack.attempt (.inl ⟨hlog, hadmissible⟩)
  | callSelf =>
    simp only [Reentrant.step] at hstep
    split at hstep
    · rename_i k rest hs
      obtain ⟨rfl, -⟩ := Prod.mk.inj (Option.some.inj hstep)
      rw [hs] at h
      obtain ⟨hlog, hstack, hwaits⟩ := h
      exact hstack.attempt (.inr ⟨hlog, hwaits⟩)
    · cases hstep
  | failSelf =>
    simp only [Reentrant.step] at hstep
    split at hstep
    · rename_i k rest hs
      obtain ⟨rfl, -⟩ := Prod.mk.inj (Option.some.inj hstep)
      rw [hs] at h
      obtain ⟨-, hstack, hwaits⟩ := h
      -- the call that ended with the one that fails is undone
      exact hstack.fail fun hfalse => by rw [hwaits] at hfalse; cases hfalse
    · cases hstep
  | finish =>
    simp only [Reentrant.step] at hstep
    split at hstep
    · rename_i saved rest hs
      obtain ⟨rfl, -⟩ := Prod.mk.inj (Option.some.inj hstep)
      rw [hs] at h
      obtain ⟨hlog, -, hstack⟩ := h
      exact follows_of_restores hlog hstack.resume
    · cases hstep
  | revert =>
    simp only [Reentrant.step] at hstep
    split at hstep
    · rename_i saved rest hs
      obtain ⟨rfl, -⟩ := Prod.mk.inj (Option.some.inj hstep)
      rw [hs] at h
      obtain ⟨-, hsaved, hstack⟩ := h
      exact hstack.fail fun _ => hsaved
    · cases hstep

/-- In every configuration of a run the log awaits the call that the contract is about to make. -/
theorem Run.follows (h : C.Run c₀ c made) (hlog : c₀.log = []) (hstack : c₀.stack = []) :
    Follows C c.log c.stack := by
  induction h with
  | start =>
    rw [hlog, hstack]
    exact ⟨.nil, trivial⟩
  | step _ hstep ih => exact ih.step hstep

/-- Where code of others can act, all calls of the contract to itself were made. -/
theorem Run.awaits_none (h : C.Run c₀ c made) (hlog : c₀.log = []) (hstack : c₀.stack = [])
    (hact : othersAct c.stack = true) : Awaits C c.log none :=
  ((h.follows hlog hstack).of_othersAct hact).1

/-- What the calls of the contract to itself sum up to is what the calls that end with them do, as
far as they were made. -/
theorem Awaits.sum {M : Type u} [AddCommMonoid M] {f : κ → M} {w : Option κ} (h : Awaits C log w)
    (hothers : ∀ e ∈ log, C.admissible e.call = true → f e.call = 0) :
    (log.map fun e => e.result.self?.elim 0 f).sum =
      (log.map fun e => f e.call).sum + w.elim 0 f := by
  induction h with
  | nil => simp
  | @others log e hlog hadmissible ih =>
    rw [List.forall_mem_append, List.forall_mem_singleton] at hothers
    have hprior := ih hothers.1
    simp only [List.map_append, List.sum_append, List.map_singleton, List.sum_singleton, hprior,
      hothers.2 hadmissible, Option.elim_none, add_zero]
  | @own log e hlog ih =>
    rw [List.forall_mem_append] at hothers
    have hprior := ih hothers.1
    simp only [List.map_append, List.sum_append, List.map_singleton, List.sum_singleton, hprior,
      Option.elim_some, add_assoc]

end Reentrant
