import Stellara.Lib.Contract

/-!
# Re-entrant contracts

A call of a contract may end with a call to the code of others. That code can call the
contract again, any number of times, before it returns; when it fails, everything since the
call that led to it is undone, and so is that call. A call may also end with a call of the
contract to itself. Code of others can run further code of others and go on when that fails.

A configuration is the stored state, the log of the calls that it stands for, and the stack of
what is under way. What every call preserves on its own part, up to the call it ends with,
holds in every configuration, in the middle of nested calls as well.

## Main definitions

* `Exit`: how the own part of a call ends
* `Reentrant`: the calls of a contract and their own parts
* `Reentrant.Config`, `Reentrant.step`: configurations, and the steps between them
* `Reentrant.Run C c₀ c made`: a run from `c₀` to `c`, in which the calls `made` were made
* `Reentrant.play`: the run of a list of actions

## Main results

* `Run.invariant`: the induction rule of runs
* `Run.log_prefix`: what was done before a run without open calls is never undone in it
* `Run.append`, `run_play`: runs compose, and playing actions is a run
-/

/-- How the own part of a call ends. -/
inductive Exit (κ : Type) where
  | returns
  /-- With a call to the code of others. -/
  | outside
  /-- With the call `k` of the contract to itself. -/
  | self (k : κ)
deriving DecidableEq, Repr

/-- A contract: the own parts of its calls at a time, and the calls that others can make. -/
structure Reentrant (σ κ ε : Type) where
  /-- Execute the own part of a call; an error stands for a failing call. -/
  enter : ℕ → κ → σ → Except ε (σ × Exit κ)
  /-- The call can be made by others. -/
  admissible : κ → Bool

namespace Reentrant

variable {σ κ ε : Type}

/-- The log of a contract: the calls that were made and not undone, in order. -/
abbrev Log (σ κ : Type) := List (Commit σ κ (Exit κ))

/-- What a failing call undoes: the stored state, and the calls that it stands for. -/
structure Effects (σ κ : Type) where
  store : σ
  log : Log σ κ

/-- What is under way. -/
inductive Frame (σ κ : Type) where
  /-- Code of others runs; its failure restores the saved effects. -/
  | outside (saved : Effects σ κ)
  /-- A call of the contract waits for the call that it ended with, and fails with it. -/
  | waiting (saved : Effects σ κ)
  /-- The contract is about to call itself. -/
  | pending (k : κ)

/-- A configuration: the time, the effects so far, and what is under way, the innermost first. -/
structure Config (σ κ : Type) where
  now : ℕ
  effects : Effects σ κ
  stack : List (Frame σ κ)

abbrev Config.store (c : Config σ κ) : σ := c.effects.store

abbrev Config.log (c : Config σ κ) : Log σ κ := c.effects.log

/-- Nothing is under way, and no call was made yet. -/
def Config.initial (now : ℕ) (store : σ) : Config σ κ := ⟨now, ⟨store, []⟩, []⟩

/-! ## Steps -/

/-- Code of others can act: it runs innermost, or nothing runs. -/
def othersAct : List (Frame σ κ) → Bool
  | [] => true
  | .outside _ :: _ => true
  | _ => false

/-- The calls that waited for a call that returned return. -/
def resume : List (Frame σ κ) → List (Frame σ κ)
  | .waiting _ :: rest => resume rest
  | stack => stack

/-- The calls that waited for a call that failed fail. -/
def unwind (effects : Effects σ κ) : List (Frame σ κ) → Effects σ κ × List (Frame σ κ)
  | .waiting saved :: rest => unwind saved rest
  | stack => (effects, stack)

/-- What is under way after the own part of a call. -/
def proceed (before after : Effects σ κ) (stack : List (Frame σ κ)) :
    Exit κ → List (Frame σ κ)
  | .returns => resume stack
  | .outside => .outside after :: .waiting before :: stack
  | .self k => .pending k :: .waiting before :: stack

/-- A failed call, made while `stack` was under way. -/
def fail (now : ℕ) (effects : Effects σ κ) (stack : List (Frame σ κ)) : Config σ κ :=
  ⟨now, (unwind effects stack).1, (unwind effects stack).2⟩

/-- The call `k`, made while `stack` is under way. -/
def attempt (C : Reentrant σ κ ε) (c : Config σ κ) (stack : List (Frame σ κ)) (k : κ) :
    Config σ κ :=
  match C.enter c.now k c.store with
  | .ok (s, exit) =>
    let after : Effects σ κ := ⟨s, c.log ++ [⟨c.now, k, exit, c.store, s⟩]⟩
    ⟨c.now, after, proceed c.effects after stack exit⟩
  | .error _ => fail c.now c.effects stack

inductive Action (κ : Type) where
  /-- Time passes between the calls. -/
  | tick (t : ℕ)
  /-- Code of others starts further code of others. -/
  | start
  /-- Others call the contract. -/
  | call (k : κ)
  /-- The contract calls itself. -/
  | callSelf
  /-- The call of the contract to itself fails, for lack of means. -/
  | failSelf
  /-- The code of others that runs innermost returns. -/
  | finish
  /-- The code of others that runs innermost fails. -/
  | revert
deriving DecidableEq, Repr

/-- One step, with the call that is made in it; `none` where the action is not possible. -/
def step (C : Reentrant σ κ ε) (c : Config σ κ) : Action κ → Option (Config σ κ × Option κ)
  | .tick t => if c.stack.isEmpty ∧ c.now ≤ t then some ({ c with now := t }, none) else none
  | .start =>
    if othersAct c.stack then some ({ c with stack := .outside c.effects :: c.stack }, none)
    else none
  | .call k =>
    if othersAct c.stack ∧ C.admissible k then some (C.attempt c c.stack k, some k) else none
  | .callSelf =>
    match c.stack with
    | .pending k :: rest => some (C.attempt c rest k, some k)
    | _ => none
  | .failSelf =>
    match c.stack with
    | .pending k :: rest => some (fail c.now c.effects rest, some k)
    | _ => none
  | .finish =>
    match c.stack with
    | .outside _ :: rest => some ({ c with stack := resume rest }, none)
    | _ => none
  | .revert =>
    match c.stack with
    | .outside saved :: rest => some (fail c.now saved rest, none)
    | _ => none

/-- A run from `c₀`, with the calls that were made in it, also those that failed or were undone. -/
inductive Run (C : Reentrant σ κ ε) (c₀ : Config σ κ) : Config σ κ → List κ → Prop
  | start : Run C c₀ c₀ []
  | step {c c' : Config σ κ} {made : List κ} {a : Action κ} {k : Option κ} :
      Run C c₀ c made → C.step c a = some (c', k) → Run C c₀ c' (made ++ k.toList)

variable {C : Reentrant σ κ ε} {c₀ c c' : Config σ κ} {made made' : List κ}

/-! ## The induction rule -/

section Invariant

variable {I : Effects σ κ → Prop} {J : κ → Prop} {stack : List (Frame σ κ)}
  {effects : Effects σ κ}

/-- The saved effects are `I`, and the calls of the contract to itself are `J`. -/
def Frame.Holds (I : Effects σ κ → Prop) (J : κ → Prop) : Frame σ κ → Prop
  | .outside saved => I saved
  | .waiting saved => I saved
  | .pending k => J k

theorem mem_of_mem_resume {f : Frame σ κ} (h : f ∈ resume stack) : f ∈ stack := by
  induction stack with
  | nil => exact h
  | cons g rest ih =>
    cases g with
    | waiting saved => exact List.mem_cons_of_mem _ (ih h)
    | outside saved => exact h
    | pending k => exact h

theorem holds_unwind (heffects : I effects) (hstack : ∀ f ∈ stack, f.Holds I J) :
    I (unwind effects stack).1 ∧ ∀ f ∈ (unwind effects stack).2, f.Holds I J := by
  induction stack generalizing effects with
  | nil => exact ⟨heffects, hstack⟩
  | cons g rest ih =>
    cases g with
    | waiting saved =>
      -- the call that waited fails too, and its own saved effects come back
      exact ih (hstack _ List.mem_cons_self) fun f hf => hstack f (List.mem_cons_of_mem _ hf)
    | outside saved => exact ⟨heffects, hstack⟩
    | pending k => exact ⟨heffects, hstack⟩

theorem holds_proceed {before after : Effects σ κ} {exit : Exit κ} (hbefore : I before)
    (hafter : I after) (hself : ∀ k, exit = .self k → J k) (hstack : ∀ f ∈ stack, f.Holds I J) :
    ∀ f ∈ proceed before after stack exit, f.Holds I J := by
  intro f hf
  cases exit with
  | returns => exact hstack f (mem_of_mem_resume hf)
  | outside =>
    rcases List.mem_cons.mp hf with rfl | hf
    · exact hafter
    rcases List.mem_cons.mp hf with rfl | hf
    · exact hbefore
    · exact hstack f hf
  | self k =>
    rcases List.mem_cons.mp hf with rfl | hf
    · exact hself k rfl
    rcases List.mem_cons.mp hf with rfl | hf
    · exact hbefore
    · exact hstack f hf

/-- A call preserves what its own part does, whether it returns or fails. -/
theorem holds_attempt {k : κ} (heffects : I c.effects) (hstack : ∀ f ∈ stack, f.Holds I J)
    (henter : ∀ s exit, C.enter c.now k c.store = .ok (s, exit) →
      I ⟨s, c.log ++ [⟨c.now, k, exit, c.store, s⟩]⟩ ∧ ∀ k', exit = .self k' → J k') :
    I (C.attempt c stack k).effects ∧ ∀ f ∈ (C.attempt c stack k).stack, f.Holds I J := by
  unfold attempt
  split
  · rename_i s exit he
    obtain ⟨hafter, hself⟩ := henter s exit he
    exact ⟨hafter, holds_proceed heffects hafter hself hstack⟩
  · exact holds_unwind heffects hstack

theorem attempt_now {k : κ} : (C.attempt c stack k).now = c.now := by
  unfold attempt
  split <;> rfl

/-- What a step preserves: the effects are `I`, as are the saved ones, and the calls of the contract
to itself are `J`. -/
theorem holds_step {I : ℕ → σ → Log σ κ → Prop} {a : Action κ} {call : Option κ}
    (htime : ∀ t t' s log, t ≤ t' → I t s log → I t' s log)
    (henter : ∀ k s' exit, call = some k → (C.admissible k = true ∨ J k) →
      C.enter c.now k c.store = .ok (s', exit) →
        I c.now s' (c.log ++ [⟨c.now, k, exit, c.store, s'⟩]) ∧ ∀ k', exit = .self k' → J k')
    (heffects : I c.now c.store c.log)
    (hstack : ∀ f ∈ c.stack, f.Holds (fun e => I c.now e.store e.log) J)
    (h : C.step c a = some (c', call)) :
    I c'.now c'.store c'.log ∧ ∀ f ∈ c'.stack, f.Holds (fun e => I c'.now e.store e.log) J := by
  cases a with
  | tick t =>
    -- time passes only while nothing is under way, so no saved effects grow old
    simp only [step, Option.ite_none_right_eq_some, Option.some.injEq, Prod.mk.injEq] at h
    obtain ⟨⟨hnil, ht⟩, rfl, -⟩ := h
    refine ⟨htime _ _ _ _ ht heffects, fun f hf => ?_⟩
    rw [List.isEmpty_iff.mp hnil] at hf
    cases hf
  | start =>
    simp only [step, Option.ite_none_right_eq_some, Option.some.injEq, Prod.mk.injEq] at h
    obtain ⟨-, rfl, -⟩ := h
    refine ⟨heffects, fun f hf => ?_⟩
    rcases List.mem_cons.mp hf with rfl | hf
    · exact heffects
    · exact hstack f hf
  | call k =>
    simp only [step, Option.ite_none_right_eq_some, Option.some.injEq, Prod.mk.injEq] at h
    obtain ⟨⟨-, hadmissible⟩, rfl, hcall⟩ := h
    rw [attempt_now]
    -- others can only make calls that are admissible
    exact holds_attempt (I := fun e => I c.now e.store e.log) heffects hstack fun s' exit he =>
      henter k s' exit hcall.symm (.inl hadmissible) he
  | callSelf =>
    simp only [step] at h
    split at h
    · rename_i k rest hs
      obtain ⟨rfl, hcall⟩ := Prod.mk.inj (Option.some.inj h)
      rw [hs] at hstack
      rw [attempt_now]
      exact holds_attempt (I := fun e => I c.now e.store e.log) heffects
        (fun f hf => hstack f (List.mem_cons_of_mem _ hf)) fun s' exit he =>
        henter k s' exit hcall.symm (.inr (hstack _ List.mem_cons_self)) he
    · cases h
  | failSelf =>
    simp only [step] at h
    split at h
    · rename_i k rest hs
      obtain ⟨rfl, -⟩ := Prod.mk.inj (Option.some.inj h)
      rw [hs] at hstack
      exact holds_unwind (I := fun e => I c.now e.store e.log) heffects
        fun f hf => hstack f (List.mem_cons_of_mem _ hf)
    · cases h
  | finish =>
    simp only [step] at h
    split at h
    · rename_i saved rest hs
      obtain ⟨rfl, -⟩ := Prod.mk.inj (Option.some.inj h)
      rw [hs] at hstack
      -- what returns keeps the effects, and what waited for it returns with it
      exact ⟨heffects, fun f hf => hstack f (List.mem_cons_of_mem _ (mem_of_mem_resume hf))⟩
    · cases h
  | revert =>
    simp only [step] at h
    split at h
    · rename_i saved rest hs
      obtain ⟨rfl, -⟩ := Prod.mk.inj (Option.some.inj h)
      rw [hs] at hstack
      -- what fails restores the effects that were saved when it started
      exact holds_unwind (I := fun e => I c.now e.store e.log) (hstack _ List.mem_cons_self)
        fun f hf => hstack f (List.mem_cons_of_mem _ hf)
    · cases h

end Invariant

/-- **The induction rule of runs**: a relation between the time, the stored state and the log that
the own part of every call extends and the passing of time preserves. The calls that were made
are `G`; a call that others cannot make is `J`, as are all calls that the contract ends with. -/
theorem Run.invariant {I : ℕ → σ → Log σ κ → Prop} {J G : κ → Prop}
    (htime : ∀ t t' s log, t ≤ t' → I t s log → I t' s log)
    (henter : ∀ t k s s' exit log, G k → (C.admissible k = true ∨ J k) → I t s log →
      C.enter t k s = .ok (s', exit) →
        I t s' (log ++ [⟨t, k, exit, s, s'⟩]) ∧ ∀ k', exit = .self k' → J k')
    (h : C.Run c₀ c made) (hmade : ∀ k ∈ made, G k) (hempty : c₀.stack = [])
    (hstart : I c₀.now c₀.store c₀.log) : I c.now c.store c.log := by
  -- the saved effects may come back, so they are in the relation too
  suffices hall : I c.now c.store c.log ∧
      ∀ f ∈ c.stack, f.Holds (fun e => I c.now e.store e.log) J from hall.1
  induction h with
  | start => exact ⟨hstart, by simp [hempty]⟩
  | @step c c' made a call hrun hstep ih =>
    obtain ⟨heffects, hstack⟩ := ih fun k hk => hmade k (List.mem_append_left _ hk)
    refine holds_step htime (fun k s' exit hcall horigin he => ?_) heffects hstack hstep
    have hk : G k := hmade k (List.mem_append_right _ (by simp [hcall]))
    exact henter _ _ _ _ _ _ hk horigin heffects he

/-- A run that starts with nothing under way never undoes what was done before it. -/
theorem Run.log_prefix (h : C.Run c₀ c made) (hempty : c₀.stack = []) : c₀.log <+: c.log :=
  h.invariant (I := fun _ _ log => c₀.log <+: log) (J := fun _ => True) (G := fun _ => True)
    (fun _ _ _ _ _ hlog => hlog)
    (fun _ _ _ _ _ _ _ _ hlog _ => ⟨hlog.trans (List.prefix_append _ _), fun _ _ => trivial⟩)
    (fun _ _ => trivial) hempty List.prefix_rfl

/-! ## Composing runs -/

/-- Runs compose, and so do the calls made in them. -/
theorem Run.append (h : C.Run c₀ c made) (h' : C.Run c c' made') :
    C.Run c₀ c' (made ++ made') := by
  induction h' with
  | start => simpa using h
  | step _ hstep ih => simpa using ih.step hstep

/-- Play the actions in order; one that is not possible is skipped. -/
def play (C : Reentrant σ κ ε) (c : Config σ κ) : List (Action κ) → Config σ κ × List κ
  | [] => (c, [])
  | a :: rest =>
    match C.step c a with
    | some (c', k) => ((play C c' rest).1, k.toList ++ (play C c' rest).2)
    | none => play C c rest

/-- Playing actions is a run. -/
theorem run_play (C : Reentrant σ κ ε) (c : Config σ κ) (actions : List (Action κ)) :
    C.Run c (C.play c actions).1 (C.play c actions).2 := by
  induction actions generalizing c with
  | nil => exact .start
  | cons a rest ih =>
    cases hstep : C.step c a with
    | none =>
      simp only [play, hstep]
      exact ih c
    | some p =>
      obtain ⟨c', k⟩ := p
      simp only [play, hstep]
      -- a step, and then the run of the other actions
      have hone : C.Run c c' ([] ++ k.toList) := Run.start.step hstep
      exact hone.append (ih c')

end Reentrant
