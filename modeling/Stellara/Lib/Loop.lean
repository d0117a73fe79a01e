import Mathlib.Order.Basic
import Mathlib.Data.Nat.Notation
import Mathlib.Order.Nat
import Stellara.Lib.Guard

/-!
# Loops with a break

A loop repeats a fallible body until the body stops. It is run with a bound on the number
of rounds, and is shown to stop within that bound by a measure that every round decreases.

## Main definitions

* `Round`: what one round of a loop decides, to go on or to stop
* `loop body n a`: at most `n` rounds of `body` from `a`

## Main results

* `loop_invariant`: the rule of invariants
* `loop_ne_none`: a measure that decreases bounds the number of rounds
* `loop_total`: the rule of total correctness
* `loop_ne_error`: an error that no round aborts with
-/

universe u w

/-- The outcome of one round of a loop: go on with a value, or stop with one. -/
inductive Round (α : Type u) where
  | next (a : α)
  | stop (a : α)

variable {α : Type u} {ε : Type w}

/-- At most `n` rounds of `body`; `none` when the rounds did not suffice. -/
def loop (body : α → Except ε (Round α)) : ℕ → α → Except ε (Option α)
  | 0, _ => .ok none
  | n + 1, a =>
    match body a with
    | .error e => .error e
    | .ok (.stop b) => .ok (some b)
    | .ok (.next b) => loop body n b

variable {body : α → Except ε (Round α)}

theorem loop_next {n : ℕ} {a b : α} (h : body a = .ok (.next b)) :
    loop body (n + 1) a = loop body n b := by
  simp only [loop, h]

theorem loop_stop {n : ℕ} {a b : α} (h : body a = .ok (.stop b)) :
    loop body (n + 1) a = .ok (some b) := by
  simp only [loop, h]

/-- The rule of invariants: what every continuing round preserves holds when the stopping
round is entered. -/
theorem loop_invariant {I Q : α → Prop}
    (hnext : ∀ a b, I a → body a = .ok (.next b) → I b)
    (hstop : ∀ a b, I a → body a = .ok (.stop b) → Q b) :
    ∀ (n : ℕ) (a b : α), I a → loop body n a = .ok (some b) → Q b := by
  intro n
  induction n with
  | zero => intro a b _ h; simp [loop] at h
  | succ n ih =>
    intro a b ha h
    cases hb : body a with
    | error e => simp [loop, hb] at h
    | ok f =>
      cases f with
      | stop c =>
        obtain rfl : c = b := by simpa [loop, hb] using h
        exact hstop a c ha hb
      | next c => exact ih c b (hnext a c ha hb) (by simpa [loop, hb] using h)

/-- A measure that every continuing round decreases bounds the number of rounds. -/
theorem loop_ne_none {I : α → Prop} (μ : α → ℕ)
    (hnext : ∀ a b, I a → body a = .ok (.next b) → I b ∧ μ b < μ a) :
    ∀ (n : ℕ) (a : α), I a → μ a < n → loop body n a ≠ .ok none := by
  intro n
  induction n with
  | zero => intro a _ hμ; exact absurd hμ (Nat.not_lt_zero _)
  | succ n ih =>
    intro a ha hμ
    cases hb : body a with
    | error e => simp [loop, hb]
    | ok f =>
      cases f with
      | stop c => simp [loop, hb]
      | next c =>
        obtain ⟨hc, hlt⟩ := hnext a c ha hb
        simpa [loop, hb] using ih c hc (by omega)

/-- The rule of total correctness: every round stops with what is wanted, or goes on with the
invariant and a smaller measure. -/
theorem loop_total {I Q : α → Prop} (μ : α → ℕ)
    (hbody : ∀ a, I a → (∃ b, body a = .ok (.stop b) ∧ Q b) ∨
      ∃ b, body a = .ok (.next b) ∧ I b ∧ μ b < μ a) :
    ∀ (n : ℕ) (a : α), I a → μ a < n → ∃ b, loop body n a = .ok (some b) ∧ Q b := by
  intro n
  induction n with
  | zero => intro a _ hμ; exact absurd hμ (Nat.not_lt_zero _)
  | succ n ih =>
    intro a ha hμ
    rcases hbody a ha with ⟨b, hb, hQ⟩ | ⟨b, hb, hI, hlt⟩
    · exact ⟨b, loop_stop hb, hQ⟩
    · obtain ⟨c, hc, hQ⟩ := ih b hI (by omega)
      exact ⟨c, (loop_next hb).trans hc, hQ⟩

/-- An error that no round aborts with. -/
theorem loop_ne_error {e : ε} (hbody : ∀ a, body a ≠ .error e) :
    ∀ (n : ℕ) (a : α), loop body n a ≠ .error e := by
  intro n
  induction n with
  | zero => intro a; simp [loop]
  | succ n ih =>
    intro a
    cases hb : body a with
    | error e' =>
      simp only [loop, hb]
      exact fun h => hbody a (by rw [hb, Except.error.inj h])
    | ok f =>
      cases f with
      | stop c => simp [loop, hb]
      | next c => simpa [loop, hb] using ih c
