import Mathlib.Tactic.Common

/-!
# Fallible computations

A call of a transactional program returns `Except`: either it aborts with an error or it
returns a value. This module reads a successful computation backwards, from the fact that
it returned to the facts that each of its parts returned.

## Main definitions

* `require`: abort with an error unless a condition holds
* `orAbort`: abort with an error on a missing value
* `orDefault`: a number in place of a missing one or of 0

## Main results

* `Except.bind_eq_ok`, `Except.map_eq_ok`, `Except.map_pair_eq_ok`: a sequence returns when both
  parts return
* `Except.bind_eq_error`: a sequence aborts when one of its parts does
* `Except.bind_ne_error`: an error that no part aborts with
* `Except.anyM_eq_ok_true`, `Except.anyM_eq_ok_false`: what a search with a fallible test finds
-/

universe u v w

namespace Except

variable {ε : Type u} {α : Type v} {β : Type v}

@[simp] theorem ok_bind (a : α) (f : α → Except ε β) : (Except.ok a >>= f) = f a := rfl

@[simp] theorem error_bind (e : ε) (f : α → Except ε β) : (Except.error e >>= f) = .error e := rfl

@[simp] theorem pure_eq_ok (a : α) : (pure a : Except ε α) = .ok a := rfl

@[simp] theorem throw_eq_error (e : ε) : (throw e : Except ε α) = .error e := rfl

/-- A sequence returns exactly when both of its parts return. -/
theorem bind_eq_ok {x : Except ε α} {f : α → Except ε β} {b : β} :
    (x >>= f) = .ok b ↔ ∃ a, x = .ok a ∧ f a = .ok b := by
  cases x with
  | error e => simp
  | ok a => simp

/-- A sequence aborts when its first part does, or its second part after it. -/
theorem bind_eq_error {x : Except ε α} {f : α → Except ε β} {e : ε} :
    (x >>= f) = .error e ↔ x = .error e ∨ ∃ a, x = .ok a ∧ f a = .error e := by
  cases x with
  | error e' => simp
  | ok a => simp

/-- A mapped computation returns exactly when the computation does. -/
theorem map_eq_ok {x : Except ε α} {f : α → β} {b : β} :
    (f <$> x) = .ok b ↔ ∃ a, x = .ok a ∧ f a = b := by
  cases x with
  | error e => simp [Functor.map, Except.map]
  | ok a => simp [Functor.map, Except.map]

/-- The same for a map to pairs, such as a call that returns a result and a state. -/
theorem map_pair_eq_ok {γ : Type v} {x : Except ε α} {f : α → β} {g : α → γ} {b : β} {c : γ} :
    ((fun a => (f a, g a)) <$> x) = .ok (b, c) ↔ ∃ a, x = .ok a ∧ f a = b ∧ g a = c := by
  simp only [map_eq_ok, Prod.mk.injEq]

/-- A sequence whose parts never abort with `e` never aborts with `e`. -/
theorem bind_ne_error {x : Except ε α} {f : α → Except ε β} {e : ε} (hx : x ≠ .error e)
    (hf : ∀ a, x = .ok a → f a ≠ .error e) : (x >>= f) ≠ .error e := by
  cases x with
  | error e' => simpa using hx
  | ok a => exact hf a rfl

/-- A traversal whose steps all return is a map. -/
theorem mapM_eq_ok {l : List α} {f : α → Except ε β} {g : α → β} (h : ∀ a ∈ l, f a = .ok (g a)) :
    l.mapM f = .ok (l.map g) := by
  induction l with
  | nil => rfl
  | cons a l ih =>
    rw [List.mapM_cons, h a List.mem_cons_self, ok_bind,
      ih fun b hb => h b (List.mem_cons_of_mem a hb), ok_bind, pure_eq_ok, List.map_cons]

/-- A traversal aborts with the only error of its steps when one of them aborts. -/
theorem mapM_eq_error {l : List α} {f : α → Except ε β} {e : ε}
    (h : ∀ a ∈ l, (∃ b, f a = .ok b) ∨ f a = .error e) (hbad : ∃ a ∈ l, f a = .error e) :
    l.mapM f = .error e := by
  induction l with
  | nil =>
    obtain ⟨a, ha, -⟩ := hbad
    cases ha
  | cons a l ih =>
    rw [List.mapM_cons]
    rcases h a List.mem_cons_self with ⟨b, hb⟩ | he
    · -- the head returns, so a step of the tail aborts
      have hrest : ∃ a' ∈ l, f a' = .error e := by
        obtain ⟨a', ha', he⟩ := hbad
        rcases List.mem_cons.mp ha' with rfl | hmem
        · rw [hb] at he
          cases he
        · exact ⟨a', hmem, he⟩
      rw [hb, ok_bind, ih (fun a' ha' => h a' (List.mem_cons_of_mem a ha')) hrest, error_bind]
    · rw [he, error_bind]

section Search

variable {f : α → Except ε Bool} {l : List α}

/-- A search finds something when an element is right and those before it are wrong; an element
whose test aborts is neither. -/
theorem anyM_eq_ok_true : l.anyM f = .ok true ↔
    ∃ pre a post, l = pre ++ a :: post ∧ f a = .ok true ∧ ∀ b ∈ pre, f b = .ok false := by
  induction l with
  | nil => simp [List.anyM]
  | cons a l ih =>
    rw [List.anyM_cons]
    constructor
    · intro h
      obtain ⟨b, hb, h⟩ := bind_eq_ok.mp h
      cases b with
      | true => exact ⟨[], a, l, rfl, hb, by simp⟩
      | false =>
        obtain ⟨pre, a', post, rfl, ha', hpre⟩ := ih.mp (by simpa using h)
        exact ⟨a :: pre, a', post, rfl, ha', List.forall_mem_cons.mpr ⟨hb, hpre⟩⟩
    · rintro ⟨pre, a', post, hl, ha', hpre⟩
      cases pre with
      | nil =>
        obtain ⟨rfl, -⟩ := List.cons.inj hl
        rw [ha', ok_bind]
        rfl
      | cons b pre =>
        obtain ⟨rfl, rfl⟩ := List.cons.inj hl
        obtain ⟨hb, hpre⟩ := List.forall_mem_cons.mp hpre
        rw [hb, ok_bind]
        exact ih.mpr ⟨pre, a', post, rfl, ha', hpre⟩

/-- A search finds nothing when all elements are wrong. -/
theorem anyM_eq_ok_false : l.anyM f = .ok false ↔ ∀ a ∈ l, f a = .ok false := by
  induction l with
  | nil => simp [List.anyM]
  | cons a l ih =>
    rw [List.anyM_cons, List.forall_mem_cons, ← ih]
    constructor
    · intro h
      obtain ⟨b, hb, h⟩ := bind_eq_ok.mp h
      cases b with
      | true => cases h
      | false => exact ⟨hb, h⟩
    · rintro ⟨ha, hl⟩
      rw [ha, ok_bind]
      exact hl

/-- An element that is wrong does not change a search that comes to it last. -/
theorem anyM_append_of_false {a : α} (h : f a = .ok false) : (l ++ [a]).anyM f = l.anyM f := by
  induction l with
  | nil =>
    rw [List.nil_append, List.anyM_cons, h, ok_bind]
    rfl
  | cons b l ih => rw [List.cons_append, List.anyM_cons, List.anyM_cons, ih]

theorem anyM_congr {g : α → Except ε Bool} (h : ∀ a ∈ l, f a = g a) : l.anyM f = l.anyM g := by
  induction l with
  | nil => rfl
  | cons a l ih =>
    rw [List.anyM_cons, List.anyM_cons, h a List.mem_cons_self,
      ih fun b hb => h b (List.mem_cons_of_mem a hb)]

theorem anyM_map {γ : Type v} {g : γ → α} {l : List γ} :
    (l.map g).anyM f = l.anyM fun c => f (g c) := by
  induction l with
  | nil => rfl
  | cons c l ih => rw [List.map_cons, List.anyM_cons, List.anyM_cons, ih]

end Search

end Except

variable {ε : Type u}

/-- Abort with `e` unless `p` holds. -/
def require (p : Prop) [Decidable p] (e : ε) : Except ε PUnit :=
  if p then .ok ⟨⟩ else .error e

@[simp] theorem require_eq_ok {p : Prop} [Decidable p] {e : ε} {u : PUnit} :
    require p e = .ok u ↔ p := by
  by_cases h : p <;> simp [require, h]

theorem require_pos {p : Prop} [Decidable p] {e : ε} (h : p) : require p e = .ok ⟨⟩ := if_pos h

theorem require_eq_error {p : Prop} [Decidable p] {e e' : ε} :
    require p e = .error e' ↔ ¬ p ∧ e = e' := by
  by_cases h : p <;> simp [require, h]

theorem require_ne_error {p : Prop} [Decidable p] {e e' : ε} (h : e ≠ e') :
    require p e ≠ .error e' := by
  by_cases hp : p <;> simp [require, hp, h]

/-- Abort with `e` on `none`. -/
def orAbort {α : Type v} (e : ε) : Option α → Except ε α
  | some a => .ok a
  | none => .error e

@[simp] theorem orAbort_eq_ok {α : Type v} {e : ε} {o : Option α} {a : α} :
    orAbort e o = .ok a ↔ o = some a := by
  cases o <;> simp [orAbort]

theorem orAbort_ne_error {α : Type v} {e e' : ε} {o : Option α} (h : o = none → e ≠ e') :
    orAbort e o ≠ .error e' := by
  cases o with
  | some a => simp [orAbort]
  | none => simpa [orAbort] using h rfl

/-- A number that is given and is not 0, or the default. -/
def orDefault (value : Option Nat) (default : Nat) : Nat :=
  match value with
  | some (n + 1) => n + 1
  | _ => default
