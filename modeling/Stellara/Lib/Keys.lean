import Mathlib.Data.Nat.Notation
import Mathlib.Logic.Basic

/-!
# Compound keys

The keys of a store are often texts that are put together from parts, with separators between them.
A part that has no separators can be read back from the end of such a key. The digits of numbers are
no separators.

## Main results

* `append_separator_inj`: what is behind the last separator, and what is before it
* `notMem_toString`: the digits of a number
-/

universe u

/-- What is before and behind the last separator of a key. -/
theorem append_separator_inj {α : Type u} {c : α} {l l' t t' : List α} (ht : c ∉ t) (ht' : c ∉ t') :
    l ++ c :: t = l' ++ c :: t' ↔ l = l' ∧ t = t' := by
  have hskip : ∀ {m t t' : List α}, c ∉ t → c :: t = m ++ c :: t' → m = [] ∧ t = t' := by
    intro m t t' ht heq
    cases m with
    | nil => exact ⟨rfl, (List.cons.inj heq).2⟩
    | cons a m =>
      refine absurd ?_ ht
      rw [(List.cons.inj heq).2]
      exact List.mem_append_right m List.mem_cons_self
  constructor
  · intro h
    rcases List.append_eq_append_iff.mp h with ⟨m, hl, hm⟩ | ⟨m, hl, hm⟩
    · obtain ⟨rfl, hback⟩ := hskip ht hm
      exact ⟨by rw [hl, List.append_nil], hback⟩
    · obtain ⟨rfl, hback⟩ := hskip ht' hm
      exact ⟨by rw [hl, List.append_nil], hback.symm⟩
  · rintro ⟨rfl, rfl⟩
    rfl

/-- A character that is no digit is not in the text of a number. -/
theorem notMem_toString {c : Char} (hc : c.isDigit = false) (n : ℕ) : c ∉ (toString n).toList := by
  intro hmem
  rw [Nat.toString_eq_repr, Nat.toList_repr] at hmem
  have hdigit := Nat.isDigit_of_mem_toDigits (by decide) (by decide) hmem
  rw [hc] at hdigit
  cases hdigit
