import Mathlib.Data.List.Basic
import Mathlib.Data.Nat.Notation
import Mathlib.Order.Nat
import Stellara.Lib.Guard

/-!
# Updating the first match

A loop that looks for the first entry of a list with some property, rewrites that entry and
breaks. The rewriting may abort; without a match the list is left as it is.

## Main definitions

* `updateFirst p f l`: rewrite the first entry of `l` with `p` by `f`

## Main results

* `updateFirst_eq_ok`: an update returns when it finds no match, or rewrites the first one
* `updateFirst_split`: an update of a list whose first match is known
* `getElem?_of_ne_middle`: two lists that differ in one entry agree everywhere else
* `getElem?_of_updateFirst`: an update changes no entry but a match
* `map_of_updateFirst`: what rewriting keeps of every entry, an update keeps of the list
-/

universe u v w

variable {ε : Type u} {α : Type v}

/-- Rewrite the first entry with `p`. -/
def updateFirst (p : α → Prop) [DecidablePred p] (f : α → Except ε α) :
    List α → Except ε (List α)
  | [] => .ok []
  | a :: l => if p a then (· :: l) <$> f a else (a :: ·) <$> updateFirst p f l

variable {p : α → Prop} [DecidablePred p] {f : α → Except ε α} {l l' : List α}

theorem updateFirst_of_forall_not (h : ∀ a ∈ l, ¬ p a) : updateFirst p f l = .ok l := by
  induction l with
  | nil => rfl
  | cons a l ih =>
    rw [updateFirst, if_neg (h a List.mem_cons_self),
      ih fun b hb => h b (List.mem_cons_of_mem a hb)]
    rfl

theorem updateFirst_split {l₁ l₂ : List α} {a : α} (h : ∀ b ∈ l₁, ¬ p b) (ha : p a) :
    updateFirst p f (l₁ ++ a :: l₂) = (fun b => l₁ ++ b :: l₂) <$> f a := by
  induction l₁ with
  | nil => rw [List.nil_append, updateFirst, if_pos ha]; rfl
  | cons b l₁ ih =>
    rw [List.cons_append, updateFirst, if_neg (h b List.mem_cons_self),
      ih fun c hc => h c (List.mem_cons_of_mem b hc)]
    cases f a <;> rfl

/-- A list has no match, or a first one. -/
theorem forall_not_or_split (p : α → Prop) [DecidablePred p] (l : List α) :
    (∀ a ∈ l, ¬ p a) ∨ ∃ l₁ a l₂, l = l₁ ++ a :: l₂ ∧ (∀ b ∈ l₁, ¬ p b) ∧ p a := by
  induction l with
  | nil => exact .inl (by simp)
  | cons a l ih =>
    by_cases ha : p a
    · exact .inr ⟨[], a, l, rfl, by simp, ha⟩
    · rcases ih with hnone | ⟨l₁, b, l₂, rfl, hfirst, hb⟩
      · exact .inl (List.forall_mem_cons.mpr ⟨ha, hnone⟩)
      · exact .inr ⟨a :: l₁, b, l₂, rfl, List.forall_mem_cons.mpr ⟨ha, hfirst⟩, hb⟩

/-- An update that returns found no match, or rewrote the first one. -/
theorem updateFirst_eq_ok (h : updateFirst p f l = .ok l') :
    ((∀ a ∈ l, ¬ p a) ∧ l' = l) ∨ ∃ l₁ a b l₂, l = l₁ ++ a :: l₂ ∧ (∀ x ∈ l₁, ¬ p x) ∧ p a ∧
      f a = .ok b ∧ l' = l₁ ++ b :: l₂ := by
  rcases forall_not_or_split p l with hnone | ⟨l₁, a, l₂, rfl, hfirst, ha⟩
  · rw [updateFirst_of_forall_not hnone] at h
    exact .inl ⟨hnone, (Except.ok.inj h).symm⟩
  · rw [updateFirst_split hfirst ha, Except.map_eq_ok] at h
    obtain ⟨b, hb, rfl⟩ := h
    exact .inr ⟨l₁, a, b, l₂, rfl, hfirst, ha, hb, rfl⟩

/-- The entry between two lists. -/
theorem getElem?_middle (l₁ l₂ : List α) (a : α) : (l₁ ++ a :: l₂)[l₁.length]? = some a := by
  rw [List.getElem?_append_right le_rfl, Nat.sub_self, List.getElem?_cons_zero]

/-- Only the place between two lists depends on the entry there. -/
theorem getElem?_of_ne_middle {l₁ l₂ : List α} {i : ℕ} (a b : α) (h : i ≠ l₁.length) :
    (l₁ ++ a :: l₂)[i]? = (l₁ ++ b :: l₂)[i]? := by
  rw [List.getElem?_append, List.getElem?_append]
  split
  · rfl
  · rw [List.getElem?_cons, List.getElem?_cons, if_neg (by omega), if_neg (by omega)]

/-- An entry that is no match stays where it is. -/
theorem getElem?_of_updateFirst (h : updateFirst p f l = .ok l') {i : ℕ} {a : α}
    (ha : l[i]? = some a) (hnot : ¬ p a) : l'[i]? = some a := by
  rcases updateFirst_eq_ok h with ⟨-, rfl⟩ | ⟨l₁, b, b', l₂, rfl, -, hb, -, rfl⟩
  · exact ha
  · by_cases hi : i = l₁.length
    · rw [hi, getElem?_middle] at ha
      exact absurd (Option.some.inj ha ▸ hb) hnot
    · rwa [getElem?_of_ne_middle b' b hi]

/-- What a rewriting keeps of every entry, an update keeps of the list. -/
theorem map_of_updateFirst {β : Type w} {g : α → β} (h : updateFirst p f l = .ok l')
    (hf : ∀ a b, p a → f a = .ok b → g b = g a) : l'.map g = l.map g := by
  rcases updateFirst_eq_ok h with ⟨-, rfl⟩ | ⟨l₁, a, b, l₂, rfl, -, ha, hb, rfl⟩
  · rfl
  · simp [hf a b ha hb]
