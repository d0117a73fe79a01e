import Mathlib.Logic.Relation
import Mathlib.Tactic.Common

/-!
# Chains of parents

Every element of a type has at most one parent. An element is searched for the first of its
ancestors, itself included, that has a property; the search gives up after a bounded number of
elements. It is exact as long as it does not give up, whatever the parents are: chains may be
long, and may be cycles.

## Main definitions

* `ParentChain.ancestor parent n a`: the ancestor of `a` that is `n` links away
* `ParentChain.Reaches parent a b`: `b` is `a` or an ancestor of it
* `ParentChain.search parent p bound a`: the bounded search
* `ParentChain.TooLong`: the chains on which the search gives up

## Main results

* `reaches_iff`: ancestors are what is reached by following links
* `search_eq_none`, `search_eq_some`: when the search gives up, and what it answers otherwise
* `anyM_search_eq_none`, `anyM_search_eq_some`: the same for searches of the elements of a list,
  one after the other
* `anyM_search_of_imp`, `anyM_search_append`: a search that finds something still does when more
  elements have the property, or are searched
* `search_congr_parent`, `anyM_search_congr_parent`: the parents of what is not reached do not
  matter
-/

universe u

namespace ParentChain

variable {α : Type u} (parent : α → Option α)

/-- The ancestor that is `n` links away. -/
def ancestor : ℕ → α → Option α
  | 0, a => some a
  | n + 1, a => (parent a).bind (ancestor n)

/-- The element `b` is reached from `a` by following zero or more links. -/
def Reaches (a b : α) : Prop := Relation.ReflTransGen (fun x y => parent x = some y) a b

variable (p : α → Prop) [DecidablePred p]

/-- Whether one of the first `bound` elements of the chain of `a` has the property; `none` if
none has it and the chain goes on. -/
def search : ℕ → α → Option Bool
  | 0, _ => none
  | bound + 1, a =>
    if p a then some true
    else match parent a with
      | some b => search bound b
      | none => some false

omit [DecidablePred p] in
/-- None of the first `bound` elements of the chain of `a` has the property, and the chain goes
on. -/
def TooLong (bound : ℕ) (a : α) : Prop :=
  (∀ n < bound, ∀ b, ancestor parent n a = some b → ¬ p b) ∧ (ancestor parent bound a).isSome

variable {parent p} {a b : α} {bound n : ℕ}

/-! ## Ancestors -/

@[simp] theorem ancestor_zero : ancestor parent 0 a = some a := rfl

theorem ancestor_succ (h : parent a = some b) : ancestor parent (n + 1) a = ancestor parent n b := by
  simp [ancestor, h]

theorem ancestor_succ_of_none (h : parent a = none) : ancestor parent (n + 1) a = none := by
  simp [ancestor, h]

/-- What is reached by following links are the ancestors. -/
theorem reaches_iff : Reaches parent a b ↔ ∃ n, ancestor parent n a = some b := by
  constructor
  · -- by induction on the links, from the first one
    intro h
    induction h using Relation.ReflTransGen.head_induction_on with
    | refl => exact ⟨0, rfl⟩
    | head hlink _ ih =>
      obtain ⟨n, hn⟩ := ih
      exact ⟨n + 1, (ancestor_succ hlink).trans hn⟩
  · rintro ⟨n, hn⟩
    induction n generalizing a with
    | zero =>
      obtain rfl := Option.some.inj hn
      exact .refl
    | succ n ih =>
      obtain ⟨c, hlink, hc⟩ := Option.bind_eq_some_iff.mp hn
      exact .head hlink (ih hc)

/-- Nothing is reached from an element without a parent but itself. -/
theorem reaches_of_none (h : parent a = none) (hb : Reaches parent a b) : b = a := by
  obtain ⟨n, hn⟩ := reaches_iff.mp hb
  cases n with
  | zero => exact (Option.some.inj hn).symm
  | succ n => rw [ancestor_succ_of_none h] at hn; cases hn

/-- From an element with a parent, itself and what its parent reaches is reached. -/
theorem reaches_of_some {c : α} (h : parent a = some c) (hb : Reaches parent a b) :
    b = a ∨ Reaches parent c b := by
  obtain ⟨n, hn⟩ := reaches_iff.mp hb
  cases n with
  | zero => exact .inl (Option.some.inj hn).symm
  | succ n => exact .inr (reaches_iff.mpr ⟨n, (ancestor_succ h).symm.trans hn⟩)

/-! ## One search -/

omit [DecidablePred p] in
theorem tooLong_zero : TooLong parent p 0 a :=
  ⟨fun _ h => absurd h (Nat.not_lt_zero _), rfl⟩

omit [DecidablePred p] in
/-- A chain is too long when its first element does not have the property and the chain of the
parent is too long for one element less. -/
theorem tooLong_succ (h : parent a = some b) :
    TooLong parent p (bound + 1) a ↔ ¬ p a ∧ TooLong parent p bound b := by
  unfold TooLong
  rw [ancestor_succ h, ← and_assoc]
  refine and_congr_left fun _ => ⟨fun hall => ⟨?_, fun n hn c hc => ?_⟩, ?_⟩
  · exact hall 0 (Nat.succ_pos _) a rfl
  · exact hall (n + 1) (Nat.succ_lt_succ hn) c ((ancestor_succ h).trans hc)
  · -- the first element is `a` itself, and the others are those of the parent
    rintro ⟨ha, hall⟩ n hn c hc
    cases n with
    | zero =>
      obtain rfl := Option.some.inj hc
      exact ha
    | succ n =>
      rw [ancestor_succ h] at hc
      exact hall n (Nat.lt_of_succ_lt_succ hn) c hc

/-- The search gives up exactly on the chains that are too long. -/
theorem search_eq_none : search parent p bound a = none ↔ TooLong parent p bound a := by
  induction bound generalizing a with
  | zero => exact ⟨fun _ => tooLong_zero, fun _ => rfl⟩
  | succ bound ih =>
    unfold search
    by_cases ha : p a
    · -- the search has ended at the first element
      rw [if_pos ha]
      exact ⟨fun h => (by cases h), fun h => absurd ha (h.1 0 (Nat.succ_pos _) a rfl)⟩
    · rw [if_neg ha]
      cases hparent : parent a with
      | none =>
        -- the chain ends here, so it is not too long
        refine ⟨fun h => (by cases h), fun h => ?_⟩
        have hsome := h.2
        rw [ancestor_succ_of_none hparent] at hsome
        cases hsome
      | some b => rw [ih, tooLong_succ hparent, and_iff_right ha]

/-- When the search answers, it does so as an unbounded search would. -/
theorem search_eq_some {answer : Bool} (h : search parent p bound a = some answer) :
    answer = true ↔ ∃ b, Reaches parent a b ∧ p b := by
  induction bound generalizing a with
  | zero => cases h
  | succ bound ih =>
    unfold search at h
    by_cases ha : p a
    · rw [if_pos ha] at h
      exact ⟨fun _ => ⟨a, .refl, ha⟩, fun _ => (Option.some.inj h).symm⟩
    · rw [if_neg ha] at h
      cases hparent : parent a with
      | none =>
        rw [hparent] at h
        obtain rfl := Option.some.inj h
        -- the chain ends here, and only its first element is reached
        refine ⟨fun hfalse => (by cases hfalse), ?_⟩
        rintro ⟨b, hb, hp⟩
        rw [reaches_of_none hparent hb] at hp
        exact absurd hp ha
      | some c =>
        rw [hparent] at h
        rw [ih h]
        constructor
        · rintro ⟨b, hb, hp⟩
          exact ⟨b, .head hparent hb, hp⟩
        · rintro ⟨b, hb, hp⟩
          rcases reaches_of_some hparent hb with rfl | hb
          · exact absurd hp ha
          · exact ⟨b, hb, hp⟩

/-! ## Searches one after the other -/

/-- In a list some element is `B`, and all before it are `G`: the first element is `B`, or it is `G`
and the rest of the list is so. -/
theorem exists_first_cons {G B : α → Prop} {x : α} {l : List α} :
    (∃ pre a post, x :: l = pre ++ a :: post ∧ (∀ b ∈ pre, G b) ∧ B a) ↔
      B x ∨ G x ∧ ∃ pre a post, l = pre ++ a :: post ∧ (∀ b ∈ pre, G b) ∧ B a := by
  constructor
  · rintro ⟨pre, a, post, hl, hpre, ha⟩
    cases pre with
    | nil =>
      obtain ⟨rfl, rfl⟩ := List.cons.inj hl
      exact .inl ha
    | cons y pre =>
      obtain ⟨rfl, rfl⟩ := List.cons.inj hl
      exact .inr ⟨hpre x List.mem_cons_self, pre, a, post, rfl,
        fun b hb => hpre b (List.mem_cons_of_mem x hb), ha⟩
  · rintro (hx | ⟨hx, pre, a, post, rfl, hpre, ha⟩)
    · exact ⟨[], x, l, rfl, by simp, hx⟩
    · exact ⟨x :: pre, a, post, rfl, List.forall_mem_cons.mpr ⟨hx, hpre⟩, ha⟩

/-- A search of the elements of a list gives up at the first element that is too long, if no
element before it reaches the property. -/
theorem anyM_search_eq_none {l : List α} :
    l.anyM (search parent p bound) = none ↔
      ∃ pre a post, l = pre ++ a :: post ∧
        (∀ b ∈ pre, ¬ TooLong parent p bound b ∧ ¬ ∃ c, Reaches parent b c ∧ p c) ∧
        TooLong parent p bound a := by
  induction l with
  | nil => simp [List.anyM]
  | cons x l ih =>
    rw [exists_first_cons, ← ih, List.anyM]
    cases hx : search parent p bound x with
    | none => exact iff_of_true rfl (.inl (search_eq_none.mp hx))
    | some answer =>
      have hshort : ¬ TooLong parent p bound x := by
        rw [← search_eq_none, hx]
        simp
      have hanswer := search_eq_some hx
      cases answer with
      | true =>
        -- the search has ended, so nothing follows
        refine iff_of_false (by simp) ?_
        rintro (hlong | ⟨⟨-, hnone⟩, -⟩)
        · exact hshort hlong
        · exact hnone (hanswer.mp rfl)
      | false =>
        -- the search goes on with the other elements
        have hnone : ¬ ∃ c, Reaches parent x c ∧ p c := fun h => by cases hanswer.mpr h
        rw [or_iff_right hshort, and_iff_right ⟨hshort, hnone⟩]
        rfl

/-- When a search of the elements of a list answers, it does so as unbounded searches would. -/
theorem anyM_search_eq_some {l : List α} {answer : Bool}
    (h : l.anyM (search parent p bound) = some answer) :
    answer = true ↔ ∃ a ∈ l, ∃ b, Reaches parent a b ∧ p b := by
  induction l with
  | nil =>
    obtain rfl := Option.some.inj h
    simp
  | cons x l ih =>
    rw [List.anyM] at h
    obtain ⟨found, hx, h⟩ := Option.bind_eq_some_iff.mp h
    have hfound := search_eq_some hx
    cases found with
    | true =>
      obtain rfl := Option.some.inj h
      obtain ⟨b, hb⟩ := hfound.mp rfl
      exact ⟨fun _ => ⟨x, List.mem_cons_self, b, hb⟩, fun _ => rfl⟩
    | false =>
      simp only [ih h, List.mem_cons, exists_eq_or_imp]
      rw [or_iff_right]
      exact fun hb => by cases hfound.mpr hb

/-! ## Other properties, lists and parents -/

section Changes

variable {q : α → Prop} [DecidablePred q] {l : List α}

/-- A search that answers still does when more elements have the property, and it still finds what
it found. -/
theorem search_of_imp (hpq : ∀ a, p a → q a) {answer : Bool}
    (h : search parent p bound a = some answer) :
    ∃ answer', search parent q bound a = some answer' ∧ (answer = true → answer' = true) := by
  induction bound generalizing a with
  | zero => cases h
  | succ bound ih =>
    unfold search at h ⊢
    by_cases hq : q a
    · exact ⟨true, if_pos hq, fun _ => rfl⟩
    · rw [if_neg fun hp => hq (hpq a hp)] at h
      rw [if_neg hq]
      cases hparent : parent a with
      | none =>
        rw [hparent] at h
        obtain rfl := Option.some.inj h
        exact ⟨false, rfl, id⟩
      | some b =>
        rw [hparent] at h
        exact ih h

theorem search_congr (hpq : ∀ a, p a ↔ q a) : search parent p = search parent q := by
  obtain rfl : p = q := funext fun a => propext (hpq a)
  congr

/-- A search of the elements of a list that finds something still does when more elements have the
property. -/
theorem anyM_search_of_imp (hpq : ∀ a, p a → q a)
    (h : l.anyM (search parent p bound) = some true) :
    l.anyM (search parent q bound) = some true := by
  induction l with
  | nil => cases h
  | cons x l ih =>
    rw [List.anyM] at h ⊢
    obtain ⟨found, hx, h⟩ := Option.bind_eq_some_iff.mp h
    obtain ⟨found', hx', hfound⟩ := search_of_imp hpq hx
    refine Option.bind_eq_some_iff.mpr ⟨found', hx', ?_⟩
    -- the search ends at the same element, or before it
    cases found' with
    | true => rfl
    | false =>
      cases found with
      | true => cases hfound rfl
      | false => exact ih h

omit [DecidablePred q] in
/-- A search that finds something does not come to the elements that are added at the end. -/
theorem anyM_search_append {l' : List α} (h : l.anyM (search parent p bound) = some true) :
    (l ++ l').anyM (search parent p bound) = some true := by
  induction l with
  | nil => cases h
  | cons x l ih =>
    rw [List.cons_append, List.anyM]
    rw [List.anyM] at h
    obtain ⟨found, hx, h⟩ := Option.bind_eq_some_iff.mp h
    refine Option.bind_eq_some_iff.mpr ⟨found, hx, ?_⟩
    cases found with
    | true => rfl
    | false => exact ih h

omit [DecidablePred q] in
/-- The parents of elements that are not reached do not matter. -/
theorem search_congr_parent {parent' : α → Option α}
    (h : ∀ b, Reaches parent a b → parent' b = parent b) :
    search parent' p bound a = search parent p bound a := by
  induction bound generalizing a with
  | zero => rfl
  | succ bound ih =>
    unfold search
    rw [h a .refl]
    cases hparent : parent a with
    | none => rfl
    | some b =>
      dsimp only
      rw [ih fun c hc => h c (.head hparent hc)]

omit [DecidablePred q] in
theorem anyM_search_congr_parent {parent' : α → Option α}
    (h : ∀ a ∈ l, ∀ b, Reaches parent a b → parent' b = parent b) :
    l.anyM (search parent' p bound) = l.anyM (search parent p bound) := by
  induction l with
  | nil => rfl
  | cons x l ih =>
    rw [List.anyM, List.anyM, search_congr_parent (h x List.mem_cons_self),
      ih fun a ha => h a (List.mem_cons_of_mem x ha)]

end Changes

end ParentChain
