import Mathlib.Data.List.Forall2
import Stellara.Lib.Contract

/-!
# Refinement of contracts

A run of a contract refines another contract with the same calls and results when the other one
has a run that commits the same calls at the same times with the same results, in related states.
A simulation, which answers every commit of the one contract with a commit of the other, gives a
refinement.

## Main definitions

* `Commit.Matches R c d`: the commits of one call in states that `R` relates
* `Contract.Refines D R w₀ s log`: a run that ended in `s` with the commits `log` refines `D`

## Main results

* `Run.refines`: simulated commits give a refinement
* `Refines.exists_of_mem`: every commit of a refined run has its match
* `Refines.mono`: a refinement for a smaller relation is one for a larger relation
-/

universe u v w x

variable {σ σ' ρ : Type u} {κ : Type v} {ε : Type w} {ε' : Type x}

/-- Two commits of the same call at the same time and with the same result, in related states. -/
structure Commit.Matches (R : σ → σ' → Prop) (c : Commit σ κ ρ) (d : Commit σ' κ ρ) : Prop where
  time : d.time = c.time
  call : d.call = c.call
  result : d.result = c.result
  before : R c.before d.before
  after : R c.after d.after

namespace Contract

variable {C : Contract σ κ ρ ε} {D : Contract σ' κ ρ ε'} {R R' : σ → σ' → Prop}
  {w₀ w : World σ} {d₀ : World σ'} {s : σ} {log : List (Commit σ κ ρ)}

/-- What ended in `s` with the commits `log` is, up to `R`, a run of `D` from `d₀`. -/
def Refines (D : Contract σ' κ ρ ε') (R : σ → σ' → Prop) (d₀ : World σ') (s : σ)
    (log : List (Commit σ κ ρ)) : Prop :=
  ∃ d log', D.Run d₀ d log' ∧ R s d.store ∧ List.Forall₂ (Commit.Matches R) log log'

/-- When `D` answers every commit of a kind, a run whose commits are all of that kind refines
`D`. -/
theorem Run.refines {G : Commit σ κ ρ → Prop}
    (hsim : ∀ (c : Commit σ κ ρ) (a : σ'), G c → R c.before a →
      C.exec c.time c.call c.before = .ok (c.result, c.after) →
      ∃ a', D.exec c.time c.call a = .ok (c.result, a') ∧ R c.after a')
    (h : C.Run w₀ w log) (hnow : d₀.now ≤ w₀.now) (hstart : R w₀.store d₀.store)
    (hG : ∀ c ∈ log, G c) : D.Refines R d₀ w.store log := by
  have hrun := h.invariant_log (I := fun t s log => (∀ c ∈ log, G c) → ∃ d log', d.now ≤ t ∧
      D.Run d₀ d log' ∧ R s d.store ∧ List.Forall₂ (Commit.Matches R) log log')
    (fun _ => ⟨d₀, [], hnow, .start, hstart, .nil⟩)
    (fun t t' s log ht ih hG => ?_) (fun t k r s s' log ih he hG => ?_) hG
  · obtain ⟨d, log', -, hd, hR, hmatch⟩ := hrun
    exact ⟨d, log', hd, hR, hmatch⟩
  · obtain ⟨d, log', hd, hrest⟩ := ih hG
    exact ⟨d, log', hd.trans ht, hrest⟩
  · obtain ⟨d, log', hd, hrun', hR, hmatch⟩ := ih fun c hc => hG c (List.mem_append_left _ hc)
    obtain ⟨a', ha', hR'⟩ := hsim ⟨t, k, r, s, s'⟩ d.store (hG _ (by simp)) hR he
    exact ⟨⟨t, a'⟩, _, le_rfl, hrun'.commit hd ha', hR',
      List.rel_append hmatch (.cons ⟨rfl, rfl, rfl, hR, hR'⟩ .nil)⟩

/-- A refinement for a relation is one for every larger relation. -/
theorem Refines.mono (h : D.Refines R d₀ s log) (hle : ∀ s a, R s a → R' s a) :
    D.Refines R' d₀ s log := by
  obtain ⟨d, log', hrun, hR, hmatch⟩ := h
  exact ⟨d, log', hrun, hle _ _ hR, hmatch.imp fun c d' hm =>
    ⟨hm.time, hm.call, hm.result, hle _ _ hm.before, hle _ _ hm.after⟩⟩

/-- Every commit of a refined run matches a commit of the other contract. -/
theorem Refines.exists_of_mem (h : D.Refines R d₀ s log) :
    ∃ d log', D.Run d₀ d log' ∧ R s d.store ∧ ∀ c ∈ log, ∃ c' ∈ log', Commit.Matches R c c' := by
  obtain ⟨d, log', hrun, hR, hmatch⟩ := h
  refine ⟨d, log', hrun, hR, ?_⟩
  clear hrun hR
  induction hmatch with
  | nil => simp
  | cons hm _ ih =>
    intro c hc
    rcases List.mem_cons.mp hc with rfl | hc
    · exact ⟨_, List.mem_cons_self, hm⟩
    · obtain ⟨c', hc', hm'⟩ := ih c hc
      exact ⟨c', List.mem_cons_of_mem _ hc', hm'⟩

end Contract
