import Stellara.Treasury.Confirmations

/-!
# The freeze of the treasury

The treasury is unfrozen by a call to itself, which only the execution of a transaction makes, and
a frozen treasury executes nothing. So a freeze is final.

## Main definitions

* `Recoverable`: some calls lead to an unfrozen treasury

## Main results

* `Effect.frozen_of_frozen`: what a call preserves
* `frozen_of_run`: every run from a frozen treasury
* `not_recoverable`: no frozen treasury is recoverable
-/

namespace Stellara.Treasury

open Evm (Bytes Revert)

variable {abi : Abi} {treasury : Evm.Address} {c c' : Reentrant.Config State Message}
  {made : List Message}

/-- Some calls, by anybody, lead to a treasury that is not frozen. -/
def Recoverable (abi : Abi) (treasury : Evm.Address) (c : Reentrant.Config State Message) : Prop :=
  ∃ c' made, (contract abi treasury).Run c c' made ∧ c'.store.frozen = false

/-- A frozen treasury stays frozen when others call it, and does not call itself. -/
theorem Effect.frozen_of_frozen {now : ℕ} {m : Message} {s s' : State} {exit : Exit Message}
    (heffect : Effect abi treasury now m s s' exit) (hfrozen : s.frozen = true)
    (hsender : m.sender ≠ treasury) : s'.frozen = true ∧ ∀ k, exit ≠ .self k := by
  -- what needs an unfrozen treasury did not return
  have hnot : s.frozen ≠ false := by simp [hfrozen]
  cases heffect with
  | executed _ hexecuted _ => exact absurd hexecuted.frozen hnot
  | confirmed _ _ hopen _ _ _ _ | revoked _ _ hopen _ _ _ _ => exact absurd hopen hnot
  | unfrozen _ hself _ => exact absurd hself hsender
  | frozen _ _ hs => exact ⟨by rw [hs], by simp⟩
  | submitted _ _ hs | limited _ _ hs | received _ hs | viewed _ hs =>
    rw [hs]
    exact ⟨hfrozen, by simp⟩

/-- A treasury that is frozen between calls is frozen in every configuration of every run. -/
theorem frozen_of_run (h : (contract abi treasury).Run c c' made) (hempty : c.stack = [])
    (hfrozen : c.store.frozen = true) : c'.store.frozen = true := by
  refine h.invariant (I := fun _ (s : State) _ => s.frozen = true) (J := fun _ => False)
    (G := fun _ => True) (fun _ _ _ _ _ hs => hs) (fun t m s s' exit log _ horigin hs he => ?_)
    (fun _ _ => trivial) hempty hfrozen
  rcases horigin with hadmissible | hself
  · have hsender : m.sender ≠ treasury := of_decide_eq_true hadmissible
    obtain ⟨hs', hexit⟩ := (enter_effect he).frozen_of_frozen hs hsender
    exact ⟨hs', hexit⟩
  · exact hself.elim

/-- **The freeze is final**: whatever is called from a frozen treasury, it stays frozen. -/
theorem not_recoverable (hempty : c.stack = []) (hfrozen : c.store.frozen = true) :
    ¬ Recoverable abi treasury c := by
  rintro ⟨c', made, h, hopen⟩
  rw [frozen_of_run h hempty hfrozen] at hopen
  cases hopen

/-- One owner freezes the treasury. -/
def freezingActions : List (Reentrant.Action Message) := [.call ⟨1, 0, .emergencyFreeze⟩]

theorem not_recoverable_sample : ¬ Recoverable sampleAbi 99 (sampleAfter freezingActions) :=
  not_recoverable rfl rfl

/-- From a state that is reached by a call of one owner, no calls lead to an unfrozen treasury. -/
theorem freeze_not_recoverable :
    construct 0 [1, 2, 3] 2 100 1000 20 500 = .ok sampleStore ∧
      ¬ ∀ c made, (contract sampleAbi 99).Run (.initial 0 sampleStore) c made → c.stack = [] →
        c.store.frozen = true → Recoverable sampleAbi 99 c := by
  refine ⟨rfl, fun hall => ?_⟩
  obtain ⟨c', made, h, hopen⟩ := hall (sampleAfter freezingActions) _
    (Reentrant.run_play (contract sampleAbi 99) (.initial 0 sampleStore) freezingActions) rfl rfl
  rw [frozen_of_run h rfl rfl] at hopen
  cases hopen

end Stellara.Treasury
