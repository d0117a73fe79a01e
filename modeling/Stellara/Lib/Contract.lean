import Mathlib.Order.Basic
import Mathlib.Data.Nat.Notation
import Mathlib.Order.Nat
import Stellara.Lib.Guard

/-!
# Transactional contracts

A contract executes calls on its stored state at a ledger time that never decreases. A call
that returns commits the state it leaves; a call that aborts leaves the stored state
unchanged. A run is a sequence of calls by anybody, recorded as the list of its commits.

## Main definitions

* `Contract`: the calls of a contract and their execution
* `Commit`: one committed call, with the states before and after it
* `Contract.Run C w₀ w log`: a run from `w₀` to `w` with the commits `log`
* `Contract.play`: the run of a given list of calls
* `Contract.Keeps R w₀ w log`: all commits, and all states reached from the first, are related by
  `R`

## Main results

* `Run.invariant`: what every committed call preserves holds after every run
* `Run.invariant_log`: the same for a relation between the state and the commits so far
* `Run.invariant_throughout`, `Run.invariant_iff`: the same before and after every commit
* `Run.after_iff`, `Run.log_iff`, `Run.prefix_iff`: the same for properties, and kinds, that depend
  on the time or on the commits so far
* `Run.invariant_and_mem`: beside an invariant, what holds of every call that is committed
* `Run.keeps_iff`: a preorder is kept throughout exactly when every commit is of the kind that keeps
  it
* `Run.later`: what every commit keeps is kept from any of them to the end of the run
* `Run.append`, `Run.from_commit`, `Run.of_prefix`: runs compose, and what follows a commit or comes
  before it is a run
* `run_play`: playing a list of calls at non-decreasing times is a run
-/

universe u v w x

/-- A contract: the execution of a call at a ledger time on the stored state. -/
structure Contract (σ : Type u) (κ : Type v) (ρ : Type u) (ε : Type w) where
  /-- Execute a call; an error stands for an aborted call. -/
  exec : ℕ → κ → σ → Except ε (ρ × σ)

/-- The ledger: its time and the stored state. -/
structure World (σ : Type u) where
  now : ℕ
  store : σ

/-- A committed call, with the state before and the state after it. -/
structure Commit (σ : Type u) (κ : Type v) (ρ : Type u) where
  time : ℕ
  call : κ
  result : ρ
  before : σ
  after : σ

/-- What holds of every entry of a list after those before it, in a list with one more entry. -/
theorem List.forall_prefix_concat {α : Type*} {P : List α → α → Prop} {l : List α} {a : α} :
    (∀ past b, past ++ [b] <+: l ++ [a] → P past b) ↔
      (∀ past b, past ++ [b] <+: l → P past b) ∧ P l a := by
  constructor
  · intro hall
    exact ⟨fun past b hpast => hall past b (hpast.trans (List.prefix_append _ _)),
      hall l a (List.prefix_refl _)⟩
  · rintro ⟨hall, hlast⟩ past b hpast
    rcases List.prefix_concat_iff.mp hpast with heq | hold
    · obtain ⟨rfl, hb⟩ := List.append_inj' heq rfl
      obtain rfl := List.singleton_inj.mp hb
      exact hlast
    · exact hall past b hold

namespace Contract

variable {σ ρ : Type u} {κ : Type v} {ε : Type w} {C : Contract σ κ ρ ε}

/-- A run of `C` from `w₀`: calls at non-decreasing times, each committed or aborted. -/
inductive Run (C : Contract σ κ ρ ε) (w₀ : World σ) : World σ → List (Commit σ κ ρ) → Prop
  | start : Run C w₀ w₀ []
  | commit {w : World σ} {log : List (Commit σ κ ρ)} {t : ℕ} {k : κ} {r : ρ} {s : σ} :
      Run C w₀ w log → w.now ≤ t → C.exec t k w.store = .ok (r, s) →
      Run C w₀ ⟨t, s⟩ (log ++ [⟨t, k, r, w.store, s⟩])
  | abort {w : World σ} {log : List (Commit σ κ ρ)} {t : ℕ} {k : κ} {e : ε} :
      Run C w₀ w log → w.now ≤ t → C.exec t k w.store = .error e → Run C w₀ ⟨t, w.store⟩ log

variable {w₀ w w' : World σ} {log log' : List (Commit σ κ ρ)}

/-- The induction rule of runs: a relation between the ledger and the commits so far that
each committed call extends and the passing of time preserves. -/
theorem Run.invariant_log {I : ℕ → σ → List (Commit σ κ ρ) → Prop}
    (hstart : I w₀.now w₀.store [])
    (htime : ∀ t t' s log, t ≤ t' → I t s log → I t' s log)
    (hcommit : ∀ t k r s s' log, I t s log → C.exec t k s = .ok (r, s') →
      I t s' (log ++ [⟨t, k, r, s, s'⟩]))
    (h : C.Run w₀ w log) : I w.now w.store log := by
  induction h with
  | start => exact hstart
  | commit _ ht he ih => exact hcommit _ _ _ _ _ _ (htime _ _ _ _ ht ih) he
  | abort _ ht _ ih => exact htime _ _ _ _ ht ih

/-- What every committed call preserves holds after every run. -/
theorem Run.invariant {I : σ → Prop}
    (hcommit : ∀ t k r s s', I s → C.exec t k s = .ok (r, s') → I s')
    (h : C.Run w₀ w log) (hstart : I w₀.store) : I w.store :=
  h.invariant_log (I := fun _ s _ => I s) hstart (fun _ _ _ _ _ hs => hs)
    (fun t k r s s' _ hs he => hcommit t k r s s' hs he)

/-- Beside an invariant, what holds of every call when it is committed holds of all commits. -/
theorem Run.invariant_and_mem {I : ℕ → σ → List (Commit σ κ ρ) → Prop} {P : Commit σ κ ρ → Prop}
    (hstart : I w₀.now w₀.store [])
    (htime : ∀ t t' s log, t ≤ t' → I t s log → I t' s log)
    (hcommit : ∀ t k r s s' log, I t s log → C.exec t k s = .ok (r, s') →
      I t s' (log ++ [⟨t, k, r, s, s'⟩]) ∧ P ⟨t, k, r, s, s'⟩)
    (h : C.Run w₀ w log) : I w.now w.store log ∧ ∀ c ∈ log, P c := by
  refine h.invariant_log (I := fun t s log => I t s log ∧ ∀ c ∈ log, P c) ⟨hstart, by simp⟩
    (fun t t' s log ht hs => ⟨htime t t' s log ht hs.1, hs.2⟩) fun t k r s s' log ih he => ?_
  obtain ⟨hs', hP⟩ := hcommit t k r s s' log ih.1 he
  refine ⟨hs', fun c hc => ?_⟩
  rcases List.mem_append.mp hc with hc | hc
  · exact ih.2 c hc
  · obtain rfl := List.mem_singleton.mp hc
    exact hP

/-- Every entry of the log was executed as it is recorded. -/
theorem Run.exec_of_mem (h : C.Run w₀ w log) :
    ∀ c ∈ log, C.exec c.time c.call c.before = .ok (c.result, c.after) :=
  (h.invariant_and_mem (I := fun _ _ _ => True)
    (P := fun c => C.exec c.time c.call c.before = .ok (c.result, c.after)) trivial
    (fun _ _ _ _ _ _ => trivial) fun _ _ _ _ _ _ _ he => ⟨trivial, he⟩).2

/-- What every committed call of a kind preserves holds throughout a run whose commits are all
of that kind. -/
theorem Run.invariant_throughout {G : Commit σ κ ρ → Prop} {I : σ → Prop}
    (hcommit : ∀ c : Commit σ κ ρ, G c → I c.before →
      C.exec c.time c.call c.before = .ok (c.result, c.after) → I c.after)
    (h : C.Run w₀ w log) (hstart : I w₀.store) (hG : ∀ c ∈ log, G c) :
    I w.store ∧ ∀ c ∈ log, I c.before ∧ I c.after := by
  refine h.invariant_log
    (I := fun _ s log => (∀ c ∈ log, G c) → I s ∧ ∀ c ∈ log, I c.before ∧ I c.after)
    (fun _ => ⟨hstart, by simp⟩) (fun _ _ _ _ _ hs => hs) (fun t k r s s' log ih he hG => ?_) hG
  have hlog : ∀ c ∈ log, G c := fun c hc => hG c (List.mem_append_left _ hc)
  obtain ⟨hs, hmem⟩ := ih hlog
  have hs' : I s' := hcommit ⟨t, k, r, s, s'⟩ (hG _ (by simp)) hs he
  refine ⟨hs', fun c hc => ?_⟩
  rcases List.mem_append.mp hc with hc | hc
  · exact hmem c hc
  · obtain rfl := List.mem_singleton.mp hc
    exact ⟨hs, hs'⟩

/-- What every committed call of a kind preserves holds after every run whose commits are
all of that kind. -/
theorem Run.invariant_of_forall {G : Commit σ κ ρ → Prop} {I : σ → Prop}
    (hcommit : ∀ c : Commit σ κ ρ, G c → I c.before →
      C.exec c.time c.call c.before = .ok (c.result, c.after) → I c.after)
    (h : C.Run w₀ w log) (hstart : I w₀.store) (hG : ∀ c ∈ log, G c) : I w.store :=
  (h.invariant_throughout hcommit hstart hG).1

/-- What every committed call preserves holds before and after every commit of a run. -/
theorem Run.invariant_of_mem {I : σ → Prop}
    (hcommit : ∀ t k r s s', I s → C.exec t k s = .ok (r, s') → I s')
    (h : C.Run w₀ w log) (hstart : I w₀.store) : ∀ c ∈ log, I c.before ∧ I c.after :=
  (h.invariant_throughout (G := fun _ => True)
    (fun c _ hs he => hcommit c.time c.call c.result c.before c.after hs he) hstart
    fun _ _ => trivial).2

/-- Beside an invariant `S`, let a commit preserve `I` exactly when it is of a kind. Then `I` holds
throughout a run exactly when all of its commits are of that kind. -/
theorem Run.invariant_iff {G : Commit σ κ ρ → Prop} {S I : σ → Prop}
    (hS : ∀ t k r s s', S s → C.exec t k s = .ok (r, s') → S s')
    (hcommit : ∀ c : Commit σ κ ρ, S c.before → I c.before →
      C.exec c.time c.call c.before = .ok (c.result, c.after) → (I c.after ↔ G c))
    (h : C.Run w₀ w log) (hstartS : S w₀.store) (hstart : I w₀.store) :
    (I w.store ∧ ∀ c ∈ log, I c.before ∧ I c.after) ↔ ∀ c ∈ log, G c := by
  constructor
  · rintro ⟨-, hI⟩ c hc
    have hbefore := (h.invariant_of_mem hS hstartS c hc).1
    exact (hcommit c hbefore (hI c hc).1 (h.exec_of_mem c hc)).mp (hI c hc).2
  · intro hG
    obtain ⟨hend, hlog⟩ := h.invariant_throughout (I := fun s => S s ∧ I s)
      (fun c hc hs he => ⟨hS _ _ _ _ _ hs.1 he, (hcommit c hs.1 hs.2 he).mpr hc⟩)
      ⟨hstartS, hstart⟩ hG
    exact ⟨hend.2, fun c hc => ⟨(hlog c hc).1.2, (hlog c hc).2.2⟩⟩

/-- The same for properties that depend on the time, and that the passing of time preserves: `I`
holds after every commit of a run exactly when all of its commits are of the kind. -/
theorem Run.after_iff {G : Commit σ κ ρ → Prop} {S I : ℕ → σ → Prop}
    (hstart : S w₀.now w₀.store ∧ I w₀.now w₀.store)
    (htime : ∀ t t' s, t ≤ t' → (S t s → S t' s) ∧ (I t s → I t' s))
    (hS : ∀ c : Commit σ κ ρ, S c.time c.before →
      C.exec c.time c.call c.before = .ok (c.result, c.after) → S c.time c.after)
    (hcommit : ∀ c : Commit σ κ ρ, S c.time c.before → I c.time c.before →
      C.exec c.time c.call c.before = .ok (c.result, c.after) → (I c.time c.after ↔ G c))
    (h : C.Run w₀ w log) :
    (I w.now w.store ∧ ∀ c ∈ log, I c.time c.after) ↔ ∀ c ∈ log, G c := by
  have hrun : S w.now w.store ∧ ((∀ c ∈ log, I c.time c.after) → I w.now w.store) ∧
      ((∀ c ∈ log, I c.time c.after) ↔ ∀ c ∈ log, G c) := by
    refine h.invariant_log (I := fun t s log => S t s ∧ ((∀ c ∈ log, I c.time c.after) → I t s) ∧
      ((∀ c ∈ log, I c.time c.after) ↔ ∀ c ∈ log, G c)) ⟨hstart.1, fun _ => hstart.2, by simp⟩
      (fun t t' s log hle hs => ⟨(htime t t' s hle).1 hs.1, fun hlog =>
        (htime t t' s hle).2 (hs.2.1 hlog), hs.2.2⟩) ?_
    rintro t k r s s' log ⟨hs, hI, hlog⟩ he
    refine ⟨hS ⟨t, k, r, s, s'⟩ hs he, fun hall => hall ⟨t, k, r, s, s'⟩ (by simp), ?_⟩
    simp only [List.forall_mem_append, List.forall_mem_singleton]
    rw [← hlog]
    exact and_congr_right fun hall => hcommit ⟨t, k, r, s, s'⟩ hs (hI hall) he
  exact ⟨fun hI => hrun.2.2.mp hI.2, fun hG => ⟨hrun.2.1 (hrun.2.2.mpr hG), hrun.2.2.mpr hG⟩⟩

/-- The same for relations between the state and the commits so far, and for kinds that depend on
these commits: beside a relation `S`, let a commit extend `I` exactly when it is of the kind, and
let `I` not hold again once it is lost. -/
theorem Run.prefix_iff {G : List (Commit σ κ ρ) → Commit σ κ ρ → Prop}
    {S I : σ → List (Commit σ κ ρ) → Prop} (hstart : S w₀.store [] ∧ I w₀.store [])
    (hcommit : ∀ (c : Commit σ κ ρ) log, S c.before log →
      C.exec c.time c.call c.before = .ok (c.result, c.after) →
      S c.after (log ++ [c]) ∧ (I c.after (log ++ [c]) ↔ I c.before log ∧ G log c))
    (h : C.Run w₀ w log) : I w.store log ↔ ∀ past c, past ++ [c] <+: log → G past c := by
  refine (h.invariant_log (I := fun _ s log => S s log ∧
    (I s log ↔ ∀ past c, past ++ [c] <+: log → G past c)) ⟨hstart.1, by simp [hstart.2]⟩
    (fun _ _ _ _ _ hs => hs) ?_).2
  rintro t k r s s' log ⟨hs, hlog⟩ he
  obtain ⟨hs', hstep⟩ := hcommit ⟨t, k, r, s, s'⟩ log hs he
  exact ⟨hs', by rw [hstep, hlog, List.forall_prefix_concat]⟩

/-- The same for kinds that do not depend on the commits so far. -/
theorem Run.log_iff {G : Commit σ κ ρ → Prop} {S I : σ → List (Commit σ κ ρ) → Prop}
    (hstart : S w₀.store [] ∧ I w₀.store [])
    (hcommit : ∀ (c : Commit σ κ ρ) log, S c.before log →
      C.exec c.time c.call c.before = .ok (c.result, c.after) →
      S c.after (log ++ [c]) ∧ (I c.after (log ++ [c]) ↔ I c.before log ∧ G c))
    (h : C.Run w₀ w log) : I w.store log ↔ ∀ c ∈ log, G c := by
  rw [h.prefix_iff (G := fun _ c => G c) hstart hcommit]
  constructor
  · intro hall c hc
    obtain ⟨past, rest, rfl⟩ := List.append_of_mem hc
    exact hall past c ⟨rest, by simp⟩
  · intro hall past c hpast
    exact hall c (hpast.subset (by simp))

/-- Every commit relates the state before it to the state after it, and the first state is related
to all states that are reached. -/
structure Keeps (R : σ → σ → Prop) (w₀ w : World σ) (log : List (Commit σ κ ρ)) : Prop where
  commit : ∀ c ∈ log, R c.before c.after
  reached : R w₀.store w.store ∧ ∀ c ∈ log, R w₀.store c.before ∧ R w₀.store c.after

/-- Let a commit be related by a preorder exactly when it is of a kind. Then a run keeps the
preorder exactly when all of its commits are of that kind. -/
theorem Run.keeps_iff {G : Commit σ κ ρ → Prop} {R : σ → σ → Prop}
    (hrefl : ∀ s, R s s) (htrans : ∀ s₁ s₂ s₃, R s₁ s₂ → R s₂ s₃ → R s₁ s₃)
    (hcommit : ∀ c : Commit σ κ ρ,
      C.exec c.time c.call c.before = .ok (c.result, c.after) → (R c.before c.after ↔ G c))
    (h : C.Run w₀ w log) : Keeps R w₀ w log ↔ ∀ c ∈ log, G c := by
  constructor
  · intro hkeeps c hc
    exact (hcommit c (h.exec_of_mem c hc)).mp (hkeeps.commit c hc)
  · intro hG
    have hstep : ∀ c ∈ log, R c.before c.after := fun c hc =>
      (hcommit c (h.exec_of_mem c hc)).mpr (hG c hc)
    refine ⟨hstep, h.invariant_throughout (I := R w₀.store) ?_ (hrefl _) hstep⟩
    exact fun c hc hbefore _ => htrans _ _ _ hbefore hc

/-- What a commit left is related to the last state by a preorder that all commits keep. -/
theorem Run.later {R : σ → σ → Prop} (hrefl : ∀ s, R s s)
    (htrans : ∀ s₁ s₂ s₃, R s₁ s₂ → R s₂ s₃ → R s₁ s₃) (h : C.Run w₀ w log)
    (hlog : ∀ c ∈ log, R c.before c.after) : ∀ c ∈ log, R c.after w.store := by
  induction h with
  | start => simp
  | @commit w log t k r s _ _ _ ih =>
    rw [List.forall_mem_append, List.forall_mem_singleton] at hlog ⊢
    obtain ⟨hlog, hlast⟩ := hlog
    exact ⟨fun c hc => htrans _ _ _ (ih hlog c hc) hlast, hrefl s⟩
  | abort _ _ _ ih => exact ih hlog

/-- Runs compose, and so do their logs. -/
theorem Run.append (h : C.Run w₀ w log) (h' : C.Run w w' log') :
    C.Run w₀ w' (log ++ log') := by
  induction h' with
  | start => simpa using h
  | commit _ ht he ih => simpa using ih.commit ht he
  | abort _ ht he ih => exact ih.abort ht he

/-- What follows a commit is a run from the state that the commit left. -/
theorem Run.from_commit {c : Commit σ κ ρ} {past rest : List (Commit σ κ ρ)} (h : C.Run w₀ w log)
    (hlog : log = past ++ c :: rest) : C.Run ⟨c.time, c.after⟩ w rest := by
  induction h generalizing rest with
  | start => simp at hlog
  | commit h ht he ih =>
    rcases List.eq_nil_or_concat rest with rfl | ⟨rest, last, rfl⟩
    · -- nothing follows the last commit
      obtain ⟨-, hlast⟩ := List.append_inj' hlog rfl
      obtain rfl := List.singleton_inj.mp hlast
      exact .start
    · rw [List.concat_eq_append, ← List.cons_append, ← List.append_assoc] at hlog
      obtain ⟨hpast, hlast⟩ := List.append_inj' hlog rfl
      obtain rfl := List.singleton_inj.mp hlast
      rw [List.concat_eq_append]
      exact (ih hpast).commit ht he
  | abort h ht he ih => exact (ih hlog).abort ht he

/-- The commits up to some point are those of a run. -/
theorem Run.of_prefix {past : List (Commit σ κ ρ)} (h : C.Run w₀ w log) (hpast : past <+: log) :
    ∃ w', C.Run w₀ w' past := by
  induction h with
  | start =>
    obtain rfl := List.prefix_nil.mp hpast
    exact ⟨w₀, .start⟩
  | commit h ht he ih =>
    rcases List.prefix_concat_iff.mp hpast with rfl | hpast
    · exact ⟨_, h.commit ht he⟩
    · exact ih hpast
  | abort h ht he ih => exact ih hpast

/-- Play the calls in order, each at its time. -/
def play (C : Contract σ κ ρ ε) (w : World σ) :
    List (ℕ × κ) → World σ × List (Commit σ κ ρ)
  | [] => (w, [])
  | (t, k) :: rest =>
    match C.exec t k w.store with
    | .ok (r, s) =>
      let p := play C ⟨t, s⟩ rest
      (p.1, ⟨t, k, r, w.store, s⟩ :: p.2)
    | .error _ => play C ⟨t, w.store⟩ rest

/-- Playing a call that returns commits it. -/
theorem play_cons_ok {w : World σ} {t : ℕ} {k : κ} {r : ρ} {s : σ} {rest : List (ℕ × κ)}
    (h : C.exec t k w.store = .ok (r, s)) :
    C.play w ((t, k) :: rest) =
      ((C.play ⟨t, s⟩ rest).1, ⟨t, k, r, w.store, s⟩ :: (C.play ⟨t, s⟩ rest).2) := by
  simp only [play, h]

/-- The calls `calls` are played at non-decreasing times from `now` on. -/
def Ordered (now : ℕ) : List (ℕ × κ) → Prop
  | [] => True
  | (t, _) :: rest => now ≤ t ∧ Ordered t rest

instance decidableOrdered (now : ℕ) : (calls : List (ℕ × κ)) → Decidable (Ordered now calls)
  | [] => instDecidableTrue
  | (t, _) :: rest => haveI := decidableOrdered t rest; instDecidableAnd

/-- Playing a list of calls at non-decreasing times is a run. -/
theorem run_play (C : Contract σ κ ρ ε) :
    ∀ (w : World σ) (calls : List (ℕ × κ)), Ordered w.now calls →
      C.Run w (C.play w calls).1 (C.play w calls).2 := by
  intro w calls
  induction calls generalizing w with
  | nil => exact fun _ => .start
  | cons c rest ih =>
    rintro ⟨ht, hrest⟩
    obtain ⟨t, k⟩ := c
    cases he : C.exec t k w.store with
    | ok p =>
      obtain ⟨r, s⟩ := p
      simp only [play, he]
      have h₁ : C.Run w ⟨t, s⟩ [⟨t, k, r, w.store, s⟩] := Run.commit .start ht he
      exact h₁.append (ih ⟨t, s⟩ hrest)
    | error e =>
      simp only [play, he]
      have h₁ : C.Run w ⟨t, w.store⟩ [] := Run.abort .start ht he
      exact h₁.append (ih ⟨t, w.store⟩ hrest)

/-- The commits of a played list are of its calls. -/
theorem call_mem_of_mem_play (C : Contract σ κ ρ ε) {w : World σ} {calls : List (ℕ × κ)}
    {c : Commit σ κ ρ} (hc : c ∈ (C.play w calls).2) : c.call ∈ calls.map Prod.snd := by
  induction calls generalizing w with
  | nil => cases hc
  | cons p rest ih =>
    obtain ⟨t, k⟩ := p
    cases he : C.exec t k w.store with
    | ok q =>
      simp only [play, he, List.mem_cons] at hc
      rcases hc with rfl | hc
      · exact List.mem_cons_self
      · exact List.mem_cons_of_mem k (ih hc)
    | error e =>
      simp only [play, he] at hc
      exact List.mem_cons_of_mem k (ih hc)

end Contract
