import Stellara.Lib.Yields
import Stellara.Workflow.IdempotencyKeys

/-!
# Starts of workflows

Requests to start a workflow look for one with the same idempotency key and insert a new one when
there is none, with other requests in between. The column of the keys is unique, so of all requests
with a key one at most creates a workflow; it alone stores the steps and goes on to the execution.
A request that looks for the key afterwards returns the workflow that was created.

## Main definitions

* `created`, `stored`: the workflow and the steps that a request has stored
* `StartedOnce`: every workflow has a key of its own and was created by one request alone
* `ReturnsExisting`: a request that finds its key returns the workflow with it

## Main results

* `started_once`: every interleaving of requests
-/

namespace Stellara.Idempotency

variable {sha256 : JsString → JsString} {definitions : JsString → Option WorkflowDefinition}

/-! ## What a request stores -/

/-- The steps of a new workflow. -/
def newSteps (workflow : Workflow) (definition : WorkflowDefinition) : List WorkflowStep :=
  definition.steps.zipIdx.map fun (stepDef, index) =>
    { workflowId := workflow.id
      stepName := stepDef.name
      stepIndex := index
      config := stepDef.config
      requiresCompensation := stepDef.compensate
      isIdempotent := stepDef.isIdempotent
      maxRetries := orDefault stepDef.maxRetries 3 }

/-- The workflow that a request has stored. -/
def created : Point → List Workflow
  | .saveSteps workflow _ | .executeWorkflow workflow => [workflow]
  | _ => []

/-- The steps that a request has stored, when it goes on to the execution. -/
def stored (definitions : JsString → Option WorkflowDefinition) : Point → List WorkflowStep
  | .executeWorkflow workflow =>
    (definitions workflow.type).elim [] fun definition => newSteps workflow definition
  | _ => []

/-- What a request holds is made of the registered definition. -/
def Defined (definitions : JsString → Option WorkflowDefinition) : Point → Prop
  | .findOne request definition _ => definitions request.type = some definition
  | .saveWorkflow workflow definition => definitions workflow.type = some definition
  | .saveSteps workflow steps =>
    ∃ definition, definitions workflow.type = some definition ∧ steps = newSteps workflow definition
  | _ => True

/-- Every stored workflow has a key of its own and was created by one request alone, which stores
its steps before it goes on. What is returned as existing is stored. -/
structure StartedOnce (definitions : JsString → Option WorkflowDefinition)
    (w : Tasks Database Point) : Prop where
  keys : (w.shared.workflows.map Workflow.idempotencyKey).Nodup
  creators : w.shared.workflows.Perm (w.points.flatMap created)
  single : ∀ (i j : ℕ) p q a b, w.points[i]? = some p → w.points[j]? = some q → a ∈ created p →
    b ∈ created q → a.idempotencyKey = b.idempotencyKey → i = j
  steps : w.shared.steps.Perm (w.points.flatMap (stored definitions))
  returned : ∀ request existing, .returned request existing ∈ w.points →
    existing ∈ w.shared.workflows

/-- A request that looks for its key while a workflow with it is stored returns this workflow. -/
def ReturnsExisting (c : Commit (Tasks Database Point) (Move Point Input) Unit) : Prop :=
  ∀ i input request definition key, c.call = .resume i input →
    c.before.points[i]? = some (.findOne request definition key) →
    ∀ workflow ∈ c.before.shared.workflows, workflow.idempotencyKey = key →
      c.after.points[i]? = some (.returned request workflow)

/-! ## One step -/

/-- What a request does to the tables. -/
structure Advances (definitions : JsString → Option WorkflowDefinition) (p q : Point)
    (db db' : Database) : Prop where
  defined : Defined definitions q
  workflows : ∃ new, created q = created p ++ new ∧ db'.workflows = db.workflows ++ new ∧
    ∀ workflow ∈ new, ∀ existing ∈ db.workflows,
      existing.idempotencyKey ≠ workflow.idempotencyKey
  single : (created q).length ≤ 1
  steps : ∃ new, stored definitions q = stored definitions p ++ new ∧ db'.steps = db.steps ++ new
  returned : ∀ request existing, q = .returned request existing → existing ∈ db.workflows

/-- A step that leaves the tables. -/
theorem Advances.quiet {p q : Point} {db : Database} (hdefined : Defined definitions q)
    (hp : created p = [] ∧ stored definitions p = []) (hq : created q = [] ∧ stored definitions q = [])
    (hreturned : ∀ request existing, q = .returned request existing → existing ∈ db.workflows) :
    Advances definitions p q db db where
  defined := hdefined
  workflows := ⟨[], by rw [hp.1, hq.1, List.append_nil], (List.append_nil _).symm, by simp⟩
  single := by rw [hq.1]; exact Nat.zero_le 1
  steps := ⟨[], by rw [hp.2, hq.2, List.append_nil], (List.append_nil _).symm⟩
  returned := hreturned

theorem advances_of_resume {p q : Point} {db db' : Database} {input : Input}
    (hp : Defined definitions p) (h : p.resume sha256 definitions input db = some (q, db')) :
    Advances definitions p q db db' := by
  cases p with
  | startWorkflow request =>
    rw [Point.resume] at h
    cases hdefinition : definitions request.type with
    | none =>
      rw [hdefinition] at h
      obtain ⟨rfl, rfl⟩ := Prod.mk.inj (Option.some.inj h)
      exact .quiet trivial ⟨rfl, rfl⟩ ⟨rfl, rfl⟩ (by simp)
    | some definition =>
      rw [hdefinition] at h
      obtain ⟨rfl, rfl⟩ := Prod.mk.inj (Option.some.inj h)
      exact .quiet hdefinition ⟨rfl, rfl⟩ ⟨rfl, rfl⟩ (by simp)
  | findOne request definition key =>
    rw [Point.resume] at h
    cases hfind : db.workflows.find? fun workflow => workflow.idempotencyKey = key with
    | none =>
      rw [hfind] at h
      obtain ⟨rfl, rfl⟩ := Prod.mk.inj (Option.some.inj h)
      exact .quiet hp ⟨rfl, rfl⟩ ⟨rfl, rfl⟩ (by simp)
    | some existing =>
      rw [hfind] at h
      obtain ⟨rfl, rfl⟩ := Prod.mk.inj (Option.some.inj h)
      refine .quiet trivial ⟨rfl, rfl⟩ ⟨rfl, rfl⟩ fun request' existing' heq => ?_
      obtain ⟨-, rfl⟩ := Point.returned.inj heq
      exact List.mem_of_find?_eq_some hfind
  | saveWorkflow workflow definition =>
    rw [Point.resume] at h
    split at h
    · obtain ⟨rfl, rfl⟩ := Prod.mk.inj (Option.some.inj h)
      exact .quiet trivial ⟨rfl, rfl⟩ ⟨rfl, rfl⟩ (by simp)
    · -- no row has the key
      rename_i hfree
      obtain ⟨rfl, rfl⟩ := Prod.mk.inj (Option.some.inj h)
      refine ⟨⟨definition, hp, rfl⟩, ⟨[workflow], rfl, rfl, ?_⟩, le_rfl,
        ⟨[], rfl, (List.append_nil _).symm⟩, by simp⟩
      intro workflow' hmem existing hexisting hkey
      obtain rfl := List.mem_singleton.mp hmem
      exact hfree (List.any_eq_true.mpr ⟨existing, hexisting, decide_eq_true hkey⟩)
  | saveSteps workflow steps =>
    obtain ⟨rfl, rfl⟩ := Prod.mk.inj (Option.some.inj h)
    obtain ⟨definition, hdefinition, rfl⟩ := hp
    refine ⟨trivial, ⟨[], rfl, (List.append_nil _).symm, by simp⟩, le_rfl,
      ⟨newSteps workflow definition, ?_, rfl⟩, by simp⟩
    rw [stored, hdefinition]
    rfl
  | executeWorkflow workflow => cases h
  | returned request existing => cases h
  | threw error => cases h

/-! ## Runs -/

/-- What every step keeps. -/
structure Kept (definitions : JsString → Option WorkflowDefinition) (w : Tasks Database Point) :
    Prop where
  defined : ∀ p ∈ w.points, Defined definitions p
  keys : (w.shared.workflows.map Workflow.idempotencyKey).Nodup
  returned : ∀ request existing, .returned request existing ∈ w.points →
    existing ∈ w.shared.workflows

variable {now : ℕ} {w₀ w : World (Tasks Database Point)} {log : Async.Log Database Point Input}

theorem Kept.resume {input : Input} {i : ℕ} {p q : Point} {db db' : Database} {points : List Point}
    (h : Kept definitions ⟨db, points⟩) (hp : points[i]? = some p)
    (hq : p.resume sha256 definitions input db = some (q, db')) :
    Kept definitions ⟨db', points.set i q⟩ := by
  have hadvances := advances_of_resume (h.defined p (List.mem_of_getElem? hp)) hq
  obtain ⟨new, hcreated, hworkflows, hfresh⟩ := hadvances.workflows
  refine ⟨forall_mem_step h.defined hadvances.defined, ?_, ?_⟩
  · show (db'.workflows.map Workflow.idempotencyKey).Nodup
    rw [hworkflows, List.map_append, List.nodup_append]
    refine ⟨h.keys, ?_, ?_⟩
    · -- a step creates one workflow at most
      have hlength : new.length ≤ 1 := by
        have hsingle := hadvances.single
        rw [hcreated, List.length_append] at hsingle
        omega
      rcases new with _ | ⟨workflow, _ | ⟨_, _⟩⟩
      · exact List.nodup_nil
      · exact List.nodup_singleton _
      · simp at hlength
    · intro key hkey key' hkey'
      obtain ⟨existing, hexisting, rfl⟩ := List.mem_map.mp hkey
      obtain ⟨workflow, hworkflow, rfl⟩ := List.mem_map.mp hkey'
      exact hfresh workflow hworkflow existing hexisting
  · intro request existing hmem
    show existing ∈ db'.workflows
    rw [hworkflows]
    refine List.mem_append_left _ ?_
    rcases List.mem_or_eq_of_mem_set hmem with hold | heq
    · exact h.returned request existing hold
    · exact hadvances.returned request existing heq.symm

theorem kept_of_run (h : (startCalls sha256 definitions).contract.Run w₀ w log)
    (h₀ : Kept definitions w₀.store) :
    Kept definitions w.store ∧ ∀ c ∈ log, Kept definitions c.before ∧ Kept definitions c.after := by
  refine Async.invariant (I := Kept definitions) (G := fun _ _ _ _ _ => True) ?_ ?_ h h₀ ?_
  · intro s points p hkept hp
    cases p with
    | startWorkflow request =>
      refine ⟨forall_mem_start hkept.defined trivial, hkept.keys, fun request' existing hmem => ?_⟩
      rcases List.mem_append.mp hmem with hold | hnew
      · exact hkept.returned request' existing hold
      · cases List.mem_singleton.mp hnew
    | _ => cases hp
  · exact fun t input i p q s s' points hkept hp _ hq => hkept.resume hp hq
  · intro c _
    unfold Async.OnStep
    split
    · trivial
    · exact fun _ _ => trivial

/-- A step of a run, with what its request does. -/
theorem advances_of_mem (h : (startCalls sha256 definitions).contract.Run w₀ w log)
    (h₀ : Kept definitions w₀.store) {c : Commit (Tasks Database Point) (Move Point Input) Unit}
    (hc : c ∈ log) {i : ℕ} {input : Input} {p q : Point} (hcall : c.call = .resume i input)
    (hp : c.before.points[i]? = some p) (hq : c.after.points[i]? = some q) :
    p.resume sha256 definitions input c.before.shared = some (q, c.after.shared) ∧
      Advances definitions p q c.before.shared c.after.shared := by
  obtain ⟨time, call, result, before, after⟩ := c
  obtain rfl := hcall
  have hmove : (startCalls sha256 definitions).Step time before (.resume i input) after :=
    Async.step_of_exec (h.exec_of_mem _ hc)
  cases hmove with
  | @resume _ _ p' q' db' hp' hq' =>
    obtain rfl : p' = p := Option.some.inj (hp'.symm.trans hp)
    obtain rfl : q' = q := Option.some.inj ((getElem?_step_self hp').symm.trans hq)
    have hkept := ((kept_of_run h h₀).2 _ hc).1
    exact ⟨hq', advances_of_resume (hkept.defined p' (List.mem_of_getElem? hp')) hq'⟩

theorem created_of_starts {db : Database} {p : Point}
    (h : (startCalls sha256 definitions).starts db p = true) :
    created p = [] ∧ stored definitions p = [] := by
  cases p with
  | startWorkflow request => exact ⟨rfl, rfl⟩
  | _ => cases h

/-- A request that finds its key returns the workflow with it. -/
theorem returnsExisting_of_mem (h : (startCalls sha256 definitions).contract.Run w₀ w log)
    (h₀ : Kept definitions w₀.store) :
    ∀ c ∈ log, ReturnsExisting c := by
  intro c hc i input request definition key hcall hp workflow hworkflow hkey
  have hkept := ((kept_of_run h h₀).2 c hc).1
  obtain ⟨existing, hfind⟩ : ∃ existing, (c.before.shared.workflows.find? fun workflow =>
      workflow.idempotencyKey = key) = some existing := by
    rw [← Option.isSome_iff_exists, List.find?_isSome]
    exact ⟨workflow, hworkflow, decide_eq_true hkey⟩
  -- keys are unique, so what is found is the workflow itself
  have hexisting : existing.idempotencyKey = key := by simpa using List.find?_some hfind
  have heq : existing = workflow := List.inj_on_of_nodup_map hkept.keys
    (List.mem_of_find?_eq_some hfind) hworkflow (hexisting.trans hkey.symm)
  obtain ⟨time, call, result, before, after⟩ := c
  obtain rfl := hcall
  have hmove : (startCalls sha256 definitions).Step time before (.resume i input) after :=
    Async.step_of_exec (h.exec_of_mem _ hc)
  cases hmove with
  | @resume _ _ p' q' db' hp' hq' =>
    obtain rfl := Option.some.inj (hp'.symm.trans hp)
    have hresume : Point.resume sha256 definitions input before.shared
        (.findOne request definition key) = some (q', db') := hq'
    rw [Point.resume, show List.find? _ before.shared.workflows = _ from hfind] at hresume
    obtain ⟨rfl, -⟩ := Prod.mk.inj (Option.some.inj hresume)
    rw [← heq]
    exact getElem?_step_self hp'

/-- **Starts.** For every interleaving of requests that begins with empty tables: stored workflows
have keys of their own, each was created by exactly one request, which alone stored its steps, and
every request that looks for a stored key returns the workflow that has it. -/
theorem started_once
    (h : (startCalls sha256 definitions).contract.Run ⟨now, ⟨⟨[], []⟩, []⟩⟩ w log) :
    StartedOnce definitions w.store ∧ ∀ c ∈ log, ReturnsExisting c := by
  have h₀ : Kept definitions (World.mk now (Tasks.mk (Database.mk [] []) [])).store :=
    ⟨by simp, List.nodup_nil, by simp⟩
  have hkept := (kept_of_run h h₀).1
  have hcreators : w.store.shared.workflows.Perm (w.store.points.flatMap created) :=
    Async.recorded_of_run (fun _ _ hp => (created_of_starts hp).1) h (fun c hc i input p q hcall hp
      hq => by
        obtain ⟨new, hcreated, hworkflows, -⟩ := (advances_of_mem h h₀ hc hcall hp hq).2.workflows
        exact ⟨new, hcreated, by rw [hworkflows]⟩) (List.Perm.refl _)
  have hsteps : w.store.shared.steps.Perm (w.store.points.flatMap (stored definitions)) :=
    Async.recorded_of_run (fun _ _ hp => (created_of_starts hp).2) h (fun c hc i input p q hcall hp
      hq => by
        obtain ⟨new, hstored, hrows⟩ := (advances_of_mem h h₀ hc hcall hp hq).2.steps
        exact ⟨new, hstored, by rw [hrows]⟩) (List.Perm.refl _)
  refine ⟨⟨hkept.keys, hcreators, ?_, hsteps, hkept.returned⟩, returnsExisting_of_mem h h₀⟩
  intro i j p q a b hp hq ha hb hkey
  -- the keys of what the requests have created are those of the table
  have hnodup : (w.store.points.flatMap fun p =>
      (created p).map Workflow.idempotencyKey).Nodup := by
    rw [← List.map_flatMap]
    exact (hcreators.map _).nodup_iff.mp hkept.keys
  exact eq_of_flatMap_nodup hnodup hp hq (List.mem_map_of_mem ha)
    (hkey ▸ List.mem_map_of_mem hb)

/-! ## A sample -/

def requestSample : Request := ⟨units "r", flatSample, none, none, none⟩

def inputSample (id : String) : Input := ⟨units "2025-01-31", units id, units "duplicate key"⟩

/-- A single step with a compensation. -/
def definitionSample : WorkflowDefinition :=
  ⟨[⟨units "grant", none, true, true, none⟩], none, none⟩

/-- Two equal requests look for their key before either inserts, and a third one comes later. -/
def racingStarts : List (ℕ × Move Point Input) :=
  [(1, .start (.startWorkflow requestSample)), (1, .start (.startWorkflow requestSample)),
    (2, .resume 0 (inputSample "a")), (2, .resume 1 (inputSample "b")),
    (3, .resume 0 (inputSample "a")), (3, .resume 1 (inputSample "b")),
    (4, .resume 1 (inputSample "b")), (5, .resume 0 (inputSample "a")),
    (6, .start (.startWorkflow requestSample)), (7, .resume 2 (inputSample "c")),
    (8, .resume 2 (inputSample "c")), (9, .resume 1 (inputSample "b"))]

/-- The tasks after the requests, and the log. -/
def afterStarts : World (Tasks Database Point) × Async.Log Database Point Input :=
  (startCalls (fun _ => []) fun _ => some definitionSample).contract.play ⟨0, ⟨⟨[], []⟩, []⟩⟩
    racingStarts

theorem started_once_racing :
    (afterStarts.1.store.shared.workflows.map Workflow.id = [units "b"] ∧
      afterStarts.1.store.shared.steps.map WorkflowStep.workflowId = [units "b"]) ∧
    StartedOnce (fun _ => some definitionSample) afterStarts.1.store ∧
      ∀ c ∈ afterStarts.2, ReturnsExisting c :=
  ⟨by decide, started_once (Contract.run_play _ _ racingStarts (by decide))⟩

end Stellara.Idempotency
