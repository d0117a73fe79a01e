import Stellara.Workflow.IdempotencyKeys

/-!
# The input of a step

A step is to be executed with the input of its workflow and the outputs of the steps before it, and
its key is to be one of this context. The function that puts the context together is asynchronous,
and the executor does not wait for it: the handler of the step gets a promise, and the key is
computed from a promise, which has no members of its own.

## Main definitions

* `stepContext`, `prepareStepInput`: the context of a step, and the promise of it
* `generateStepIdempotencyKey`, `stepCall`: the key of a step, and the call of its handler
* `SeesContext`, `FaithfulInput`: the handler sees the context and the key is of what it sees, and
  executions in different contexts have different keys

## Main results

* `stepKey_eq`: all executions of a step have the same key
* `faithfulInput_iff`: a step is executed as it is to be exactly when its context is empty
-/

namespace Stellara.Idempotency

/-- The part of the row of a step that its execution reads, and that of a later one. A step has an
output once it completed. -/
structure StepRow where
  workflowId : JsString
  stepName : JsString
  stepIndex : ℕ
  isIdempotent : Bool
  retryCount : ℕ
  output : Option {v : Json // v.WellFormed}

/-- An object, or the promise of one. -/
inductive JsValue where
  | object (value : JsonObject)
  | promise (value : JsonObject)

/-- The members of a value itself. A promise has none. -/
def JsValue.own : JsValue → JsonObject
  | object value => value
  | promise _ => .empty

/-- The value counts as true in a condition. -/
def truthy : Json → Bool
  | .null => false
  | .bool b => b
  | .number n => n.text ≠ units "0"
  | .string s => s ≠ []
  | .array _ => true
  | .object _ => true

/-! ## The context of a step -/

/-- The steps of the workflow that are before a step, in order. -/
def previousSteps (rows : List StepRow) (workflow : Workflow) (step : StepRow) : List StepRow :=
  (rows.filter fun row => row.workflowId = workflow.id ∧ row.stepIndex < step.stepIndex).insertionSort
    fun row row' => row.stepIndex ≤ row'.stepIndex

def addOutput (stepInput : JsonObject) (prevStep : StepRow) : JsonObject :=
  match prevStep.output with
  | none => stepInput
  | some output =>
    if truthy output.1 then stepInput.set prevStep.stepName output.1 output.2 else stepInput

/-- The input of the workflow, and the outputs of the steps before. -/
def stepContext (rows : List StepRow) (workflow : Workflow) (step : StepRow) : JsonObject :=
  if step.stepIndex > 0 then (previousSteps rows workflow step).foldl addOutput workflow.input
  else workflow.input

/-- The function is asynchronous. -/
def prepareStepInput (rows : List StepRow) (workflow : Workflow) (step : StepRow) : JsValue :=
  .promise (stepContext rows workflow step)

/-! ## The call of the handler -/

/-- What is hashed for a step. -/
def stepKeyData (workflowIdempotencyKey stepName : JsString) (stepInput : JsValue) : JsonObject where
  members :=
    [(units "workflowIdempotencyKey", .string workflowIdempotencyKey),
      (units "stepName", .string stepName),
      (units "stepInput", .string (stableStringify stepInput.own))]
  wellFormed := by
    refine .object ?_ ?_
    · show [units "workflowIdempotencyKey", units "stepName", units "stepInput"].Nodup
      decide
    · simp [Json.WellFormed.string]

def generateStepIdempotencyKey (sha256 : JsString → JsString)
    (workflowIdempotencyKey stepName : JsString) (stepInput : JsValue) : JsString :=
  units "step:" ++ stepName ++ units ":" ++
    sha256 (stableStringify (stepKeyData workflowIdempotencyKey stepName stepInput))

structure WorkflowContext where
  workflowId : JsString
  idempotencyKey : JsString
  userId : Option JsString
  walletAddress : Option JsString
  type : JsString
  retryCount : ℕ
  stepIndex : ℕ
  metadata : Option JsonObject

/-- What the handler of a step is called with, and the key that is stored before. -/
structure StepCall where
  input : JsValue
  context : WorkflowContext
  idempotencyKey : Option JsString

variable (sha256 : JsString → JsString) (workflow : Workflow) (step : StepRow)
  (rows rows' : List StepRow)

/-- The part of `executeStep` between the storing of the step as running and the call of its
handler. -/
def stepCall : StepCall :=
  let context :=
    { workflowId := workflow.id
      idempotencyKey := workflow.idempotencyKey
      userId := workflow.userId
      walletAddress := workflow.walletAddress
      type := workflow.type
      retryCount := step.retryCount
      stepIndex := step.stepIndex
      metadata := workflow.context }
  let stepInput := prepareStepInput rows workflow step
  let stepIdempotencyKey :=
    if step.isIdempotent then
      some (generateStepIdempotencyKey sha256 workflow.idempotencyKey step.stepName stepInput)
    else none
  { input := stepInput, context := context, idempotencyKey := stepIdempotencyKey }

/-! ## Properties -/

/-- The handler sees the input of the workflow, where no step has the name of its member, and the
outputs of the steps before, and the key of the step is one of what the handler sees. -/
structure SeesContext : Prop where
  input : ∀ m ∈ workflow.input.members,
    (∀ row ∈ previousSteps rows workflow step, row.output.isSome = true → row.stepName ≠ m.1) →
      m ∈ (stepCall sha256 workflow step rows).input.own.members
  outputs : ∀ row ∈ previousSteps rows workflow step, ∀ output, row.output = some output →
    (row.stepName, output.1) ∈ (stepCall sha256 workflow step rows).input.own.members
  key : step.isIdempotent = true → (stepCall sha256 workflow step rows).idempotencyKey =
    some (generateStepIdempotencyKey sha256 workflow.idempotencyKey step.stepName
      (stepCall sha256 workflow step rows).input)

/-- Two executions of a step see their contexts, and have different keys if these differ. -/
structure FaithfulInput : Prop where
  first : SeesContext sha256 workflow step rows
  second : SeesContext sha256 workflow step rows'
  keys : step.isIdempotent = true →
    ¬ (stepContext rows workflow step).Same (stepContext rows' workflow step) →
      (stepCall sha256 workflow step rows).idempotencyKey ≠
        (stepCall sha256 workflow step rows').idempotencyKey

/-- No step before has an output. -/
def NoOutputs : Prop := ∀ row ∈ previousSteps rows workflow step, row.output = none

instance : Decidable (NoOutputs workflow step rows) :=
  inferInstanceAs (Decidable (∀ row ∈ previousSteps rows workflow step, row.output = none))

/-! ## What the context has -/

variable {sha256 workflow step rows rows'}

/-! ## Executions -/

/-- All executions of a step have the same key. -/
theorem stepKey_eq : (stepCall sha256 workflow step rows).idempotencyKey =
    (stepCall sha256 workflow step rows').idempotencyKey := rfl

/-- The handler sees its context exactly when there is nothing to see. -/
theorem seesContext_iff : SeesContext sha256 workflow step rows ↔
    workflow.input.members = [] ∧ NoOutputs workflow step rows := by
  constructor
  · rintro ⟨hinput, houtputs, -⟩
    have hnone : NoOutputs workflow step rows := by
      intro row hrow
      cases houtput : row.output with
      | none => rfl
      | some output => cases houtputs row hrow output houtput
    refine ⟨?_, hnone⟩
    rw [List.eq_nil_iff_forall_not_mem]
    intro m hm
    have hsees := hinput m hm fun row hrow hsome => by
      rw [hnone row hrow] at hsome
      cases hsome
    cases hsees
  · rintro ⟨hempty, hnone⟩
    refine ⟨?_, ?_, ?_⟩
    · intro m hm
      rw [hempty] at hm
      cases hm
    · intro row hrow output houtput
      rw [hnone row hrow] at houtput
      cases houtput
    · intro hidempotent
      rw [stepCall, if_pos hidempotent]

/-- Without an input and outputs, the context is empty. -/
theorem stepContext_eq_of_empty (hnone : NoOutputs workflow step rows) :
    stepContext rows workflow step = workflow.input := by
  have hfold : ∀ (l : List StepRow) (input : JsonObject), (∀ row ∈ l, row.output = none) →
      l.foldl addOutput input = input := by
    intro l input hl
    induction l with
    | nil => rfl
    | cons row l ih =>
      obtain ⟨hrow, hrest⟩ := List.forall_mem_cons.mp hl
      rw [List.foldl_cons, addOutput, hrow]
      exact ih hrest
  unfold stepContext
  split
  · exact hfold _ _ hnone
  · rfl

/-- Two executions of a step are as they are to be exactly when the workflow has no input, and no
step before has an output. -/
theorem faithfulInput_iff : FaithfulInput sha256 workflow step rows rows' ↔
    workflow.input.members = [] ∧ NoOutputs workflow step rows ∧ NoOutputs workflow step rows' := by
  constructor
  · rintro ⟨hfirst, hsecond, -⟩
    obtain ⟨hempty, hnone⟩ := seesContext_iff.mp hfirst
    exact ⟨hempty, hnone, (seesContext_iff.mp hsecond).2⟩
  · rintro ⟨hempty, hnone, hnone'⟩
    refine ⟨seesContext_iff.mpr ⟨hempty, hnone⟩, seesContext_iff.mpr ⟨hempty, hnone'⟩, ?_⟩
    intro _ hdifferent
    rw [stepContext_eq_of_empty hnone, stepContext_eq_of_empty hnone'] at hdifferent
    exact absurd rfl hdifferent

/-! ## Two executions in different contexts -/

def sampleWorkflow : Workflow where
  id := units "w1"
  idempotencyKey := units "workflow:reward_grant:u1:0"
  type := units "reward_grant"
  input := nestedSample true
  userId := some (units "u1")
  walletAddress := none
  context := none
  totalSteps := 2
  maxRetries := 3
  requiresCompensation := false

def sampleStep (stepIndex : ℕ) (output : Option Bool) : StepRow where
  workflowId := units "w1"
  stepName := units "s" ++ [48 + Fin.ofNat 65536 stepIndex]
  stepIndex := stepIndex
  isIdempotent := true
  retryCount := 0
  output := output.map fun b => ⟨.array [.bool b], .array (by simp [Json.WellFormed.bool])⟩

/-- The second step sees no members, and has the same key after different outputs of the first one.
-/
theorem input_not_seen :
    (stepCall sampleHash sampleWorkflow (sampleStep 1 none) [sampleStep 0 (some true)]).input.own =
      .empty ∧
    ¬ (stepContext [sampleStep 0 (some true)] sampleWorkflow (sampleStep 1 none)).Same
      (stepContext [sampleStep 0 (some false)] sampleWorkflow (sampleStep 1 none)) ∧
    (stepCall sampleHash sampleWorkflow (sampleStep 1 none) [sampleStep 0 (some true)]).idempotencyKey =
      (stepCall sampleHash sampleWorkflow (sampleStep 1 none)
        [sampleStep 0 (some false)]).idempotencyKey ∧
    ¬ FaithfulInput sampleHash sampleWorkflow (sampleStep 1 none) [sampleStep 0 (some true)]
      [sampleStep 0 (some false)] := by
  refine ⟨rfl, ?_, stepKey_eq, ?_⟩
  · intro h
    cases h
  · intro hfaithful
    have hempty := (seesContext_iff.mp hfaithful.first).1
    cases hempty

end Stellara.Idempotency
