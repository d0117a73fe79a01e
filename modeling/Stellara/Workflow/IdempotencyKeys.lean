import Mathlib.Logic.Equiv.List
import Stellara.Lib.Guard
import Stellara.Lib.Keys
import Stellara.Lib.Stringify
import Stellara.Lib.Tasks

/-!
# Idempotency keys of workflows

The key of a workflow is a hash of its type, its user, its input, its context and the date. The
input is written with the keys of its members in order, and a list of these keys is given to the
serializer, which applies it to the objects below the input as well: their members are left out
unless their keys are also keys of the input. A workflow that has the key of a new one is returned
in its place.

The hash, the registered definitions and the dates come from outside.

## Main definitions

* `stableStringify`, `keyMaterial`, `generateWorkflowIdempotencyKey`: the key of a workflow, and
  what is hashed for it
* `Point.resume`, `startCalls`: the starts of workflows, one access to the tables after the other
* `FaithfulMaterial`, `NoOtherInput`: inputs have the same material exactly when they are the same,
  and no workflow of another input is returned

## Main results

* `stableStringify_eq_of_same`, `sortMembers_eq_of_stableStringify`, `exists_same_text`: what the
  text of an object tells of it
* `keyMaterial_eq_iff`: the material tells the texts of the inputs apart
* `faithful_iff`: an input is told from all others exactly when no objects are below it
-/

namespace Stellara.Idempotency

/-! ## The text of an object -/

def stableStringify (obj : JsonObject) : JsString :=
  Json.stringify (Json.sortedKeys obj.members) (.object obj.members)

variable {a b : JsonObject}

/-- The order of keys does not matter. -/
theorem stableStringify_eq_of_same (h : a.Same b) : stableStringify a = stableStringify b := by
  have hkeys : Json.sortedKeys a.members = Json.sortedKeys b.members := by
    rw [JsonObject.Same, Json.sorted_object, Json.sorted_object] at h
    have hmembers := congrArg (List.map Prod.fst) (Json.object.inj h)
    rw [Json.map_fst_sortMembers, Json.map_fst_sortMembers, List.map_map, List.map_map] at hmembers
    exact hmembers
  rw [stableStringify, stableStringify, ← Json.stringify_sorted _ a.wellFormed,
    ← Json.stringify_sorted _ b.wellFormed, hkeys, h]

/-- The members of an object with no others below it can be read from its text. -/
theorem sortMembers_eq_of_stableStringify (hflat : a.Flat)
    (h : stableStringify a = stableStringify b) :
    Json.sortMembers a.members = Json.sortMembers b.members :=
  Json.sortMembers_eq_of_stringify a.nodup b.nodup hflat h

/-- An object with others below it has the text of another one. -/
theorem exists_same_text (hflat : ¬ a.Flat) :
    ∃ b, stableStringify a = stableStringify b ∧ ¬ a.Same b := by
  obtain ⟨key, hkey⟩ := Json.exists_notMem_keys (.object a.members)
  refine ⟨a.grow key hkey, ?_, JsonObject.not_same_grow hkey hflat⟩
  have hsorted : Json.sortedKeys (a.grow key hkey).members = Json.sortedKeys a.members := by
    rw [Json.sortedKeys, JsonObject.grow, List.map_map]
    rfl
  -- the new key is not one of the object itself
  have hnew : key ∉ Json.sortedKeys a.members := by
    intro hmem
    obtain ⟨m, hm, rfl⟩ := List.mem_map.mp ((List.mem_insertionSort _).mp hmem)
    exact hkey (Json.mem_keys_object.mpr ⟨m, hm, .inl rfl⟩)
  have htexts : (a.grow key hkey).members.map
      (fun m => (m.1, Json.stringify (Json.sortedKeys a.members) m.2)) =
        a.members.map fun m => (m.1, Json.stringify (Json.sortedKeys a.members) m.2) := by
    rw [JsonObject.grow, List.map_map]
    exact List.map_congr_left fun m _ => congrArg (Prod.mk m.1) (Json.stringify_grow hnew m.2)
  rw [stableStringify, stableStringify, hsorted, Json.stringify_object, Json.stringify_object,
    htexts]

/-! ## Keys -/

/-- What is hashed for a workflow. A context that is not given has no text. -/
def keyData (workflowType userId : JsString) (input : JsonObject)
    (additionalContext : Option JsonObject) (timestamp : JsString) : JsonObject where
  members :=
    [(units "workflowType", .string workflowType), (units "userId", .string userId),
      (units "input", .string (stableStringify input))] ++
    (additionalContext.map fun context =>
      (units "additionalContext", Json.string (stableStringify context))).toList ++
    [(units "timestamp", .string timestamp)]
  wellFormed := by
    cases additionalContext with
    | none =>
      refine .object ?_ ?_
      · show [units "workflowType", units "userId", units "input", units "timestamp"].Nodup
        decide
      · simp [Json.WellFormed.string]
    | some context =>
      refine .object ?_ ?_
      · show [units "workflowType", units "userId", units "input", units "additionalContext",
          units "timestamp"].Nodup
        decide
      · simp [Json.WellFormed.string]

def keyMaterial (workflowType userId : JsString) (input : JsonObject)
    (additionalContext : Option JsonObject) (timestamp : JsString) : JsString :=
  stableStringify (keyData workflowType userId input additionalContext timestamp)

/-- The hash is the text of its hexadecimal digits. -/
def generateWorkflowIdempotencyKey (sha256 : JsString → JsString) (workflowType userId : JsString)
    (input : JsonObject) (additionalContext : Option JsonObject) (timestamp : JsString) : JsString :=
  units "workflow:" ++ workflowType ++ units ":" ++ userId ++ units ":" ++
    sha256 (keyMaterial workflowType userId input additionalContext timestamp)

theorem keyData_flat (workflowType userId : JsString) (input : JsonObject)
    (additionalContext : Option JsonObject) (timestamp : JsString) :
    (keyData workflowType userId input additionalContext timestamp).Flat := by
  cases additionalContext <;> simp [JsonObject.Flat, keyData, Json.hasObject, Json.fold]

/-- The material tells the text of the input. -/
theorem stableStringify_eq_of_keyMaterial {workflowType userId timestamp : JsString}
    {workflowType' userId' timestamp' : JsString} {context context' : Option JsonObject}
    (h : keyMaterial workflowType userId a context timestamp =
      keyMaterial workflowType' userId' b context' timestamp') :
    stableStringify a = stableStringify b := by
  have hsorted := sortMembers_eq_of_stableStringify (keyData_flat _ _ _ _ _) h
  have hmem : (units "input", Json.string (stableStringify a)) ∈
      (keyData workflowType' userId' b context' timestamp').members := by
    rw [← Json.mem_sortMembers, ← hsorted, Json.mem_sortMembers]
    simp [keyData]
  have hlookup := (Json.lookup_eq_some_iff (JsonObject.nodup _)).mpr hmem
  have hinput : (keyData workflowType' userId' b context' timestamp').members.lookup
      (units "input") = some (.string (stableStringify b)) := by
    cases context' <;> rfl
  rw [hinput, Option.some.injEq, Json.string.injEq] at hlookup
  exact hlookup.symm

theorem keyMaterial_eq_iff {workflowType userId timestamp : JsString}
    {context : Option JsonObject} :
    keyMaterial workflowType userId a context timestamp =
      keyMaterial workflowType userId b context timestamp ↔
        stableStringify a = stableStringify b := by
  refine ⟨stableStringify_eq_of_keyMaterial, ?_⟩
  intro h
  simp only [keyMaterial, keyData, h]

/-- The hash tells the text of the input. -/
theorem stableStringify_eq_of_key {sha256 : JsString → JsString} (hinj : Function.Injective sha256)
    (hdigits : ∀ text, 58 ∉ sha256 text) {workflowType userId timestamp : JsString}
    {workflowType' userId' timestamp' : JsString} {context context' : Option JsonObject}
    (h : generateWorkflowIdempotencyKey sha256 workflowType userId a context timestamp =
      generateWorkflowIdempotencyKey sha256 workflowType' userId' b context' timestamp') :
    stableStringify a = stableStringify b := by
  have hcolon : ∀ l t : JsString, l ++ units ":" ++ t = l ++ 58 :: t := by
    intro l t
    rw [List.append_assoc]
    rfl
  rw [generateWorkflowIdempotencyKey, generateWorkflowIdempotencyKey, hcolon _ (sha256 _),
    hcolon _ (sha256 _)] at h
  have hhash := ((append_separator_inj (hdigits _) (hdigits _)).mp h).2
  exact stableStringify_eq_of_keyMaterial (hinj hhash)

/-! ## Starts of workflows -/

/-- The part of the definition of a step that is stored. -/
structure StepDefinition where
  name : JsString
  config : Option JsonObject
  /-- The step has a handler that compensates it. -/
  compensate : Bool
  isIdempotent : Bool
  maxRetries : Option ℕ

structure WorkflowDefinition where
  steps : List StepDefinition
  maxRetries : Option ℕ
  requiresCompensation : Option Bool

/-- The part of the row of a workflow that its start writes. -/
structure Workflow where
  id : JsString
  idempotencyKey : JsString
  type : JsString
  input : JsonObject
  userId : Option JsString
  walletAddress : Option JsString
  context : Option JsonObject
  totalSteps : ℕ
  maxRetries : ℕ
  requiresCompensation : Bool

/-- The part of the row of a step that the start of its workflow writes. -/
structure WorkflowStep where
  workflowId : JsString
  stepName : JsString
  stepIndex : ℕ
  config : Option JsonObject
  requiresCompensation : Bool
  isIdempotent : Bool
  maxRetries : ℕ

structure Database where
  workflows : List Workflow
  steps : List WorkflowStep

/-- The arguments of a start. -/
structure Request where
  type : JsString
  input : JsonObject
  userId : Option JsString
  walletAddress : Option JsString
  context : Option JsonObject

/-- What comes from outside: the date, the id of a new row, and the error of the database where the
key of a new row is taken. -/
structure Input where
  timestamp : JsString
  id : JsString
  duplicateKey : JsString

/-- What a start is about to do. -/
inductive Point where
  | startWorkflow (request : Request)
  | findOne (request : Request) (definition : WorkflowDefinition) (idempotencyKey : JsString)
  | saveWorkflow (workflow : Workflow) (definition : WorkflowDefinition)
  | saveSteps (workflow : Workflow) (steps : List WorkflowStep)
  /-- The new workflow is stored, and its execution begins. -/
  | executeWorkflow (workflow : Workflow)
  /-- The existing workflow is returned. -/
  | returned (request : Request) (existing : Workflow)
  | threw (error : JsString)

/-- The user in the key of a workflow. An empty id is none. -/
def keyUser (userId : Option JsString) : JsString :=
  match userId with
  | some (u :: userId) => u :: userId
  | _ => units "anonymous"

section Starts

variable (sha256 : JsString → JsString) (definitions : JsString → Option WorkflowDefinition)

def Point.resume (input : Input) (db : Database) : Point → Option (Point × Database)
  | .startWorkflow request =>
    match definitions request.type with
    | none => some (.threw (units "Workflow definition not found for type: " ++ request.type), db)
    | some definition =>
      some (.findOne request definition (generateWorkflowIdempotencyKey sha256 request.type
        (keyUser request.userId) request.input request.context input.timestamp), db)
  | .findOne request definition idempotencyKey =>
    match db.workflows.find? fun workflow => workflow.idempotencyKey = idempotencyKey with
    | some existing => some (.returned request existing, db)
    | none =>
      some (.saveWorkflow
        { id := input.id
          idempotencyKey := idempotencyKey
          type := request.type
          input := request.input
          userId := request.userId
          walletAddress := request.walletAddress
          context := request.context
          totalSteps := definition.steps.length
          maxRetries := orDefault definition.maxRetries 3
          requiresCompensation := definition.requiresCompensation.getD false } definition, db)
  | .saveWorkflow workflow definition =>
    -- the column of the keys is unique
    if db.workflows.any fun existing => existing.idempotencyKey = workflow.idempotencyKey then
      some (.threw input.duplicateKey, db)
    else
      let steps := definition.steps.zipIdx.map fun (stepDef, index) =>
        { workflowId := workflow.id
          stepName := stepDef.name
          stepIndex := index
          config := stepDef.config
          requiresCompensation := stepDef.compensate
          isIdempotent := stepDef.isIdempotent
          maxRetries := orDefault stepDef.maxRetries 3 }
      some (.saveSteps workflow steps, { db with workflows := db.workflows ++ [workflow] })
  | .saveSteps workflow steps =>
    some (.executeWorkflow workflow, { db with steps := db.steps ++ steps })
  | .executeWorkflow _ => none
  | .returned _ _ => none
  | .threw _ => none

/-- The starts of workflows. -/
def startCalls : Async Database Point Input where
  starts _
    | .startWorkflow _ => true
    | _ => false
  resume _ input p db := p.resume sha256 definitions input db

/-! ## Runs -/

/-- The key is the one of a workflow at some date. -/
def KeyOf (key type : JsString) (userId : Option JsString) (input : JsonObject)
    (context : Option JsonObject) : Prop :=
  ∃ timestamp, key =
    generateWorkflowIdempotencyKey sha256 type (keyUser userId) input context timestamp

/-- The workflow has the key of its own input. -/
def Keyed (workflow : Workflow) : Prop :=
  KeyOf sha256 workflow.idempotencyKey workflow.type workflow.userId workflow.input
    workflow.context

/-- Where a start is, its keys are those of the inputs. -/
def PointKeyed : Point → Prop
  | .findOne request _ key =>
    KeyOf sha256 key request.type request.userId request.input request.context
  | .saveWorkflow workflow _ => Keyed sha256 workflow
  | .returned request existing =>
    Keyed sha256 existing ∧ KeyOf sha256 existing.idempotencyKey request.type request.userId
      request.input request.context
  | _ => True

/-- All keys are those of the inputs. -/
structure AllKeyed (w : Tasks Database Point) : Prop where
  workflows : ∀ workflow ∈ w.shared.workflows, Keyed sha256 workflow
  points : ∀ p ∈ w.points, PointKeyed sha256 p

/-- No start returns a workflow of another input than `a`. -/
def NoOtherInput (a : JsonObject) : Prop :=
  ∀ (now : ℕ) (w : World (Tasks Database Point)) (log : Async.Log Database Point Input),
    (startCalls sha256 definitions).contract.Run ⟨now, ⟨⟨[], []⟩, []⟩⟩ w log →
    ∀ request existing, .returned request existing ∈ w.store.points → request.input = a →
      a.Same existing.input

/-- The material of `a` is that of another input exactly when they are the same. -/
def FaithfulMaterial (a : JsonObject) : Prop :=
  ∀ (workflowType userId : JsString) (context : Option JsonObject) (timestamp : JsString)
    (b : JsonObject), keyMaterial workflowType userId a context timestamp =
      keyMaterial workflowType userId b context timestamp ↔ a.Same b

variable {sha256 definitions}

/-- What a step adds to the table has the key of its input, and so has what it holds. -/
theorem PointKeyed.resume {p q : Point} {db db' : Database} {input : Input}
    (hworkflows : ∀ workflow ∈ db.workflows, Keyed sha256 workflow) (hp : PointKeyed sha256 p)
    (h : p.resume sha256 definitions input db = some (q, db')) :
    (∀ workflow ∈ db'.workflows, Keyed sha256 workflow) ∧ PointKeyed sha256 q := by
  cases p with
  | startWorkflow request =>
    rw [Point.resume] at h
    cases hdefinition : definitions request.type with
    | none =>
      rw [hdefinition] at h
      obtain ⟨rfl, rfl⟩ := Prod.mk.inj (Option.some.inj h)
      exact ⟨hworkflows, trivial⟩
    | some definition =>
      rw [hdefinition] at h
      obtain ⟨rfl, rfl⟩ := Prod.mk.inj (Option.some.inj h)
      -- the key is made of the input of the request
      exact ⟨hworkflows, input.timestamp, rfl⟩
  | findOne request definition key =>
    rw [Point.resume] at h
    cases hfind : db.workflows.find? fun workflow => workflow.idempotencyKey = key with
    | none =>
      rw [hfind] at h
      obtain ⟨rfl, rfl⟩ := Prod.mk.inj (Option.some.inj h)
      exact ⟨hworkflows, hp⟩
    | some existing =>
      rw [hfind] at h
      obtain ⟨rfl, rfl⟩ := Prod.mk.inj (Option.some.inj h)
      -- what is found has the key that was looked for, and the key of its own input
      have hkey : existing.idempotencyKey = key := by
        simpa using List.find?_some hfind
      refine ⟨hworkflows, hworkflows existing (List.mem_of_find?_eq_some hfind), ?_⟩
      rw [hkey]
      exact hp
  | saveWorkflow workflow definition =>
    rw [Point.resume] at h
    split at h
    · obtain ⟨rfl, rfl⟩ := Prod.mk.inj (Option.some.inj h)
      exact ⟨hworkflows, trivial⟩
    · obtain ⟨rfl, rfl⟩ := Prod.mk.inj (Option.some.inj h)
      refine ⟨?_, trivial⟩
      intro workflow' hmem
      rcases List.mem_append.mp hmem with hold | hnew
      · exact hworkflows workflow' hold
      · rw [List.mem_singleton.mp hnew]
        exact hp
  | saveSteps workflow steps =>
    obtain ⟨rfl, rfl⟩ := Prod.mk.inj (Option.some.inj h)
    exact ⟨hworkflows, trivial⟩
  | executeWorkflow workflow => cases h
  | returned request existing => cases h
  | threw error => cases h

/-- All keys are those of the inputs, in every run. -/
theorem allKeyed_of_run {w₀ w : World (Tasks Database Point)}
    {log : Async.Log Database Point Input} (h₀ : AllKeyed sha256 w₀.store)
    (h : (startCalls sha256 definitions).contract.Run w₀ w log) : AllKeyed sha256 w.store := by
  refine (Async.invariant (I := AllKeyed sha256) (G := fun _ _ _ _ _ => True) ?_ ?_ h h₀ ?_).1
  · intro s points p hkeyed hp
    refine ⟨hkeyed.workflows, forall_mem_start hkeyed.points ?_⟩
    cases p with
    | startWorkflow request => trivial
    | _ => cases hp
  · intro t input i p q s s' points hkeyed hp _ hresume
    obtain ⟨hworkflows, hq⟩ := PointKeyed.resume hkeyed.workflows
      (hkeyed.points p (List.mem_of_getElem? hp)) hresume
    exact ⟨hworkflows, forall_mem_step hkeyed.points hq⟩
  · intro c _
    unfold Async.OnStep
    split
    · trivial
    · exact fun _ _ => trivial

/-- An input with no objects below it is told from all others. -/
theorem noOtherInput_of_flat (hinj : Function.Injective sha256) (hdigits : ∀ text, 58 ∉ sha256 text)
    (hflat : a.Flat) : NoOtherInput sha256 definitions a := by
  rintro now w log hrun request existing hmem rfl
  have hkeyed : AllKeyed sha256 w.store := allKeyed_of_run ⟨by simp, by simp⟩ hrun
  obtain ⟨⟨timestamp, hown⟩, timestamp', hfound⟩ := hkeyed.points _ hmem
  have htext := stableStringify_eq_of_key hinj hdigits (hfound.symm.trans hown)
  exact JsonObject.same_of_sortMembers_eq (sortMembers_eq_of_stableStringify hflat htext)

/-- An input is told from all others by the material of its key, and by the workflows that are
returned for it, exactly when no objects are below it. -/
theorem faithful_iff (hinj : Function.Injective sha256) (hdigits : ∀ text, 58 ∉ sha256 text)
    (a : JsonObject) :
    FaithfulMaterial a ∧ NoOtherInput sha256 definitions a ↔ a.Flat := by
  constructor
  · rintro ⟨hfaithful, -⟩
    by_contra hflat
    obtain ⟨b, htext, hother⟩ := exists_same_text hflat
    exact hother ((hfaithful [] [] none [] b).mp (keyMaterial_eq_iff.mpr htext))
  · intro hflat
    refine ⟨?_, noOtherInput_of_flat hinj hdigits hflat⟩
    intro workflowType userId context timestamp b
    rw [keyMaterial_eq_iff]
    constructor
    · intro htext
      exact JsonObject.same_of_sortMembers_eq (sortMembers_eq_of_stableStringify hflat htext)
    · exact stableStringify_eq_of_same

end Starts

/-! ## Samples -/

/-- An object below an input, and another one. -/
def nestedSample (x : Bool) : JsonObject where
  members := [(units "a", .object [(units "x", .bool x)])]
  wellFormed := by
    refine .object (List.nodup_singleton _) ?_
    intro m hm
    rw [List.mem_singleton.mp hm]
    refine .object (List.nodup_singleton _) ?_
    intro m hm
    rw [List.mem_singleton.mp hm]
    exact .bool x

/-- The member of the object below the input is left out of the material. -/
theorem nested_members_dropped :
    stableStringify (nestedSample true) = units "\x7b\"a\":\x7b\x7d\x7d" ∧
    keyMaterial (units "reward_grant") (units "u1") (nestedSample true) none (units "2025-01-31") =
      keyMaterial (units "reward_grant") (units "u1") (nestedSample false) none
        (units "2025-01-31") ∧
    ¬ (nestedSample true).Same (nestedSample false) := by
  refine ⟨by decide, keyMaterial_eq_iff.mpr (by decide), ?_⟩
  intro h
  cases h

def flatSample : JsonObject where
  members := [(units "b", .array [.null, .string (units "x")]), (units "a", .bool true)]
  wellFormed := by
    refine .object ?_ ?_
    · show [units "b", units "a"].Nodup
      decide
    · simp [Json.WellFormed.bool, Json.WellFormed.null, Json.WellFormed.string,
        Json.WellFormed.array]

/-- An injective hash. -/
def sampleHash (text : JsString) : JsString := List.replicate (Encodable.encode text) 48

theorem faithful_iff_sample : FaithfulMaterial flatSample ∧
    NoOtherInput sampleHash (fun _ => some ⟨[], none, none⟩) flatSample :=
  (faithful_iff
    (fun _ _ h => Encodable.encode_injective (List.replicate_left_injective 48 h))
    (fun _ h => by cases List.eq_of_mem_replicate h) flatSample).mpr (by decide)

end Stellara.Idempotency
