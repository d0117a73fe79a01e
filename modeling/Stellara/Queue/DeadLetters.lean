import Stellara.Lib.Guard
import Stellara.Lib.Store
import Stellara.Lib.Trim

/-!
# Dead letters

A job that failed as often as it may is kept in a Redis list of its queue. Items of that list are
requeued from its front: those that cannot be requeued are skipped, and then as many items as were
requeued are removed from the front of the list.

The texts of the items come from outside, as do the answers of the queues.

## Main definitions

* `Lists`, `slice`, `lRange`, `lTrim`, `rPush`: lists in Redis
* `handleJobFailure`, `requeueFromDLQ`: how items get into the list of a queue, and out of it
* `Conserved`: every item was requeued or is still there, once
* `attempted`: the items that are read, with whether they are requeued

## Main results

* `dlq_failures`: jobs that fail are added behind the items that are there
* `conserved_iff`: items are conserved exactly when no other ones are removed than were requeued
-/

namespace Stellara.JobQueues

variable {Text δ : Type}

/-! ## Lists in Redis -/

abbrev Lists (Text : Type) := Store String (List Text)

def items (key : String) (lists : Lists Text) : List Text := (lists.lookup key).getD []

/-- Store a list. An empty one is not kept. -/
def setItems (key : String) (l : List Text) (lists : Lists Text) : Lists Text :=
  if l.isEmpty then lists.erase key else lists.insert key l

/-- The entries from the place `start` to the place `stop`. Negative places are counted from the end
of the list. -/
def slice (start stop : ℤ) (l : List Text) : List Text :=
  let place (i : ℤ) := if i < 0 then i + l.length else i
  (l.take (place stop + 1).toNat).drop (place start).toNat

def lRange (key : String) (start stop : ℤ) (lists : Lists Text) : List Text :=
  slice start stop (items key lists)

def lTrim (key : String) (start stop : ℤ) (lists : Lists Text) : Lists Text :=
  setItems key (lRange key start stop lists) lists

def rPush (key : String) (item : Text) (lists : Lists Text) : Lists Text :=
  setItems key (items key lists ++ [item]) lists

theorem items_setItems (key key' : String) (l : List Text) (lists : Lists Text) :
    items key' (setItems key l lists) = if key' = key then l else items key' lists := by
  cases l with
  | nil =>
    rw [setItems, if_pos List.isEmpty_nil, items, Store.lookup_erase_ite]
    split <;> rfl
  | cons item l =>
    rw [setItems, if_neg (by simp), items, Store.lookup_insert_ite]
    split <;> rfl

/-- A range from the first entry is the front of the list. -/
theorem slice_zero (stop : ℤ) (l : List Text) : ∃ n ≤ l.length, slice 0 stop l = l.take n := by
  have hstart : ¬ (0 : ℤ) < 0 := lt_irrefl 0
  simp only [slice, if_neg hstart, Int.toNat_zero, List.drop_zero]
  generalize ((if stop < 0 then stop + (l.length : ℤ) else stop) + 1).toNat = n
  exact ⟨min n l.length, Nat.min_le_right _ _, List.take_eq_take_min⟩

/-- A range to the last entry is what is behind the front of the list. -/
theorem slice_neg_one (n : ℕ) (l : List Text) : slice n (-1) l = l.drop n := by
  have hstop : ((-1 : ℤ) + l.length + 1).toNat = l.length := by omega
  have hstart : ¬ (n : ℤ) < 0 := by omega
  simp only [slice, if_neg hstart, Int.toNat_natCast]
  rw [if_pos (by decide), hstop, List.take_length]

/-! ## Jobs -/

inductive Queue where
  | deployContract
  | processTts
  | indexMarketNews
deriving DecidableEq, Repr

def getQueueByName (queueName : String) : Except String Queue :=
  match queueName with
  | "deploy-contract" => .ok .deployContract
  | "process-tts" => .ok .processTts
  | "index-market-news" => .ok .indexMarketNews
  | _ => .error s!"Unknown queue: {queueName}"

/-- The part of a job that its failure reads. -/
structure Job (δ : Type) where
  id : String
  name : String
  queueName : String
  data : δ
  attempts : Option ℕ
  attemptsMade : ℕ

structure DlqItem (δ : Type) where
  id : String
  name : String
  data : δ
  error : String
  attempts : ℕ
  maxAttempts : ℕ
  failedAt : ℕ

/-- The part of an item that requeueing it reads. -/
structure JobData (δ : Type) where
  name : Option String
  data : Option δ
  maxAttempts : Option ℕ

/-- A job that was added to a queue. -/
structure NewJob (δ : Type) where
  id : String
  queue : Queue
  name : Option String
  data : Option δ
  removeOnComplete : Bool
  removeOnFail : Bool
  attempts : ℕ

/-- The failure of a job: the error, the time, and whether its item can be pushed. -/
structure Failure (δ : Type) where
  job : Job δ
  error : String
  now : ℕ
  pushed : Bool

def dlqKey (queueName : String) : String := "queue:dlq:" ++ queueName

theorem dlqKey_inj {queueName queueName' : String} (h : dlqKey queueName = dlqKey queueName') :
    queueName = queueName' :=
  (String.append_right_inj _).mp h

variable (stringify : DlqItem δ → Text) (parse : Text → Except String (JobData δ))
  (add : ℕ → Except String String)

/-- The item of a job that failed for the last time. -/
def dlqItem (failure : Failure δ) : Option Text :=
  let maxAttempts := orDefault failure.job.attempts 1
  let attempts := failure.job.attemptsMade
  if attempts ≥ maxAttempts then
    some (stringify
      { id := failure.job.id
        name := failure.job.name
        data := failure.job.data
        error := failure.error
        attempts := attempts
        maxAttempts := maxAttempts
        failedAt := failure.now })
  else none

/-- An item that cannot be pushed is lost. -/
def handleJobFailure (lists : Lists Text) (failure : Failure δ) : Lists Text :=
  match dlqItem stringify failure with
  | none => lists
  | some item =>
    if failure.pushed then rPush (dlqKey failure.job.queueName) item lists else lists

/-- The item that a failure adds to the list of a queue. -/
def deadLetter (queueName : String) (failure : Failure δ) : Option Text :=
  if failure.job.queueName = queueName ∧ failure.pushed = true then dlqItem stringify failure
  else none

/-- What the queue answers at a place is its error, or the id of the new job. -/
def requeueItem (queueName : String) (place : ℕ) (item : Text) : Except String (NewJob δ) := do
  let jobData ← parse item
  let queue ← getQueueByName queueName
  let id ← add place
  return {
    id := id
    queue := queue
    name := jobData.name
    data := jobData.data
    removeOnComplete := false
    removeOnFail := false
    attempts := orDefault jobData.maxAttempts 3 }

/-- The items that are requeued, with their new jobs. An item that fails is skipped. -/
def requeueItems (queueName : String) (dlqData : List Text) : List (Text × NewJob δ) :=
  dlqData.zipIdx.filterMap fun (item, place) =>
    match requeueItem parse add queueName place item with
    | .ok newJob => some (item, newJob)
    | .error _ => none

/-- Requeue items while the jobs of `failures` fail. -/
def requeueFromDLQ (queueName : String) (limit : ℤ) (failures : List (Failure δ))
    (lists : Lists Text) : List (Text × NewJob δ) × Lists Text :=
  let dlqData := lRange (dlqKey queueName) 0 (limit - 1) lists
  let requeuedJobs := requeueItems parse add queueName dlqData
  let lists := failures.foldl (handleJobFailure stringify) lists
  if requeuedJobs.length > 0 then
    (requeuedJobs, lTrim (dlqKey queueName) requeuedJobs.length (-1) lists)
  else (requeuedJobs, lists)

/-- The items of the list of the queue were requeued or are still there, those that were added in
the meantime included: nothing was requeued that was not there, and nothing is left that was
requeued. -/
def Conserved (queueName : String) (limit : ℤ) (failures : List (Failure δ))
    (lists : Lists Text) : Prop :=
  let (requeuedJobs, lists') := requeueFromDLQ stringify parse add queueName limit failures lists
  (requeuedJobs.map Prod.fst ++ items (dlqKey queueName) lists').Perm
    (items (dlqKey queueName) lists ++ failures.filterMap (deadLetter stringify queueName))

/-- The items that are read, with whether they can be requeued. -/
def attempted (queueName : String) (limit : ℤ) (lists : Lists Text) : List (Text × Bool) :=
  (lRange (dlqKey queueName) 0 (limit - 1) lists).zipIdx.map fun (item, place) =>
    (item, (requeueItem parse add queueName place item).isOk)

variable (queueName : String) (limit : ℤ) (failures : List (Failure δ)) (lists : Lists Text)

/-- A job that fails is added behind the items that are there. -/
theorem items_handleJobFailure (failure : Failure δ) :
    items (dlqKey queueName) (handleJobFailure stringify lists failure) =
      items (dlqKey queueName) lists ++ (deadLetter stringify queueName failure).toList := by
  unfold handleJobFailure deadLetter
  cases dlqItem stringify failure with
  | none => simp
  | some item =>
    dsimp only
    by_cases hpushed : failure.pushed = true
    · rw [if_pos hpushed, rPush, items_setItems]
      by_cases hname : failure.job.queueName = queueName
      · subst hname
        rw [if_pos rfl, if_pos ⟨rfl, hpushed⟩, Option.toList_some]
      · rw [if_neg fun h => hname (dlqKey_inj h).symm, if_neg fun h => hname h.1,
          Option.toList_none, List.append_nil]
    · rw [if_neg hpushed, if_neg fun h => hpushed h.2, Option.toList_none, List.append_nil]

theorem dlq_failures :
    items (dlqKey queueName) (failures.foldl (handleJobFailure stringify) lists) =
      items (dlqKey queueName) lists ++ failures.filterMap (deadLetter stringify queueName) := by
  induction failures generalizing lists with
  | nil => rw [List.foldl_nil, List.filterMap_nil, List.append_nil]
  | cons failure failures ih =>
    rw [List.foldl_cons, ih, items_handleJobFailure, List.append_assoc]
    congr 1
    cases hitem : deadLetter stringify queueName failure with
    | none => rw [List.filterMap_cons_none hitem, Option.toList_none, List.nil_append]
    | some item => rw [List.filterMap_cons_some hitem, Option.toList_some, List.singleton_append]

theorem attempted_map_fst : (attempted parse add queueName limit lists).map Prod.fst =
    lRange (dlqKey queueName) 0 (limit - 1) lists := by
  rw [attempted, List.map_map]
  exact List.zipIdx_map_fst 0 _

/-- The items that are requeued are those that are read and can be. -/
theorem requeued_eq_taken :
    (requeueItems parse add queueName (lRange (dlqKey queueName) 0 (limit - 1) lists)).map Prod.fst =
      Trim.taken (attempted parse add queueName limit lists) := by
  rw [requeueItems, attempted, Trim.taken]
  generalize (lRange (dlqKey queueName) 0 (limit - 1) lists).zipIdx = l
  induction l with
  | nil => rfl
  | cons entry l ih =>
    obtain ⟨item, place⟩ := entry
    cases hresult : requeueItem parse add queueName place item with
    | ok newJob => simp [hresult, Except.isOk, Except.toBool, ih]
    | error e => simp [hresult, Except.isOk, Except.toBool, ih]

/-- What is left of the list is what is behind as many items as were requeued. -/
theorem items_requeueFromDLQ : items (dlqKey queueName)
    (requeueFromDLQ stringify parse add queueName limit failures lists).2 =
      (items (dlqKey queueName) lists ++ failures.filterMap (deadLetter stringify queueName)).drop
        (Trim.taken (attempted parse add queueName limit lists)).length := by
  rw [← requeued_eq_taken, List.length_map, ← dlq_failures, requeueFromDLQ]
  split
  · rw [lTrim, items_setItems, if_pos rfl, lRange, slice_neg_one]
  · have hnone : (requeueItems parse add queueName
        (lRange (dlqKey queueName) 0 (limit - 1) lists)).length = 0 := by omega
    rw [hnone, List.drop_zero]

/-- The items that are read are at the front of the list. -/
theorem attempted_prefix : ∃ n ≤ (items (dlqKey queueName) lists).length,
    (attempted parse add queueName limit lists).map Prod.fst =
      (items (dlqKey queueName) lists).take n := by
  rw [attempted_map_fst]
  exact slice_zero (limit - 1) _

variable {stringify parse add queueName limit failures lists}

/-- Items are conserved when those that are removed are the ones that are requeued. -/
theorem conserved_iff_perm {l : List (Text × Bool)} {n : ℕ}
    (hl : attempted parse add queueName limit lists = l) (hn : (Trim.taken l).length = n) :
    Conserved stringify parse add queueName limit failures lists ↔
      (Trim.taken l).Perm ((l.take n).map Prod.fst) := by
  obtain ⟨m, hm, hread⟩ := attempted_prefix parse add queueName limit lists
  have hjobs : (requeueFromDLQ stringify parse add queueName limit failures lists).1.map Prod.fst =
      Trim.taken l := by
    rw [← hl, ← requeued_eq_taken, requeueFromDLQ]
    split <;> rfl
  have hleft := items_requeueFromDLQ stringify parse add queueName limit failures lists
  rw [hl] at hread hleft
  rw [hn] at hleft
  have hle := (Trim.taken_sublist l).length_le
  rw [hread, hn, List.length_take] at hle
  -- the entries that are removed are among those that were read
  have hfront : (items (dlqKey queueName) lists ++
      failures.filterMap (deadLetter stringify queueName)).take n = (l.take n).map Prod.fst := by
    rw [List.map_take, hread, List.take_take, List.take_append_of_le_length (by omega),
      Nat.min_eq_left (by omega)]
  unfold Conserved
  dsimp only
  rw [hjobs, hleft, Trim.perm_append_drop_iff, hfront]

/-- Items are conserved exactly when those that are removed without being requeued are, up to order,
those that were requeued and are still there. When the items that were read are distinct, this is
when none that cannot be requeued stands before one that can. -/
theorem conserved_iff :
    (Conserved stringify parse add queueName limit failures lists ↔
      Trim.Exchanged (attempted parse add queueName limit lists)) ∧
    ((lRange (dlqKey queueName) 0 (limit - 1) lists).Nodup →
      (Conserved stringify parse add queueName limit failures lists ↔
        Trim.InOrder (attempted parse add queueName limit lists))) := by
  have hconserved : Conserved stringify parse add queueName limit failures lists ↔
      Trim.Exchanged (attempted parse add queueName limit lists) := by
    rw [conserved_iff_perm rfl rfl, Trim.taken_perm_iff]
  refine ⟨hconserved, ?_⟩
  intro hnodup
  rw [← attempted_map_fst parse add] at hnodup
  rw [hconserved, Trim.exchanged_iff_inOrder hnodup]

/-! ## A list with a damaged item -/

def parseSample (text : String) : Except String (JobData ℕ) :=
  match text with
  | "damaged" => .error "Unexpected token"
  | _ => .ok ⟨some "synthesize", some 7, some 2⟩

def sampleLists : Lists String :=
  setItems "queue:dlq:process-tts" ["damaged", "good"]
    (setItems "queue:dlq:deploy-contract" ["good", "damaged"] ∅)

/-- The good item is requeued and stays in the list, and the damaged one is removed in its place. -/
theorem damaged_item_lost :
    (requeueFromDLQ (fun item => item.id) parseSample (fun _ => .ok "41") "process-tts" 10 []
      sampleLists).1.map Prod.fst = ["good"] ∧
    items "queue:dlq:process-tts" (requeueFromDLQ (fun item => item.id) parseSample
      (fun _ => .ok "41") "process-tts" 10 [] sampleLists).2 = ["good"] ∧
    ¬ Conserved (fun item => item.id) parseSample (fun _ => .ok "41") "process-tts" 10 []
      sampleLists := by
  have hrequeued : (requeueFromDLQ (fun item => item.id) parseSample (fun _ => .ok "41")
      "process-tts" 10 [] sampleLists).1.map Prod.fst = ["good"] := by decide
  have hleft : items "queue:dlq:process-tts" (requeueFromDLQ (fun item => item.id) parseSample
      (fun _ => .ok "41") "process-tts" 10 [] sampleLists).2 = ["good"] := by decide
  refine ⟨hrequeued, hleft, ?_⟩
  intro hconserved
  have hmem : "damaged" ∈ ["good"] ++ ["good"] := hconserved.symm.subset (by decide)
  revert hmem
  decide

/-- In the other order, the good item is removed, and the damaged one stays. -/
theorem conserved_iff_sample : Conserved (fun item => item.id) parseSample (fun _ => .ok "41")
    "deploy-contract" 10 [] sampleLists :=
  (conserved_iff.2 (by decide)).mpr (by decide)

end Stellara.JobQueues
