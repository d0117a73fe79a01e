import Stellara.Identity.DidRegistry

/-!
# The documents of the registry

The authentication list of a document is a copy of the ids of its verification methods, which every
operation keeps. Methods and services that are added one by one are checked against those that are
there; lists that are given as a whole are stored as they are.

## Main definitions

* `DIDDocument.HasUniqueIds`, `UniqueIds`: no two methods, and no two services, have the same id
* `Call.GivesDistinct`: the lists that a call gives as a whole have distinct ids
* `DocumentsKept`: documents keep their ids and owners, and deactivated ones do not change
* `Derived`: the authentication lists are derived from the methods, and the documents counted

## Main results

* `uniqueIds_iff`: the ids of a run stay unique exactly when all lists that are given are distinct
* `documents_kept`: what every run keeps of the documents
-/

namespace Stellara.DidRegistry

variable {stellarDid : Address → Symbol} {keyDid : List UInt8 → Symbol} {now t₀ : ℕ} {call : Call}
  {s s' : State} {document document' : DIDDocument} {w : World State}
  {log : List (Commit State Call Result)}

/-! ## Properties -/

/-- No two verification methods, and no two services, of the document have the same id. -/
structure DIDDocument.HasUniqueIds (document : DIDDocument) : Prop where
  verificationMethods : (document.verificationMethods.map VerificationMethod.id).Nodup
  service : (document.service.map Service.id).Nodup

def UniqueIds (s : State) : Prop :=
  ∀ did document, s.dids.lookup did = some document → document.HasUniqueIds

/-- The lists that the call gives as a whole have distinct ids. -/
structure Call.GivesDistinct (call : Call) : Prop where
  verificationMethods : ∀ vms ∈ call.verificationMethods?, (vms.map VerificationMethod.id).Nodup
  services : ∀ services ∈ call.services?, (services.map Service.id).Nodup

/-- The documents keep their ids and their owners, and those that are deactivated do not change. -/
def DocumentsKept (s s' : State) : Prop :=
  ∀ did document, s.dids.lookup did = some document → ∃ document',
    s'.dids.lookup did = some document' ∧ document'.id = document.id ∧
      document'.owner = document.owner ∧ (document.deactivated = true → document' = document)

/-- The authentication lists are the ids of the verification methods, in order, and the documents
are counted. -/
structure Derived (s : State) : Prop where
  authentication : ∀ did document, s.dids.lookup did = some document →
    document.authentication = document.verificationMethods.map VerificationMethod.id
  didCount : s.didCount = s.dids.entries.length

def Call.Initializes (call : Call) : Prop :=
  ∃ admin approvers executor, call = .init admin approvers executor

/-! ## Unique ids -/

/-- Writing a document keeps the ids unique exactly when those of the document are. -/
theorem UniqueIds.insert_iff (h : UniqueIds s) {did : Symbol}
    (hs' : s'.dids = s.dids.insert did document) : UniqueIds s' ↔ document.HasUniqueIds := by
  unfold UniqueIds
  rw [hs']
  constructor
  · intro hall
    exact hall did document (AList.lookup_insert s.dids)
  · intro hunique did' document' hread
    rcases Store.eq_or_lookup_of_insert hread with ⟨-, rfl⟩ | ⟨-, hold⟩
    · exact hunique
    · exact h did' document' hold

/-- An id that none of the others has can be added. -/
theorem nodup_map_concat {α : Type} {f : α → Symbol} {l : List α} {a : α} (h : (l.map f).Nodup)
    (hnew : ∀ b ∈ l, f b ≠ f a) : ((l ++ [a]).map f).Nodup := by
  rw [List.map_append, List.map_singleton, ← List.concat_eq_append, List.nodup_concat]
  refine ⟨fun hmem => ?_, h⟩
  obtain ⟨b, hb, heq⟩ := List.mem_map.mp hmem
  exact hnew b hb heq

/-- A change keeps the ids of a document unique exactly when the lists that it gives are distinct.
-/
theorem Edits.hasUniqueIds_iff (h : Edits document call document') (hunique : document.HasUniqueIds) :
    document'.HasUniqueIds ↔ call.GivesDistinct := by
  cases h with
  | update verificationMethods services =>
    -- a list that is not given stays as it is
    have hmethods : ((document.setVerificationMethods verificationMethods).verificationMethods.map
        VerificationMethod.id).Nodup ↔
          ∀ vms ∈ verificationMethods, (vms.map VerificationMethod.id).Nodup := by
      cases verificationMethods with
      | none => simpa [DIDDocument.setVerificationMethods] using hunique.verificationMethods
      | some vms => simp [DIDDocument.setVerificationMethods]
    have hservices : ((services.getD document.service).map Service.id).Nodup ↔
        ∀ services' ∈ services, (services'.map Service.id).Nodup := by
      cases services with
      | none => simpa using hunique.service
      | some services => simp
    exact ⟨fun hu => ⟨hmethods.mp hu.1, hservices.mp hu.2⟩,
      fun hg => ⟨hmethods.mpr hg.1, hservices.mpr hg.2⟩⟩
  | deactivate =>
    refine iff_of_true ⟨hunique.1, hunique.2⟩ ⟨?_, ?_⟩ <;> simp [Call.verificationMethods?,
      Call.services?]
  | addVerificationMethod hnew =>
    refine iff_of_true ⟨nodup_map_concat hunique.1 hnew, hunique.2⟩ ⟨?_, ?_⟩ <;>
      simp [Call.verificationMethods?, Call.services?]
  | addService hnew =>
    refine iff_of_true ⟨hunique.1, nodup_map_concat hunique.2 hnew⟩ ⟨?_, ?_⟩ <;>
      simp [Call.verificationMethods?, Call.services?]

/-- A call keeps the ids unique exactly when the lists that it gives are distinct. -/
theorem Effect.unique_iff (h : Effect now s call s') (hunique : UniqueIds s) :
    UniqueIds s' ↔ call.GivesDistinct := by
  cases h with
  | init admin approvers executor =>
    refine iff_of_true hunique ⟨?_, ?_⟩ <;> simp [Call.verificationMethods?, Call.services?]
  | create _ _ hmethods hservices _ =>
    rw [hunique.insert_iff rfl]
    constructor
    · rintro ⟨hvms, hsvcs⟩
      exact ⟨by simpa [hmethods] using hvms, by simpa [hservices] using hsvcs⟩
    · rintro ⟨hvms, hsvcs⟩
      exact ⟨hvms _ hmethods, hsvcs _ hservices⟩
  | edit _ hread _ _ hedits =>
    rw [hunique.insert_iff rfl, ← hedits.hasUniqueIds_iff (hunique _ _ hread)]
    exact ⟨fun hu => ⟨hu.1, hu.2⟩, fun hu => ⟨hu.1, hu.2⟩⟩

/-- In every run the ids stay unique exactly when all lists that are given are distinct. -/
theorem uniqueIds_iff (hrun : (contract stellarDid keyDid).Run ⟨t₀, .empty⟩ w log) :
    (UniqueIds w.store ∧ ∀ c ∈ log, UniqueIds c.before ∧ UniqueIds c.after) ↔
      ∀ c ∈ log, c.call.GivesDistinct := by
  refine hrun.invariant_iff (S := fun _ => True) (fun _ _ _ _ _ _ _ => trivial)
    (fun c _ hunique he => (execute_effect he).unique_iff hunique) trivial ?_
  intro did document hread
  cases hread

/-- A registry with names for all identifiers. -/
def sampleRegistry : Contract State Call Result (Fault Governance.GovernanceError) :=
  contract (fun _ => "stellar") fun _ => "key"

def sampleMethod : VerificationMethod := ⟨"key-1", "Ed25519", "alice", [7], 0⟩

/-- A document is created with one method, and another one added. -/
def distinctCalls : List (ℕ × Call) :=
  [(1, .init ⟨1⟩ [] ⟨3⟩), (2, .createStellarDid ⟨1⟩ ⟨5⟩ [sampleMethod] []),
    (3, .addVerificationMethod ⟨5⟩ "stellar" { sampleMethod with id := "key-2" })]

/-- The document is created with the same method twice. -/
def repeatedCalls : List (ℕ × Call) :=
  [(1, .init ⟨1⟩ [] ⟨3⟩), (2, .createStellarDid ⟨1⟩ ⟨5⟩ [sampleMethod, sampleMethod] [])]

theorem uniqueIds_iff_sample :
    (UniqueIds (sampleRegistry.play ⟨0, .empty⟩ distinctCalls).1.store ∧
        ∀ c ∈ (sampleRegistry.play ⟨0, .empty⟩ distinctCalls).2,
          UniqueIds c.before ∧ UniqueIds c.after) ↔
      ∀ c ∈ (sampleRegistry.play ⟨0, .empty⟩ distinctCalls).2, c.call.GivesDistinct :=
  uniqueIds_iff (Contract.run_play sampleRegistry ⟨0, .empty⟩ distinctCalls (by decide))

/-- The two methods have one id. -/
theorem repeated_ids :
    ¬ ∀ w log, sampleRegistry.Run ⟨0, .empty⟩ w log → UniqueIds w.store := by
  intro hall
  have hunique := hall _ _ (Contract.run_play sampleRegistry ⟨0, .empty⟩ repeatedCalls (by decide))
    "stellar" _ rfl
  exact absurd hunique.verificationMethods (by decide)

/-! ## The lifecycle of a document -/

theorem DocumentsKept.refl (s : State) : DocumentsKept s s :=
  fun _ document hread => ⟨document, hread, rfl, rfl, fun _ => rfl⟩

theorem DocumentsKept.trans {s₁ s₂ s₃ : State} (h : DocumentsKept s₁ s₂) (h' : DocumentsKept s₂ s₃) :
    DocumentsKept s₁ s₃ := by
  intro did document hread
  obtain ⟨document₂, hread₂, hid₂, howner₂, hsame₂⟩ := h did document hread
  obtain ⟨document₃, hread₃, hid₃, howner₃, hsame₃⟩ := h' did document₂ hread₂
  refine ⟨document₃, hread₃, hid₃.trans hid₂, howner₃.trans howner₂, fun hdeactivated => ?_⟩
  obtain rfl := hsame₂ hdeactivated
  exact hsame₃ hdeactivated

/-- A change keeps the id, the owner, and the derivation of the authentication list. -/
theorem Edits.kept (h : Edits document call document') :
    document'.id = document.id ∧ document'.owner = document.owner ∧
      (document.authentication = document.verificationMethods.map VerificationMethod.id →
        document'.authentication = document'.verificationMethods.map VerificationMethod.id) := by
  cases h with
  | update verificationMethods services =>
    cases verificationMethods with
    | none => exact ⟨rfl, rfl, id⟩
    | some vms => exact ⟨rfl, rfl, fun _ => rfl⟩
  | deactivate => exact ⟨rfl, rfl, id⟩
  | addVerificationMethod _ =>
    refine ⟨rfl, rfl, fun hderived => ?_⟩
    rw [List.map_append, ← hderived, List.map_singleton]
  | addService _ => exact ⟨rfl, rfl, id⟩

/-- Every call keeps the documents. -/
theorem Effect.documentsKept (h : Effect now s call s') : DocumentsKept s s' := by
  cases h with
  | init admin approvers executor => exact .refl s
  | create _ _ _ _ hnone =>
    intro did document hread
    exact ⟨document, Store.lookup_insert_of_free hnone hread, rfl, rfl, fun _ => rfl⟩
  | @edit _ did document document' _ _ hread _ hactive hedits =>
    intro did' old hold
    simp only [Store.lookup_insert_ite]
    split
    · -- the document that is changed is not deactivated
      rename_i heq
      rw [heq, hread] at hold
      obtain rfl := Option.some.inj hold
      refine ⟨_, rfl, hedits.kept.1, hedits.kept.2.1, fun hdeactivated => ?_⟩
      rw [hactive] at hdeactivated
      cases hdeactivated
    · exact ⟨old, hold, rfl, rfl, fun _ => rfl⟩

/-- Every call but an initialization derives and counts. -/
theorem Derived.step (hderived : Derived s) (h : Effect now s call s') (hinit : ¬ call.Initializes) :
    Derived s' := by
  cases h with
  | init admin approvers executor => exact absurd ⟨admin, approvers, executor, rfl⟩ hinit
  | create _ _ _ _ hnone =>
    refine ⟨fun did document hread => ?_, ?_⟩
    · rcases Store.eq_or_lookup_of_insert hread with ⟨-, rfl⟩ | ⟨-, hold⟩
      · rfl
      · exact hderived.authentication did document hold
    · rw [Store.length_insert_new hnone, hderived.didCount]
  | edit _ hread _ _ hedits =>
    refine ⟨fun did document hread' => ?_, ?_⟩
    · rcases Store.eq_or_lookup_of_insert hread' with ⟨-, rfl⟩ | ⟨-, hold⟩
      · exact hedits.kept.2.2 (hderived.authentication _ _ hread)
      · exact hderived.authentication did document hold
    · rw [Store.length_insert_old hread, hderived.didCount]

/-- After a single initialization, every run derives the authentication lists from the methods and
counts the documents, and keeps the documents from each of its states to the last one. -/
theorem documents_kept {admin executor : Address} {approvers : List Address}
    (hrun : (contract stellarDid keyDid).Run ⟨t₀, init admin approvers executor .empty⟩ w log)
    (hinit : ∀ c ∈ log, ¬ c.call.Initializes) :
    (∀ did document, w.store.dids.lookup did = some document →
      document.authentication = document.verificationMethods.map VerificationMethod.id) ∧
    (∀ c ∈ log, DocumentsKept c.after w.store) ∧
    w.store.didCount = w.store.dids.entries.length := by
  have hderived : Derived w.store :=
    hrun.invariant_of_forall (G := fun c => ¬ c.call.Initializes)
      (fun c hc hbefore he => hbefore.step (execute_effect he) hc)
      ⟨fun did document hread => (by cases hread), rfl⟩ hinit
  refine ⟨hderived.authentication, ?_, hderived.didCount⟩
  exact hrun.later DocumentsKept.refl (fun _ _ _ => .trans) fun c hc =>
    (execute_effect (hrun.exec_of_mem c hc)).documentsKept

/-- A method is added to a document, and the document deactivated. -/
def lifecycleCalls : List (ℕ × Call) :=
  [(2, .createStellarDid ⟨1⟩ ⟨5⟩ [sampleMethod] []),
    (3, .addVerificationMethod ⟨5⟩ "stellar" { sampleMethod with id := "key-2" }),
    (4, .deactivateDid ⟨5⟩ "stellar")]

def lifecycleRun : World State × List (Commit State Call Result) :=
  sampleRegistry.play ⟨1, init ⟨1⟩ [] ⟨3⟩ .empty⟩ lifecycleCalls

theorem documents_kept_sample :
    lifecycleRun.1.store.didCount = 1 ∧
      ∀ c ∈ lifecycleRun.2, DocumentsKept c.after lifecycleRun.1.store := by
  refine ⟨by decide, ?_⟩
  refine (documents_kept (Contract.run_play sampleRegistry ⟨1, init ⟨1⟩ [] ⟨3⟩ .empty⟩ lifecycleCalls
    (by decide)) fun c hc => ?_).2.1
  have hcall := Contract.call_mem_of_mem_play _ hc
  rintro ⟨_, _, _, hinit⟩
  rw [hinit] at hcall
  simp [lifecycleCalls] at hcall

end Stellara.DidRegistry
