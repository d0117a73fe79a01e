import Mathlib.Data.List.Nodup
import Stellara.Router.Contract

/-!
# The message protocol

Messages and their acceptance, in any interleaving of the calls of senders and relayers. The router
does not check what its protocol rests on: a sender may initiate a payload a second time, or a
second message in the same ledger, and a relayer may present a matching proof for an id that no
message has. In the runs that do none of this, ids and nonces are distinct, and each message is
accepted at most once and can be accepted.

## Main definitions

* `Distinct`: the ids of the messages are distinct, and so are their nonces on each source chain
* `Acceptable`: a message that is not processed is accepted with a matching proof
* `Verified`: what a single verification does
* `acceptedOf`: the ids that a run accepted
* `Careful`: the calls that the protocol rests on

## Main results

* `accepted_of_run`: each processed message was accepted once in careful runs
* `getMessageStatus_of_run`: the status of an id tells whether its message was accepted
* `protocol_iff`: a run keeps the protocol exactly when its calls are careful
-/

namespace Stellara.Router

variable {Hash : Type} {sha256 : List UInt8 → Hash} {s s' : State Hash}

/-! ## The protocol -/

/-- The source chain and the nonce of a message. -/
def Message.sourceNonce (m : Message Hash) : ℕ × ℕ := (m.sourceChain, m.nonce)

/-- The ids of the messages are distinct, and so are their nonces on each source chain. -/
structure Distinct (s : State Hash) : Prop where
  ids : (s.messages.map Message.id).Nodup
  nonces : (s.messages.map Message.sourceNonce).Nodup

variable [DecidableEq Hash]

/-- Every message that is not processed is accepted with a proof that matches the commitment root,
and is processed then. -/
def Acceptable (sha256 : List UInt8 → Hash) (s : State Hash) : Prop :=
  ∀ (i : ℕ) (m : Message Hash) (lc header : LightClientHeader Hash) (proof : List UInt8),
    s.messages[i]? = some m → m.processed = false → s.lightClient = some lc →
    sha256 proof = lc.commitmentRoot → ∀ sequence, ∃ s',
      execute sha256 sequence s (.verifyMessage m.id header proof) = .ok (.verdict true, s') ∧
      s'.messages[i]? = some { m with status := 2, processed := true }

omit [DecidableEq Hash] in
/-- A verification returns true only for the id of a message that is not processed, and leaves
every other message unchanged. -/
def Verified (c : Commit (State Hash) (Call Hash) (Result Hash)) : Prop :=
  match c.call, c.result with
  | .verifyMessage id _ _, .verdict verdict =>
    (verdict = true → ∃ m ∈ c.before.messages, m.id = id ∧ m.processed = false) ∧
      c.after.messages.length = c.before.messages.length ∧
      ∀ (i : ℕ) (m : Message Hash), c.before.messages[i]? = some m → m.id ≠ id ∨ verdict = false →
        c.after.messages[i]? = some m
  | _, _ => True

/-- The id that a call accepts, if it is a verification that returns true. -/
def accepted? (c : Commit (State Hash) (Call Hash) (Result Hash)) : Option Hash :=
  match c.call, c.result with
  | .verifyMessage id _ _, .verdict true => some id
  | _, _ => none

/-- The ids that a run accepted, in order. -/
def acceptedOf (log : List (Commit (State Hash) (Call Hash) (Result Hash))) : List Hash :=
  log.filterMap accepted?

/-- The run keeps the protocol. -/
structure Protocol (sha256 : List UInt8 → Hash) (w : World (State Hash))
    (log : List (Commit (State Hash) (Call Hash) (Result Hash))) : Prop where
  distinct : Distinct w.store ∧ ∀ c ∈ log, Distinct c.before ∧ Distinct c.after
  verified : ∀ c ∈ log, Verified c
  once : ∀ m ∈ w.store.messages, (acceptedOf log).count m.id ≤ 1
  acceptable : Acceptable sha256 w.store ∧
    ∀ c ∈ log, Acceptable sha256 c.before ∧ Acceptable sha256 c.after

/-- A sender initiates a payload that is new, and one message per ledger and source chain; a relayer
presents a matching proof for the id of a message. -/
def Careful (sha256 : List UInt8 → Hash) (c : Commit (State Hash) (Call Hash) (Result Hash)) :
    Prop :=
  match c.call with
  | .initiateMessage sourceChain _ _ _ payload => ∀ m ∈ c.before.messages,
    m.payload ≠ payload ∧ ¬ (m.sourceChain = sourceChain ∧ m.nonce = c.time)
  | .verifyMessage id _ proof => ∀ lc, c.before.lightClient = some lc →
    sha256 proof = lc.commitmentRoot → ∃ m ∈ c.before.messages, m.id = id
  | _ => True

/-! ## One verification -/

omit [DecidableEq Hash] in
theorem process_eq_ok {m m' : Message Hash} (h : process m = .ok m') :
    m.processed = false ∧ m' = { m with status := 2, processed := true } := by
  simp only [process, Except.bind_eq_ok, require_eq_ok, exists_const] at h
  exact ⟨h.1, (Except.ok.inj h.2).symm⟩

/-- Marking keeps the ids and the nonces. -/
theorem Distinct.mark (h : Distinct s) {id : Hash}
    (hupdate : updateFirst (fun m => m.id = id) process s.messages = .ok s'.messages) :
    Distinct s' := by
  constructor
  · rw [map_of_updateFirst hupdate fun a b _ hb => by rw [(process_eq_ok hb).2]]
    exact h.ids
  · rw [map_of_updateFirst hupdate fun a b _ hb => by rw [(process_eq_ok hb).2]; rfl]
    exact h.nonces

/-- Where the ids are distinct and the guard is inactive, every message can be accepted. -/
theorem Distinct.acceptable (h : Distinct s) (hstatus : s.status = .inactive) :
    Acceptable sha256 s := by
  intro i m lc header proof hi hprocessed hlc hproof sequence
  obtain ⟨hlt, hget⟩ := List.getElem?_eq_some_iff.mp hi
  have hsplit : s.messages = s.messages.take i ++ m :: s.messages.drop (i + 1) := by
    rw [← hget, List.getElem_cons_drop, List.take_append_drop]
  -- the message is the first one of its id
  have hfirst : ∀ m' ∈ s.messages.take i, ¬ m'.id = m.id := by
    intro m' hm' heq
    have hids := h.ids
    rw [hsplit, List.map_append, List.map_cons, List.nodup_append] at hids
    exact hids.2.2 m'.id (List.mem_map_of_mem hm') m.id List.mem_cons_self heq
  have hupdate : updateFirst (fun m' => m'.id = m.id) process s.messages = .ok
      (s.messages.take i ++ { m with status := 2, processed := true } ::
        s.messages.drop (i + 1)) := by
    conv_lhs => rw [hsplit]
    rw [updateFirst_split hfirst rfl, process, require, if_pos hprocessed]
    rfl
  obtain ⟨s', hverify, hmessages⟩ :=
    verifyMessage_of_match header hstatus hlc hproof hupdate
  refine ⟨s', ?_, ?_⟩
  · rw [execute, hverify]
    rfl
  · rw [hmessages, List.getElem?_append_right (by rw [List.length_take]; omega), List.length_take,
      min_eq_left hlt.le, Nat.sub_self, List.getElem?_cons_zero]

/-! ## Calls -/

variable {c : Commit (State Hash) (Call Hash) (Result Hash)}

/-- A call appends a message, or marks the first message of an id, or leaves the messages. -/
theorem execute_cases (he : execute sha256 c.time c.before c.call = .ok (c.result, c.after)) :
    (∃ sourceChain destChain sender recipient payload,
      c.call = .initiateMessage sourceChain destChain sender recipient payload ∧
      c.after.messages = c.before.messages ++
        [newMessage sha256 c.time sourceChain destChain sender recipient payload]) ∨
    (∃ id header proof, c.call = .verifyMessage id header proof ∧ c.result = .verdict true ∧
      (∃ lc, c.before.lightClient = some lc ∧ sha256 proof = lc.commitmentRoot) ∧
      updateFirst (fun m => m.id = id) process c.before.messages = .ok c.after.messages) ∨
    (c.after.messages = c.before.messages ∧ accepted? c = none ∧ Verified c ∧ Careful sha256 c) := by
  obtain ⟨time, call, result, s, s'⟩ := c
  have hstep : Step sha256 time s call result s' := step_of_execute he
  cases hstep with
  | initiateMessage sourceChain destChain sender recipient payload =>
    exact .inl ⟨_, _, _, _, _, rfl, rfl⟩
  | verifyMessage header hlc hproof hupdate =>
    exact .inr (.inl ⟨_, header, _, rfl, rfl, ⟨_, hlc, hproof⟩, hupdate⟩)
  | rejectMessage messageId header hne =>
    refine .inr (.inr ⟨rfl, rfl, ⟨fun h => (by cases h), rfl, fun i m hm _ => hm⟩,
      fun lc hlc hproof => absurd hproof (hne lc hlc)⟩)
  | _ => exact .inr (.inr ⟨rfl, rfl, trivial, trivial⟩)

/-- Every id is the hash of the payload, the status tells whether the message was processed, and the
guard is inactive. -/
structure Sound (sha256 : List UInt8 → Hash) (s : State Hash) : Prop where
  hashed : ∀ m ∈ s.messages, m.id = sha256 m.payload
  marked : ∀ m ∈ s.messages, m.status = if m.processed then 2 else 0
  inactive : s.status = .inactive

/-- A message after a call is one from before, as it was or processed, or the new one. -/
theorem message_of_execute (he : execute sha256 c.time c.before c.call = .ok (c.result, c.after))
    {m : Message Hash} (hm : m ∈ c.after.messages) :
    m ∈ c.before.messages ∨ (∃ a ∈ c.before.messages, process a = .ok m) ∨
      ∃ sourceChain destChain sender recipient payload,
        m = newMessage sha256 c.time sourceChain destChain sender recipient payload := by
  rcases execute_cases he with ⟨_, _, _, _, _, _, hmessages⟩ | ⟨_, _, _, _, _, _, hupdate⟩ |
    ⟨hmessages, -⟩
  · rw [hmessages] at hm
    rcases List.mem_append.mp hm with hm | hm
    · exact .inl hm
    · exact .inr (.inr ⟨_, _, _, _, _, List.mem_singleton.mp hm⟩)
  · rcases updateFirst_eq_ok hupdate with ⟨-, hsame⟩ | ⟨l₁, a, b, l₂, hsplit, -, -, hb, hafter⟩
    · exact .inl (hsame ▸ hm)
    · rw [hafter, List.mem_append, List.mem_cons] at hm
      rcases hm with hm | rfl | hm
      · exact .inl (by rw [hsplit]; simp [hm])
      · exact .inr (.inl ⟨a, by rw [hsplit]; simp, hb⟩)
      · exact .inl (by rw [hsplit]; simp [hm])
  · exact .inl (hmessages ▸ hm)

omit [DecidableEq Hash] in
theorem sound_empty : Sound sha256 (State.empty : State Hash) :=
  ⟨by simp [State.empty], by simp [State.empty], rfl⟩

theorem Sound.execute (h : Sound sha256 c.before)
    (he : execute sha256 c.time c.before c.call = .ok (c.result, c.after)) :
    Sound sha256 c.after := by
  refine ⟨fun m hm => ?_, fun m hm => ?_, (step_of_execute he).status h.inactive⟩
  · rcases message_of_execute he hm with hm | ⟨a, ha, hb⟩ | ⟨_, _, _, _, _, rfl⟩
    · exact h.hashed m hm
    · rw [(process_eq_ok hb).2]
      exact h.hashed a ha
    · rfl
  · rcases message_of_execute he hm with hm | ⟨a, ha, hb⟩ | ⟨_, _, _, _, _, rfl⟩
    · exact h.marked m hm
    · rw [(process_eq_ok hb).2]
      rfl
    · rfl

/-- Where ids and nonces are distinct, they stay so and a call is a verification as it should be
exactly when the call is careful. -/
theorem careful_iff (hinj : Function.Injective sha256) (hsound : Sound sha256 c.before)
    (h : Distinct c.before)
    (he : execute sha256 c.time c.before c.call = .ok (c.result, c.after)) :
    Distinct c.after ∧ Verified c ↔ Careful sha256 c := by
  rcases execute_cases he with ⟨_, _, _, _, payload, hcall, hmessages⟩ |
    ⟨id, _, proof, hcall, hresult, ⟨lc, hlc, hproof⟩, hupdate⟩ | ⟨hmessages, -, hverified, hcareful⟩
  · have hverified : Verified c := by
      unfold Verified
      rw [hcall]
      trivial
    rw [and_iff_left hverified, Careful, hcall]
    constructor
    · intro hafter m hm
      have hids := hafter.ids
      have hnonces := hafter.nonces
      rw [hmessages, List.map_append, List.map_singleton, ← List.concat_eq_append,
        List.nodup_concat] at hids hnonces
      refine ⟨fun heq => ?_, fun heq => ?_⟩
      · refine hids.1 (List.mem_map.mpr ⟨m, hm, ?_⟩)
        rw [hsound.hashed m hm, heq]
        rfl
      · exact hnonces.1 (List.mem_map.mpr ⟨m, hm, Prod.ext heq.1 heq.2⟩)
    · intro hcareful
      constructor
      · -- a new payload has a new hash
        rw [hmessages, List.map_append, List.map_singleton, ← List.concat_eq_append,
          List.nodup_concat]
        refine ⟨fun hid => ?_, h.ids⟩
        obtain ⟨m, hm, heq⟩ := List.mem_map.mp hid
        rw [hsound.hashed m hm] at heq
        exact (hcareful m hm).1 (hinj heq)
      · rw [hmessages, List.map_append, List.map_singleton, ← List.concat_eq_append,
          List.nodup_concat]
        refine ⟨fun hkey => ?_, h.nonces⟩
        obtain ⟨m, hm, heq⟩ := List.mem_map.mp hkey
        exact (hcareful m hm).2 (Prod.mk.inj heq)
  · rw [and_iff_right (h.mark hupdate), Careful, Verified, hcall, hresult]
    constructor
    · rintro ⟨hknown, -⟩ lc' hlc' hproof'
      obtain ⟨m, hm, hid, -⟩ := hknown rfl
      exact ⟨m, hm, hid⟩
    · intro hknown
      obtain ⟨m, hm, hid⟩ := hknown lc hlc hproof
      refine ⟨fun _ => ?_, ?_, fun i m hi hother => ?_⟩
      · rcases updateFirst_eq_ok hupdate with ⟨hnone, -⟩ | ⟨l₁, a, b, l₂, hsplit, -, ha, hb, -⟩
        · exact absurd hid (hnone m hm)
        · exact ⟨a, by rw [hsplit]; simp, ha, (process_eq_ok hb).1⟩
      · have hlen := congrArg List.length (map_of_updateFirst (g := fun _ => ()) hupdate
          fun _ _ _ _ => rfl)
        rwa [List.length_map, List.length_map] at hlen
      · rcases hother with hne | hfalse
        · exact getElem?_of_updateFirst hupdate hi hne
        · cases hfalse
  · refine iff_of_true ⟨⟨?_, ?_⟩, hverified⟩ hcareful <;> rw [hmessages]
    · exact h.ids
    · exact h.nonces

/-! ## Acceptance -/

/-- Exactly the processed messages were accepted, each of them once, and nothing else was. -/
structure Accepted (s : State Hash) (ids : List Hash) : Prop where
  count_eq : ∀ m ∈ s.messages, ids.count m.id = if m.processed then 1 else 0
  known : ∀ id ∈ ids, ∃ m ∈ s.messages, m.id = id

/-- A careful call accepts a message that was not accepted before, or nothing. -/
theorem Accepted.execute {ids : List Hash} (h : Accepted c.before ids) (hbefore : Distinct c.before)
    (hafter : Distinct c.after) (hcareful : Careful sha256 c)
    (he : execute sha256 c.time c.before c.call = .ok (c.result, c.after)) :
    Accepted c.after (ids ++ (accepted? c).toList) := by
  rcases execute_cases he with ⟨_, _, _, _, payload, hcall, hmessages⟩ |
    ⟨id, _, proof, hcall, hresult, ⟨lc, hlc, hproof⟩, hupdate⟩ | ⟨hmessages, hnone, -⟩
  · have hnone : accepted? c = none := by rw [accepted?, hcall]
    rw [hnone, Option.toList_none, List.append_nil]
    have hids := hafter.ids
    rw [hmessages, List.map_append, List.map_singleton, List.nodup_append] at hids
    refine ⟨fun m hm => ?_, fun id hid => ?_⟩ <;> rw [hmessages] at *
    · rcases List.mem_append.mp hm with hm | hm
      · exact h.count_eq m hm
      · -- a new id was not accepted before
        rw [List.mem_singleton.mp hm]
        refine List.count_eq_zero.mpr fun hid => ?_
        obtain ⟨m', hm', heq⟩ := h.known _ hid
        exact hids.2.2 m'.id (List.mem_map_of_mem hm') _ (List.mem_singleton_self _) heq
    · obtain ⟨m, hm, heq⟩ := h.known id hid
      exact ⟨m, List.mem_append_left _ hm, heq⟩
  · rw [Careful, hcall] at hcareful
    have hsome : accepted? c = some id := by rw [accepted?, hcall, hresult]
    rw [hsome, Option.toList_some]
    obtain ⟨m₀, hm₀, hid₀⟩ := hcareful lc hlc hproof
    rcases updateFirst_eq_ok hupdate with ⟨hall, -⟩ | ⟨l₁, a, b, l₂, hsplit, -, ha, hb, hmark⟩
    · exact absurd hid₀ (hall m₀ hm₀)
    obtain ⟨hprocessed, rfl⟩ := process_eq_ok hb
    have hids := hbefore.ids
    rw [hsplit, List.map_append, List.map_cons, List.nodup_append, List.nodup_cons] at hids
    obtain ⟨-, ⟨hright, -⟩, hleft⟩ := hids
    have hmem : a ∈ c.before.messages := by rw [hsplit]; simp
    -- the other messages have other ids
    have hother : ∀ m ∈ c.before.messages, m.id ≠ id →
        (ids ++ [id]).count m.id = if m.processed then 1 else 0 := fun m hm hne => by
      rw [List.count_append, List.count_singleton, h.count_eq m hm]
      simp [Ne.symm hne]
    refine ⟨fun m hm => ?_, fun id' hid' => ?_⟩
    · rw [hmark, List.mem_append, List.mem_cons] at hm
      rcases hm with hm | rfl | hm
      · exact hother m (by rw [hsplit]; simp [hm]) fun heq =>
          hleft m.id (List.mem_map_of_mem hm) a.id List.mem_cons_self (heq.trans ha.symm)
      · rw [List.count_append, h.count_eq a hmem, hprocessed]
        simp [ha]
      · exact hother m (by rw [hsplit]; simp [hm]) fun heq =>
          hright (List.mem_map.mpr ⟨m, hm, heq.trans ha.symm⟩)
    · have hmap : c.after.messages.map Message.id = c.before.messages.map Message.id :=
        map_of_updateFirst hupdate fun _ _ _ hb => by rw [(process_eq_ok hb).2]
      have hid : id' ∈ c.before.messages.map Message.id := by
        rcases List.mem_append.mp hid' with hold | hnew
        · obtain ⟨m, hm, rfl⟩ := h.known id' hold
          exact List.mem_map_of_mem hm
        · rw [List.mem_singleton.mp hnew, ← ha]
          exact List.mem_map_of_mem hmem
      rw [← hmap] at hid
      exact List.mem_map.mp hid
  · rw [hnone, Option.toList_none, List.append_nil]
    exact ⟨by rw [hmessages]; exact h.count_eq, by rw [hmessages]; exact h.known⟩

omit [DecidableEq Hash] in
theorem acceptedOf_append (log : List (Commit (State Hash) (Call Hash) (Result Hash)))
    (c : Commit (State Hash) (Call Hash) (Result Hash)) :
    acceptedOf (log ++ [c]) = acceptedOf log ++ (accepted? c).toList := by
  simp only [acceptedOf, List.filterMap_append, List.filterMap_cons, List.filterMap_nil]
  cases accepted? c <;> rfl

/-! ## Runs -/

variable {w : World (State Hash)} {log : List (Commit (State Hash) (Call Hash) (Result Hash))}
  {sequence₀ : ℕ}

/-- In a careful run the processed messages were accepted, each of them once. -/
theorem accepted_of_run (hinj : Function.Injective sha256)
    (hrun : (contract sha256).Run ⟨sequence₀, .empty⟩ w log)
    (hcareful : ∀ c ∈ log, Careful sha256 c) :
    Sound sha256 w.store ∧ Accepted w.store (acceptedOf log) := by
  have hall := hrun.invariant_log (I := fun _ s log => (∀ c ∈ log, Careful sha256 c) →
      Sound sha256 s ∧ Distinct s ∧ Accepted s (acceptedOf log)) (fun _ => ?_)
    (fun _ _ _ _ _ h => h) (fun t k r s s' log ih he hall => ?_) hcareful
  · exact ⟨hall.1, hall.2.2⟩
  · exact ⟨sound_empty, ⟨List.nodup_nil, List.nodup_nil⟩, by simp [State.empty],
      by simp [acceptedOf]⟩
  · obtain ⟨hsound, hdistinct, haccepted⟩ := ih fun c hc => hall c (List.mem_append_left _ hc)
    have hc : Careful sha256 ⟨t, k, r, s, s'⟩ := hall _ (by simp)
    have hexec : execute sha256 t s k = .ok (r, s') := he
    have hafter : Distinct s' := ((careful_iff (c := ⟨t, k, r, s, s'⟩) hinj hsound hdistinct
      hexec).mpr hc).1
    rw [acceptedOf_append]
    exact ⟨Sound.execute (c := ⟨t, k, r, s, s'⟩) hsound hexec, hafter,
      haccepted.execute (c := ⟨t, k, r, s, s'⟩) hdistinct hafter hc hexec⟩

/-- In a careful run the status of an id tells whether its message was accepted, or only initiated,
or neither. -/
theorem getMessageStatus_of_run (hinj : Function.Injective sha256)
    (hrun : (contract sha256).Run ⟨sequence₀, .empty⟩ w log)
    (hcareful : ∀ c ∈ log, Careful sha256 c) (id : Hash) :
    getMessageStatus w.store id =
      if id ∈ acceptedOf log then 2
      else if ∃ m ∈ w.store.messages, m.id = id then 0 else 4294967295 := by
  obtain ⟨hsound, haccepted⟩ := accepted_of_run hinj hrun hcareful
  unfold getMessageStatus
  cases hfind : w.store.messages.find? fun message => message.id = id with
  | none =>
    have hnone : ∀ m ∈ w.store.messages, m.id ≠ id := by simpa using hfind
    have hunknown : id ∉ acceptedOf log := fun hmem => by
      obtain ⟨m, hm, hid⟩ := haccepted.known id hmem
      exact hnone m hm hid
    have habsent : ¬∃ m ∈ w.store.messages, m.id = id := by
      rintro ⟨m, hm, hid⟩
      exact hnone m hm hid
    rw [if_neg hunknown, if_neg habsent]
    rfl
  | some m =>
    have hm := List.mem_of_find?_eq_some hfind
    obtain rfl : m.id = id := by simpa using List.find?_some hfind
    -- the status is the one of the flag, and the flag the one of the log
    have hflag : m.id ∈ acceptedOf log ↔ m.processed = true := by
      rw [← List.count_pos_iff, haccepted.count_eq m hm]
      split <;> simp_all
    rw [Option.map_some, Option.getD_some, hsound.marked m hm, if_pos (c := ∃ _, _) ⟨m, hm, rfl⟩]
    simp only [hflag]

/-- With an injective hash, a run keeps the protocol exactly when its committed calls are careful:
the payloads are new, one message is initiated per ledger and source chain, and matching proofs are
presented for ids of messages. -/
theorem protocol_iff (hinj : Function.Injective sha256)
    (hrun : (contract sha256).Run ⟨sequence₀, .empty⟩ w log) :
    Protocol sha256 w log ↔ ∀ c ∈ log, Careful sha256 c := by
  have hkeep : ∀ t k r s s', Sound sha256 s → (contract sha256).exec t k s = .ok (r, s') →
      Sound sha256 s' := fun t k r s s' hs he => Sound.execute (c := ⟨t, k, r, s, s'⟩) hs he
  have hlog := hrun.invariant_of_mem hkeep sound_empty
  have hend := hrun.invariant hkeep sound_empty
  constructor
  · intro h c hc
    obtain ⟨hbefore, hafter⟩ := h.distinct.2 c hc
    exact (careful_iff hinj (hlog c hc).1 hbefore (hrun.exec_of_mem c hc)).mp
      ⟨hafter, h.verified c hc⟩
  · intro hcareful
    have hdistinct := hrun.invariant_throughout (G := Careful sha256)
      (I := fun s => Sound sha256 s ∧ Distinct s)
      (fun c hc hs he => ⟨hs.1.execute he, ((careful_iff hinj hs.1 hs.2 he).mpr hc).1⟩)
      ⟨sound_empty, List.nodup_nil, List.nodup_nil⟩ hcareful
    have haccepted := (accepted_of_run hinj hrun hcareful).2
    refine ⟨⟨hdistinct.1.2, fun c hc => ⟨(hdistinct.2 c hc).1.2, (hdistinct.2 c hc).2.2⟩⟩,
      fun c hc => ?_, fun m hm => ?_, hdistinct.1.2.acceptable hend.inactive, fun c hc => ⟨?_, ?_⟩⟩
    · exact ((careful_iff hinj (hlog c hc).1 (hdistinct.2 c hc).1.2
        (hrun.exec_of_mem c hc)).mpr (hcareful c hc)).2
    · rw [haccepted.count_eq m hm]
      split <;> omega
    · exact (hdistinct.2 c hc).1.2.acceptable (hlog c hc).1.inactive
    · exact (hdistinct.2 c hc).2.2.acceptable (hlog c hc).2.inactive

/-- A message from the chain 1 to the chain 2 in the ledger 1, and its acceptance. -/
def acceptedCalls : List (ℕ × Call (List UInt8)) :=
  [(1, .initiateMessage 1 2 ⟨3⟩ ⟨4⟩ [7]), (2, .updateLightClient ⟨1, [], 1000, [9]⟩),
    (3, .verifyMessage [7] ⟨1, [], 1000, [9]⟩ [9])]

theorem protocol_iff_sample :
    Protocol id ((contract id).play ⟨0, .empty⟩ acceptedCalls).1
        ((contract id).play ⟨0, .empty⟩ acceptedCalls).2 ↔
      ∀ c ∈ ((contract id).play ⟨0, .empty⟩ acceptedCalls).2, Careful id c :=
  protocol_iff Function.injective_id (Contract.run_play _ _ acceptedCalls (by decide))

/-- The payload of a message is initiated again in the same ledger, and then a proof is accepted for
an id that no message has. -/
def carelessCalls : List (ℕ × Call (List UInt8)) :=
  [(1, .initiateMessage 1 2 ⟨3⟩ ⟨4⟩ [7]), (1, .initiateMessage 1 2 ⟨3⟩ ⟨4⟩ [7]),
    (2, .updateLightClient ⟨1, [], 1000, [9]⟩), (3, .verifyMessage [8] ⟨1, [], 1000, [9]⟩ [9])]

/-- Two messages share their id and their nonce, and an unknown id is accepted. -/
theorem careless_run :
    ∃ w log, (contract (id : List UInt8 → List UInt8)).Run ⟨0, .empty⟩ w log ∧
      ¬ Distinct w.store ∧ (∃ c ∈ log, ¬ Verified c) ∧ ¬ Protocol id w log := by
  have hdistinct : ¬ Distinct ((contract id).play ⟨0, .empty⟩ carelessCalls).1.store :=
    fun h => absurd h.ids (by decide)
  refine ⟨_, _, Contract.run_play _ _ carelessCalls (by decide), hdistinct, ?_,
    fun h => hdistinct h.distinct.1⟩
  -- the last commit accepts the id [8]
  obtain ⟨c, hc⟩ : ∃ c, ((contract id).play ⟨0, .empty⟩ carelessCalls).2[3]? = some c := ⟨_, rfl⟩
  refine ⟨c, List.mem_of_getElem? hc, ?_⟩
  obtain rfl := Option.some.inj hc
  intro h
  obtain ⟨m, hm, hid, -⟩ := h.1 rfl
  revert m
  decide

end Stellara.Router
