import Stellara.Voice.Sessions

/-!
# Messages that were added are kept

A request saves the session as it read and changed it. A message that another one added in between
is lost with that, and a session that was terminated in between is stored again. The messages are
kept, and a terminated session stays away, exactly when each change is saved over a session that
is still there and has no other messages.

## Main definitions

* `Kept`: the messages that were added are stored, and terminated sessions are not
* `UpToDate`: a changed session is saved over one that is there, and of which it has all messages

## Main results

* `Sound.step`: the stored messages are those that were added
* `messages_kept_iff`: the messages are kept, and terminated sessions stay away, exactly when all
  changes are up to date
-/

namespace Stellara.Voice

variable {now next i id : ℕ} {s s' : Redis} {p q : Point} {points : List Point}
  {session : VoiceSession} {message : VoiceMessage} {owner : ℕ → String}

/-! ## Properties -/

/-- The message that a request has added, with the id of the session. -/
def Point.added : Point → Option (ℕ × VoiceMessage)
  | .edited session (some message) => some (session.id, message)
  | _ => none

/-- The message was added to the session. -/
def Added (id : ℕ) (message : VoiceMessage) (points : List Point) : Prop :=
  ∃ p ∈ points, p.added = some (id, message)

/-- The session was deleted by a request that terminates it. -/
def Terminated (id : ℕ) (points : List Point) : Prop :=
  ∃ p ∈ points, ∃ session ∈ p.deleted, session.id = id

instance : Decidable (Added id message points) :=
  inferInstanceAs (Decidable (∃ p ∈ points, p.added = some (id, message)))

instance : Decidable (Terminated id points) :=
  inferInstanceAs (Decidable (∃ p ∈ points, ∃ session ∈ p.deleted, session.id = id))

structure Kept (w : Tasks Redis Point) : Prop where
  /-- A message that was added is in the stored session, until it is terminated. -/
  messages : ∀ id message, Added id message w.points → Terminated id w.points ∨
    ∃ e, w.shared.sessions.lookup id = some e ∧ message ∈ e.value.messages
  /-- A session that was terminated is not stored. -/
  terminated : ∀ id, Terminated id w.points → w.shared.sessions.lookup id = none

/-- The changed session that a request is to save. -/
def Point.savesEdit : Point → Option VoiceSession
  | .saveEdit session _ => some session
  | _ => none

/-- A changed session is saved while it is stored with no messages but those that it has itself. -/
def UpToDate (_ : ℕ) (_ : ℕ) (_ : ℕ) (p : Point) (w : Tasks Redis Point) : Prop :=
  ∀ session ∈ p.savesEdit, ∃ e ∈ w.shared.sessions.lookup session.id,
    ∀ message ∈ e.value.messages, message ∈ session.messages

instance {w : Tasks Redis Point} : Decidable (UpToDate now next i p w) :=
  inferInstanceAs (Decidable (∀ session ∈ p.savesEdit,
    ∃ e ∈ w.shared.sessions.lookup session.id,
      ∀ message ∈ e.value.messages, message ∈ session.messages))

/-! ## Steps -/

/-- The new session that a request is to save. -/
def Point.creates : Point → Option VoiceSession
  | .saveSession session _ => some session
  | _ => none

theorem held_of_creates (h : session ∈ p.creates) : session ∈ p.held := by
  cases p with
  | saveSession session' counted => exact h
  | _ => cases h

theorem held_of_deleted (h : session ∈ p.deleted) : session ∈ p.held := by
  cases p <;> first | exact h | cases h

theorem Advance.added_eq_none (h : Advance now s p q s') : p.added = none := by
  cases h with
  | create hheld _ => cases p <;> first | rfl | cases hheld
  | quiet _ _ hheld _ _ => cases p <;> first | rfl | cases hheld
  | _ => rfl

theorem Advance.deleted_of_deleted (h : Advance now s p q s') (hp : session ∈ p.deleted) :
    session ∈ q.deleted := by
  cases h with
  | create hheld _ => exact nomatch hheld.symm.trans (held_of_deleted hp)
  | quiet _ _ _ _ hdeleted => rwa [hdeleted]
  | _ => cases hp

/-- A step adds the message with which it ends. -/
theorem Advance.added_iff (h : Advance now s p q s') (hp : points[i]? = some p) :
    Added id message (points.set i q) ↔ Added id message points ∨ q.added = some (id, message) :=
  exists_mem_step hp fun hadded => nomatch h.added_eq_none.symm.trans hadded

/-- A step terminates the session that it deletes. -/
theorem Advance.terminated_iff (h : Advance now s p q s') (hp : points[i]? = some p) :
    Terminated id (points.set i q) ↔
      Terminated id points ∨ ∃ session ∈ q.deleted, session.id = id :=
  exists_mem_step hp fun ⟨session, hdeleted, hid⟩ =>
    ⟨session, h.deleted_of_deleted hdeleted, hid⟩

/-- A step leaves the sessions that its request has not created or found. -/
theorem Advance.lookup_of_ne (h : Advance now s p q s')
    (hne : ∀ session ∈ p.held, session.id ≠ id) :
    s'.sessions.lookup id = s.sessions.lookup id := by
  cases h with
  | saved => rw [lookup_saveSession, if_neg (Ne.symm (hne _ rfl))]
  | edited => rw [lookup_saveSession, if_neg (Ne.symm (hne _ rfl))]
  | deleted => rw [Store.lookup_erase_ite, if_neg (Ne.symm (hne _ rfl))]
  | quiet hsessions _ _ _ _ => rw [hsessions]
  | _ => rfl

/-- A new session has no messages yet. -/
theorem Advance.creates (h : Advance now s p q s') (hq : session ∈ q.creates) :
    session.id = s.nextId ∧ session.messages = [] := by
  cases h with
  | create _ _ =>
    obtain rfl := Option.some.inj hq
    exact ⟨rfl, rfl⟩
  | quiet _ _ _ hheld _ =>
    cases q with
    | saveSession session' counted => cases hheld
    | _ => cases hq
  | _ => cases hq

/-- A request holds the session that it held before, one that is stored, or a new one. -/
theorem Advance.held (h : Advance now s p q s') (hindexed : Indexed owner ⟨s, points⟩)
    (hq : session ∈ q.held) : session ∈ p.held ∨ (s.sessions.lookup session.id).isSome ∨
      session.id = s.nextId := by
  have hstored : ∀ {id session}, getSession now id s = some session →
      (s.sessions.lookup session.id).isSome := by
    intro id session hread
    obtain ⟨e, hlookup, -⟩ := getSession_eq_some hread
    rw [(hindexed.getSession hread).1, hlookup]
    rfl
  cases h with
  | create _ _ =>
    obtain rfl := Option.some.inj hq
    exact .inr (.inr rfl)
  | saved => cases hq
  | read hread happly =>
    obtain rfl := Option.some.inj hq
    rw [(Edit.apply_spec happly).1]
    exact .inr (.inl (hstored hread))
  | edited => exact .inl hq
  | found hread =>
    obtain rfl := Option.some.inj hq
    exact .inr (.inl (hstored hread))
  | deleted => exact .inl hq
  | quiet _ _ hpheld hqheld hdeleted =>
    rw [hpheld, ← hdeleted, ← hqheld]
    exact .inl hq

/-! ## Where the messages come from -/

/-- A changed session that is to be saved has the messages that were added and the new one, and it
is stored unless it was terminated. -/
structure Copy (session : VoiceSession) (new : Option VoiceMessage) (w : Tasks Redis Point) :
    Prop where
  messages : ∀ message ∈ session.messages, Added session.id message w.points ∨ new = some message
  new : ∀ message ∈ new, message ∈ session.messages
  stored : (w.shared.sessions.lookup session.id).isSome ∨ Terminated session.id w.points

/-- The new session of one request is not the session of another. -/
def Distinct (p q : Point) : Prop :=
  ∀ session ∈ p.creates, ∀ session' ∈ q.held, session'.id ≠ session.id

structure Sound (w : Tasks Redis Point) : Prop where
  indexed : ∃ owner, Indexed owner w
  creating : ∀ p ∈ w.points, ∀ session ∈ p.creates,
    w.shared.sessions.lookup session.id = none ∧ session.messages = []
  distinct : Apart Distinct w.points
  written : ∀ id e, w.shared.sessions.lookup id = some e →
    ∀ message ∈ e.value.messages, Added id message w.points
  copies : ∀ session new, .saveEdit session new ∈ w.points → Copy session new w

theorem Sound.start (h : Sound ⟨s, points⟩) (hp : voiceRequests.starts s p = true) :
    Sound ⟨s, points ++ [p]⟩ := by
  have hheld := held_of_starts hp
  have hcreates : p.creates = none := by
    rw [Option.eq_none_iff_forall_not_mem]
    intro session hsession
    exact nomatch hheld.symm.trans (held_of_creates hsession)
  constructor
  · exact h.indexed.imp fun _ hindexed => hindexed.start hp
  · refine forall_mem_start h.creating fun session hsession => ?_
    exact nomatch hcreates.symm.trans hsession
  · apply h.distinct.start
    intro r hr
    constructor
    · intro session hsession
      exact nomatch hcreates.symm.trans hsession
    · intro session _ session' hsession'
      exact nomatch hheld.symm.trans hsession'
  · intro id e hread message hmessage
    exact exists_mem_start (h.written id e hread message hmessage)
  · intro session new hcopy
    rcases List.mem_append.mp hcopy with hold | hnew
    · obtain ⟨hmessages, hnew, hstored⟩ := h.copies session new hold
      refine ⟨fun message hmessage => ?_, hnew, hstored.imp_right exists_mem_start⟩
      exact (hmessages message hmessage).imp_left exists_mem_start
    · rw [← List.mem_singleton.mp hnew] at hheld
      cases hheld

/-- A request that is to save a new session keeps its place. -/
theorem Sound.creating_step (h : Sound ⟨s, points⟩) (hp : points[i]? = some p)
    (hstep : Advance now s p q s') : ∀ r ∈ points.set i q, ∀ session ∈ r.creates,
      s'.sessions.lookup session.id = none ∧ session.messages = [] := by
  obtain ⟨owner, hindexed⟩ := h.indexed
  have hpheld := hindexed.held p (List.mem_of_getElem? hp)
  intro r hr session hsession
  obtain ⟨j, hj⟩ := List.mem_iff_getElem?.mp hr
  rcases getElem?_step hj with ⟨hne, hold⟩ | ⟨-, rfl⟩
  · rw [hstep.lookup_of_ne (h.distinct j i r p hne hold hp session hsession)]
    exact h.creating r (List.mem_of_getElem? hold) session hsession
  · obtain ⟨hid, hmessages⟩ := hstep.creates hsession
    refine ⟨?_, hmessages⟩
    rw [hid, hstep.lookup_of_ne fun session' hsession' =>
      Nat.ne_of_lt (hpheld session' hsession').id_lt]
    cases hread : s.sessions.lookup s.nextId with
    | none => rfl
    | some e =>
      obtain ⟨hkey, howned⟩ := hindexed.stored _ e hread
      exact absurd hkey (Nat.ne_of_lt howned.id_lt)

theorem Sound.distinct_step (h : Sound ⟨s, points⟩) (hp : points[i]? = some p)
    (hstep : Advance now s p q s') : Apart Distinct (points.set i q) := by
  obtain ⟨owner, hindexed⟩ := h.indexed
  apply h.distinct.set
  intro j r hne hj
  have hr := List.mem_of_getElem? hj
  constructor
  · intro session hsession session' hsession'
    rw [(hstep.creates hsession).1]
    exact Nat.ne_of_lt (hindexed.held r hr session' hsession').id_lt
  · intro session hsession session' hsession'
    rcases hstep.held hindexed hsession' with hheld | hstored | hnew
    · exact h.distinct j i r p hne hj hp session hsession session' hheld
    · -- a session that was found is stored, and the new one is not yet
      intro heq
      rw [heq, (h.creating r hr session hsession).1] at hstored
      cases hstored
    · rw [hnew]
      exact Ne.symm (Nat.ne_of_lt (hindexed.held r hr session (held_of_creates hsession)).id_lt)

/-- The stored messages are those that were added. -/
theorem Sound.written_step (h : Sound ⟨s, points⟩) (hp : points[i]? = some p)
    (hstep : Advance now s p q s') : ∀ id e, s'.sessions.lookup id = some e →
      ∀ message ∈ e.value.messages, Added id message (points.set i q) := by
  have hmem := List.mem_of_getElem? hp
  intro id e hread message hmessage
  rw [hstep.added_iff hp]
  cases hstep with
  | @saved session counted =>
    rcases Store.eq_or_lookup_of_insert hread with ⟨-, rfl⟩ | ⟨-, hold⟩
    · have hempty := (h.creating _ hmem session rfl).2
      simp only [hempty] at hmessage
      cases hmessage
    · exact .inl (h.written id e hold message hmessage)
  | @edited session new =>
    rcases Store.eq_or_lookup_of_insert hread with ⟨rfl, rfl⟩ | ⟨-, hold⟩
    · rcases (h.copies session new hmem).messages message hmessage with hadded | rfl
      · exact .inl hadded
      · exact .inr rfl
    · exact .inl (h.written id e hold message hmessage)
  | deleted =>
    rw [Store.lookup_erase_ite] at hread
    split at hread
    · cases hread
    · exact .inl (h.written id e hread message hmessage)
  | quiet hsessions _ _ _ _ =>
    rw [hsessions] at hread
    exact .inl (h.written id e hread message hmessage)
  | _ => exact .inl (h.written id e hread message hmessage)

/-- A session that is stored stays so, or is terminated. -/
theorem stored_step (hstep : Advance now s p q s') (hp : points[i]? = some p)
    (h : (s.sessions.lookup id).isSome ∨ Terminated id points) :
    (s'.sessions.lookup id).isSome ∨ Terminated id (points.set i q) := by
  rw [hstep.terminated_iff hp]
  rcases h with hstored | hterminated
  · cases hstep with
    | saved => exact .inl (Store.isSome_insert.mpr (.inr hstored))
    | edited => exact .inl (Store.isSome_insert.mpr (.inr hstored))
    | @deleted session =>
      by_cases hid : session.id = id
      · exact .inr (.inr ⟨session, rfl, hid⟩)
      · refine .inl ?_
        rwa [Store.lookup_erase_ite, if_neg (Ne.symm hid)]
    | quiet hsessions _ _ _ _ =>
      rw [hsessions]
      exact .inl hstored
    | _ => exact .inl hstored
  · exact .inr (.inl hterminated)

/-- A changed session that is to be saved was stored when it was read. -/
theorem Sound.copies_step (h : Sound ⟨s, points⟩) (hp : points[i]? = some p)
    (hstep : Advance now s p q s') : ∀ session new, .saveEdit session new ∈ points.set i q →
      Copy session new ⟨s', points.set i q⟩ := by
  intro session new hcopy
  rcases List.mem_or_eq_of_mem_set hcopy with hold | rfl
  · -- the copies that other requests hold get out of date, but have no messages of their own
    obtain ⟨hmessages, hnew, hstored⟩ := h.copies session new hold
    refine ⟨fun message hmessage => ?_, hnew, stored_step hstep hp hstored⟩
    rw [hstep.added_iff hp]
    exact (hmessages message hmessage).imp_left .inl
  · cases hstep with
    | @read sessionId request session₀ _ _ hread happly =>
      obtain ⟨owner, hindexed⟩ := h.indexed
      obtain ⟨hid, -, hmessages⟩ := Edit.apply_spec happly
      obtain ⟨e, hlookup, rfl⟩ := getSession_eq_some hread
      have hkey := (hindexed.getSession hread).1
      refine ⟨fun message hmessage => ?_, fun message hmessage => ?_, .inl ?_⟩
      · rw [hmessages, List.mem_append, Option.mem_toList] at hmessage
        rcases hmessage with hold | hnew
        · left
          rw [hid, hkey, (Advance.read hread happly).added_iff hp]
          exact .inl (h.written _ e hlookup message hold)
        · exact .inr hnew
      · rw [hmessages, List.mem_append, Option.mem_toList]
        exact .inr hmessage
      · rw [hid, hkey, hlookup]
        rfl
    | quiet _ _ _ hheld _ => cases hheld

theorem Sound.step (h : Sound ⟨s, points⟩) (hp : points[i]? = some p)
    (hstep : Advance now s p q s') : Sound ⟨s', points.set i q⟩ := by
  obtain ⟨owner, hindexed⟩ := h.indexed
  exact ⟨hindexed.step hp hstep, h.creating_step hp hstep, h.distinct_step hp hstep,
    h.written_step hp hstep, h.copies_step hp hstep⟩

/-! ## When the messages are kept -/

section Kept

variable (hsound : Sound ⟨s, points⟩) (h : Kept ⟨s, points⟩) (hp : points[i]? = some p)

theorem Kept.start (h : Kept ⟨s, points⟩) (hp : voiceRequests.starts s p = true) :
    Kept ⟨s, points ++ [p]⟩ := by
  have hadded : p.added = none := by
    cases p <;> first | rfl | cases hp
  have hdeleted : p.deleted = none := by
    cases p <;> first | rfl | cases hp
  constructor
  · rintro id message ⟨r, hr, hmessage⟩
    rcases List.mem_append.mp hr with hold | hnew
    · exact (h.messages id message ⟨r, hold, hmessage⟩).imp_left exists_mem_start
    · rw [List.mem_singleton.mp hnew, hadded] at hmessage
      cases hmessage
  · rintro id ⟨r, hr, session, hsession, hid⟩
    rcases List.mem_append.mp hr with hold | hnew
    · exact h.terminated id ⟨r, hold, session, hsession, hid⟩
    · rw [List.mem_singleton.mp hnew, hdeleted] at hsession
      cases hsession

include h hp

/-- A step that adds no message keeps the others where it leaves the sessions or terminates them. -/
theorem Kept.of_lookup (hstep : Advance now s p q s') (hadded : q.added = none)
    (hkeep : ∀ id e, s.sessions.lookup id = some e →
      s'.sessions.lookup id = some e ∨ Terminated id (points.set i q))
    (hterminated : ∀ id, Terminated id (points.set i q) → s'.sessions.lookup id = none) :
    Kept ⟨s', points.set i q⟩ := by
  refine ⟨fun id message hmessage => ?_, hterminated⟩
  rw [hstep.added_iff hp, hadded] at hmessage
  rcases h.messages id message (hmessage.resolve_right nofun) with hgone | ⟨e, hread, hin⟩
  · exact .inl ((hstep.terminated_iff hp).mpr (.inl hgone))
  · rcases hkeep id e hread with hstill | hgone
    · exact .inr ⟨e, hstill, hin⟩
    · exact .inl hgone

/-- A step that leaves the sessions, and those that are terminated, keeps the messages. -/
theorem Kept.of_eq (hstep : Advance now s p q s') (hsessions : s'.sessions = s.sessions)
    (hadded : q.added = none) (hdeleted : q.deleted = p.deleted) :
    Kept ⟨s', points.set i q⟩ := by
  refine h.of_lookup hp hstep hadded (fun id e hread => .inl (hsessions ▸ hread)) fun id hgone => ?_
  rw [hsessions]
  rw [hstep.terminated_iff hp, hdeleted] at hgone
  rcases hgone with hold | hnew
  · exact h.terminated id hold
  · exact h.terminated id ⟨p, List.mem_of_getElem? hp, hnew⟩

theorem Kept.deleted {session : VoiceSession} (hpoint : p = .deleteSession session) :
    Kept ⟨{ s with sessions := s.sessions.erase session.id },
      points.set i (.removeUserSession session)⟩ := by
  subst hpoint
  have hstep : Advance 0 s (.deleteSession session) (.removeUserSession session) _ := .deleted
  refine h.of_lookup hp hstep rfl (fun id e hread => ?_) fun id hgone => ?_
  · by_cases hid : session.id = id
    · exact .inr ((hstep.terminated_iff hp).mpr (.inr ⟨session, rfl, hid⟩))
    · refine .inl ?_
      rw [Store.lookup_erase_ite, if_neg (Ne.symm hid)]
      exact hread
  · rw [Store.lookup_erase_ite]
    split
    · rfl
    · rename_i hid
      rcases (hstep.terminated_iff hp).mp hgone with hold | ⟨_, hsession, rfl⟩
      · exact h.terminated id hold
      · obtain rfl := Option.some.inj hsession
        exact absurd rfl hid

include hsound

/-- A new session was not terminated before it is saved. -/
theorem Kept.saved {counted : List ℕ} (hpoint : p = .saveSession session counted) :
    Kept ⟨saveSession now session s, points.set i (.addUserSession session)⟩ := by
  subst hpoint
  have hstep : Advance now s (.saveSession session counted) (.addUserSession session) _ := .saved
  have hnew := (hsound.creating _ (List.mem_of_getElem? hp) session rfl).1
  refine h.of_lookup hp hstep rfl (fun id e hread => .inl ?_) fun id hgone => ?_
  · have hne : id ≠ session.id := by
      rintro rfl
      cases hnew.symm.trans hread
    rw [lookup_saveSession, if_neg hne]
    exact hread
  · -- another request would hold the new session
    obtain ⟨r, hr, session', hdeleted, rfl⟩ :=
      ((hstep.terminated_iff hp).mp hgone).resolve_right fun ⟨_, hq, _⟩ => nomatch hq
    obtain ⟨j, hj⟩ := List.mem_iff_getElem?.mp hr
    have hji : i ≠ j := by
      rintro rfl
      obtain rfl := Option.some.inj (hp.symm.trans hj)
      cases hdeleted
    have hne := hsound.distinct i j _ r hji hp hj session rfl session' (held_of_deleted hdeleted)
    rw [lookup_saveSession, if_neg hne]
    exact h.terminated _ ⟨r, hr, session', hdeleted, rfl⟩

/-- A changed session keeps the messages exactly when it is saved over one of which it has all
messages. -/
theorem Kept.edited_iff {new : Option VoiceMessage} (hpoint : p = .saveEdit session new) :
    Kept ⟨saveSession now session s, points.set i (.edited session new)⟩ ↔
      UpToDate now next i p ⟨s, points⟩ := by
  subst hpoint
  have hstep : Advance now s (.saveEdit session new) (.edited session new) _ := .edited
  have hread : (saveSession now session s).sessions.lookup session.id =
      some ⟨session, some (now + 1000 * session.ttl)⟩ := by rw [lookup_saveSession, if_pos rfl]
  have hcopy := hsound.copies session new (List.mem_of_getElem? hp)
  have hgone : ∀ id, Terminated id (points.set i (.edited session new)) ↔ Terminated id points := by
    intro id
    rw [hstep.terminated_iff hp]
    exact or_iff_left fun ⟨_, hq, _⟩ => nomatch hq
  constructor
  · intro hafter session' hsession'
    obtain rfl : session = session' := Option.some.inj hsession'
    have halive : ¬ Terminated session.id points := by
      intro hterminated
      cases (hafter.terminated _ ((hgone _).mpr hterminated)).symm.trans hread
    -- so it is still there, and its messages, which were all added, have to be in the copy
    obtain ⟨e, he⟩ := Option.isSome_iff_exists.mp (hcopy.stored.resolve_right halive)
    refine ⟨e, he, fun message hmessage => ?_⟩
    have hadded := (hstep.added_iff hp).mpr (.inl (hsound.written _ e he message hmessage))
    rcases hafter.messages _ message hadded with hterminated | ⟨e', he', hin⟩
    · exact absurd ((hgone _).mp hterminated) halive
    · obtain rfl := Option.some.inj (hread.symm.trans he')
      exact hin
  · intro hup
    -- what is stored is in the copy, and the copy has the new message as well
    obtain ⟨e, he, hall⟩ := hup session rfl
    constructor
    · intro id message hadded
      rw [hgone]
      by_cases hid : id = session.id
      · subst hid
        refine .inr ⟨_, hread, ?_⟩
        rcases (hstep.added_iff hp).mp hadded with hold | hnew
        · rcases h.messages _ message hold with hterminated | ⟨e', he', hin⟩
          · cases (h.terminated _ hterminated).symm.trans he
          · obtain rfl := Option.some.inj (he.symm.trans he')
            exact hall message hin
        · cases new with
          | none => cases hnew
          | some message' =>
            obtain ⟨-, rfl⟩ := Prod.mk.inj (Option.some.inj hnew)
            exact hcopy.new _ rfl
      · rw [lookup_saveSession, if_neg hid]
        rcases (hstep.added_iff hp).mp hadded with hold | hnew
        · exact h.messages id message hold
        · cases new with
          | none => cases hnew
          | some message' => exact absurd (Prod.mk.inj (Option.some.inj hnew)).1.symm hid
    · intro id hterminated
      rw [hgone] at hterminated
      have hnone := h.terminated id hterminated
      have hid : id ≠ session.id := by
        rintro rfl
        cases hnone.symm.trans he
      rw [lookup_saveSession, if_neg hid]
      exact hnone

theorem Kept.step_iff (hstep : Advance now s p q s') :
    Kept ⟨s', points.set i q⟩ ↔ UpToDate now next i p ⟨s, points⟩ := by
  have hfree : p.savesEdit = none → UpToDate now next i p ⟨s, points⟩ := by
    intro hnone session hsession
    cases hnone.symm.trans hsession
  cases hstep with
  | create hheld hcounted =>
    have hsaves : p.savesEdit = none := by cases p <;> first | rfl | cases hheld
    have hdeleted : p.deleted = none := by cases p <;> first | rfl | cases hheld
    exact iff_of_true (h.of_eq hp (.create hheld hcounted) rfl rfl hdeleted.symm) (hfree hsaves)
  | saved => exact iff_of_true (h.saved hsound hp rfl) (hfree rfl)
  | read hread happly =>
    exact iff_of_true (h.of_eq hp (.read hread happly) rfl rfl rfl) (hfree rfl)
  | edited => exact h.edited_iff hsound hp rfl
  | found hread => exact iff_of_true (h.of_eq hp (.found hread) rfl rfl rfl) (hfree rfl)
  | deleted => exact iff_of_true (h.deleted hp rfl) (hfree rfl)
  | quiet hsessions hnext hpheld hqheld hdeleted =>
    have hsaves : p.savesEdit = none := by cases p <;> first | rfl | cases hpheld
    have hadded : q.added = none := by cases q <;> first | rfl | cases hqheld
    have hquiet : Advance now s p q s' := .quiet hsessions hnext hpheld hqheld hdeleted
    exact iff_of_true (h.of_eq hp hquiet hsessions hadded hdeleted) (hfree hsaves)

end Kept

/-! ## Runs -/

theorem sound_empty : Sound ⟨Redis.empty, []⟩ where
  indexed := ⟨fun _ => "", fun _ _ hread => (by simp [Redis.empty] at hread),
    fun _ hp => absurd hp List.not_mem_nil⟩
  creating _ hp := absurd hp List.not_mem_nil
  distinct := apart_nil
  written _ _ hread := by simp [Redis.empty] at hread
  copies _ _ hp := absurd hp List.not_mem_nil

theorem kept_empty : Kept ⟨Redis.empty, []⟩ where
  messages _ _ hadded := absurd hadded.choose_spec.1 List.not_mem_nil
  terminated _ hgone := absurd hgone.choose_spec.1 List.not_mem_nil

/-- **Messages.** Every message that was added is in the stored session until that is terminated,
and a session that was terminated is not stored again, throughout a run exactly when every changed
session is saved while it is stored with no messages but those that it has itself. -/
theorem messages_kept_iff {t₀ : ℕ} {w : World (Tasks Redis Point)} {log : Async.Log Redis Point ℕ}
    (h : voiceRequests.contract.Run ⟨t₀, ⟨Redis.empty, []⟩⟩ w log) :
    (Kept w.store ∧ ∀ c ∈ log, Kept c.before ∧ Kept c.after) ↔
      ∀ c ∈ log, Async.OnStep UpToDate c := by
  refine Async.invariant_iff (S := Sound) (I := Kept) (fun s points p hs hp => ?_)
    (fun t next i p q s s' points hs hp hq => ?_) h sound_empty kept_empty
  · exact ⟨hs.start hp, fun hI => hI.start hp⟩
  · have hstep := advance_of_resume hq
    exact ⟨hs.step hp hstep, fun hI => hI.step_iff hs hp hstep⟩

/-- A session is created. -/
def createOne : List (ℕ × Move Point ℕ) :=
  (0, .start (.createSession "alice")) :: List.replicate 4 (0, .resume 0 0)

/-- A message is added to the session, its state changes, and it is terminated. -/
def editThenTerminate : List (ℕ × Move Point ℕ) :=
  createOne ++ [(1, .start (.edit 0 (.addMessage "hello" true))), (1, .resume 1 0),
    (1, .resume 1 0), (2, .start (.edit 0 (.updateSessionState .listening))), (2, .resume 2 0),
    (2, .resume 2 0), (3, .start (.terminateSession 0)), (3, .resume 3 0), (3, .resume 3 0)]

theorem messages_kept_iff_sample :
    let run := voiceRequests.contract.play ⟨0, ⟨Redis.empty, []⟩⟩ editThenTerminate
    (∀ c ∈ run.2, Async.OnStep UpToDate c) ∧
      Kept run.1.store ∧ ∀ c ∈ run.2, Kept c.before ∧ Kept c.after :=
  ⟨by decide, (messages_kept_iff
    (Contract.run_play _ _ editThenTerminate (by decide))).mpr (by decide)⟩

/-- Two messages are added to the session at once. -/
def addTwo : List (ℕ × Move Point ℕ) :=
  createOne ++ [(1, .start (.edit 0 (.addMessage "hello" true))),
    (1, .start (.edit 0 (.addMessage "hi" false))), (1, .resume 1 0), (1, .resume 2 0),
    (1, .resume 1 0), (1, .resume 2 0)]

/-- The first of the two messages is lost, though the session was not terminated. -/
theorem lost_message :
    ¬ ∀ w log, voiceRequests.contract.Run ⟨0, ⟨Redis.empty, []⟩⟩ w log → Kept w.store := by
  intro hall
  have hkept := hall _ _ (Contract.run_play voiceRequests.contract ⟨0, ⟨Redis.empty, []⟩⟩ addTwo
    (by decide))
  have hlost : ∀ e ∈ (voiceRequests.contract.play ⟨0, ⟨Redis.empty, []⟩⟩
      addTwo).1.store.shared.sessions.lookup 0, ⟨1, "hello", 1, true⟩ ∉ e.value.messages := by
    decide
  rcases hkept.messages 0 ⟨1, "hello", 1, true⟩ (by decide) with hterminated | ⟨e, hread, hin⟩
  · exact absurd hterminated (by decide)
  · exact hlost e hread hin

end Stellara.Voice
