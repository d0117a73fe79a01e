import Stellara.Lib.Refinement
import Stellara.Tcr.Contract

/-!
# Listings and challenges kept apart

A registry whose listings and challenges do not share their keys does what it is for: listings keep
their applicants and deposits, only votes and time decide them, and a challenge or a vote touches
nothing else. The storage of the contract is such a registry until the first challenge, which is
stored in the place of the first listing.

## Main definitions

* `SeparateRecords`: listings and challenges in two stores
* `Lawful`: what a call may do to listings and challenges
* `Agree`: two registries with the same listings and challenges
* `Intact`, `Overwritten`: the storage of the contract before and after its first challenge

## Main results

* `lawful_of_separate`: every call of a registry with separate stores is lawful
* `intact_or_overwritten`: what the storage looks like after every run
* `refines_iff`: a run refines the separate registry exactly when nothing is challenged
-/

namespace Stellara.Tcr

/-! ## Two stores -/

/-- Listings and challenges, each under their own numbers. -/
structure SeparateRecords where
  listings : Store ℕ Listing
  challenges : Store ℕ Challenge

instance : Records SeparateRecords where
  empty := ⟨∅, ∅⟩
  getListing records id := orAbort (.panic "Listing not found") (records.listings.lookup id)
  setListing id l records := { records with listings := records.listings.insert id l }
  getChallenge records id := orAbort (.panic "Challenge not found") (records.challenges.lookup id)
  setChallenge id c records := { records with challenges := records.challenges.insert id c }

namespace State

variable {σ : Type} [Records σ]

/-- The listing with a number, as the entry points read it. -/
def listing? (s : State σ) (id : ℕ) : Option Listing := (Records.getListing s.records id).toOption

/-- The challenge with a number, as the entry points read it. -/
def challenge? (s : State σ) (id : ℕ) : Option Challenge :=
  (Records.getChallenge s.records id).toOption

theorem getListing_eq_ok {s : State σ} {id : ℕ} {l : Listing} :
    Records.getListing s.records id = .ok l ↔ s.listing? id = some l := by
  unfold listing?
  cases Records.getListing s.records id <;> simp [Except.toOption]

theorem getChallenge_eq_ok {s : State σ} {id : ℕ} {c : Challenge} :
    Records.getChallenge s.records id = .ok c ↔ s.challenge? id = some c := by
  unfold challenge?
  cases Records.getChallenge s.records id <;> simp [Except.toOption]

end State

/-! ## The laws -/

/-- How the status of the listing `id` may change: a pending listing may be challenged, or approved
after its expiry, and a challenged one is decided by the votes on its challenge after their end. -/
def Moved (now id : ℕ) (challenge? : ℕ → Option Challenge) (l l' : Listing) : Prop :=
  l'.status = l.status ∨
  (l.status = .pending ∧ l'.status = .challenged) ∨
  (l.status = .pending ∧ l.expiry ≤ now ∧ l'.status = .approved) ∨
  (l.status = .challenged ∧ ∃ c, challenge? l.challengeId = some c ∧ c.listingId = id ∧
    c.endTime ≤ now ∧
    l'.status = if c.votesAgainst < c.votesFor then .approved else .rejected)

variable {σ : Type} [Records σ]

/-- What a call leaves of the listings and the challenges. -/
structure Lawful (c : Commit (State σ) Call (Option ℕ)) : Prop where
  kept : ∀ id l, c.before.listing? id = some l → ∃ l', c.after.listing? id = some l' ∧
    l'.applicant = l.applicant ∧ l'.deposit = l.deposit ∧
    Moved c.time id c.before.challenge? l l'
  challenged : ∀ challenger listingId deposit, c.call = .challenge challenger listingId deposit →
    (∀ id ≠ listingId, c.after.listing? id = c.before.listing? id) ∧
    ∀ id ch, c.before.challenge? id = some ch → c.after.challenge? id = some ch
  voted : ∀ voter challengeId side amount, c.call = .vote voter challengeId side amount →
    (∀ id, c.after.listing? id = c.before.listing? id) ∧
    ∀ id ≠ challengeId, c.after.challenge? id = c.before.challenge? id

/-! ## The separate registry -/

section Separate

variable {a a' : State SeparateRecords} {c : Commit (State SeparateRecords) Call (Option ℕ)}

theorem listing?_separate {id : ℕ} : a.listing? id = a.records.listings.lookup id := by
  unfold State.listing?
  simp only [Records.getListing]
  cases a.records.listings.lookup id <;> rfl

theorem challenge?_separate {id : ℕ} : a.challenge? id = a.records.challenges.lookup id := by
  unfold State.challenge?
  simp only [Records.getChallenge]
  cases a.records.challenges.lookup id <;> rfl

/-- Listings and challenges have the numbers up to their counts, and a challenged listing has a
challenge. -/
structure Numbered (a : State SeparateRecords) : Prop where
  listing_iff : ∀ id, (a.records.listings.lookup id).isSome ↔ 1 ≤ id ∧ id ≤ a.listingCount
  challenge_iff : ∀ id, (a.records.challenges.lookup id).isSome ↔ 1 ≤ id ∧ id ≤ a.challengeCount
  linked : ∀ id l, a.records.listings.lookup id = some l → l.status = .challenged →
    ∃ c, a.records.challenges.lookup l.challengeId = some c ∧ c.listingId = id

theorem numbered_empty : Numbered State.empty where
  listing_iff id := by simp [State.empty, Records.empty]; omega
  challenge_iff id := by simp [State.empty, Records.empty]; omega
  linked id l h := by simp [State.empty, Records.empty] at h

/-- What the calls may do to listings: keep their applicants and deposits and move their
statuses. -/
def Kept (now : ℕ) (a a' : State SeparateRecords) : Prop :=
  ∀ id l, a.records.listings.lookup id = some l →
    ∃ l', a'.records.listings.lookup id = some l' ∧ l'.applicant = l.applicant ∧
      l'.deposit = l.deposit ∧ Moved now id a.challenge? l l'

theorem kept_of_eq {now : ℕ} (h : a'.records.listings = a.records.listings) : Kept now a a' :=
  fun _ l hl => ⟨l, h ▸ hl, rfl, rfl, .inl rfl⟩

/-- A new listing keeps the old ones. -/
theorem kept_of_new {now id : ℕ} {l : Listing} (hfresh : a.records.listings.lookup id = none)
    (h : a'.records.listings = a.records.listings.insert id l) : Kept now a a' := by
  intro id' l' hl'
  refine ⟨l', ?_, rfl, rfl, .inl rfl⟩
  rw [h, Store.lookup_insert_ite, if_neg fun heq => ?_, hl']
  rw [heq, hfresh] at hl'
  cases hl'

/-- A listing that moves keeps the others. -/
theorem kept_of_moved {now id challengeId : ℕ} {l : Listing} {status : ListingStatus}
    (hl : a.records.listings.lookup id = some l)
    (hmoved : Moved now id a.challenge? l { l with status := status, challengeId := challengeId })
    (h : a'.records.listings =
      a.records.listings.insert id { l with status := status, challengeId := challengeId }) :
    Kept now a a' := by
  intro id' l' hl'
  rw [h, Store.lookup_insert_ite]
  by_cases hid : id' = id
  · subst hid
    obtain rfl := Option.some.inj (hl.symm.trans hl')
    exact ⟨_, if_pos rfl, rfl, rfl, hmoved⟩
  · exact ⟨l', (if_neg hid).trans hl', rfl, rfl, .inl rfl⟩

/-- An entry point keeps the numbers and is lawful. -/
theorem Numbered.apply (h : Numbered a) {now id : ℕ} {applicant : Address} {deposit : ℤ}
    {metadata : Symbol} (he : Tcr.apply now applicant deposit metadata a = .ok (id, a')) :
    Numbered a' ∧ Kept now a a' := by
  obtain ⟨-, rfl⟩ := apply_eq_ok.mp he
  have hfresh := Store.lookup_next h.listing_iff
  refine ⟨⟨Store.isSome_insert_next h.listing_iff _, h.challenge_iff, fun id' l hl hstatus => ?_⟩,
    kept_of_new hfresh rfl⟩
  rcases Store.eq_or_lookup_of_insert hl with ⟨-, rfl⟩ | ⟨-, hl⟩
  · cases hstatus
  · exact h.linked id' l hl hstatus

theorem Numbered.challenge (h : Numbered a) {now id listingId : ℕ} {challenger : Address}
    {deposit : ℤ} (he : Tcr.challenge now challenger listingId deposit a = .ok (id, a')) :
    Numbered a' ∧ Kept now a a' ∧
      (∀ id ≠ listingId, a'.records.listings.lookup id = a.records.listings.lookup id) ∧
      ∀ id ch, a.records.challenges.lookup id = some ch →
        a'.records.challenges.lookup id = some ch := by
  obtain ⟨l, hl, hstatus, rfl⟩ := challenge_eq_ok he
  have hlookup : a.records.listings.lookup listingId = some l := orAbort_eq_ok.mp hl
  have hfresh := Store.lookup_next h.challenge_iff
  have hold : ∀ id ch, a.records.challenges.lookup id = some ch → id ≠ a.challengeCount + 1 := by
    intro id ch hch heq
    rw [heq, hfresh] at hch
    cases hch
  refine ⟨⟨fun id' => ?_, Store.isSome_insert_next h.challenge_iff _,
      fun id' l' hl' hchallenged => ?_⟩,
    kept_of_moved hlookup (.inr (.inl ⟨hstatus, rfl⟩)) rfl, fun id' hid => ?_, fun id' ch hch => ?_⟩
  · exact (Store.isSome_insert_of_lookup hlookup).trans (h.listing_iff id')
  · rcases Store.eq_or_lookup_of_insert hl' with ⟨rfl, rfl⟩ | ⟨-, hl'⟩
    · exact ⟨_, AList.lookup_insert _, rfl⟩
    · obtain ⟨c, hc, hlink⟩ := h.linked id' l' hl' hchallenged
      exact ⟨c, (Store.lookup_insert_ite _ _ _ _).trans ((if_neg (hold _ _ hc)).trans hc), hlink⟩
  · exact (Store.lookup_insert_ite _ _ _ _).trans (if_neg hid)
  · exact (Store.lookup_insert_ite _ _ _ _).trans ((if_neg (hold _ _ hch)).trans hch)

/-- A challenge that is overwritten by one of the same listing stays the challenge of its
listing. -/
theorem Numbered.overwrite (h : Numbered a) {id : ℕ} {c : Challenge} (c' : Challenge)
    (hc : a.records.challenges.lookup id = some c) (hlisting : c'.listingId = c.listingId) :
    ∀ id' l, a.records.listings.lookup id' = some l → l.status = .challenged →
      ∃ ch, (a.records.challenges.insert id c').lookup l.challengeId = some ch ∧
        ch.listingId = id' := by
  intro id' l hl hstatus
  obtain ⟨ch, hch, hlink⟩ := h.linked id' l hl hstatus
  rw [Store.lookup_insert_ite]
  split
  · rename_i heq
    rw [heq] at hch
    obtain rfl := Option.some.inj (hc.symm.trans hch)
    exact ⟨c', rfl, hlisting.trans hlink⟩
  · exact ⟨ch, hch, hlink⟩

theorem Numbered.vote (h : Numbered a) {now challengeId : ℕ} {voter : Address} {side : Bool}
    {amount : ℤ} (he : Tcr.vote now voter challengeId side amount a = .ok a') :
    Numbered a' ∧ a'.records.listings = a.records.listings ∧
      ∀ id ≠ challengeId, a'.records.challenges.lookup id = a.records.challenges.lookup id := by
  obtain ⟨c, c', hc, hlisting, stakes, events, rfl⟩ := vote_eq_ok he
  have hlookup : a.records.challenges.lookup challengeId = some c := orAbort_eq_ok.mp hc
  exact ⟨⟨h.listing_iff,
    fun id => (Store.isSome_insert_of_lookup hlookup).trans (h.challenge_iff id),
    h.overwrite c' hlookup hlisting⟩, rfl,
    fun id hid => (Store.lookup_insert_ite _ _ _ _).trans (if_neg hid)⟩

/-- A settled listing is not challenged. -/
theorem settled_ne {accepted : Bool} :
    (if accepted then ListingStatus.approved else .rejected) ≠ .challenged := by
  cases accepted <;> decide

theorem Numbered.resolve (h : Numbered a) {now listingId : ℕ}
    (he : Tcr.resolve now listingId a = .ok a') : Numbered a' ∧ Kept now a a' := by
  obtain ⟨l, hl, ⟨hstatus, c, hc, hend, -, rfl⟩ | ⟨hstatus, hexpiry, rfl⟩ | ⟨-, rfl⟩⟩ :=
    resolve_eq_ok.mp he
  · have hlookup : a.records.listings.lookup listingId = some l := orAbort_eq_ok.mp hl
    have hcl : a.records.challenges.lookup l.challengeId = some c := orAbort_eq_ok.mp hc
    have hlink : c.listingId = listingId := by
      obtain ⟨c', hc', hlink⟩ := h.linked listingId l hlookup hstatus
      rwa [← Option.some.inj (hcl.symm.trans hc')] at hlink
    refine ⟨⟨fun id => (Store.isSome_insert_of_lookup hlookup).trans (h.listing_iff id),
      fun id => (Store.isSome_insert_of_lookup hcl).trans (h.challenge_iff id),
      fun id' l' hl' hch => ?_⟩,
      kept_of_moved hlookup (.inr (.inr (.inr ⟨hstatus, c, ?_, hlink, hend, ?_⟩))) rfl⟩
    · rcases Store.eq_or_lookup_of_insert hl' with ⟨-, rfl⟩ | ⟨-, hl'⟩
      · exact absurd hch settled_ne
      · exact h.overwrite { c with resolved := true } hcl rfl id' l' hl' hch
    · rw [challenge?_separate, hcl]
    · simp
  · have hlookup : a.records.listings.lookup listingId = some l := orAbort_eq_ok.mp hl
    refine ⟨⟨fun id => (Store.isSome_insert_of_lookup hlookup).trans (h.listing_iff id),
      h.challenge_iff, fun id' l' hl' hch => ?_⟩,
      kept_of_moved hlookup (.inr (.inr (.inl ⟨hstatus, hexpiry, rfl⟩))) rfl⟩
    rcases Store.eq_or_lookup_of_insert hl' with ⟨-, rfl⟩ | ⟨-, hl'⟩
    · cases hch
    · exact h.linked id' l' hl' hch
  · exact ⟨h, kept_of_eq rfl⟩

/-- Every call of the separate registry is lawful, and keeps its numbers. -/
theorem Numbered.execute (h : Numbered c.before)
    (he : (contract SeparateRecords).exec c.time c.call c.before = .ok (c.result, c.after)) :
    Numbered c.after ∧ Lawful c := by
  obtain ⟨time, call, result, a, a'⟩ := c
  have he : Tcr.execute time a call = .ok (result, a') := he
  -- the laws are about the two stores
  have hlawful : Kept time a a' → (∀ challenger listingId deposit,
      call = .challenge challenger listingId deposit → _) → _ → Lawful ⟨time, call, result, a, a'⟩ :=
    fun hkept hchallenged hvoted => ⟨fun id l hl => by
      rw [listing?_separate] at hl
      obtain ⟨l', hl', hrest⟩ := hkept id l hl
      exact ⟨l', listing?_separate.trans hl', hrest⟩, hchallenged, hvoted⟩
  cases execute_eq_ok.mp he with
  | apply h₁ =>
    obtain ⟨hnumbered, hkept⟩ := h.apply h₁
    exact ⟨hnumbered, hlawful hkept (by simp) (by simp)⟩
  | challenge h₁ =>
    obtain ⟨hnumbered, hkept, hlistings, hchallenges⟩ := h.challenge h₁
    refine ⟨hnumbered, hlawful hkept (fun _ listingId' _ heq => ?_) (by simp)⟩
    obtain ⟨-, rfl, -⟩ := Call.challenge.inj heq
    simp only [listing?_separate, challenge?_separate]
    exact ⟨hlistings, hchallenges⟩
  | vote h₁ =>
    obtain ⟨hnumbered, hlistings, hchallenges⟩ := h.vote h₁
    refine ⟨hnumbered, hlawful (kept_of_eq hlistings) (by simp) fun _ challengeId' _ _ heq => ?_⟩
    obtain ⟨-, rfl, -⟩ := Call.vote.inj heq
    simp only [listing?_separate, challenge?_separate]
    exact ⟨fun id => by rw [hlistings], hchallenges⟩
  | resolve h₁ =>
    obtain ⟨hnumbered, hkept⟩ := h.resolve h₁
    exact ⟨hnumbered, hlawful hkept (by simp) (by simp)⟩

end Separate

/-! ## The storage of the contract -/

variable {s s' : State RawRecords} {a a' : State SeparateRecords}
  {c : Commit (State RawRecords) Call (Option ℕ)}

/-- A state of the contract and one of the separate registry with the same listings and challenges,
and otherwise the same. -/
structure Agree (s : State RawRecords) (a : State SeparateRecords) : Prop where
  listings : ∀ id, s.listing? id = a.listing? id
  challenges : ∀ id, s.challenge? id = a.challenge? id
  listingCount : s.listingCount = a.listingCount
  challengeCount : s.challengeCount = a.challengeCount
  stakes : s.stakes = a.stakes
  events : s.events = a.events

/-- Only listings are stored, under the numbers up to their count. -/
structure Intact (s : State RawRecords) : Prop where
  listing : ∀ id r, s.records.lookup id = some r → ∃ l, r = .listing l
  le_count : ∀ id r, s.records.lookup id = some r → 1 ≤ id ∧ id ≤ s.listingCount
  challengeCount : s.challengeCount = 0

/-- A challenge is stored in the place of the first listing. -/
structure Overwritten (s : State RawRecords) : Prop where
  first : ∃ ch, s.records.lookup 1 = some (.challenge ch)
  count_pos : 1 ≤ s.listingCount

theorem getListing_raw {id : ℕ} {l : Listing} :
    (Records.getListing s.records id : Returns Listing) = .ok l ↔
      s.records.lookup id = some (.listing l) := by
  simp only [Records.getListing, RawRecords.getListing]
  split <;> simp_all

theorem getChallenge_raw {id : ℕ} {ch : Challenge} :
    (Records.getChallenge s.records id : Returns Challenge) = .ok ch ↔
      s.records.lookup id = some (.challenge ch) := by
  simp only [Records.getChallenge, RawRecords.getChallenge]
  split <;> simp_all

/-- Where only listings are stored, no challenge can be read. -/
theorem Intact.getChallenge_ne (h : Intact s) {id : ℕ} {ch : Challenge} :
    (Records.getChallenge s.records id : Returns Challenge) ≠ .ok ch := by
  intro hch
  obtain ⟨l, hl⟩ := h.listing id _ (getChallenge_raw.mp hch)
  cases hl

/-- A call that challenges. -/
def Call.Challenges : Call → Prop
  | .challenge _ _ _ => True
  | _ => False

/-- A listing that is overwritten by a listing leaves the storage intact. -/
theorem Intact.setListing (h : Intact s) {id : ℕ} {l l' : Listing} {events : List Event}
    (hl : s.records.lookup id = some (.listing l)) :
    Intact { s with records := s.records.insert id (.listing l'), events := events } where
  listing id' r hr := by
    rcases Store.eq_or_lookup_of_insert hr with ⟨-, rfl⟩ | ⟨-, hr⟩
    · exact ⟨l', rfl⟩
    · exact h.listing id' r hr
  le_count id' r hr := by
    rcases Store.eq_or_lookup_of_insert hr with ⟨rfl, -⟩ | ⟨-, hr⟩
    · exact h.le_count id' _ hl
    · exact h.le_count id' r hr
  challengeCount := h.challengeCount

/-- An intact storage stays intact until the first challenge, which overwrites the first listing. -/
theorem Intact.execute (h : Intact c.before)
    (he : (contract RawRecords).exec c.time c.call c.before = .ok (c.result, c.after)) :
    (c.call.Challenges ∧ Overwritten c.after) ∨ (¬ c.call.Challenges ∧ Intact c.after) := by
  obtain ⟨time, call, result, s, s'⟩ := c
  have he : Tcr.execute time s call = .ok (result, s') := he
  cases execute_eq_ok.mp he with
  | apply h₁ =>
    obtain ⟨-, rfl⟩ := apply_eq_ok.mp h₁
    refine .inr ⟨not_false, fun id' r hr => ?_, fun id' r hr => ?_, h.challengeCount⟩
    · rcases Store.eq_or_lookup_of_insert hr with ⟨-, rfl⟩ | ⟨-, hr⟩
      · exact ⟨_, rfl⟩
      · exact h.listing id' r hr
    · rcases Store.eq_or_lookup_of_insert hr with ⟨rfl, -⟩ | ⟨-, hr⟩
      · exact ⟨Nat.le_add_left 1 _, le_rfl⟩
      · exact (h.le_count id' r hr).imp_right Nat.le_succ_of_le
  | challenge h₁ =>
    obtain ⟨l, hl, -, rfl⟩ := challenge_eq_ok h₁
    have hcount := h.le_count _ _ (getListing_raw.mp hl)
    -- the first challenge has the number of the first listing
    have hfirst : ∀ (records : RawRecords) r,
        (records.insert (s.challengeCount + 1) r).lookup 1 = some r := fun records r => by
      rw [Store.lookup_insert_ite, if_pos (by rw [h.challengeCount])]
    exact .inl ⟨trivial, ⟨_, hfirst _ _⟩, hcount.1.trans hcount.2⟩
  | vote h₁ =>
    obtain ⟨ch, _, hch, -⟩ := vote_eq_ok h₁
    exact absurd hch h.getChallenge_ne
  | resolve h₁ =>
    obtain ⟨l, hl, ⟨-, ch, hch, -⟩ | ⟨-, -, rfl⟩ | ⟨-, rfl⟩⟩ := resolve_eq_ok.mp h₁
    · exact absurd hch h.getChallenge_ne
    · exact .inr ⟨not_false, h.setListing (getListing_raw.mp hl)⟩
    · exact .inr ⟨not_false, h⟩

/-- Once the first listing is overwritten, it stays so: the entry points write a listing only over
a listing or under a new number. -/
theorem Overwritten.execute (h : Overwritten c.before)
    (he : (contract RawRecords).exec c.time c.call c.before = .ok (c.result, c.after)) :
    Overwritten c.after := by
  obtain ⟨time, call, result, s, s'⟩ := c
  have he : Tcr.execute time s call = .ok (result, s') := he
  obtain ⟨⟨ch₁, hfirst⟩, hcount⟩ := h
  have hne : ∀ id l, (Records.getListing s.records id : Returns Listing) = .ok l → 1 ≠ id := by
    rintro id l hl rfl
    have hlisting := getListing_raw.mp hl
    rw [hfirst] at hlisting
    cases hlisting
  have hset : ∀ (records : RawRecords) id ch, (∃ ch₁, records.lookup 1 = some (.challenge ch₁)) →
      ∃ ch₁, (records.insert id (.challenge ch)).lookup 1 = some (.challenge ch₁) := by
    rintro records id ch ⟨ch₁, h₁⟩
    rw [Store.lookup_insert_ite]
    split
    · exact ⟨ch, rfl⟩
    · exact ⟨ch₁, h₁⟩
  cases execute_eq_ok.mp he with
  | apply h₁ =>
    obtain ⟨-, rfl⟩ := apply_eq_ok.mp h₁
    have hnew : 1 ≠ s.listingCount + 1 := by
      have : 1 ≤ s.listingCount := hcount
      omega
    exact ⟨⟨ch₁, (Store.lookup_insert_ite _ _ _ _).trans ((if_neg hnew).trans hfirst)⟩,
      Nat.le_succ_of_le hcount⟩
  | challenge h₁ =>
    obtain ⟨l, hl, -, rfl⟩ := challenge_eq_ok h₁
    exact ⟨hset _ _ _ ⟨ch₁, (Store.lookup_insert_ite _ _ _ _).trans
      ((if_neg (hne _ _ hl)).trans hfirst)⟩, hcount⟩
  | vote h₁ =>
    obtain ⟨ch, ch', -, -, stakes, events, rfl⟩ := vote_eq_ok h₁
    exact ⟨hset _ _ _ ⟨ch₁, hfirst⟩, hcount⟩
  | resolve h₁ =>
    obtain ⟨l, hl, ⟨-, ch, hch, -, -, rfl⟩ | ⟨-, -, rfl⟩ | ⟨-, rfl⟩⟩ := resolve_eq_ok.mp h₁
    · obtain ⟨ch₂, h₂⟩ := hset s.records l.challengeId { ch with resolved := true } ⟨ch₁, hfirst⟩
      exact ⟨⟨ch₂, (Store.lookup_insert_ite _ _ _ _).trans ((if_neg (hne _ _ hl)).trans h₂)⟩, hcount⟩
    · exact ⟨⟨ch₁, (Store.lookup_insert_ite _ _ _ _).trans ((if_neg (hne _ _ hl)).trans hfirst)⟩,
        hcount⟩
    · exact ⟨⟨ch₁, hfirst⟩, hcount⟩

/-- An overwritten storage agrees with no separate registry, which has its first listing. -/
theorem Overwritten.not_agree (h : Overwritten s) (ha : Numbered a) : ¬ Agree s a := by
  intro hagree
  obtain ⟨⟨ch, hfirst⟩, hcount⟩ := h
  have hsome : (a.records.listings.lookup 1).isSome :=
    (ha.listing_iff 1).mpr ⟨le_rfl, hagree.listingCount ▸ hcount⟩
  obtain ⟨l, hl⟩ := Option.isSome_iff_exists.mp hsome
  have hread := hagree.listings 1
  rw [listing?_separate, hl, ← State.getListing_eq_ok, getListing_raw, hfirst] at hread
  cases hread

/-- Where only listings are stored, no challenge is read. -/
theorem Intact.challenge?_eq_none (h : Intact s) {id : ℕ} : s.challenge? id = none := by
  refine Option.eq_none_iff_forall_ne_some.mpr fun ch hch => ?_
  exact h.getChallenge_ne (State.getChallenge_eq_ok.mpr hch)

/-- Registries that store the same listing still agree, while no challenge is stored. -/
theorem Agree.setListing (h : Agree s a) (hs : Intact s) (hs' : Intact s') {id : ℕ} {l : Listing}
    (hrecords : s'.records = s.records.insert id (.listing l))
    (hlistings : a'.records.listings = a.records.listings.insert id l)
    (hchallenges : a'.records.challenges = a.records.challenges)
    (hcount : s'.listingCount = a'.listingCount) (hchallenge : s'.challengeCount = a'.challengeCount)
    (hstakes : s'.stakes = a'.stakes) (hevents : s'.events = a'.events) : Agree s' a' where
  listings id' := by
    have hold := h.listings id'
    rw [listing?_separate] at hold
    rw [listing?_separate, hlistings, Store.lookup_insert_ite, ← hold]
    unfold State.listing?
    simp only [Records.getListing, RawRecords.getListing, hrecords, Store.lookup_insert_ite]
    by_cases hid : id' = id
    · rw [if_pos hid, if_pos hid]
      rfl
    · rw [if_neg hid, if_neg hid]
  challenges id' := by
    have hold := h.challenges id'
    rw [hs.challenge?_eq_none, challenge?_separate] at hold
    rw [hs'.challenge?_eq_none, challenge?_separate, hchallenges, hold]
  listingCount := hcount
  challengeCount := hchallenge
  stakes := hstakes
  events := hevents

/-- While no challenge is stored, the separate registry answers every call that does not challenge
as the contract does. -/
theorem Agree.execute (h : Agree c.before a) (hs : Intact c.before)
    (hcall : ¬ c.call.Challenges)
    (he : (contract RawRecords).exec c.time c.call c.before = .ok (c.result, c.after)) :
    ∃ a', (contract SeparateRecords).exec c.time c.call a = .ok (c.result, a') ∧
      Agree c.after a' ∧ Intact c.after := by
  have hs' : Intact c.after := by
    rcases hs.execute he with ⟨hchallenges, -⟩ | ⟨-, hs'⟩
    · exact absurd hchallenges hcall
    · exact hs'
  obtain ⟨time, call, result, s, s'⟩ := c
  have he : Tcr.execute time s call = .ok (result, s') := he
  have hget : ∀ id l, (Records.getListing s.records id : Returns Listing) = .ok l →
      (Records.getListing a.records id : Returns Listing) = .ok l := fun id l hl => by
    rw [State.getListing_eq_ok] at hl ⊢
    rwa [← h.listings]
  cases execute_eq_ok.mp he with
  | @apply applicant deposit metadata _ _ h₁ =>
    obtain ⟨⟨rfl, hcount, hexpiry⟩, rfl⟩ := apply_eq_ok.mp h₁
    have ha : Tcr.apply time applicant deposit metadata a = .ok (s.listingCount + 1, _) :=
      apply_eq_ok.mpr ⟨⟨congrArg (· + 1) h.listingCount, h.listingCount ▸ hcount, hexpiry⟩, rfl⟩
    have hexec := execute_eq_ok.mpr (Step.apply ha)
    refine ⟨_, hexec, h.setListing hs hs' rfl ?_ rfl
      (congrArg (· + 1) h.listingCount) h.challengeCount h.stakes ?_, hs'⟩
    · rw [← h.listingCount]
      rfl
    · rw [← h.listingCount, h.events]
  | challenge h₁ => exact absurd trivial hcall
  | vote h₁ =>
    obtain ⟨ch, _, hch, -⟩ := vote_eq_ok h₁
    exact absurd hch hs.getChallenge_ne
  | @resolve listingId _ h₁ =>
    obtain ⟨l, hl, ⟨-, ch, hch, -⟩ | ⟨hstatus, hexpiry, rfl⟩ | ⟨hstatus, rfl⟩⟩ := resolve_eq_ok.mp h₁
    · exact absurd hch hs.getChallenge_ne
    · have ha : Tcr.resolve time listingId a = .ok (settle time listingId l true a) :=
        resolve_eq_ok.mpr ⟨l, hget _ _ hl, .inr (.inl ⟨hstatus, hexpiry, rfl⟩)⟩
      exact ⟨_, execute_eq_ok.mpr (.resolve ha), h.setListing hs hs' rfl rfl rfl h.listingCount
        h.challengeCount h.stakes (congrArg (· ++ _) h.events), hs'⟩
    · have ha : Tcr.resolve time listingId a = .ok a :=
        resolve_eq_ok.mpr ⟨l, hget _ _ hl, .inr (.inr ⟨hstatus, rfl⟩)⟩
      exact ⟨a, execute_eq_ok.mpr (.resolve ha), h, hs'⟩

/-- A commit that matches a lawful one is lawful. -/
theorem Lawful.of_matches {d : Commit (State SeparateRecords) Call (Option ℕ)} (h : Lawful d)
    (hmatch : Commit.Matches Agree c d) : Lawful c := by
  have hbefore : c.before.listing? = d.before.listing? := funext hmatch.before.listings
  have hafter : c.after.listing? = d.after.listing? := funext hmatch.after.listings
  have hbefore' : c.before.challenge? = d.before.challenge? := funext hmatch.before.challenges
  have hafter' : c.after.challenge? = d.after.challenge? := funext hmatch.after.challenges
  obtain ⟨hkept, hchallenged, hvoted⟩ := h
  rw [hmatch.time] at hkept
  rw [hmatch.call] at hchallenged hvoted
  constructor <;> rw [hbefore, hafter]
  · rwa [hbefore']
  · rwa [hbefore', hafter']
  · rwa [hbefore', hafter']

/-! ## Runs -/

variable {time₀ : ℕ}

section SeparateRuns

variable {w : World (State SeparateRecords)}
  {log : List (Commit (State SeparateRecords) Call (Option ℕ))}

theorem numbered_of_run (hrun : (contract SeparateRecords).Run ⟨time₀, .empty⟩ w log) :
    Numbered w.store :=
  hrun.invariant (fun t k r a a' ha he => (Numbered.execute (c := ⟨t, k, r, a, a'⟩) ha he).1)
    numbered_empty

/-- Every call of a run of the separate registry is lawful. -/
theorem lawful_of_separate (hrun : (contract SeparateRecords).Run ⟨time₀, .empty⟩ w log) :
    ∀ c ∈ log, Lawful c :=
  (hrun.invariant_and_mem (I := fun _ a _ => Numbered a) (P := Lawful) numbered_empty
    (fun _ _ _ _ _ h => h)
    fun t k r a a' _ ha he => Numbered.execute (c := ⟨t, k, r, a, a'⟩) ha he).2

end SeparateRuns

variable {w : World (State RawRecords)} {log : List (Commit (State RawRecords) Call (Option ℕ))}

theorem intact_empty : Intact State.empty where
  listing id r h := by simp [State.empty, Records.empty] at h
  le_count id r h := by simp [State.empty, Records.empty] at h
  challengeCount := rfl

theorem agree_empty : Agree State.empty State.empty :=
  ⟨fun _ => rfl, fun _ => rfl, rfl, rfl, rfl, rfl⟩

/-- The storage is intact after a run without a challenge, and overwritten after any other run. -/
theorem intact_or_overwritten (hrun : (contract RawRecords).Run ⟨time₀, .empty⟩ w log) :
    ((∀ c ∈ log, ¬ c.call.Challenges) ∧ Intact w.store) ∨
      ((∃ c ∈ log, c.call.Challenges) ∧ Overwritten w.store) := by
  refine hrun.invariant_log (I := fun _ s log => ((∀ c ∈ log, ¬ c.call.Challenges) ∧ Intact s) ∨
    ((∃ c ∈ log, c.call.Challenges) ∧ Overwritten s)) (.inl ⟨by simp, intact_empty⟩)
    (fun t t' s log _ h => ?_) (fun t k r s s' log ih he => ?_)
  · exact h
  rcases ih with ⟨hcalm, hs⟩ | ⟨⟨c, hc, hchallenges⟩, hs⟩
  · rcases hs.execute (c := ⟨t, k, r, s, s'⟩) he with ⟨hchallenges, hs'⟩ | ⟨hother, hs'⟩
    · exact .inr ⟨⟨_, List.mem_append_right _ List.mem_cons_self, hchallenges⟩, hs'⟩
    · refine .inl ⟨fun c hc => ?_, hs'⟩
      rcases List.mem_append.mp hc with hc | hc
      · exact hcalm c hc
      · exact List.mem_singleton.mp hc ▸ hother
  · exact .inr ⟨⟨c, List.mem_append_left _ hc, hchallenges⟩,
      hs.execute (c := ⟨t, k, r, s, s'⟩) he⟩

/-- A run refines the separate registry, and its calls are lawful, exactly when none of its
committed calls challenges a listing. -/
theorem refines_iff (hrun : (contract RawRecords).Run ⟨time₀, .empty⟩ w log) :
    ((contract SeparateRecords).Refines Agree ⟨time₀, .empty⟩ w.store log ∧
        ∀ c ∈ log, Lawful c) ↔
      ∀ c ∈ log, ¬ c.call.Challenges := by
  constructor
  · rintro ⟨⟨d, log', hrun', hagree, -⟩, -⟩
    rcases intact_or_overwritten hrun with ⟨hcalm, -⟩ | ⟨-, hover⟩
    · exact hcalm
    · exact absurd hagree (hover.not_agree (numbered_of_run hrun'))
  · intro hcalm
    have hrefines : (contract SeparateRecords).Refines (fun s a => Agree s a ∧ Intact s)
        ⟨time₀, .empty⟩ w.store log :=
      hrun.refines (G := fun c => ¬ c.call.Challenges)
        (fun c a hcall h he => (h.1.execute h.2 hcall he)) le_rfl ⟨agree_empty, intact_empty⟩ hcalm
    have hagree : (contract SeparateRecords).Refines Agree ⟨time₀, .empty⟩ w.store log :=
      hrefines.mono fun _ _ h => h.1
    refine ⟨hagree, fun c hc => ?_⟩
    obtain ⟨d, log', hrun', -, hmatch⟩ := hagree.exists_of_mem
    obtain ⟨c', hc', hm⟩ := hmatch c hc
    exact (lawful_of_separate hrun' c' hc').of_matches hm

/-- Two applications, and the approval of one of them after its expiry. -/
def approvedCalls : List (ℕ × Call) :=
  [(1, .apply ⟨1⟩ 100 "a"), (2, .apply ⟨2⟩ 100 "b"), (604801, .resolve 1)]

theorem refines_iff_sample :
    ((contract SeparateRecords).Refines Agree ⟨0, .empty⟩
          ((contract RawRecords).play ⟨0, .empty⟩ approvedCalls).1.store
          ((contract RawRecords).play ⟨0, .empty⟩ approvedCalls).2 ∧
        ∀ c ∈ ((contract RawRecords).play ⟨0, .empty⟩ approvedCalls).2, Lawful c) ↔
      ∀ c ∈ ((contract RawRecords).play ⟨0, .empty⟩ approvedCalls).2, ¬ c.call.Challenges :=
  refines_iff (Contract.run_play _ _ approvedCalls (by decide))

/-- A challenge of the second of two listings. -/
def challengedCalls : List (ℕ × Call) :=
  [(1, .apply ⟨1⟩ 100 "a"), (2, .apply ⟨2⟩ 100 "b"), (3, .challenge ⟨3⟩ 2 100)]

/-- The challenge takes the place of the first listing, which nobody challenged. -/
theorem lost_listing :
    ∃ w log, (contract RawRecords).Run ⟨0, .empty⟩ w log ∧ (∃ c ∈ log, ¬ Lawful c) ∧
      ¬ ((contract SeparateRecords).Refines Agree ⟨0, .empty⟩ w.store log ∧ ∀ c ∈ log, Lawful c) := by
  obtain ⟨c, hc⟩ : ∃ c, ((contract RawRecords).play ⟨0, .empty⟩ challengedCalls).2[2]? = some c :=
    ⟨_, rfl⟩
  have hunlawful : ¬ Lawful c := by
    obtain rfl := Option.some.inj hc
    intro h
    exact absurd ((h.challenged _ _ _ rfl).1 1 (by decide)) (by decide)
  exact ⟨_, _, Contract.run_play _ _ challengedCalls (by decide),
    ⟨c, List.mem_of_getElem? hc, hunlawful⟩, fun h => hunlawful (h.2 c (List.mem_of_getElem? hc))⟩

end Stellara.Tcr
