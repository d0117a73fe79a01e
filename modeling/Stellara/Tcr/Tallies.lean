import Stellara.Tcr.Refinement

/-!
# Tallies and stakes

A vote adds its amount to a side of its challenge, and to what its voter has staked on the
challenge. The challenges take the numbers of the listings one after another, and every challenge
uses up a pending listing, so a listing is never written over a challenge. Thus the votes on a
challenge sum to the stakes on it throughout. The amount of a vote may be negative, and such a vote
takes from both.

## Main definitions

* `staked`: the sum of the stakes on a challenge
* `Raised`: no vote and no stake is lowered
* `WellTallied`: the law of the votes, over a run
* `Placed`: which numbers are of challenges

## Main results

* `tally_of_run`: the votes on every challenge sum to the stakes on it
* `raised_iff`: a vote lowers nothing exactly when its amount is not negative
* `wellTallied_iff`: a run is well tallied exactly when none of its votes has a negative amount
-/

namespace Stellara.Tcr

/-! ## The law -/

/-- The sum of the stakes on a challenge, over all voters. -/
def staked (stakes : Store (Address × ℕ) ℤ) (challengeId : ℕ) : ℤ :=
  stakes.total fun key stake => if key.2 = challengeId then stake else 0

/-- What a voter has staked on a challenge. -/
def stakeOf (stakes : Store (Address × ℕ) ℤ) (voter : Address) (challengeId : ℕ) : ℤ :=
  (stakes.lookup (voter, challengeId)).getD 0

section Law

variable {σ : Type} [Records σ]

/-- The challenges keep their votes, and the voters their stakes, or have more of them. -/
structure Raised (s s' : State σ) : Prop where
  votes : ∀ id ch, s.challenge? id = some ch → ∃ ch', s'.challenge? id = some ch' ∧
    ch.votesFor ≤ ch'.votesFor ∧ ch.votesAgainst ≤ ch'.votesAgainst
  stakes : ∀ voter id, stakeOf s.stakes voter id ≤ stakeOf s'.stakes voter id

/-- The votes on every challenge sum to the stakes on it. -/
def Tallied (s : State σ) : Prop :=
  ∀ id ch, s.challenge? id = some ch → ch.votesFor + ch.votesAgainst = staked s.stakes id

/-- The amount that a call votes with. -/
def Call.amount? : Call → Option ℤ
  | .vote _ _ _ amount => some amount
  | _ => none

/-- In a run no vote lowers anything, and every state is tallied. -/
structure WellTallied (w : World (State σ)) (log : List (Commit (State σ) Call (Option ℕ))) :
    Prop where
  raised : ∀ c ∈ log, c.call.amount?.isSome → Raised c.before c.after
  tallied : Tallied w.store ∧ ∀ c ∈ log, Tallied c.before ∧ Tallied c.after

end Law

/-! ## What a vote writes -/

section Vote

variable {now challengeId : ℕ} {voter : Address} {side : Bool} {amount : ℤ}

/-- A vote counts for one of the sides. -/
theorem Challenge.votes_of_count {c c' : Challenge} (h : c.count side amount = .ok c') :
    c'.votesFor = c.votesFor + (if side then amount else 0) ∧
      c'.votesAgainst = c.votesAgainst + (if side then 0 else amount) := by
  unfold Challenge.count at h
  cases side with
  | true =>
    simp only [if_true, Except.bind_eq_ok, IntFormat.checked_eq_ok] at h
    obtain ⟨_, ⟨-, rfl⟩, h⟩ := h
    rw [← Except.ok.inj h]
    exact ⟨rfl, (add_zero _).symm⟩
  | false =>
    simp only [Bool.false_eq_true, if_false, Except.bind_eq_ok, IntFormat.checked_eq_ok] at h
    obtain ⟨_, ⟨-, rfl⟩, h⟩ := h
    rw [← Except.ok.inj h]
    exact ⟨(add_zero _).symm, rfl⟩

theorem written_of_vote {σ : Type} [Records σ] {s s' : State σ}
    (h : vote now voter challengeId side amount s = .ok s') :
    ∃ c c', Records.getChallenge s.records challengeId = .ok c ∧
      c'.votesFor = c.votesFor + (if side then amount else 0) ∧
      c'.votesAgainst = c.votesAgainst + (if side then 0 else amount) ∧
      s' = { s with
        records := Records.setChallenge challengeId c' s.records
        stakes := s.stakes.insert (voter, challengeId) (stakeOf s.stakes voter challengeId + amount)
        events := s.events ++ [.voted challengeId voter side amount now] } := by
  simp only [vote, Except.bind_eq_ok, require_eq_ok, exists_const, IntFormat.checked_eq_ok] at h
  obtain ⟨c, hc, -, -, c', hcount, _, ⟨-, rfl⟩, h⟩ := h
  obtain ⟨hfor, hagainst⟩ := Challenge.votes_of_count hcount
  exact ⟨c, c', hc, hfor, hagainst, (Except.ok.inj h).symm⟩

variable {stakes : Store (Address × ℕ) ℤ} {id : ℕ}

/-- A voter who adds to a stake adds to the sum of the stakes on that challenge. -/
theorem staked_insert : staked
      (stakes.insert (voter, challengeId) (stakeOf stakes voter challengeId + amount)) id =
    staked stakes id + if id = challengeId then amount else 0 := by
  have hsum := Store.total_insert_elim (m := stakes) (k := (voter, challengeId))
    (f := fun key (stake : ℤ) => if key.2 = id then stake else 0)
    (v := stakeOf stakes voter challengeId + amount)
  unfold staked
  by_cases hid : id = challengeId
  · subst hid
    have hold : (stakes.lookup (voter, id)).elim 0 (fun stake => if id = id then stake else 0) =
        stakeOf stakes voter id := by
      unfold stakeOf
      cases stakes.lookup (voter, id) <;> simp
    rw [hold] at hsum
    simp only [if_true] at hsum ⊢
    omega
  · have hne : challengeId ≠ id := fun h => hid h.symm
    have hold : (stakes.lookup (voter, challengeId)).elim 0
        (fun stake => if challengeId = id then stake else 0) = 0 := by
      cases stakes.lookup (voter, challengeId) <;> simp [hne]
    rw [hold] at hsum
    simp only [if_neg hne, if_neg hid] at hsum ⊢
    omega

theorem stakeOf_insert {voter' : Address} {stake : ℤ} :
    stakeOf (stakes.insert (voter, challengeId) stake) voter' id =
      if voter' = voter ∧ id = challengeId then stake else stakeOf stakes voter' id := by
  unfold stakeOf
  rw [Store.lookup_insert_ite]
  simp only [Prod.mk.injEq]
  split <;> rfl

end Vote

/-! ## Where the challenges are -/

variable {s s' : State RawRecords} {c : Commit (State RawRecords) Call (Option ℕ)}

theorem challenge?_raw {id : ℕ} {ch : Challenge} :
    s.challenge? id = some ch ↔ s.records.lookup id = some (.challenge ch) :=
  State.getChallenge_eq_ok.symm.trans getChallenge_raw

/-- Writing a listing stores no challenge. -/
theorem lookup_of_insert_listing {records : RawRecords} {id id' : ℕ} {l : Listing} {ch : Challenge}
    (h : (records.insert id (.listing l)).lookup id' = some (.challenge ch)) :
    records.lookup id' = some (.challenge ch) := by
  rcases Store.eq_or_lookup_of_insert h with ⟨-, heq⟩ | ⟨-, hold⟩
  · cases heq
  · exact hold

/-- Writing a challenge stores no listing. -/
theorem lookup_of_insert_challenge {records : RawRecords} {id id' : ℕ} {l : Listing}
    {ch : Challenge} (h : (records.insert id (.challenge ch)).lookup id' = some (.listing l)) :
    id' ≠ id ∧ records.lookup id' = some (.listing l) := by
  rcases Store.eq_or_lookup_of_insert h with ⟨-, heq⟩ | hold
  · cases heq
  · exact hold

/-- The numbers up to the count of challenges are of challenges, and those after it of listings.
Stakes are on challenges. -/
structure Placed (s : State RawRecords) : Prop where
  listing : ∀ id l, s.records.lookup id = some (.listing l) →
    s.challengeCount < id ∧ id ≤ s.listingCount
  challenge : ∀ id ch, s.records.lookup id = some (.challenge ch) → id ≤ s.challengeCount
  counts : s.challengeCount ≤ s.listingCount
  stake : ∀ key stake, s.stakes.lookup key = some stake → key.2 ≤ s.challengeCount

theorem placed_empty : Placed State.empty where
  listing id l h := by simp [State.empty, Records.empty] at h
  challenge id ch h := by simp [State.empty, Records.empty] at h
  counts := le_rfl
  stake key stake h := by simp [State.empty] at h

/-- A new challenge has no stakes yet. -/
theorem Placed.staked_next (h : Placed s) : staked s.stakes (s.challengeCount + 1) = 0 := by
  refine Store.total_eq_zero fun key stake hkey => if_neg fun heq => ?_
  have hle := h.stake key stake hkey
  omega

/-- A listing that is written over a listing. -/
theorem Placed.setListing (h : Placed s) (ht : Tallied s) {id : ℕ} {l l' : Listing}
    {events : List Event} (hl : s.records.lookup id = some (.listing l)) :
    Placed { s with records := s.records.insert id (.listing l'), events := events } ∧
      Tallied { s with records := s.records.insert id (.listing l'), events := events } := by
  refine ⟨⟨fun id' l₁ hl₁ => ?_, fun id' ch hch => ?_, h.counts, h.stake⟩, fun id' ch hch => ?_⟩
  · rcases Store.eq_or_lookup_of_insert hl₁ with ⟨rfl, -⟩ | ⟨-, hl₁⟩
    · exact h.listing _ l hl
    · exact h.listing id' l₁ hl₁
  · exact h.challenge id' ch (lookup_of_insert_listing hch)
  · have hold := lookup_of_insert_listing (challenge?_raw.mp hch)
    exact ht id' ch (challenge?_raw.mpr hold)

/-- A challenge that is written over itself, with stakes that are on challenges. -/
theorem Placed.setChallenge (h : Placed s) (ht : Tallied s) {id : ℕ} {ch : Challenge}
    (ch' : Challenge) (events : List Event) {stakes : Store (Address × ℕ) ℤ}
    (hch : s.records.lookup id = some (.challenge ch))
    (hkeys : ∀ key stake, stakes.lookup key = some stake → key.2 ≤ s.challengeCount)
    (hsame : ∀ id' ≠ id, staked stakes id' = staked s.stakes id')
    (hsum : ch'.votesFor + ch'.votesAgainst - (ch.votesFor + ch.votesAgainst) =
      staked stakes id - staked s.stakes id) :
    Placed { s with
        records := s.records.insert id (.challenge ch'), stakes := stakes, events := events } ∧
      Tallied { s with
        records := s.records.insert id (.challenge ch'), stakes := stakes, events := events } := by
  refine ⟨⟨fun id' l hl => ?_, fun id' ch₁ hch₁ => ?_, h.counts, hkeys⟩, fun id' ch₁ hch₁ => ?_⟩
  · exact h.listing id' l (lookup_of_insert_challenge hl).2
  · rcases Store.eq_or_lookup_of_insert hch₁ with ⟨rfl, -⟩ | ⟨-, hch₁⟩
    · exact h.challenge _ ch hch
    · exact h.challenge id' ch₁ hch₁
  · rcases Store.eq_or_lookup_of_insert (challenge?_raw.mp hch₁) with ⟨rfl, heq⟩ | ⟨hne, hch₁⟩
    · obtain rfl := Record.challenge.inj heq
      have hold := ht id' ch (challenge?_raw.mpr hch)
      change ch₁.votesFor + ch₁.votesAgainst = staked stakes id'
      omega
    · exact (ht id' ch₁ (challenge?_raw.mpr hch₁)).trans (hsame id' hne).symm

/-! ## The entry points -/

variable {now id listingId challengeId : ℕ} {applicant challenger voter : Address} {deposit : ℤ}
  {metadata : Symbol} {side : Bool} {amount : ℤ}

theorem Placed.apply (h : Placed s) (ht : Tallied s)
    (he : Tcr.apply now applicant deposit metadata s = .ok (id, s')) : Placed s' ∧ Tallied s' := by
  obtain ⟨-, rfl⟩ := apply_eq_ok.mp he
  have hcounts := h.counts
  refine ⟨⟨fun id' l hl => ?_, fun id' ch hch => ?_, Nat.le_succ_of_le hcounts, h.stake⟩,
    fun id' ch hch => ?_⟩
  · rcases Store.eq_or_lookup_of_insert hl with ⟨rfl, -⟩ | ⟨-, hl⟩
    · exact ⟨Nat.lt_succ_of_le hcounts, le_rfl⟩
    · exact (h.listing id' l hl).imp_right Nat.le_succ_of_le
  · exact h.challenge id' ch (lookup_of_insert_listing hch)
  · have hold := lookup_of_insert_listing (challenge?_raw.mp hch)
    exact ht id' ch (challenge?_raw.mpr hold)

/-- A challenge takes the first number of a listing. -/
theorem Placed.challenge_call (h : Placed s) (ht : Tallied s)
    (he : Tcr.challenge now challenger listingId deposit s = .ok (id, s')) :
    Placed s' ∧ Tallied s' := by
  obtain ⟨l, hl, -, rfl⟩ := challenge_eq_ok he
  have hlisting := getListing_raw.mp hl
  have hbound := h.listing listingId l hlisting
  refine ⟨⟨fun id' l₁ hl₁ => ?_, fun id' ch hch => ?_, hbound.1.trans_le hbound.2,
    fun key stake hkey => Nat.le_succ_of_le (h.stake key stake hkey)⟩, fun id' ch hch => ?_⟩
  · obtain ⟨hne, hl₁⟩ := lookup_of_insert_challenge hl₁
    have hold : s.challengeCount < id' ∧ id' ≤ s.listingCount := by
      rcases Store.eq_or_lookup_of_insert hl₁ with ⟨rfl, -⟩ | ⟨-, hl₁⟩
      · exact hbound
      · exact h.listing id' l₁ hl₁
    exact ⟨lt_of_le_of_ne hold.1 (Ne.symm hne), hold.2⟩
  · rcases Store.eq_or_lookup_of_insert hch with ⟨rfl, -⟩ | ⟨-, hch⟩
    · exact le_rfl
    · exact Nat.le_succ_of_le (h.challenge id' ch (lookup_of_insert_listing hch))
  · rcases Store.eq_or_lookup_of_insert (challenge?_raw.mp hch) with ⟨rfl, heq⟩ | ⟨-, hch⟩
    · obtain rfl := Record.challenge.inj heq
      exact h.staked_next.symm
    · exact ht id' ch (challenge?_raw.mpr (lookup_of_insert_listing hch))

theorem Placed.vote (h : Placed s) (ht : Tallied s)
    (he : Tcr.vote now voter challengeId side amount s = .ok s') : Placed s' ∧ Tallied s' := by
  obtain ⟨ch, ch', hch, hfor, hagainst, rfl⟩ := written_of_vote he
  have hlookup := getChallenge_raw.mp hch
  refine h.setChallenge ht ch' _ hlookup (fun key stake hkey => ?_) (fun id' hne => ?_) ?_
  · rcases Store.eq_or_lookup_of_insert hkey with ⟨rfl, -⟩ | ⟨-, hkey⟩
    · exact h.challenge challengeId ch hlookup
    · exact h.stake key stake hkey
  · rw [staked_insert, if_neg hne, add_zero]
  · rw [staked_insert, if_pos rfl, hfor, hagainst]
    cases side with
    | true =>
      simp only [if_true]
      omega
    | false =>
      simp only [Bool.false_eq_true, if_false]
      omega

theorem Placed.resolve (h : Placed s) (ht : Tallied s)
    (he : Tcr.resolve now listingId s = .ok s') : Placed s' ∧ Tallied s' := by
  obtain ⟨l, hl, ⟨-, ch, hch, -, -, rfl⟩ | ⟨-, -, rfl⟩ | ⟨-, rfl⟩⟩ := resolve_eq_ok.mp he
  · have hlookup := getChallenge_raw.mp hch
    have hlisting := getListing_raw.mp hl
    obtain ⟨h₁, ht₁⟩ := h.setChallenge ht { ch with resolved := true } s.events hlookup
      h.stake (fun _ _ => rfl) (by simp)
    refine h₁.setListing ht₁ (l := l) ?_
    have hne : listingId ≠ l.challengeId := by
      rintro heq
      rw [← heq, hlisting] at hlookup
      cases hlookup
    exact (Store.lookup_insert_ite _ _ _ _).trans ((if_neg hne).trans hlisting)
  · exact h.setListing ht (getListing_raw.mp hl)
  · exact ⟨h, ht⟩

/-- Every call keeps the numbers of the challenges, and the votes on each the sum of its stakes. -/
theorem Placed.execute (h : Placed c.before) (ht : Tallied c.before)
    (he : (contract RawRecords).exec c.time c.call c.before = .ok (c.result, c.after)) :
    Placed c.after ∧ Tallied c.after := by
  obtain ⟨time, call, result, s, s'⟩ := c
  have he : Tcr.execute time s call = .ok (result, s') := he
  cases execute_eq_ok.mp he with
  | apply h₁ => exact h.apply ht h₁
  | challenge h₁ => exact h.challenge_call ht h₁
  | vote h₁ => exact h.vote ht h₁
  | resolve h₁ => exact h.resolve ht h₁

/-- A vote lowers nothing exactly when its amount is not negative. -/
theorem raised_iff (he : Tcr.vote now voter challengeId side amount s = .ok s') :
    Raised s s' ↔ 0 ≤ amount := by
  obtain ⟨ch, ch', hch, hfor, hagainst, rfl⟩ := written_of_vote he
  constructor
  · intro h
    have hstake := h.stakes voter challengeId
    rw [stakeOf_insert, if_pos ⟨rfl, rfl⟩] at hstake
    omega
  · intro hamount
    refine ⟨fun id' ch₁ hch₁ => ?_, fun voter' id' => ?_⟩
    · by_cases hid : id' = challengeId
      · subst hid
        obtain rfl : ch = ch₁ :=
          Option.some.inj ((State.getChallenge_eq_ok.mp hch).symm.trans hch₁)
        refine ⟨ch', challenge?_raw.mpr (AList.lookup_insert _), ?_, ?_⟩
        · rw [hfor]
          split <;> omega
        · rw [hagainst]
          split <;> omega
      · refine ⟨ch₁, challenge?_raw.mpr ?_, le_rfl, le_rfl⟩
        exact (Store.lookup_insert_ite _ _ _ _).trans ((if_neg hid).trans (challenge?_raw.mp hch₁))
    · rw [stakeOf_insert]
      split
      · rename_i heq
        obtain ⟨rfl, rfl⟩ := heq
        omega
      · exact le_rfl

/-! ## Runs -/

variable {time₀ : ℕ} {w : World (State RawRecords)}
  {log : List (Commit (State RawRecords) Call (Option ℕ))}

theorem tallied_empty : Tallied (State.empty : State RawRecords) := by
  intro id ch hch
  have hnone := challenge?_raw.mp hch
  simp [State.empty, Records.empty] at hnone

/-- Throughout a run, the votes on every challenge sum to the stakes on it. -/
theorem tally_of_run (hrun : (contract RawRecords).Run ⟨time₀, .empty⟩ w log) :
    Tallied w.store ∧ ∀ c ∈ log, Tallied c.before ∧ Tallied c.after := by
  have hstep : ∀ c : Commit (State RawRecords) Call (Option ℕ), True →
      (Placed c.before ∧ Tallied c.before) →
      (contract RawRecords).exec c.time c.call c.before = .ok (c.result, c.after) →
      Placed c.after ∧ Tallied c.after := fun c _ h he => h.1.execute h.2 he
  obtain ⟨⟨-, hend⟩, hlog⟩ :=
    hrun.invariant_throughout (I := fun s => Placed s ∧ Tallied s) hstep
      ⟨placed_empty, tallied_empty⟩ fun _ _ => trivial
  exact ⟨hend, fun c hc => ⟨(hlog c hc).1.2, (hlog c hc).2.2⟩⟩

/-- A run is well tallied exactly when none of its votes has a negative amount. -/
theorem wellTallied_iff (hrun : (contract RawRecords).Run ⟨time₀, .empty⟩ w log) :
    WellTallied w log ↔ ∀ c ∈ log, ∀ amount ∈ c.call.amount?, 0 ≤ amount := by
  -- the calls with an amount are the votes
  have hvote : ∀ c ∈ log, ∀ amount ∈ c.call.amount?,
      (Raised c.before c.after ↔ 0 ≤ amount) := by
    intro c hc amount hamount
    have he := hrun.exec_of_mem c hc
    obtain ⟨time, call, result, s, s'⟩ := c
    have he : Tcr.execute time s call = .ok (result, s') := he
    cases execute_eq_ok.mp he with
    | apply h₁ => cases hamount
    | challenge h₁ => cases hamount
    | vote h₁ =>
      obtain rfl := Option.some.inj hamount
      exact raised_iff h₁
    | resolve h₁ => cases hamount
  constructor
  · intro h c hc amount hamount
    exact (hvote c hc amount hamount).mp (h.raised c hc (Option.isSome_of_mem hamount))
  · intro h
    refine ⟨fun c hc hsome => ?_, tally_of_run hrun⟩
    obtain ⟨amount, hamount⟩ := Option.isSome_iff_exists.mp hsome
    exact (hvote c hc amount hamount).mpr (h c hc amount hamount)

/-- Two votes on a challenge, one for it and one against it. -/
def votedCalls : List (ℕ × Call) :=
  [(1, .apply ⟨1⟩ 100 "a"), (2, .challenge ⟨2⟩ 1 100), (3, .vote ⟨3⟩ 1 true 60),
    (4, .vote ⟨4⟩ 1 false 40)]

theorem wellTallied_iff_voted :
    WellTallied ((contract RawRecords).play ⟨0, .empty⟩ votedCalls).1
        ((contract RawRecords).play ⟨0, .empty⟩ votedCalls).2 ↔
      ∀ c ∈ ((contract RawRecords).play ⟨0, .empty⟩ votedCalls).2,
        ∀ amount ∈ c.call.amount?, 0 ≤ amount :=
  wellTallied_iff (Contract.run_play _ _ votedCalls (by decide))

/-- A vote for a challenge, and one that takes most of it back. -/
def loweredCalls : List (ℕ × Call) :=
  [(1, .apply ⟨1⟩ 100 "a"), (2, .challenge ⟨2⟩ 1 100), (3, .vote ⟨3⟩ 1 true 60),
    (4, .vote ⟨3⟩ 1 true (-50))]

/-- The second vote lowers what the first one cast. -/
theorem lowered_votes :
    ∃ w log, (contract RawRecords).Run ⟨0, .empty⟩ w log ∧ ¬ WellTallied w log := by
  refine ⟨_, _, Contract.run_play _ _ loweredCalls (by decide), fun h => ?_⟩
  obtain ⟨c, hc⟩ : ∃ c, ((contract RawRecords).play ⟨0, .empty⟩ loweredCalls).2[3]? = some c :=
    ⟨_, rfl⟩
  have hraised := h.raised c (List.mem_of_getElem? hc) (by obtain rfl := Option.some.inj hc; rfl)
  obtain rfl := Option.some.inj hc
  exact absurd (hraised.stakes ⟨3⟩ 1) (by decide)

end Stellara.Tcr
