import Stellara.Host.Soroban

/-!
# The token-curated registry

Applicants list entries with a deposit. A pending listing can be challenged, and then a vote decides
it; a listing that nobody challenges is approved after its expiry. Listings and challenges are
numbered separately, and both are stored under their numbers.

The entry points are stated over the records that they read and write, so that the storage of the
contract can be compared with one that keeps the two kinds apart.

## Main definitions

* `Listing`, `Challenge`, `Record`: what is stored
* `Records`: the operations on stored records
* `RawRecords`: the storage of the contract, with one key for a listing and a challenge of one
  number
* `apply`, `challenge`, `vote`, `resolve`: the entry points
* `contract`: the registry as a transactional contract
* `Step`: the calls that return

## Main results

* `execute_eq_ok`: the calls that return are the steps
* `apply_eq_ok`, `challenge_eq_ok`, `vote_eq_ok`, `resolve_eq_ok`: when the entry points return, and
  what they write
-/

namespace Stellara.Tcr

/-! ## Storage -/

inductive ListingStatus where
  | pending
  | challenged
  | approved
  | rejected
deriving DecidableEq, Repr

structure Listing where
  applicant : Address
  deposit : ℤ
  metadata : Symbol
  status : ListingStatus
  challengeId : ℕ
  expiry : ℕ
deriving DecidableEq, Repr

structure Challenge where
  challenger : Address
  listingId : ℕ
  deposit : ℤ
  votesFor : ℤ
  votesAgainst : ℤ
  endTime : ℕ
  resolved : Bool
deriving DecidableEq, Repr

inductive Event where
  | applied (listingId : ℕ) (applicant : Address) (deposit : ℤ) (metadata : Symbol) (timestamp : ℕ)
  | challenged (challengeId listingId : ℕ) (challenger : Address) (deposit : ℤ) (timestamp : ℕ)
  | voted (challengeId : ℕ) (voter : Address) (side : Bool) (weight : ℤ) (timestamp : ℕ)
  | resolved (listingId challengeId : ℕ) (accepted : Bool) (timestamp : ℕ)
deriving DecidableEq, Repr

/-- The contract panics; it has no error codes. -/
abbrev Returns (α : Type) := Outcome Empty α

/-- Stored listings and challenges. -/
class Records (σ : Type) where
  empty : σ
  getListing : σ → ℕ → Returns Listing
  setListing : ℕ → Listing → σ → σ
  getChallenge : σ → ℕ → Returns Challenge
  setChallenge : ℕ → Challenge → σ → σ

/-- What is stored under a number. -/
inductive Record where
  | listing (l : Listing)
  | challenge (c : Challenge)
deriving DecidableEq, Repr

/-- The entries of the contract's storage whose keys are numbers. -/
abbrev RawRecords := Store ℕ Record

namespace RawRecords

/-- Read a listing. A stored challenge does not convert to one. -/
def getListing (records : RawRecords) (id : ℕ) : Returns Listing :=
  match records.lookup id with
  | some (.listing l) => .ok l
  | some (.challenge _) => .error (.panic "ConversionError")
  | none => .error (.panic "Listing not found")

/-- Read a challenge. A stored listing does not convert to one. -/
def getChallenge (records : RawRecords) (id : ℕ) : Returns Challenge :=
  match records.lookup id with
  | some (.challenge c) => .ok c
  | some (.listing _) => .error (.panic "ConversionError")
  | none => .error (.panic "Challenge not found")

instance : Records RawRecords where
  empty := ∅
  getListing := getListing
  setListing id l records := records.insert id (.listing l)
  getChallenge := getChallenge
  setChallenge id c records := records.insert id (.challenge c)

end RawRecords

/-- The storage of the contract, and its events. The stakes are kept by voter and challenge. -/
structure State (σ : Type) where
  records : σ
  listingCount : ℕ
  challengeCount : ℕ
  stakes : Store (Address × ℕ) ℤ
  events : List Event

variable {σ : Type} [Records σ]

/-- Nothing stored yet. -/
def State.empty : State σ := ⟨Records.empty, 0, 0, ∅, []⟩

/-- The length of the challenge period and of the voting period, in seconds. -/
def period : ℕ := 604800

/-- The end of a period that starts now. -/
def periodEnd (now : ℕ) : Returns ℕ := IntFormat.u64.checkedNat .overflow (now + period)

/-! ## Entry points -/

def apply (now : ℕ) (applicant : Address) (deposit : ℤ) (metadata : Symbol) (s : State σ) :
    Returns (ℕ × State σ) := do
  let listingCount ← IntFormat.u32.checkedNat .overflow (s.listingCount + 1)
  let expiry ← periodEnd now
  let listing : Listing := ⟨applicant, deposit, metadata, .pending, 0, expiry⟩
  .ok (listingCount, { s with
    records := Records.setListing listingCount listing s.records
    listingCount := listingCount
    events := s.events ++ [.applied listingCount applicant deposit metadata now] })

def challenge (now : ℕ) (challenger : Address) (listingId : ℕ) (deposit : ℤ) (s : State σ) :
    Returns (ℕ × State σ) := do
  let listing ← Records.getListing s.records listingId
  require (listing.status = .pending) (.panic "Cannot challenge non-pending listing")
  require (listing.deposit ≤ deposit) (.panic "Insufficient challenge deposit")
  let challengeCount ← IntFormat.u32.checkedNat .overflow (s.challengeCount + 1)
  let endTime ← periodEnd now
  let challenge : Challenge := ⟨challenger, listingId, deposit, 0, 0, endTime, false⟩
  let listing := { listing with status := .challenged, challengeId := challengeCount }
  .ok (challengeCount, { s with
    records := Records.setChallenge challengeCount challenge
      (Records.setListing listingId listing s.records)
    challengeCount := challengeCount
    events := s.events ++ [.challenged challengeCount listingId challenger deposit now] })

/-- A challenge with a vote more on one of its sides. -/
def Challenge.count (c : Challenge) (side : Bool) (amount : ℤ) : Returns Challenge :=
  if side then do
    let votes ← IntFormat.i128.checked .overflow (c.votesFor + amount)
    .ok { c with votesFor := votes }
  else do
    let votes ← IntFormat.i128.checked .overflow (c.votesAgainst + amount)
    .ok { c with votesAgainst := votes }

def vote (now : ℕ) (voter : Address) (challengeId : ℕ) (side : Bool) (amount : ℤ) (s : State σ) :
    Returns (State σ) := do
  let challenge ← Records.getChallenge s.records challengeId
  require (challenge.resolved = false) (.panic "Challenge already resolved")
  require (now < challenge.endTime) (.panic "Voting period ended")
  let challenge ← challenge.count side amount
  let currentStake := (s.stakes.lookup (voter, challengeId)).getD 0
  let stake ← IntFormat.i128.checked .overflow (currentStake + amount)
  .ok { s with
    records := Records.setChallenge challengeId challenge s.records
    stakes := s.stakes.insert (voter, challengeId) stake
    events := s.events ++ [.voted challengeId voter side amount now] }

/-- Store a decided listing. -/
def settle (now listingId : ℕ) (listing : Listing) (accepted : Bool) (s : State σ) : State σ :=
  { s with
    records := Records.setListing listingId
      { listing with status := if accepted then .approved else .rejected } s.records
    events := s.events ++ [.resolved listingId listing.challengeId accepted now] }

/-- Resolve a listing. A decided one is left as it is. -/
def resolve (now listingId : ℕ) (s : State σ) : Returns (State σ) := do
  let listing ← Records.getListing s.records listingId
  match listing.status with
  | .challenged => do
    let challenge ← Records.getChallenge s.records listing.challengeId
    require (challenge.endTime ≤ now) (.panic "Voting period active")
    require (challenge.resolved = false) (.panic "Already resolved")
    let records := Records.setChallenge listing.challengeId { challenge with resolved := true }
      s.records
    let accepted : Bool := challenge.votesAgainst < challenge.votesFor
    .ok (settle now listingId listing accepted { s with records := records })
  | .pending => do
    require (listing.expiry ≤ now) (.panic "Challenge period active")
    .ok (settle now listingId listing true s)
  | .approved => .ok s
  | .rejected => .ok s

/-! ## The contract -/

inductive Call where
  | apply (applicant : Address) (deposit : ℤ) (metadata : Symbol)
  | challenge (challenger : Address) (listingId : ℕ) (deposit : ℤ)
  | vote (voter : Address) (challengeId : ℕ) (side : Bool) (amount : ℤ)
  | resolve (listingId : ℕ)
deriving DecidableEq, Repr

/-- Execute a call. What it returns is the number of a listing or a challenge, or nothing. -/
def execute (now : ℕ) (s : State σ) : Call → Returns (Option ℕ × State σ)
  | .apply applicant deposit metadata => do
    let (id, s) ← apply now applicant deposit metadata s
    .ok (some id, s)
  | .challenge challenger listingId deposit => do
    let (id, s) ← challenge now challenger listingId deposit s
    .ok (some id, s)
  | .vote voter challengeId side amount => do .ok (none, ← vote now voter challengeId side amount s)
  | .resolve listingId => do .ok (none, ← resolve now listingId s)

variable (σ) in
/-- The registry. Its time is the timestamp of the ledger. -/
def contract : Contract (State σ) Call (Option ℕ) (Fault Empty) where
  exec now call s := execute now s call

/-! ## What the entry points write -/

variable {now id listingId challengeId : ℕ} {applicant challenger voter : Address} {deposit : ℤ}
  {metadata : Symbol} {side : Bool} {amount : ℤ} {s s' : State σ}

/-- A call that returns, by what its entry point returned. -/
inductive Step (now : ℕ) (s : State σ) : Call → Option ℕ → State σ → Prop where
  | apply {applicant : Address} {deposit : ℤ} {metadata : Symbol} {id : ℕ} {s' : State σ}
      (h : Tcr.apply now applicant deposit metadata s = .ok (id, s')) :
      Step now s (.apply applicant deposit metadata) (some id) s'
  | challenge {challenger : Address} {listingId : ℕ} {deposit : ℤ} {id : ℕ} {s' : State σ}
      (h : Tcr.challenge now challenger listingId deposit s = .ok (id, s')) :
      Step now s (.challenge challenger listingId deposit) (some id) s'
  | vote {voter : Address} {challengeId : ℕ} {side : Bool} {amount : ℤ} {s' : State σ}
      (h : Tcr.vote now voter challengeId side amount s = .ok s') :
      Step now s (.vote voter challengeId side amount) none s'
  | resolve {listingId : ℕ} {s' : State σ} (h : Tcr.resolve now listingId s = .ok s') :
      Step now s (.resolve listingId) none s'

/-- The calls that return are the steps. -/
theorem execute_eq_ok {call : Call} {result : Option ℕ} :
    execute now s call = .ok (result, s') ↔ Step now s call result s' := by
  constructor
  · intro h
    cases call with
    | apply applicant deposit metadata =>
      simp only [execute, Except.bind_eq_ok] at h
      obtain ⟨⟨id, s₁⟩, h₁, h⟩ := h
      obtain ⟨rfl, rfl⟩ := Prod.mk.inj (Except.ok.inj h)
      exact .apply h₁
    | challenge challenger listingId deposit =>
      simp only [execute, Except.bind_eq_ok] at h
      obtain ⟨⟨id, s₁⟩, h₁, h⟩ := h
      obtain ⟨rfl, rfl⟩ := Prod.mk.inj (Except.ok.inj h)
      exact .challenge h₁
    | vote voter challengeId side amount =>
      simp only [execute, Except.bind_eq_ok] at h
      obtain ⟨s₁, h₁, h⟩ := h
      obtain ⟨rfl, rfl⟩ := Prod.mk.inj (Except.ok.inj h)
      exact .vote h₁
    | resolve listingId =>
      simp only [execute, Except.bind_eq_ok] at h
      obtain ⟨s₁, h₁, h⟩ := h
      obtain ⟨rfl, rfl⟩ := Prod.mk.inj (Except.ok.inj h)
      exact .resolve h₁
  · rintro (h | h | h | h) <;> exact Except.bind_eq_ok.mpr ⟨_, h, rfl⟩

theorem apply_eq_ok : apply now applicant deposit metadata s = .ok (id, s') ↔
    (id = s.listingCount + 1 ∧ ((s.listingCount + 1 : ℕ) : ℤ) ≤ IntFormat.u32.hi ∧
      ((now + period : ℕ) : ℤ) ≤ IntFormat.u64.hi) ∧
    s' = { s with
      records := Records.setListing (s.listingCount + 1)
        ⟨applicant, deposit, metadata, .pending, 0, now + period⟩ s.records
      listingCount := s.listingCount + 1
      events := s.events ++ [.applied (s.listingCount + 1) applicant deposit metadata now] } := by
  simp only [apply, periodEnd, Except.bind_eq_ok, IntFormat.checkedNat_eq_ok]
  constructor
  · rintro ⟨_, ⟨hcount, rfl⟩, _, ⟨hexpiry, rfl⟩, h⟩
    obtain ⟨rfl, rfl⟩ := Prod.mk.inj (Except.ok.inj h)
    exact ⟨⟨rfl, hcount, hexpiry⟩, rfl⟩
  · rintro ⟨⟨rfl, hcount, hexpiry⟩, rfl⟩
    exact ⟨_, ⟨hcount, rfl⟩, _, ⟨hexpiry, rfl⟩, rfl⟩

theorem challenge_eq_ok (h : challenge now challenger listingId deposit s = .ok (id, s')) :
    ∃ listing, Records.getListing s.records listingId = .ok listing ∧ listing.status = .pending ∧
      s' = { s with
        records := Records.setChallenge (s.challengeCount + 1)
          ⟨challenger, listingId, deposit, 0, 0, now + period, false⟩
          (Records.setListing listingId
            { listing with status := .challenged, challengeId := s.challengeCount + 1 } s.records)
        challengeCount := s.challengeCount + 1
        events := s.events ++
          [.challenged (s.challengeCount + 1) listingId challenger deposit now] } := by
  simp only [challenge, periodEnd, Except.bind_eq_ok, require_eq_ok, exists_const,
    IntFormat.checkedNat_eq_ok] at h
  obtain ⟨listing, hlisting, hstatus, -, _, ⟨-, rfl⟩, _, ⟨-, rfl⟩, h⟩ := h
  obtain ⟨-, rfl⟩ := Prod.mk.inj (Except.ok.inj h)
  exact ⟨listing, hlisting, hstatus, rfl⟩

/-- A vote keeps the listing of its challenge. -/
theorem Challenge.count_eq_ok {c c' : Challenge} (h : c.count side amount = .ok c') :
    c'.listingId = c.listingId := by
  unfold Challenge.count at h
  split at h <;> simp only [Except.bind_eq_ok, IntFormat.checked_eq_ok] at h
  all_goals
    obtain ⟨_, -, h⟩ := h
    rw [← Except.ok.inj h]

theorem vote_eq_ok (h : vote now voter challengeId side amount s = .ok s') :
    ∃ c c', Records.getChallenge s.records challengeId = .ok c ∧ c'.listingId = c.listingId ∧
      ∃ stakes events, s' = { s with
        records := Records.setChallenge challengeId c' s.records
        stakes := stakes
        events := events } := by
  simp only [vote, Except.bind_eq_ok, require_eq_ok, exists_const, IntFormat.checked_eq_ok] at h
  obtain ⟨c, hc, -, -, c', hcount, _, -, h⟩ := h
  obtain rfl := Except.ok.inj h
  exact ⟨c, c', hc, Challenge.count_eq_ok hcount, _, _, rfl⟩

/-- A listing is resolved by the votes on its challenge, or after its expiry without one, or it is
already decided. -/
theorem resolve_eq_ok : resolve now listingId s = .ok s' ↔
    ∃ listing, Records.getListing s.records listingId = .ok listing ∧
      ((listing.status = .challenged ∧ ∃ c, Records.getChallenge s.records listing.challengeId = .ok c ∧
          c.endTime ≤ now ∧ c.resolved = false ∧
          settle now listingId listing (c.votesAgainst < c.votesFor) { s with
            records := Records.setChallenge listing.challengeId { c with resolved := true }
              s.records } = s') ∨
        (listing.status = .pending ∧ listing.expiry ≤ now ∧
          settle now listingId listing true s = s') ∨
        ((listing.status = .approved ∨ listing.status = .rejected) ∧ s = s')) := by
  rw [resolve, Except.bind_eq_ok]
  refine exists_congr fun listing => and_congr_right fun _ => ?_
  cases listing.status with
  | pending =>
    simp only [Except.bind_eq_ok, require_eq_ok, exists_const, reduceCtorEq, false_and, or_false,
      false_or, true_and, Except.ok.injEq]
  | challenged =>
    simp only [Except.bind_eq_ok, require_eq_ok, exists_const, reduceCtorEq, false_and, or_false,
      true_and, Except.ok.injEq]
  | approved => simp
  | rejected => simp

end Stellara.Tcr
