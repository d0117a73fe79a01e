import Stellara.Auth.Wallets

/-!
# A wallet for every user, and one primary

Whatever requests run at once, the public keys of the wallets are unique. That a user keeps a
wallet, and exactly one primary one, needs what a request removes or promotes to be stored as it
was loaded: two requests that unbind the last two wallets of a user both count two, and remove
both.

## Main definitions

* `Consistent`: the users have wallets, one of them primary, and the public keys are unique
* `UpToDate`: a request removes and promotes wallets as it loaded them
* `promoting`: the requests that removed the primary wallet of a user and are to promote another

## Main results

* `One.step`: a user has one primary wallet, or one request that is to promote one
* `consistent_of_upToDate`: the wallets are consistent whenever no request is in progress
-/

namespace Stellara.Wallets

variable {s s' : Tables} {points : List Point} {p q : Point} {now i : ℕ}
  {input id userId : String} {b : WalletBinding} {bindings : WalletBindingRepository}

/-! ## Properties -/

/-- Two rows do not have one public key. -/
def UniqueKeys (bindings : WalletBindingRepository) : Prop :=
  ∀ id id' b b', bindings.lookup id = some b → bindings.lookup id' = some b' →
    b.publicKey = b'.publicKey → id = id'

structure Consistent (s : Tables) : Prop where
  wallet : ∀ userId ∈ s.bound, 1 ≤ wallets userId s.bindings
  primary : ∀ userId ∈ s.bound, primaries userId s.bindings = 1
  unique : UniqueKeys s.bindings

/-- A wallet is removed while it is stored as it was loaded and the user has another one, or after
another request removed it when it was not primary. A wallet becomes primary while it is stored as
it was loaded, or while its public key is free. -/
def UpToDate (_ : ℕ) (_ : String) (_ : ℕ) (p : Point) (w : Tasks Tables Point) : Prop :=
  match p with
  | .remove id b =>
    w.shared.bindings.lookup id = some b ∧ 2 ≤ wallets b.userId w.shared.bindings ∨
      w.shared.bindings.lookup id = none ∧ b.isPrimary = false
  | .promote id b =>
    w.shared.bindings.lookup id = some b ∨
      w.shared.bindings.lookup id = none ∧ taken id b.publicKey w.shared.bindings = false
  | _ => True

instance {w : Tasks Tables Point} : Decidable (UpToDate now input i p w) :=
  match p with
  | .remove _ _ => instDecidableOr
  | .promote _ _ => instDecidableOr
  | .createUserWithWallet _ | .findExisting _ _ _ | .clearPrimaries _ _ | .saveBinding _ _ _
  | .bound _ | .findOwn _ _ | .countWallets _ _ | .findAnother _ | .unbound | .rejected _
  | .failed => instDecidableTrue

/-- The request is to make another wallet of the user primary. -/
def Point.promotes (userId : String) : Point → Bool
  | .findAnother userId' => userId' = userId
  | .promote _ b => b.userId = userId
  | _ => false

def promoting (userId : String) (points : List Point) : ℕ :=
  points.countP (Point.promotes userId)

/-! ## Counting -/

section Counting

theorem wallets_insert (userId : String) (hfree : bindings.lookup id = none) :
    wallets userId (AList.insert id b bindings) =
      (if b.userId = userId then 1 else 0) + wallets userId bindings :=
  Store.total_insert_new hfree

theorem primaries_insert (userId : String) (hfree : bindings.lookup id = none) :
    primaries userId (AList.insert id b bindings) =
      (if b.userId = userId ∧ b.isPrimary then 1 else 0) + primaries userId bindings :=
  Store.total_insert_new hfree

theorem wallets_erase (userId : String) (hread : bindings.lookup id = some b) :
    (if b.userId = userId then 1 else 0) + wallets userId (bindings.erase id) =
      wallets userId bindings :=
  Store.total_erase (f := fun _ (b : WalletBinding) => if b.userId = userId then 1 else 0) hread

theorem primaries_erase (userId : String) (hread : bindings.lookup id = some b) :
    (if b.userId = userId ∧ b.isPrimary then 1 else 0) + primaries userId (bindings.erase id) =
      primaries userId bindings :=
  Store.total_erase (f := fun _ (b : WalletBinding) =>
    if b.userId = userId ∧ b.isPrimary then 1 else 0) hread

/-- The row that becomes primary was counted as a wallet already. -/
theorem wallets_promote (userId : String) (hread : bindings.lookup id = some b) :
    wallets userId (AList.insert id { b with isPrimary := true } bindings) =
      wallets userId bindings := by
  have hsum := Store.total_insert_old (f := fun _ (b : WalletBinding) =>
    if b.userId = userId then 1 else 0) (v := { b with isPrimary := true }) hread
  exact Nat.add_left_cancel hsum

theorem primaries_promote (userId : String) (hread : bindings.lookup id = some b) :
    (if b.userId = userId ∧ b.isPrimary then 1 else 0) +
        primaries userId (AList.insert id { b with isPrimary := true } bindings) =
      (if b.userId = userId then 1 else 0) + primaries userId bindings := by
  have hsum := Store.total_insert_old (f := fun _ (b : WalletBinding) =>
    if b.userId = userId ∧ b.isPrimary then 1 else 0) (v := { b with isPrimary := true }) hread
  simpa [primaries] using hsum

theorem primaries_eq_zero (h : ∀ id b, bindings.lookup id = some b → b.userId ≠ userId) :
    primaries userId bindings = 0 :=
  Store.total_eq_zero fun id b hread => if_neg fun hb => h id b hread hb.1

theorem updateNotPrimary_eq_self (h : ∀ id b, bindings.lookup id = some b → b.userId ≠ userId) :
    updateNotPrimary userId bindings = bindings :=
  Store.mapValues_eq_self fun id b hread => if_neg (h id b hread)

end Counting

/-! ## Public keys -/

theorem UniqueKeys.insert (h : UniqueKeys bindings)
    (hfree : taken id b.publicKey bindings = false) :
    UniqueKeys (AList.insert id b bindings) := by
  have hother : ∀ id' b', bindings.lookup id' = some b' → b'.publicKey = b.publicKey →
      id' = id := by
    intro id' b' hread hkey
    by_contra hne
    have hnone : bindings.find? (fun id' b' => id' ≠ id ∧ b'.publicKey = b.publicKey) = none := by
      simpa [taken] using hfree
    have hnot := of_decide_eq_false (Store.find?_eq_none.mp hnone id' b' hread)
    exact hnot ⟨hne, hkey⟩
  intro id₁ id₂ b₁ b₂ h₁ h₂ hkey
  rcases Store.eq_or_lookup_of_insert h₁ with ⟨rfl, rfl⟩ | ⟨-, hold₁⟩ <;>
    rcases Store.eq_or_lookup_of_insert h₂ with ⟨rfl, rfl⟩ | ⟨-, hold₂⟩
  · rfl
  · exact (hother id₂ b₂ hold₂ hkey.symm).symm
  · exact hother id₁ b₁ hold₁ hkey
  · exact h id₁ id₂ b₁ b₂ hold₁ hold₂ hkey

/-- A row that is stored as it was loaded can be saved. -/
theorem UniqueKeys.not_taken (h : UniqueKeys bindings) (hread : bindings.lookup id = some b) :
    taken id b.publicKey bindings = false := by
  rw [taken, Option.isSome_eq_false_iff, Option.isNone_iff_eq_none, Store.find?_eq_none]
  intro id' b' hread'
  apply decide_eq_false
  rintro ⟨hne, hkey⟩
  exact hne (h id' id b' b hread' hread hkey)

/-! ## Users -/

/-- The user that the request creates. -/
def Point.creates : Point → Option String
  | .findExisting _ userId true => some userId
  | .clearPrimaries _ userId => some userId
  | .saveBinding _ userId true => some userId
  | _ => none

/-- The user that the request acts for, who had to be bound before. -/
def Point.actsFor : Point → Option String
  | .findExisting _ userId false => some userId
  | .saveBinding _ userId false => some userId
  | .findOwn _ userId => some userId
  | .countWallets _ b => some b.userId
  | .remove _ b => some b.userId
  | .findAnother userId => some userId
  | .promote _ b => some b.userId
  | _ => none

/-- Two requests do not create one user. -/
def Exclusive (p q : Point) : Prop :=
  ∀ userId, p.creates = some userId → q.creates ≠ some userId

theorem Exclusive.symm (h : Exclusive p q) : Exclusive q p :=
  fun userId hq hp => h userId hp hq

/-- The users of the rows and of the requests. -/
structure Users (w : Tasks Tables Point) : Prop where
  rows : ∀ id b, w.shared.bindings.lookup id = some b → b.userId ∈ w.shared.bound
  stored : ∀ userId ∈ w.shared.bound, userId ∈ w.shared.users
  acting : ∀ p ∈ w.points, ∀ userId, p.actsFor = some userId → userId ∈ w.shared.bound
  creating : ∀ p ∈ w.points, ∀ userId, p.creates = some userId →
    userId ∈ w.shared.users ∧ userId ∉ w.shared.bound
  once : Apart Exclusive w.points

/-- A step goes on for the user that it acts for, or has just bound the user. -/
theorem Advance.actsFor (h : Advance s p q s') (hq : q.actsFor = some userId) :
    p.actsFor = some userId := by
  cases h with
  | removed =>
    split at hq
    · exact hq
    · cases hq
  | bind => exact hq
  | owned _ => exact hq
  | counted => exact hq
  | another _ => exact hq
  | _ => cases hq

/-- A step goes on with the user that it creates, who is new when the step creates the row. -/
theorem Advance.creates (h : Advance s p q s') (hq : q.creates = some userId) :
    p.creates = some userId ∧ s'.bound = s.bound ∨
      userId ∉ s.users ∧ s' = { s with users := userId :: s.users } := by
  cases h with
  | create hnew =>
    obtain rfl := Option.some.inj hq
    exact .inr ⟨hnew, rfl⟩
  | clear => exact .inl ⟨hq, rfl⟩
  | cleared => exact .inl ⟨hq, rfl⟩
  | removed => split at hq <;> cases hq
  | _ => cases hq

/-- Users stay stored and bound, and the only new bound one is the one whose wallet is saved. -/
theorem Advance.users (h : Advance s p q s') :
    (∀ userId ∈ s.users, userId ∈ s'.users) ∧ (∀ userId ∈ s.bound, userId ∈ s'.bound) ∧
      ∀ userId ∈ s'.bound, userId ∈ s.bound ∨
        (p.creates = some userId ∨ p.actsFor = some userId) ∧ s'.users = s.users := by
  cases h with
  | create _ => exact ⟨fun _ hu => List.mem_cons_of_mem _ hu, fun _ hu => hu, fun _ hu => .inl hu⟩
  | @saved publicKey userId id isPrimary =>
    refine ⟨fun _ hu => hu, fun _ hu => List.mem_cons_of_mem _ hu, fun userId' hu => ?_⟩
    rcases List.mem_cons.mp hu with rfl | hu
    · cases isPrimary with
      | true => exact .inr ⟨.inl rfl, rfl⟩
      | false => exact .inr ⟨.inr rfl, rfl⟩
    · exact .inl hu
  | _ => exact ⟨fun _ hu => hu, fun _ hu => hu, fun _ hu => .inl hu⟩

theorem Users.start (h : Users ⟨s, points⟩) (hp : walletRequests.starts s p = true) :
    Users ⟨s, points ++ [p]⟩ := by
  have hplaced : p.creates = none ∧ ∀ userId, p.actsFor = some userId → userId ∈ s.bound := by
    cases p with
    | createUserWithWallet publicKey => exact ⟨rfl, fun _ hu => by cases hu⟩
    | findExisting publicKey userId isPrimary =>
      obtain ⟨rfl, hbound⟩ := of_decide_eq_true hp
      exact ⟨rfl, fun _ hu => Option.some.inj hu ▸ hbound⟩
    | findOwn publicKey userId =>
      exact ⟨rfl, fun _ hu => Option.some.inj hu ▸ of_decide_eq_true hp⟩
    | _ => cases hp
  have hexclusive : ∀ q, Exclusive p q := fun q userId hu => by
    rw [hplaced.1] at hu
    cases hu
  refine ⟨h.rows, h.stored, forall_mem_start h.acting hplaced.2,
    forall_mem_start h.creating fun userId hu => ?_,
    h.once.start fun q _ => ⟨hexclusive q, (hexclusive q).symm⟩⟩
  rw [hplaced.1] at hu
  cases hu

/-- The user that a request creates has no wallets yet. -/
theorem Users.no_rows (h : Users ⟨s, points⟩) (hp : p ∈ points) (hu : p.creates = some userId) :
    ∀ id b, s.bindings.lookup id = some b → b.userId ≠ userId := by
  rintro id b hread rfl
  exact (h.creating p hp _ hu).2 (h.rows id b hread)

/-- A row of a step belongs to a user that was bound, or to the one that is bound by it. -/
theorem Users.rows_step (h : Users ⟨s, points⟩) (hp : p ∈ points) (hstep : Advance s p q s')
    (hread : s'.bindings.lookup id = some b) : b.userId ∈ s'.bound := by
  cases hstep with
  | @cleared publicKey userId =>
    rw [updateNotPrimary_eq_self (h.no_rows hp rfl)] at hread
    exact h.rows id b hread
  | saved _ _ _ huser _ =>
    rcases Store.eq_or_lookup_of_insert hread with ⟨rfl, rfl⟩ | ⟨-, hread⟩
    · rw [huser]
      exact List.mem_cons_self
    · exact List.mem_cons_of_mem _ (h.rows id b hread)
  | removed =>
    rw [Store.lookup_erase_ite] at hread
    split at hread
    · cases hread
    · exact h.rows id b hread
  | promoted _ =>
    rcases Store.eq_or_lookup_of_insert hread with ⟨rfl, rfl⟩ | ⟨-, hread⟩
    · exact h.acting _ hp _ rfl
    · exact h.rows id b hread
  | _ => exact h.rows id b hread

theorem Users.step (h : Users ⟨s, points⟩) (hp : points[i]? = some p) (hstep : Advance s p q s') :
    Users ⟨s', points.set i q⟩ := by
  have hmem := List.mem_of_getElem? hp
  obtain ⟨husers, hbound, hnew⟩ := hstep.users
  constructor
  · intro id b hread
    exact h.rows_step hmem hstep hread
  · intro userId hu
    rcases hnew userId hu with hold | ⟨hcreates | hacts, -⟩
    · exact husers userId (h.stored userId hold)
    · exact husers userId (h.creating p hmem userId hcreates).1
    · exact husers userId (h.stored userId (h.acting p hmem userId hacts))
  · refine forall_mem_step (fun r hr userId hu => ?_) fun userId hu => ?_
    · exact hbound userId (h.acting r hr userId hu)
    · exact hbound userId (h.acting p hmem userId (hstep.actsFor hu))
  · intro r hr userId hu
    obtain ⟨j, hj⟩ := List.getElem?_of_mem hr
    rcases getElem?_step hj with ⟨hne, hj⟩ | ⟨-, rfl⟩
    · obtain ⟨hstored, hfree⟩ := h.creating r (List.mem_of_getElem? hj) userId hu
      refine ⟨husers userId hstored, fun hin => ?_⟩
      -- the user that the step bound is not the one of another request
      rcases hnew userId hin with hold | ⟨hcreates | hacts, -⟩
      · exact hfree hold
      · exact h.once j i r p hne hj hp userId hu hcreates
      · exact hfree (h.acting p hmem userId hacts)
    · rcases hstep.creates hu with ⟨hcreates, heq⟩ | ⟨hfresh, rfl⟩
      · obtain ⟨hstored, hfree⟩ := h.creating p hmem userId hcreates
        exact ⟨husers userId hstored, heq ▸ hfree⟩
      · exact ⟨List.mem_cons_self, fun hin => hfresh (h.stored userId hin)⟩
  · refine h.once.set fun j r hne hj => ?_
    have hexclusive : Exclusive q r := by
      intro userId hq hr
      rcases hstep.creates hq with ⟨hcreates, -⟩ | ⟨hfresh, -⟩
      · exact h.once i j p r (Ne.symm hne) hp hj userId hcreates hr
      · exact hfresh (h.creating r (List.mem_of_getElem? hj) userId hr).1
    exact ⟨hexclusive, hexclusive.symm⟩

/-! ## The primary wallet -/

/-- The user has a wallet, and one primary wallet or one request that is to promote one. -/
structure One (userId : String) (bindings : WalletBindingRepository) (points : List Point) :
    Prop where
  wallet : 1 ≤ wallets userId bindings
  primary : primaries userId bindings + promoting userId points = 1

/-- A request of a user who was not bound before promotes nothing. -/
theorem Users.promoting_eq_zero (h : Users ⟨s, points⟩) (hu : userId ∉ s.bound) :
    promoting userId points = 0 := by
  rw [promoting, List.countP_eq_zero]
  intro p hp hpromotes
  apply hu
  cases p with
  | findAnother userId' =>
    obtain rfl := of_decide_eq_true hpromotes
    exact h.acting _ hp _ rfl
  | promote id b =>
    obtain rfl := of_decide_eq_true hpromotes
    exact h.acting _ hp _ rfl
  | _ => cases hpromotes

/-- A step changes the number of requests that promote by its own one. -/
theorem promoting_step (userId : String) (hp : points[i]? = some p) :
    promoting userId (points.set i q) + (if p.promotes userId then 1 else 0) =
      promoting userId points + (if q.promotes userId then 1 else 0) :=
  countP_set _ hp

/-- The steps that leave the wallets leave the one primary wallet. -/
theorem One.of_eq (h : One userId bindings points) (hp : points[i]? = some p)
    (hpromotes : p.promotes userId = q.promotes userId) :
    One userId bindings (points.set i q) := by
  have hcount := promoting_step (q := q) userId hp
  rw [hpromotes] at hcount
  refine ⟨h.wallet, ?_⟩
  rw [← h.primary]
  omega

theorem One.removed (h : One userId bindings points) (hp : points[i]? = some (.remove id b))
    (hG : bindings.lookup id = some b ∧ 2 ≤ wallets b.userId bindings ∨
      bindings.lookup id = none ∧ b.isPrimary = false) :
    One userId (bindings.erase id)
      (points.set i (if b.isPrimary then .findAnother b.userId else .unbound)) := by
  obtain ⟨hwallet, hone⟩ := h
  rcases hG with ⟨hread, htwo⟩ | ⟨hgone, hprimary⟩
  · have hwallets := wallets_erase userId hread
    have hprimaries := primaries_erase userId hread
    constructor
    · by_cases huser : b.userId = userId
      · rw [if_pos huser] at hwallets
        rw [huser] at htwo
        omega
      · rw [if_neg huser] at hwallets
        omega
    · -- what is lost in primary wallets is gained in requests that promote
      split
      · rename_i hprimary
        have hcount := promoting_step (q := .findAnother b.userId) userId hp
        simp only [hprimary, Point.promotes, and_true, decide_eq_true_eq, Bool.false_eq_true,
          if_false] at hcount hprimaries
        omega
      · rename_i hprimary
        have hcount := promoting_step (q := .unbound) userId hp
        rw [if_neg fun hb => hprimary hb.2] at hprimaries
        simp only [Point.promotes, Bool.false_eq_true, if_false] at hcount
        omega
  · rw [Store.erase_eq_self hgone]
    apply One.of_eq ⟨hwallet, hone⟩ hp
    rw [if_neg (by simp [hprimary])]
    rfl

theorem One.promoted (h : One userId bindings points) (hp : points[i]? = some (.promote id b))
    (hG : bindings.lookup id = some b ∨
      bindings.lookup id = none ∧ taken id b.publicKey bindings = false) :
    One userId (AList.insert id { b with isPrimary := true } bindings) (points.set i .unbound) := by
  obtain ⟨hwallet, hone⟩ := h
  have hcount := promoting_step (q := .unbound) userId hp
  simp only [Point.promotes, decide_eq_true_eq, Bool.false_eq_true, if_false] at hcount
  rcases hG with hread | ⟨hgone, -⟩
  · -- the wallet is not primary yet, since a request is to promote one
    have hprimaries := primaries_promote userId hread
    have herase := primaries_erase userId hread
    refine ⟨by rwa [wallets_promote userId hread], ?_⟩
    by_cases huser : b.userId = userId
    · subst huser
      simp only [true_and, if_true] at hcount hprimaries herase
      omega
    · simp only [huser, false_and, if_false] at hcount hprimaries
      omega
  · have hwallets := wallets_insert (b := { b with isPrimary := true }) userId hgone
    have hprimaries := primaries_insert (b := { b with isPrimary := true }) userId hgone
    simp only [and_true] at hwallets hprimaries
    exact ⟨by omega, by omega⟩

/-- The first binding of a user is primary, and the others are not. -/
theorem One.saved {publicKey owner : String} {isPrimary : Bool} (husers : Users ⟨s, points⟩)
    (h : userId ∈ s.bound → One userId s.bindings points)
    (hp : points[i]? = some (.saveBinding publicKey owner isPrimary))
    (hfree : s.bindings.lookup id = none) (howner : b.userId = owner)
    (hprimary : b.isPrimary = isPrimary) (hin : userId ∈ owner :: s.bound) :
    One userId (AList.insert id b s.bindings) (points.set i (.bound id)) := by
  have hmem := List.mem_of_getElem? hp
  have hcount := promoting_step (q := .bound id) userId hp
  have hwallets := wallets_insert (b := b) userId hfree
  have hprimaries := primaries_insert (b := b) userId hfree
  simp only [Point.promotes, Bool.false_eq_true, if_false] at hcount
  by_cases hbound : userId ∈ s.bound
  · obtain ⟨hwallet, hone⟩ := h hbound
    have hnot : ¬ (b.userId = userId ∧ b.isPrimary = true) := by
      rintro ⟨rfl, hb⟩
      obtain rfl := hprimary.symm.trans hb
      exact (husers.creating _ hmem owner rfl).2 (howner ▸ hbound)
    rw [if_neg hnot] at hprimaries
    exact ⟨by omega, by omega⟩
  · -- the user had no wallets, so this is the primary one
    obtain rfl : userId = owner := (List.mem_cons.mp hin).resolve_right hbound
    obtain rfl : isPrimary = true := by
      cases isPrimary with
      | true => rfl
      | false => exact absurd (husers.acting _ hmem userId rfl) hbound
    have hnone := husers.no_rows hmem rfl
    have hnopromote := husers.promoting_eq_zero hbound
    rw [if_pos ⟨howner, hprimary⟩, primaries_eq_zero hnone] at hprimaries
    rw [if_pos howner] at hwallets
    exact ⟨by omega, by omega⟩

structure Sound (w : Tasks Tables Point) : Prop where
  users : Users w
  unique : UniqueKeys w.shared.bindings
  one : ∀ userId ∈ w.shared.bound, One userId w.shared.bindings w.points

theorem Sound.start (h : Sound ⟨s, points⟩) (hp : walletRequests.starts s p = true) :
    Sound ⟨s, points ++ [p]⟩ := by
  refine ⟨h.users.start hp, h.unique, fun userId hu => ⟨(h.one userId hu).wallet, ?_⟩⟩
  have hnot : p.promotes userId = false := by
    cases p with
    | findAnother _ => cases hp
    | promote _ _ => cases hp
    | _ => rfl
  have hone := (h.one userId hu).primary
  simp only [promoting] at hone ⊢
  rw [countP_start hnot]
  exact hone

theorem Sound.unique_step (h : Sound ⟨s, points⟩) (hp : points[i]? = some p)
    (hstep : Advance s p q s') : UniqueKeys s'.bindings := by
  cases hstep with
  | @cleared publicKey userId =>
    simp only
    rw [updateNotPrimary_eq_self (h.users.no_rows (List.mem_of_getElem? hp) rfl)]
    exact h.unique
  | saved _ hfree hkey _ _ => exact h.unique.insert (hkey ▸ hfree)
  | removed =>
    intro id id' b b' hread hread' hkey
    rw [Store.lookup_erase_ite] at hread hread'
    split at hread
    · cases hread
    · split at hread'
      · cases hread'
      · exact h.unique id id' b b' hread hread' hkey
  | promoted hfree => exact h.unique.insert hfree
  | _ => exact h.unique

/-- A user who was bound keeps one primary wallet, or one request that is to promote one. -/
theorem Sound.one_step (h : Sound ⟨s, points⟩) (hp : points[i]? = some p)
    (hG : UpToDate now input i p ⟨s, points⟩) (hstep : Advance s p q s') :
    ∀ userId ∈ s'.bound, One userId s'.bindings (points.set i q) := by
  intro userId hu
  cases hstep with
  | @cleared publicKey owner =>
    -- a user who is being created has no wallets, so none is taken from being primary
    have hnone := updateNotPrimary_eq_self (h.users.no_rows (List.mem_of_getElem? hp) rfl)
    simp only [hnone]
    exact (h.one userId hu).of_eq hp rfl
  | saved hfree _ _ howner hprimary =>
    exact One.saved h.users (h.one userId) hp hfree howner hprimary hu
  | removed => exact (h.one userId hu).removed hp hG
  | another _ => exact (h.one userId hu).of_eq hp rfl
  | @alone owner hnone =>
    -- this is where the account would be lost: a user who was bound has a wallet
    have howner := h.users.acting _ (List.mem_of_getElem? hp) owner rfl
    have hwallet := (h.one owner howner).wallet
    simp only [hnone] at hwallet
    omega
  | promoted _ => exact (h.one userId hu).promoted hp hG
  | notPromoted htaken =>
    -- the save fails where another row has the public key, which the condition excludes
    rcases hG with hread | ⟨-, hfree⟩
    · rw [h.unique.not_taken hread] at htaken
      cases htaken
    · simp [htaken] at hfree
  | @reject _ _ hfind hpromote | @fail _ hfind hpromote =>
    refine (h.one userId hu).of_eq hp ?_
    cases p with
    | findAnother owner => exact absurd rfl (hfind owner)
    | promote id b => exact absurd rfl (hpromote id b)
    | _ => rfl
  | _ => exact (h.one userId hu).of_eq hp rfl

/-! ## Runs -/

theorem sound_nil : Sound ⟨⟨[], ∅, []⟩, []⟩ where
  users := ⟨fun _ _ hread => by simp at hread, fun _ hu => absurd hu List.not_mem_nil,
    fun _ hp => absurd hp List.not_mem_nil, fun _ hp => absurd hp List.not_mem_nil, apart_nil⟩
  unique := fun _ _ _ _ hread => by simp at hread
  one := fun _ hu => absurd hu List.not_mem_nil

/-- Where no request is in progress no request is to promote a wallet. -/
theorem promoting_of_idle {w : Tasks Tables Point} (h : walletRequests.Idle w) :
    promoting userId w.points = 0 := by
  rw [promoting, List.countP_eq_zero]
  intro p hp hpromotes
  have hend := h p hp 0 "" w.shared
  cases p with
  | findAnother owner =>
    simp only [walletRequests, Point.resume] at hend
    split at hend <;> cases hend
  | promote id b =>
    simp only [walletRequests, Point.resume] at hend
    split at hend <;> cases hend
  | _ => cases hpromotes

/-- **Wallet bindings.** In a run in which wallets are removed and promoted as they were loaded,
whenever no request is in progress every user who was bound has a wallet, and exactly one primary
one, and no two wallets have one public key. -/
theorem consistent_of_upToDate {t₀ : ℕ} {w : World (Tasks Tables Point)}
    {log : Async.Log Tables Point String}
    (h : walletRequests.contract.Run ⟨t₀, ⟨⟨[], ∅, []⟩, []⟩⟩ w log)
    (hG : ∀ c ∈ log, Async.OnStep UpToDate c) (hidle : walletRequests.Idle w.store) :
    Consistent w.store.shared := by
  obtain ⟨hend, -⟩ := Async.invariant (I := Sound) (fun _ _ _ hs hp => hs.start hp)
    (fun _ _ _ _ _ _ _ _ hs hp hg hq => by
      have hstep := advance_of_resume hq
      exact ⟨hs.users.step hp hstep, hs.unique_step hp hstep, hs.one_step hp hg hstep⟩)
    h sound_nil hG
  refine ⟨fun userId hu => (hend.one userId hu).wallet, fun userId hu => ?_, hend.unique⟩
  have hone := (hend.one userId hu).primary
  rw [promoting_of_idle hidle] at hone
  exact hone

/-- A user is created with the wallet A and binds the wallet B. -/
def twoWallets : List (ℕ × Move Point String) :=
  [(0, .start (.createUserWithWallet "A")), (0, .resume 0 "alice"), (0, .resume 0 ""),
    (0, .resume 0 ""), (0, .resume 0 "w1"), (1, .start (.findExisting "B" "alice" false)),
    (1, .resume 1 ""), (1, .resume 1 "w2")]

/-- The user unbinds the primary wallet. -/
def unbindPrimary : List (ℕ × Move Point String) :=
  twoWallets ++ [(2, .start (.findOwn "A" "alice")), (2, .resume 2 ""), (2, .resume 2 ""),
    (2, .resume 2 ""), (2, .resume 2 "w2"), (2, .resume 2 "")]

theorem consistent_of_upToDate_sample :
    let run := walletRequests.contract.play ⟨0, ⟨⟨[], ∅, []⟩, []⟩⟩ unbindPrimary
    run.1.store.shared.bound = ["alice", "alice"] ∧ Consistent run.1.store.shared := by
  intro run
  have hpoints : run.1.store.points = [.bound "w1", .bound "w2", .unbound] := by decide
  have hidle : walletRequests.Idle run.1.store := by
    intro p hp now input s
    rw [hpoints] at hp
    simp only [List.mem_cons, List.not_mem_nil, or_false] at hp
    rcases hp with rfl | rfl | rfl <;> rfl
  exact ⟨by decide, consistent_of_upToDate
    (Contract.run_play _ _ unbindPrimary (by decide)) (by decide) hidle⟩

/-- The user unbinds both wallets at once. -/
def unbindBoth : List (ℕ × Move Point String) :=
  twoWallets ++ [(2, .start (.findOwn "A" "alice")), (2, .start (.findOwn "B" "alice")),
    (2, .resume 2 ""), (2, .resume 3 ""), (2, .resume 2 ""), (2, .resume 3 ""), (2, .resume 2 ""),
    (2, .resume 3 ""), (2, .resume 2 "")]

/-- No wallet is left. -/
theorem lost_wallets :
    ¬ ∀ w log, walletRequests.contract.Run ⟨0, ⟨⟨[], ∅, []⟩, []⟩⟩ w log →
      walletRequests.Idle w.store → Consistent w.store.shared := by
  intro hall
  have hpoints : (walletRequests.contract.play ⟨0, ⟨⟨[], ∅, []⟩, []⟩⟩ unbindBoth).1.store.points =
      [.bound "w1", .bound "w2", .unbound, .unbound] := by decide
  have hidle : walletRequests.Idle
      (walletRequests.contract.play ⟨0, ⟨⟨[], ∅, []⟩, []⟩⟩ unbindBoth).1.store := by
    intro p hp now input s
    rw [hpoints] at hp
    simp only [List.mem_cons, List.not_mem_nil, or_false] at hp
    rcases hp with rfl | rfl | rfl | rfl <;> rfl
  have hconsistent := hall _ _ (Contract.run_play walletRequests.contract ⟨0, ⟨⟨[], ∅, []⟩, []⟩⟩
    unbindBoth (by decide)) hidle
  exact absurd (hconsistent.wallet "alice" (by decide)) (by decide)

end Stellara.Wallets
