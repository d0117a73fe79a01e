import Stellara.Lib.Store
import Stellara.Lib.Tasks

/-!
# Wallet bindings

A wallet is bound to a user by its public key, which is a unique column. A first login creates the
user with a primary wallet; after that the user binds other wallets and unbinds wallets, of which
the last one has to stay, and when the primary one goes another one becomes primary. Each access
to a table is a step of its own.

## Main definitions

* `WalletBinding`: the rows of the table
* `Point.resume`, `walletRequests`: `createUserWithWallet`, `bindWalletToUser` and `unbindWallet`,
  one access to a table after the other
* `wallets`, `primaries`: the number of wallets, and of primary wallets, of a user

## Main results

* `advance_of_resume`: what a step does
-/

namespace Stellara.Wallets

structure WalletBinding where
  publicKey : String
  userId : String
  isPrimary : Bool
  lastUsed : ℕ
deriving DecidableEq, Repr

/-- The rows by their ids. -/
abbrev WalletBindingRepository := Store String WalletBinding

structure Tables where
  /-- The ids of the stored users. -/
  users : List String
  bindings : WalletBindingRepository
  /-- The users whose first binding was stored, who can get a token of the API. -/
  bound : List String

inductive BindingError where
  | alreadyBound
  | notOwned
  | onlyWallet
deriving DecidableEq, Repr

def BindingError.message : BindingError → String
  | .alreadyBound => "Wallet already bound to an account"
  | .notOwned => "Wallet not found or not owned by user"
  | .onlyWallet => "Cannot unbind the only wallet. Account must have at least one wallet."

/-! ## The repository -/

/-- Another row than the one of the id has the public key. -/
def taken (id publicKey : String) (bindings : WalletBindingRepository) : Bool :=
  (bindings.find? fun id' b => id' ≠ id ∧ b.publicKey = publicKey).isSome

/-- The insert of a new row; `none` where its id or its public key is taken. -/
def insert (id : String) (b : WalletBinding) (bindings : WalletBindingRepository) :
    Option WalletBindingRepository :=
  if (bindings.lookup id).isSome ∨ taken id b.publicKey bindings then none
  else some (AList.insert id b bindings)

/-- The save of a row that was loaded: it is updated, or inserted again where it is gone. `none`
where another row has its public key. -/
def save (id : String) (b : WalletBinding) (bindings : WalletBindingRepository) :
    Option WalletBindingRepository :=
  if taken id b.publicKey bindings then none else some (AList.insert id b bindings)

def updateNotPrimary (userId : String) (bindings : WalletBindingRepository) :
    WalletBindingRepository :=
  bindings.mapValues fun _ b => if b.userId = userId then { b with isPrimary := false } else b

/-- The number of wallets of a user. -/
def wallets (userId : String) (bindings : WalletBindingRepository) : ℕ :=
  bindings.total fun _ b => if b.userId = userId then 1 else 0

/-- The number of primary wallets of a user. -/
def primaries (userId : String) (bindings : WalletBindingRepository) : ℕ :=
  bindings.total fun _ b => if b.userId = userId ∧ b.isPrimary then 1 else 0

/-- Some wallet of the user, if there is one; which one the query gives is up to the database. -/
def findAnother (choice userId : String) (bindings : WalletBindingRepository) :
    Option (String × WalletBinding) :=
  match (bindings.lookup choice).filter fun b => b.userId = userId with
  | some b => some (choice, b)
  | none => bindings.find? fun _ b => b.userId = userId

/-! ## Requests -/

/-- What a request is about to do. -/
inductive Point where
  | createUserWithWallet (publicKey : String)
  /-- `bindWalletToUser`, from its start. -/
  | findExisting (publicKey userId : String) (isPrimary : Bool)
  | clearPrimaries (publicKey userId : String)
  | saveBinding (publicKey userId : String) (isPrimary : Bool)
  | bound (id : String)
  /-- `unbindWallet`, from its start. -/
  | findOwn (publicKey userId : String)
  | countWallets (id : String) (binding : WalletBinding)
  | remove (id : String) (binding : WalletBinding)
  | findAnother (userId : String)
  /-- The other wallet, as it was loaded, is to become primary. -/
  | promote (id : String) (anotherWallet : WalletBinding)
  | unbound
  | rejected (e : BindingError)
  /-- A row could not be stored. -/
  | failed
deriving DecidableEq, Repr

/-- From outside come the id of a new row, and the choice of the database between rows. -/
def Point.resume (now : ℕ) (input : String) (s : Tables) : Point → Option (Point × Tables)
  | .createUserWithWallet publicKey =>
    if input ∈ s.users then some (.failed, s)
    else some (.findExisting publicKey input true, { s with users := input :: s.users })
  | .findExisting publicKey userId isPrimary =>
    match s.bindings.find? fun _ b => b.publicKey = publicKey with
    | some _ => some (.rejected .alreadyBound, s)
    | none =>
      if isPrimary then some (.clearPrimaries publicKey userId, s)
      else some (.saveBinding publicKey userId false, s)
  | .clearPrimaries publicKey userId =>
    some (.saveBinding publicKey userId true,
      { s with bindings := updateNotPrimary userId s.bindings })
  | .saveBinding publicKey userId isPrimary =>
    match insert input ⟨publicKey, userId, isPrimary, now⟩ s.bindings with
    | some bindings => some (.bound input, { s with bindings, bound := userId :: s.bound })
    | none => some (.failed, s)
  | .findOwn publicKey userId =>
    match s.bindings.find? fun _ b => b.publicKey = publicKey ∧ b.userId = userId with
    | some (id, binding) => some (.countWallets id binding, s)
    | none => some (.rejected .notOwned, s)
  | .countWallets id binding =>
    if wallets binding.userId s.bindings = 1 then some (.rejected .onlyWallet, s)
    else some (.remove id binding, s)
  | .remove id binding =>
    let s' := { s with bindings := s.bindings.erase id }
    if binding.isPrimary then some (.findAnother binding.userId, s') else some (.unbound, s')
  | .findAnother userId =>
    match Wallets.findAnother input userId s.bindings with
    | some (id, anotherWallet) => some (.promote id anotherWallet, s)
    | none => some (.unbound, s)
  | .promote id anotherWallet =>
    match save id { anotherWallet with isPrimary := true } s.bindings with
    | some bindings => some (.unbound, { s with bindings })
    | none => some (.failed, s)
  | _ => none

/-- The requests. Only a user who was bound can get the token with which wallets are bound and
unbound. -/
def walletRequests : Async Tables Point String where
  starts s
    | .createUserWithWallet _ => true
    | .findExisting _ userId isPrimary => isPrimary = false ∧ userId ∈ s.bound
    | .findOwn _ userId => userId ∈ s.bound
    | _ => false
  resume now input p s := p.resume now input s

/-! ## Steps -/

section Steps

variable {now : ℕ} {input id publicKey userId : String} {s s' : Tables} {p q : Point}
  {bindings bindings' : WalletBindingRepository} {b : WalletBinding}

/-- What a step does. -/
inductive Advance (s : Tables) : Point → Point → Tables → Prop
  | create {publicKey userId : String} : userId ∉ s.users →
      Advance s (.createUserWithWallet publicKey) (.findExisting publicKey userId true)
        { s with users := userId :: s.users }
  | clear {publicKey userId : String} :
      Advance s (.findExisting publicKey userId true) (.clearPrimaries publicKey userId) s
  | bind {publicKey userId : String} :
      Advance s (.findExisting publicKey userId false) (.saveBinding publicKey userId false) s
  | cleared {publicKey userId : String} :
      Advance s (.clearPrimaries publicKey userId) (.saveBinding publicKey userId true)
        { s with bindings := updateNotPrimary userId s.bindings }
  | saved {publicKey userId id : String} {isPrimary : Bool} {b : WalletBinding} :
      s.bindings.lookup id = none → taken id publicKey s.bindings = false →
      b.publicKey = publicKey → b.userId = userId → b.isPrimary = isPrimary →
      Advance s (.saveBinding publicKey userId isPrimary) (.bound id)
        { s with bindings := AList.insert id b s.bindings, bound := userId :: s.bound }
  | owned {publicKey id : String} {b : WalletBinding} :
      s.bindings.lookup id = some b →
      Advance s (.findOwn publicKey b.userId) (.countWallets id b) s
  | counted {id : String} {b : WalletBinding} :
      Advance s (.countWallets id b) (.remove id b) s
  | removed {id : String} {b : WalletBinding} :
      Advance s (.remove id b) (if b.isPrimary then .findAnother b.userId else .unbound)
        { s with bindings := s.bindings.erase id }
  | another {id : String} {b : WalletBinding} : s.bindings.lookup id = some b →
      Advance s (.findAnother b.userId) (.promote id b) s
  | alone {userId : String} : wallets userId s.bindings = 0 →
      Advance s (.findAnother userId) .unbound s
  | promoted {id : String} {b : WalletBinding} : taken id b.publicKey s.bindings = false →
      Advance s (.promote id b) .unbound
        { s with bindings := AList.insert id { b with isPrimary := true } s.bindings }
  | notPromoted {id : String} {b : WalletBinding} : taken id b.publicKey s.bindings = true →
      Advance s (.promote id b) .failed s
  | reject {p : Point} {e : BindingError} : (∀ userId, p ≠ .findAnother userId) →
      (∀ id b, p ≠ .promote id b) → Advance s p (.rejected e) s
  | fail {p : Point} : (∀ userId, p ≠ .findAnother userId) → (∀ id b, p ≠ .promote id b) →
      Advance s p .failed s

theorem findAnother_eq_some (h : findAnother input userId bindings = some (id, b)) :
    bindings.lookup id = some b ∧ b.userId = userId := by
  unfold findAnother at h
  split at h
  · rename_i hfilter
    obtain ⟨rfl, rfl⟩ := Prod.mk.inj (Option.some.inj h)
    obtain ⟨hread, huser⟩ := Option.filter_eq_some_iff.mp hfilter
    exact ⟨hread, of_decide_eq_true huser⟩
  · obtain ⟨hread, huser⟩ := Store.find?_eq_some h
    exact ⟨hread, of_decide_eq_true huser⟩

theorem findAnother_eq_none (h : findAnother input userId bindings = none) :
    wallets userId bindings = 0 := by
  unfold findAnother at h
  split at h
  · cases h
  · refine Store.total_eq_zero fun id b hread => if_neg ?_
    exact of_decide_eq_false (Store.find?_eq_none.mp h id b hread)

theorem advance_of_resume (h : p.resume now input s = some (q, s')) : Advance s p q s' := by
  cases p with
  | createUserWithWallet publicKey =>
    simp only [Point.resume] at h
    split at h
    · obtain ⟨rfl, rfl⟩ := Prod.mk.inj (Option.some.inj h)
      exact .fail (by simp) (by simp)
    · obtain ⟨rfl, rfl⟩ := Prod.mk.inj (Option.some.inj h)
      exact .create ‹_›
  | findExisting publicKey userId isPrimary =>
    simp only [Point.resume] at h
    split at h
    · obtain ⟨rfl, rfl⟩ := Prod.mk.inj (Option.some.inj h)
      exact .reject (by simp) (by simp)
    · cases isPrimary with
      | true =>
        obtain ⟨rfl, rfl⟩ := Prod.mk.inj (Option.some.inj h)
        exact .clear
      | false =>
        obtain ⟨rfl, rfl⟩ := Prod.mk.inj (Option.some.inj h)
        exact .bind
  | clearPrimaries publicKey userId =>
    obtain ⟨rfl, rfl⟩ := Prod.mk.inj (Option.some.inj h)
    exact .cleared
  | saveBinding publicKey userId isPrimary =>
    simp only [Point.resume] at h
    split at h
    · rename_i bindings hinsert
      obtain ⟨rfl, rfl⟩ := Prod.mk.inj (Option.some.inj h)
      unfold insert at hinsert
      split at hinsert
      · cases hinsert
      · rename_i hfree
        obtain rfl := Option.some.inj hinsert
        rw [not_or, Option.not_isSome_iff_eq_none, Bool.not_eq_true] at hfree
        exact .saved hfree.1 hfree.2 rfl rfl rfl
    · obtain ⟨rfl, rfl⟩ := Prod.mk.inj (Option.some.inj h)
      exact .fail (by simp) (by simp)
  | findOwn publicKey userId =>
    simp only [Point.resume] at h
    split at h
    · rename_i hfind
      obtain ⟨rfl, rfl⟩ := Prod.mk.inj (Option.some.inj h)
      obtain ⟨hread, hown⟩ := Store.find?_eq_some hfind
      obtain ⟨-, rfl⟩ := of_decide_eq_true hown
      exact .owned hread
    · obtain ⟨rfl, rfl⟩ := Prod.mk.inj (Option.some.inj h)
      exact .reject (by simp) (by simp)
  | countWallets id b =>
    simp only [Point.resume] at h
    split at h
    · obtain ⟨rfl, rfl⟩ := Prod.mk.inj (Option.some.inj h)
      exact .reject (by simp) (by simp)
    · obtain ⟨rfl, rfl⟩ := Prod.mk.inj (Option.some.inj h)
      exact .counted
  | remove id b =>
    have hremoved : Advance s (.remove id b)
        (if b.isPrimary then .findAnother b.userId else .unbound)
        { s with bindings := s.bindings.erase id } := .removed
    simp only [Point.resume] at h
    split at h
    · rename_i hprimary
      obtain ⟨rfl, rfl⟩ := Prod.mk.inj (Option.some.inj h)
      rwa [if_pos hprimary] at hremoved
    · rename_i hprimary
      obtain ⟨rfl, rfl⟩ := Prod.mk.inj (Option.some.inj h)
      rwa [if_neg hprimary] at hremoved
  | findAnother userId =>
    simp only [Point.resume] at h
    split at h
    · rename_i hfind
      obtain ⟨rfl, rfl⟩ := Prod.mk.inj (Option.some.inj h)
      obtain ⟨hread, rfl⟩ := findAnother_eq_some hfind
      exact .another hread
    · rename_i hnone
      obtain ⟨rfl, rfl⟩ := Prod.mk.inj (Option.some.inj h)
      exact .alone (findAnother_eq_none hnone)
  | promote id b =>
    simp only [Point.resume, save] at h
    split at h
    · rename_i hsave
      obtain ⟨rfl, rfl⟩ := Prod.mk.inj (Option.some.inj h)
      split at hsave
      · cases hsave
      · rename_i hfree
        obtain rfl := Option.some.inj hsave
        exact .promoted (Bool.eq_false_iff.mpr hfree)
    · rename_i hsave
      obtain ⟨rfl, rfl⟩ := Prod.mk.inj (Option.some.inj h)
      split at hsave
      · exact .notPromoted ‹_›
      · cases hsave
  | _ => cases h

end Steps

end Stellara.Wallets
