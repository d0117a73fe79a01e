import Stellara.Academy.Badges

/-!
# Redemptions and their quote

The quote of a discount and the redemption check the same three things of a badge: it is active, not
expired, and has redemptions left. Where a redemption returns, the quote before it is the discount.
A transaction is redeemed once by anybody, and a badge at most as often as it allows until the next
one takes its place.

## Main definitions

* `getUserDiscount`: the quote
* `redemptionsOf`: the users and the transactions of the redemptions of a run
* `Spent`: how often the badge of a user was redeemed since it was awarded

## Main results

* `getUserDiscount_of_redeem`: a redemption returns what is quoted
* `redemptions_of_run`: no run redeems a transaction twice
* `redemption_rules`: the quote, the transactions and the limits of all runs
-/

namespace Stellara.AcademyRewards

variable {now discountBps : ℕ} {user recipient : Address} {transactionHash : String} {s s' : State}

/-! ## The quote -/

/-- Check if the user has an active badge and get its discount. -/
def getUserDiscount (now : ℕ) (user : Address) (s : State) : ℕ :=
  match s.badges.lookup user with
  | some badge =>
    if badge.active = false then 0
    else if 0 < badge.expiry ∧ badge.expiry < now then 0
    else if 0 < badge.maxRedemptions ∧ badge.maxRedemptions ≤ badge.redeemedCount then 0
    else badge.discountBps
  | none => 0

/-- A redemption returns what is quoted in the state before it. -/
theorem getUserDiscount_of_redeem
    (h : redeemBadge now user transactionHash s = .ok (discountBps, s')) :
    getUserDiscount now user s = discountBps := by
  obtain ⟨badge, hbadge, hactive, hexpiry, hlimit, rfl⟩ := redeemBadge_checks h
  -- none of the three ways to a quote of zero is open
  simp only [getUserDiscount, hbadge, hactive]
  rw [if_neg (by simp), if_neg hexpiry, if_neg hlimit]

/-! ## What the calls do -/

/-- The user and the transaction of a redemption. -/
def redeemed? : Call → Option (Address × String)
  | .redeemBadge user transactionHash => some (user, transactionHash)
  | _ => none

/-- The user whom a call awards a badge. -/
def awarded? : Call → Option Address
  | .mintBadge _ recipient _ => some recipient
  | _ => none

theorem redeemed_of_quiet {call : Call} (h : call.quiet = true) : redeemed? call = none := by
  cases call <;> first | rfl | cases h

/-! ## Transactions -/

variable {w₀ w : World State} {log past rest : List (Commit State Call (Option ℕ))}
  {c : Commit State Call (Option ℕ)}

/-- The users and the transactions of the redemptions of a run. -/
def redemptionsOf (log : List (Commit State Call (Option ℕ))) : List (Address × String) :=
  log.filterMap fun c => redeemed? c.call

theorem redemptionsOf_append :
    redemptionsOf (log ++ [c]) = redemptionsOf log ++ (redeemed? c.call).toList := by
  unfold redemptionsOf
  rw [List.filterMap_append]
  cases h : redeemed? c.call <;> simp [h]

/-- The redeemed transactions are used, and distinct. -/
structure Once (s : State) (redemptions : List (Address × String)) : Prop where
  used : ∀ redemption ∈ redemptions, s.usedTransactionHashes.lookup redemption.2 ≠ none
  nodup : (redemptions.map Prod.snd).Nodup

theorem Once.keep {redemptions : List (Address × String)} (h : Once s redemptions)
    (hused : s'.usedTransactionHashes = s.usedTransactionHashes) : Once s' redemptions :=
  ⟨fun redemption hmem => hused ▸ h.used redemption hmem, h.nodup⟩

/-- A transaction that was not used is added. -/
theorem Once.redeem {redemptions : List (Address × String)} (h : Once s redemptions)
    (hnew : s.usedTransactionHashes.lookup transactionHash = none)
    (hused : s'.usedTransactionHashes = s.usedTransactionHashes.insert transactionHash true) :
    Once s' (redemptions ++ [(user, transactionHash)]) where
  used := by
    intro redemption hmem
    rw [hused, Store.lookup_insert_ite]
    rcases List.mem_append.mp hmem with hold | hlast
    · split
      · simp
      · exact h.used redemption hold
    · obtain rfl := List.mem_singleton.mp hlast
      simp
  nodup := by
    rw [List.map_append, List.map_singleton, ← List.concat_eq_append, List.nodup_concat]
    refine ⟨fun hold => ?_, h.nodup⟩
    -- the transaction of an earlier redemption is marked as used
    obtain ⟨redemption, hmem, heq⟩ := List.mem_map.mp hold
    exact h.used redemption hmem (by rwa [heq])

/-- Every call extends the redemptions by a new transaction, or not. -/
theorem Effect.once {call : Call} (heffect : Effect now s s' call)
    {redemptions : List (Address × String)} (h : Once s redemptions) :
    Once s' (redemptions ++ (redeemed? call).toList) := by
  cases heffect with
  | kept hquiet _ hsame =>
    rw [redeemed_of_quiet hquiet, Option.toList_none, List.append_nil]
    exact h.keep hsame.used
  | created _ _ hused _ | awarded _ _ _ hused _ =>
    simpa only [redeemed?, Option.toList_none, List.append_nil] using h.keep hused
  | revoked _ _ hsame =>
    simpa only [redeemed?, Option.toList_none, List.append_nil] using h.keep hsame.used
  | redeemed hnew _ _ _ _ hused _ => exact h.redeem hnew hused

/-- After every run, from any state, its redemptions are of distinct transactions. -/
theorem redemptions_of_run (hrun : contract.Run w₀ w log) : Once w.store (redemptionsOf log) := by
  refine hrun.invariant_log (I := fun _ s log => Once s (redemptionsOf log))
    ⟨by simp [redemptionsOf], by simp [redemptionsOf]⟩ (fun _ _ _ _ _ h => h) ?_
  intro t k r s s' log h he
  rw [redemptionsOf_append]
  exact (execute_effect he).once h

/-! ## Limits -/

/-- The number of redemptions of a user. -/
def timesRedeemed (user : Address) (log : List (Commit State Call (Option ℕ))) : ℕ :=
  ((redemptionsOf log).map Prod.fst).count user

theorem timesRedeemed_append : timesRedeemed user (log ++ [c]) =
    timesRedeemed user log + ((redeemed? c.call).map Prod.fst).toList.count user := by
  unfold timesRedeemed
  rw [redemptionsOf_append, List.map_append, List.count_append]
  cases redeemed? c.call <;> rfl

/-- The badge of the user allows `max` redemptions and counts `n`, which it allows. -/
def Spent (user : Address) (max n : ℕ) (s : State) : Prop :=
  ∃ badge, s.badges.lookup user = some badge ∧ badge.maxRedemptions = max ∧
    badge.redeemedCount = n ∧ (0 < max → n ≤ max)

/-- A call that does not award a badge to the user counts the redemption of the user, if it is one.
-/
theorem Effect.spent {call : Call} {max n : ℕ} (heffect : Effect now s s' call)
    (hcall : awarded? call ≠ some user) (h : Spent user max n s) :
    Spent user max (n + ((redeemed? call).map Prod.fst).toList.count user) s' := by
  obtain ⟨badge, hbadge, rfl, rfl, hle⟩ := h
  cases heffect with
  | kept hquiet hbadges _ =>
    rw [redeemed_of_quiet hquiet]
    exact ⟨badge, by rwa [hbadges], rfl, rfl, hle⟩
  | created hbadges _ _ _ => exact ⟨badge, by rwa [hbadges], rfl, rfl, hle⟩
  | awarded _ hbadges _ _ _ =>
    refine ⟨badge, ?_, rfl, rfl, hle⟩
    rwa [hbadges, Store.lookup_insert_ite, if_neg fun heq => hcall (congrArg some heq.symm)]
  | revoked hbadge' hbadges _ =>
    unfold Spent
    rw [hbadges, Store.lookup_insert_ite]
    split
    · rename_i hsame
      subst hsame
      obtain rfl := Option.some.inj (hbadge'.symm.trans hbadge)
      exact ⟨_, rfl, rfl, rfl, hle⟩
    · exact ⟨badge, hbadge, rfl, rfl, hle⟩
  | @redeemed user' transactionHash badge' _ hbadge' hlimit hbadges _ _ _ =>
    unfold Spent
    rw [hbadges, Store.lookup_insert_ite]
    simp only [redeemed?, Option.map_some, Option.toList_some, List.count_singleton, beq_iff_eq]
    by_cases hsame : user' = user
    · -- the limit was checked before the count grew
      subst hsame
      obtain rfl := Option.some.inj (hbadge'.symm.trans hbadge)
      rw [if_pos rfl, if_pos rfl]
      exact ⟨_, rfl, rfl, rfl, fun hpos => by omega⟩
    · rw [if_neg (Ne.symm hsame), if_neg hsame]
      exact ⟨badge, hbadge, rfl, rfl, hle⟩

/-- A run without an award to the user counts the redemptions of the user. -/
theorem spent_of_run {max : ℕ} (hrun : contract.Run w₀ w log) (h : Spent user max 0 w₀.store)
    (hcalls : ∀ c ∈ log, awarded? c.call ≠ some user) : Spent user max (timesRedeemed user log) w.store := by
  refine hrun.invariant_log (I := fun _ s log => (∀ c ∈ log, awarded? c.call ≠ some user) →
    Spent user max (timesRedeemed user log) s) (fun _ => h) (fun _ _ _ _ _ h => h) ?_ hcalls
  intro t k r s s' log ih he hcalls
  rw [timesRedeemed_append]
  exact (execute_effect he).spent (hcalls ⟨t, k, r, s, s'⟩ (by simp))
    (ih fun c hc => hcalls c (List.mem_append_left _ hc))

/-- The badge that a call awards has no redemptions. -/
theorem spent_of_award {admin : Address} {badgeType : ℕ} {r : Option ℕ}
    (h : execute now s (.mintBadge admin recipient badgeType) = .ok (r, s')) :
    ∃ badge, s'.badges.lookup recipient = some badge ∧ Spent recipient badge.maxRedemptions 0 s' := by
  simp only [execute, Except.bind_eq_ok] at h
  obtain ⟨_, h₁, h⟩ := h
  obtain ⟨-, rfl⟩ := Prod.mk.inj (Except.ok.inj h)
  obtain ⟨badge, events, hcount, rfl⟩ := mintBadge_eq_ok h₁
  have hlookup : (s.badges.insert recipient badge).lookup recipient = some badge := by
    rw [Store.lookup_insert_ite, if_pos rfl]
  exact ⟨badge, hlookup, badge, hlookup, rfl, hcount, fun _ => Nat.zero_le _⟩

/-- In every run the badge that a mint leaves is redeemed, up to the next mint for its holder, at
most as often as it allows. -/
theorem redemptions_le {admin : Address} {badgeType : ℕ} (hrun : contract.Run w₀ w log)
    (hlog : past ++ c :: rest <+: log) (hmint : c.call = .mintBadge admin recipient badgeType)
    (hrest : ∀ c ∈ rest, awarded? c.call ≠ some recipient) :
    ∃ badge, c.after.badges.lookup recipient = some badge ∧
      (0 < badge.maxRedemptions → timesRedeemed recipient rest ≤ badge.maxRedemptions) := by
  -- the commits up to the next mint are a run of their own, and so are those behind the mint
  obtain ⟨w', hrun⟩ := hrun.of_prefix hlog
  have hexec : execute c.time c.before c.call = .ok (c.result, c.after) :=
    hrun.exec_of_mem c (by simp)
  rw [hmint] at hexec
  obtain ⟨badge, hbadge, hspent⟩ := spent_of_award hexec
  obtain ⟨_, -, -, -, hle⟩ := spent_of_run (hrun.from_commit rfl) hspent hrest
  exact ⟨badge, hbadge, hle⟩

/-- In every state a redemption returns what is quoted; and in every run from any state each
transaction is redeemed at most once, and the badge that a mint leaves at most as often as it
allows, up to the next mint for its holder. -/
theorem redemption_rules :
    (∀ now user transactionHash s discountBps s',
      redeemBadge now user transactionHash s = .ok (discountBps, s') →
        getUserDiscount now user s = discountBps) ∧
    ∀ w₀ w log, contract.Run w₀ w log →
      ((redemptionsOf log).map Prod.snd).Nodup ∧
      ∀ past c rest admin recipient badgeType, past ++ c :: rest <+: log →
        c.call = .mintBadge admin recipient badgeType → (∀ c ∈ rest, awarded? c.call ≠ some recipient) →
        ∃ badge, c.after.badges.lookup recipient = some badge ∧
          (0 < badge.maxRedemptions → timesRedeemed recipient rest ≤ badge.maxRedemptions) :=
  ⟨fun _ _ _ _ _ _ => getUserDiscount_of_redeem, fun _ _ _ hrun =>
    ⟨(redemptions_of_run hrun).nodup, fun _ _ _ _ _ _ => redemptions_le hrun⟩⟩

/-- A badge that allows two redemptions is awarded, and three transactions are tried. -/
def limitedCalls : List (ℕ × Call) :=
  [(1, .init ⟨5⟩ ⟨1000, 1000, 3600⟩), (2, .createBadgeType ⟨5⟩ 1 "Bronze" 500 2 0),
    (3, .mintBadge ⟨5⟩ ⟨1⟩ 1), (4, .redeemBadge ⟨1⟩ "tx-1"), (5, .redeemBadge ⟨1⟩ "tx-2"),
    (6, .redeemBadge ⟨1⟩ "tx-3")]

/-- The first two are redeemed for the quoted discount. -/
theorem redemption_rules_sample :
    getUserDiscount 4 ⟨1⟩ (contract.play ⟨0, State.empty⟩ (limitedCalls.take 3)).1.store = 500 ∧
      ((redemptionsOf (contract.play ⟨0, State.empty⟩ limitedCalls).2).map Prod.snd).Nodup ∧
      ∃ badge, ((contract.play ⟨0, State.empty⟩ limitedCalls).2.get
            ⟨2, by decide⟩).after.badges.lookup ⟨1⟩ = some badge ∧
        (0 < badge.maxRedemptions →
          timesRedeemed ⟨1⟩ ((contract.play ⟨0, State.empty⟩ limitedCalls).2.drop 3) ≤
            badge.maxRedemptions) := by
  have hrun := redemption_rules.2 _ _ _
    (Contract.run_play contract ⟨0, State.empty⟩ limitedCalls (by decide))
  refine ⟨redemption_rules.1 4 ⟨1⟩ "tx-1" _ 500 _ rfl, hrun.1, ?_⟩
  exact hrun.2 ((contract.play ⟨0, State.empty⟩ limitedCalls).2.take 2) _ _ ⟨5⟩ ⟨1⟩ 1 ⟨[], rfl⟩ rfl
    (by decide)

end Stellara.AcademyRewards
