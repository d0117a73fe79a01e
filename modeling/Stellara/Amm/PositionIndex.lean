import Stellara.Lib.Index
import Stellara.Amm.Exits

/-!
# The index of the positions

Positions are numbered in the order in which they are created. The contract keeps them under their
numbers, and beside them a list of numbers for every owner. A deposit appends to a list, a full
removal takes out of one, and a partial removal and a collection of fees write a position back and
leave the lists. The lists are an index of the positions throughout.

## Main definitions

* `getLpPositions`: the positions of an owner, read through the list
* `IndexStep`: what a call does to the positions and the lists
* `Indexed`: the positions are well formed, and the lists are their index
* `issued`: the id that a call returns

## Main results

* `execute_indexStep`: every call changes the index in one of three ways
* `indexed_of_run`: every run keeps the index, and issues 1, 2, … in this order
-/

namespace Stellara.Amm

variable {τ : Type} {s s' : State τ}

/-- All positions of an owner, in the order of the list. -/
def getLpPositions (s : State τ) (owner : Address) : List LpPosition :=
  ((s.ownerPositions.lookup owner).getD []).filterMap s.positions.lookup

/-- The id of the position that a call created. -/
def issued : Result → Option ℕ
  | .added result => some result.positionId
  | _ => none

/-- The positions are stored under their ids, which were issued, with liquidity in a range of ticks,
and the lists hold the ids of the positions of their owners. -/
structure Indexed (s : State τ) : Prop where
  position : ∀ id p, s.positions.lookup id = some p →
    p.id = id ∧ (1 ≤ id ∧ id ≤ s.positionCount) ∧ 0 < p.liquidity ∧ p.tickLower < p.tickUpper
  lists : Store.Indexes LpPosition.owner s.positions s.ownerPositions

/-- The positions that are read through a list are those of its owner. -/
theorem Indexed.mem_getLpPositions (h : Indexed s) {owner : Address} {p : LpPosition} :
    p ∈ getLpPositions s owner ↔ p.owner = owner ∧ ∃ id, s.positions.lookup id = some p :=
  h.lists.mem_filterMap

/-! ## Steps -/

/-- What a call does to the positions and the lists, and the id that it issues. -/
inductive IndexStep (s s' : State τ) : Option ℕ → Prop where
  | kept (count : s'.positionCount = s.positionCount) (positions : s'.positions = s.positions)
      (lists : s'.ownerPositions = s.ownerPositions) : IndexStep s s' none
  | minted {p : LpPosition} (count : s'.positionCount = s.positionCount + 1)
      (positions : s'.positions = AList.insert (s.positionCount + 1) p s.positions)
      (lists : s'.ownerPositions = s.ownerPositions.insert p.owner
        (Store.listAt s.ownerPositions p.owner ++ [s.positionCount + 1])) :
      IndexStep s s' (some (s.positionCount + 1))
  | stored (p p' : LpPosition) (hp : s.positions.lookup p'.id = some p)
      (owner : p'.owner = p.owner) (count : s'.positionCount = s.positionCount)
      (positions : s'.positions = stored s.positions p')
      (lists : s'.ownerPositions = listed s.ownerPositions p.owner p') : IndexStep s s' none

section Steps

variable [TokenClient τ Address Address] {now : ℕ} {call : Call} {result : Result}

/-- Every call changes the positions and the lists in one of three ways. -/
theorem execute_indexStep (hsound : Sound s.pools s.positionCount s.positions)
    (h : execute now s call = .ok (result, s')) : IndexStep s s' (issued result) := by
  cases call with
  | createPool caller tokenA tokenB feeTier initSqrtPrice =>
    obtain ⟨t, ht, rfl, rfl⟩ := Except.map_pair_eq_ok.mp h
    rw [(createPool_eq_ok ht).2]
    exact .kept rfl rfl rfl
  | addLiquidity caller tokenA tokenB tickLower tickUpper amountDesiredA amountDesiredB minA minB =>
    obtain ⟨⟨added, t⟩, ht, rfl, rfl⟩ := Except.map_pair_eq_ok.mp h
    obtain ⟨-, -, -, -, -, -, -, -, -, -, -, -, -, -, -, -, -, -, -, rfl, rfl⟩ :=
      addLiquidity_eq_ok ht
    exact .minted rfl rfl rfl
  | removeLiquidity caller id r minA minB =>
    obtain ⟨⟨removed, t⟩, ht, rfl, rfl⟩ := Except.map_pair_eq_ok.mp h
    obtain ⟨p, -, insideA, insideB, -, -, -, -, -, -, -, -, hp, ⟨howner, -⟩, -, -, -, -, -, -, -, -,
      -, rfl⟩ := removeLiquidity_eq_ok ht
    have hid := (hsound.position id p hp).id_eq
    refine .stored p (afterRemoval p insideA insideB r) ?_ rfl rfl rfl ?_
    · show s.positions.lookup p.id = some p
      rw [hid, hp]
    · rw [howner]
  | collectFees caller id =>
    obtain ⟨⟨⟨owedA, owedB⟩, t⟩, ht, rfl, rfl⟩ := Except.map_pair_eq_ok.mp h
    obtain ⟨p, -, insideA, insideB, -, -, hp, howner, -, -, -, -, rfl⟩ := collectFees_eq_ok ht
    have hposition := hsound.position id p hp
    -- a collected position keeps its liquidity, so it is written back
    have hkept : (afterCollection p insideA insideB).liquidity ≠ 0 := hposition.liquidity_pos.ne'
    refine .stored p (afterCollection p insideA insideB) ?_ rfl rfl ?_ ?_
    · show s.positions.lookup p.id = some p
      rw [hposition.id_eq, hp]
    · exact (if_neg hkept).symm
    · exact (if_neg hkept).symm
  | swap caller tokenIn tokenOut amountIn minAmountOut =>
    obtain ⟨⟨swapped, t⟩, ht, rfl, rfl⟩ := Except.map_pair_eq_ok.mp h
    obtain ⟨-, -, -, -, -, -, -, -, -, -, -, -, -, rfl⟩ := swap_eq_ok ht
    exact .kept rfl rfl rfl
  | updateDynamicFee tokenA tokenB =>
    obtain ⟨⟨fee, t⟩, ht, rfl, rfl⟩ := Except.map_pair_eq_ok.mp h
    obtain ⟨-, -, rfl⟩ := updateDynamicFee_eq_ok ht
    exact .kept rfl rfl rfl
  | pause admin | unpause admin =>
    obtain ⟨t, ht, rfl, rfl⟩ := Except.map_pair_eq_ok.mp h
    rw [setPauseLevel_eq_ok ht]
    exact .kept rfl rfl rfl

end Steps

/-- A step keeps the index: the sound state that it leaves, and the lists that it wrote. -/
theorem Indexed.step {id? : Option ℕ} (h : Indexed s)
    (hsound : Sound s.pools s.positionCount s.positions)
    (hsound' : Sound s'.pools s'.positionCount s'.positions) (hstep : IndexStep s s' id?) :
    Indexed s' := by
  -- the ids that are stored after the step are new, or were stored before
  have hpos : ∀ id p, s'.positions.lookup id = some p → 1 ≤ id := by
    intro id p hp
    cases hstep with
    | kept _ hpositions _ =>
      rw [hpositions] at hp
      exact (h.position id p hp).2.1.1
    | minted _ hpositions _ =>
      rw [hpositions] at hp
      rcases Store.eq_or_lookup_of_insert hp with ⟨rfl, -⟩ | ⟨-, hp⟩
      · exact Nat.le_add_left 1 _
      · exact (h.position id p hp).2.1.1
    | stored q q' hq _ _ hpositions _ =>
      rw [hpositions] at hp
      rcases eq_or_lookup_of_stored hp with ⟨-, rfl, -⟩ | ⟨-, hp⟩
      · exact (h.position _ q hq).2.1.1
      · exact (h.position id p hp).2.1.1
  refine ⟨fun id p hp => ?_, ?_⟩
  · have hposition := hsound'.position id p hp
    exact ⟨hposition.id_eq, ⟨hpos id p hp, hsound'.id_le hp⟩, hposition.liquidity_pos,
      hposition.ticks⟩
  · cases hstep with
    | kept _ hpositions hlists =>
      rw [hpositions, hlists]
      exact h.lists
    | minted _ hpositions hlists =>
      rw [hpositions, hlists]
      exact h.lists.insert_new (hsound.fresh _ (Nat.lt_succ_self _))
    | stored q q' hq howner _ hpositions hlists =>
      rw [hpositions, hlists, Amm.stored, listed]
      split
      · exact h.lists.erase hq
      · exact h.lists.insert_old hq howner

/-! ## Runs -/

/-- The ids that were issued in the order of the log. -/
def issuedIds (log : List (Commit (State τ) Call Result)) : List ℕ :=
  log.filterMap fun c => issued c.result

/-- A new id is the next number. -/
theorem issuedIds_append {log : List (Commit (State τ) Call Result)} {t : ℕ} {k : Call} {r : Result}
    (h : issuedIds log = List.range' 1 s.positionCount) (hstep : IndexStep s s' (issued r)) :
    issuedIds (log ++ [⟨t, k, r, s, s'⟩]) = List.range' 1 s'.positionCount := by
  have happend : issuedIds (log ++ [⟨t, k, r, s, s'⟩]) = issuedIds log ++ (issued r).toList := by
    unfold issuedIds
    rw [List.filterMap_append]
    cases hr : issued r <;> simp [hr]
  rw [happend, h]
  generalize issued r = id? at hstep
  cases hstep with
  | kept hcount _ _ => rw [hcount, Option.toList_none, List.append_nil]
  | minted hcount _ _ => rw [hcount, Option.toList_some, List.range'_1_concat, Nat.add_comm 1]
  | stored _ _ _ _ hcount _ _ => rw [hcount, Option.toList_none, List.append_nil]

section Runs

variable [TokenClient τ Address Address] {now : ℕ} {admin contractAddress : Address}
  {cbConfig : CircuitBreakerConfig} {tokens : τ} {w₀ w : World (State τ)}
  {log : List (Commit (State τ) Call Result)}

omit [TokenClient τ Address Address] in
/-- What `init` leaves. -/
theorem indexed_init (hinit : init now admin cbConfig (.empty contractAddress tokens) = .ok s) :
    Sound s.pools s.positionCount s.positions ∧ Indexed s ∧ s.positionCount = 0 := by
  rw [(init_eq_ok hinit).2]
  refine ⟨.empty, ⟨fun id p hp => ?_, .empty⟩, rfl⟩
  cases hp

/-- After every run from `init`, and before and after each of its calls, the positions are stored
under their ids, with liquidity in a range of ticks, and the list of every owner holds the ids of
the positions of that owner, each once. The ids were issued in the order 1, 2, …. -/
theorem indexed_of_run
    (hinit : init now admin cbConfig (.empty contractAddress tokens) = .ok w₀.store)
    (hrun : (contract τ).Run w₀ w log) :
    (Indexed w.store ∧ ∀ c ∈ log, Indexed c.before ∧ Indexed c.after) ∧
      issuedIds log = List.range' 1 w.store.positionCount := by
  obtain ⟨hsound₀, hindexed₀, hcount₀⟩ := indexed_init hinit
  have hstep : ∀ t k r (s s' : State τ),
      Sound s.pools s.positionCount s.positions ∧ Indexed s →
      (contract τ).exec t k s = .ok (r, s') →
      Sound s'.pools s'.positionCount s'.positions ∧ Indexed s' := by
    intro t k r s s' hs he
    have hsound' := execute_sound hs.1 he
    exact ⟨hsound', hs.2.step hs.1 hsound' (execute_indexStep hs.1 he)⟩
  refine ⟨⟨(hrun.invariant hstep ⟨hsound₀, hindexed₀⟩).2, fun c hc => ?_⟩, ?_⟩
  · have hmem := hrun.invariant_of_mem hstep ⟨hsound₀, hindexed₀⟩ c hc
    exact ⟨hmem.1.2, hmem.2.2⟩
  · have hinvariant : Sound w.store.pools w.store.positionCount w.store.positions ∧
        issuedIds log = List.range' 1 w.store.positionCount := by
      refine hrun.invariant_log (I := fun _ (s : State τ) log =>
        Sound s.pools s.positionCount s.positions ∧ issuedIds log = List.range' 1 s.positionCount)
        ⟨hsound₀, ?_⟩ (fun t t' s log _ h => h) fun t k r s s' log ih he => ?_
      · rw [hcount₀]
        rfl
      · exact ⟨execute_sound ih.1 he, issuedIds_append ih.2 (execute_indexStep ih.1 he)⟩
    exact hinvariant.2

end Runs

/-- Two deposits of one owner, a removal of a part of the first and of the whole of the second, and
a collection of fees. -/
def indexedCalls : List (ℕ × Call) :=
  [(1, .createPool ⟨5⟩ ⟨1⟩ ⟨2⟩ 30 Q64), (2, sampleDeposit), (3, sampleDeposit),
    (4, .removeLiquidity ⟨5⟩ 1 1000 0 0), (5, .removeLiquidity ⟨5⟩ 2 39566586295837937808 0 0),
    (6, .collectFees ⟨5⟩ 1)]

theorem indexed_of_run_sample :
    (Indexed ((contract _).play sampleWorld indexedCalls).1.store ∧
        ∀ c ∈ ((contract _).play sampleWorld indexedCalls).2, Indexed c.before ∧ Indexed c.after) ∧
      issuedIds ((contract _).play sampleWorld indexedCalls).2 =
        List.range' 1 ((contract _).play sampleWorld indexedCalls).1.store.positionCount :=
  indexed_of_run
    (show init 0 ⟨5⟩ ⟨1000000000000, 1000, 3600⟩ (.empty ⟨9⟩ sampleTokens) =
      .ok sampleWorld.store from rfl)
    (Contract.run_play _ sampleWorld indexedCalls (by decide))

end Stellara.Amm
