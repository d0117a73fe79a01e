import Mathlib.Algebra.Order.Ring.Nat
import Mathlib.Data.Nat.Log
import Mathlib.Tactic.Common

/-!
# Binary hash trees

A hash tree is built level by level: neighbours are combined, and a lone last node is combined
with itself. A path is climbed from a leaf to the root by combining the node reached so far
with one sibling after the other, on the side that the index of the node says. The combination
of two nodes is arbitrary.

## Main definitions

* `nextLevel`, `root`: the levels of a tree, and the last one
* `path`: the siblings on the way from a leaf to the root, where a lone node has none
* `climb`: the node reached from a leaf along any list of siblings
* `Unpaired n i`: on the way from the leaf `i` of `n` leaves some node is a lone last node

## Main results

* `climb_path`: without a lone node on the way, the path leads to the root
* `rank_climb_path`: with one, it ends too low in every tree that counts its levels
* `mem_of_climb_eq_root`: when nodes determine their children and differ from leaves, only
  leaves of the tree lead to its root, along whatever siblings
-/

universe u

namespace MerkleTree

variable {H : Type u} (node : H → H → H)

/-- Combine neighbours, and a lone last node with itself. -/
def nextLevel : List H → List H
  | [] => []
  | [x] => [node x x]
  | x :: y :: rest => node x y :: nextLevel rest

theorem length_nextLevel (level : List H) :
    (nextLevel node level).length = (level.length + 1) / 2 := by
  induction level using nextLevel.induct with
  | case1 => simp [nextLevel]
  | case2 x => simp [nextLevel]
  | case3 x y rest ih =>
    simp only [nextLevel, List.length_cons, ih]
    omega

/-- The last level of the tree over `level`, and its node. -/
def root (level : List H) : Option H :=
  if 1 < level.length then root (nextLevel node level) else level.head?
termination_by level.length
decreasing_by rw [length_nextLevel]; omega

/-- The sibling of the node `i`, if it has one. -/
def sibling (level : List H) (i : ℕ) : Option H :=
  if i % 2 = 0 then level[i + 1]? else level[i - 1]?

/-- The siblings on the way from the node `i` to the root. A lone node has none. -/
def path (level : List H) (i : ℕ) : List H :=
  if 1 < level.length then (sibling level i).toList ++ path (nextLevel node level) (i / 2) else []
termination_by level.length
decreasing_by rw [length_nextLevel]; omega

/-- The node above the node `x` of index `i` and the sibling `s`. -/
def combine (x : H) (i : ℕ) (s : H) : H := if i % 2 = 0 then node x s else node s x

/-- The node reached from the node `x` of index `i` along the siblings `proof`. -/
def climb (x : H) (i : ℕ) : List H → H
  | [] => x
  | s :: proof => climb (combine node x i s) (i / 2) proof

variable {node}

theorem root_of_le_one {level : List H} (h : level.length ≤ 1) : root node level = level.head? := by
  rw [root, if_neg (by omega)]

theorem root_of_one_lt {level : List H} (h : 1 < level.length) :
    root node level = root node (nextLevel node level) := by
  rw [root, if_pos h]

theorem path_of_le_one {level : List H} (h : level.length ≤ 1) (i : ℕ) : path node level i = [] := by
  rw [path, if_neg (by omega)]

theorem path_of_one_lt {level : List H} (h : 1 < level.length) (i : ℕ) :
    path node level i = (sibling level i).toList ++ path node (nextLevel node level) (i / 2) := by
  rw [path, if_pos h]

/-- The node `j` of the next level. -/
theorem getElem?_nextLevel (level : List H) (j : ℕ) :
    (nextLevel node level)[j]? =
      level[2 * j]?.map fun l => node l ((level[2 * j + 1]?).getD l) := by
  induction level using nextLevel.induct generalizing j with
  | case1 => simp [nextLevel]
  | case2 x =>
    cases j with
    | zero => simp [nextLevel]
    | succ j => simp [nextLevel]
  | case3 x y rest ih =>
    cases j with
    | zero => simp [nextLevel]
    | succ j =>
      rw [nextLevel, List.getElem?_cons_succ, ih j, show 2 * (j + 1) = 2 * j + 1 + 1 by omega]
      simp only [List.getElem?_cons_succ]

/-- A node of the next level has its children on this level. -/
theorem exists_children {level : List H} {y : H} (h : y ∈ nextLevel node level) :
    ∃ l ∈ level, ∃ r ∈ level, y = node l r := by
  induction level using nextLevel.induct with
  | case1 => cases h
  | case2 x =>
    rw [nextLevel, List.mem_singleton] at h
    exact ⟨x, by simp, x, by simp, h⟩
  | case3 x z rest ih =>
    rw [nextLevel, List.mem_cons] at h
    rcases h with rfl | h
    · exact ⟨x, by simp, z, by simp, rfl⟩
    · obtain ⟨l, hl, r, hr, rfl⟩ := ih h
      exact ⟨l, by simp [hl], r, by simp [hr], rfl⟩

variable (node) in
/-- Every non-empty tree has a root. -/
theorem root_isSome {level : List H} (h : level ≠ []) : (root node level).isSome := by
  induction level using root.induct node with
  | case1 level hlen ih =>
    rw [root_of_one_lt hlen]
    -- the next level of a level of two nodes or more is not empty
    refine ih fun hnil => ?_
    have hzero := congrArg List.length hnil
    rw [length_nextLevel, List.length_nil] at hzero
    omega
  | case2 level hlen =>
    rw [root_of_le_one (by omega)]
    cases level with
    | nil => exact absurd rfl h
    | cons x rest => rfl

/-! ## Lone nodes -/

/-- The number of nodes `k` levels above `n` leaves. -/
def levelSize (n : ℕ) : ℕ → ℕ
  | 0 => n
  | k + 1 => levelSize ((n + 1) / 2) k

/-- Some node on the way from the leaf `i` is the lone last node of a level below the root. -/
def Unpaired (n i : ℕ) : Prop :=
  ∃ k, 1 < levelSize n k ∧ i / 2 ^ k % 2 = 0 ∧ i / 2 ^ k + 1 = levelSize n k

theorem levelSize_le_one {n : ℕ} (h : n ≤ 1) (k : ℕ) : levelSize n k ≤ 1 := by
  induction k generalizing n with
  | zero => exact h
  | succ k ih => exact ih (by omega)

theorem levelSize_of_le {n k : ℕ} (h : n ≤ k) : levelSize n k ≤ 1 := by
  induction k generalizing n with
  | zero => exact h.trans (Nat.zero_le 1)
  | succ k ih =>
    rcases Nat.lt_or_ge 1 n with hn | hn
    · exact ih (by omega)
    · exact levelSize_le_one hn _

/-- There are no more levels than leaves, so a lone node can be searched for. -/
instance (n i : ℕ) : Decidable (Unpaired n i) :=
  decidable_of_iff
      (∃ k < n, 1 < levelSize n k ∧ i / 2 ^ k % 2 = 0 ∧ i / 2 ^ k + 1 = levelSize n k) <| by
    constructor
    · rintro ⟨k, -, h⟩
      exact ⟨k, h⟩
    · rintro ⟨k, h⟩
      refine ⟨k, ?_, h⟩
      by_contra hle
      have := levelSize_of_le (Nat.le_of_not_lt hle)
      omega

/-- A lone node is on the first level or above it. -/
theorem unpaired_iff {n i : ℕ} :
    Unpaired n i ↔ 1 < n ∧ ((i % 2 = 0 ∧ i + 1 = n) ∨ Unpaired ((n + 1) / 2) (i / 2)) := by
  constructor
  · rintro ⟨k, hk, heven, hlast⟩
    have hn : 1 < n := by
      by_contra hle
      have := levelSize_le_one (n := n) (by omega) k
      omega
    refine ⟨hn, ?_⟩
    cases k with
    | zero =>
      rw [pow_zero, Nat.div_one] at heven hlast
      exact .inl ⟨heven, hlast⟩
    | succ k =>
      rw [pow_succ', ← Nat.div_div_eq_div_mul] at heven hlast
      exact .inr ⟨k, hk, heven, hlast⟩
  · rintro ⟨hn, ⟨heven, hlast⟩ | ⟨k, hk, heven, hlast⟩⟩
    · -- the lone node is the leaf itself
      exact ⟨0, by simpa [levelSize] using ⟨hn, heven, hlast⟩⟩
    · refine ⟨k + 1, hk, ?_, ?_⟩
      · rwa [pow_succ', ← Nat.div_div_eq_div_mul]
      · rwa [pow_succ', ← Nat.div_div_eq_div_mul]

section Pairs

variable {level : List H} {i : ℕ} {x : H}

/-- A node that is not a lone last node has a sibling, and both are below the node above. -/
theorem sibling_of_paired (node : H → H → H) (hx : level[i]? = some x)
    (h : ¬ (i % 2 = 0 ∧ i + 1 = level.length)) :
    ∃ s ∈ level, sibling level i = some s ∧
      (nextLevel node level)[i / 2]? = some (combine node x i s) := by
  have hlt : i < level.length := (List.getElem?_eq_some_iff.mp hx).1
  unfold sibling combine
  rw [getElem?_nextLevel]
  split
  · -- a left child, whose sibling is the next node
    rename_i heven
    have hnext : i + 1 < level.length := by omega
    refine ⟨level[i + 1], List.getElem_mem hnext, List.getElem?_eq_getElem hnext, ?_⟩
    rw [show 2 * (i / 2) = i by omega, hx, List.getElem?_eq_getElem hnext]
    rfl
  · -- a right child, whose sibling is the node before it
    rename_i hodd
    have hprev : i - 1 < level.length := by omega
    refine ⟨level[i - 1], List.getElem_mem hprev, List.getElem?_eq_getElem hprev, ?_⟩
    rw [show 2 * (i / 2) = i - 1 by omega, show i - 1 + 1 = i by omega, hx,
      List.getElem?_eq_getElem hprev]
    rfl

theorem sibling_of_lone (heven : i % 2 = 0) (hlast : i + 1 = level.length) :
    sibling level i = none := by
  rw [sibling, if_pos heven, List.getElem?_eq_none (by omega)]

end Pairs

/-- Without a lone node on the way, the path leads to the root. -/
theorem climb_path {level : List H} {i : ℕ} {x : H} (hx : level[i]? = some x)
    (h : ¬ Unpaired level.length i) : root node level = some (climb node x i (path node level i)) := by
  induction level using root.induct node generalizing i x with
  | case1 level hlen ih =>
    rw [unpaired_iff] at h
    have hpair : ¬ (i % 2 = 0 ∧ i + 1 = level.length) := fun hp => h ⟨hlen, .inl hp⟩
    obtain ⟨s, -, hs, hup⟩ := sibling_of_paired node hx hpair
    rw [root_of_one_lt hlen, path_of_one_lt hlen, hs]
    refine ih hup fun hu => h ⟨hlen, .inr ?_⟩
    rwa [length_nextLevel] at hu
  | case2 level hlen =>
    -- the level has one node at most, which is the root
    have hlt : i < level.length := (List.getElem?_eq_some_iff.mp hx).1
    obtain rfl : i = 0 := by omega
    rw [root_of_le_one (by omega), path_of_le_one (by omega), climb, List.head?_eq_getElem?, hx]

/-! ## Counting levels -/

section Rank

variable {rank : H → ℕ} {bound : ℕ}

theorem rank_nextLevel (hrank : ∀ l r, rank l < bound → rank r < bound →
      rank (node l r) = min (rank l) (rank r) + 1) {level : List H} {v : ℕ}
    (hv : ∀ y ∈ level, rank y = v) (hbound : v < bound) :
    ∀ z ∈ nextLevel node level, rank z = v + 1 := by
  intro z hz
  obtain ⟨l, hl, r, hr, rfl⟩ := exists_children hz
  rw [hrank l r (by rw [hv l hl]; exact hbound) (by rw [hv r hr]; exact hbound), hv l hl, hv r hr,
    min_self]

/-- In a tree that counts its levels, the root counts all of them. -/
theorem rank_root (hrank : ∀ l r, rank l < bound → rank r < bound →
      rank (node l r) = min (rank l) (rank r) + 1) {level : List H} {v : ℕ}
    (hv : ∀ y ∈ level, rank y = v) (hbound : v + Nat.clog 2 level.length ≤ bound) {y : H}
    (hy : root node level = some y) : rank y = v + Nat.clog 2 level.length := by
  induction level using root.induct node generalizing v with
  | case1 level hlen ih =>
    have hclog : Nat.clog 2 level.length = Nat.clog 2 ((level.length + 1) / 2) + 1 :=
      Nat.clog_of_one_lt one_lt_two hlen
    -- every node of the next level has one rank more
    have hnext := rank_nextLevel hrank hv (by omega)
    rw [root_of_one_lt hlen] at hy
    rw [length_nextLevel] at ih
    rw [ih hnext (by omega) hy]
    omega
  | case2 level hlen =>
    rw [root_of_le_one (by omega)] at hy
    rw [Nat.clog_of_right_le_one (by omega), hv y (List.mem_of_head? hy), add_zero]

/-- Climbing a path, from whatever index, counts its siblings, and so misses a level for each
lone node. -/
theorem rank_climb_path (hrank : ∀ l r, rank l < bound → rank r < bound →
      rank (node l r) = min (rank l) (rank r) + 1) {level : List H} {v i j : ℕ} {x : H}
    (hv : ∀ y ∈ level, rank y = v) (hbound : v + Nat.clog 2 level.length ≤ bound)
    (hi : i < level.length) (hx : rank x ≤ v) :
    rank (climb node x j (path node level i)) ≤ rank x + Nat.clog 2 level.length ∧
    (Unpaired level.length i →
      rank (climb node x j (path node level i)) < rank x + Nat.clog 2 level.length) := by
  induction level using root.induct node generalizing v i j x with
  | case1 level hlen ih =>
    have hclog : Nat.clog 2 level.length = Nat.clog 2 ((level.length + 1) / 2) + 1 :=
      Nat.clog_of_one_lt one_lt_two hlen
    have hnext := rank_nextLevel hrank hv (by omega)
    rw [length_nextLevel] at ih
    rw [path_of_one_lt hlen, unpaired_iff]
    by_cases hlone : i % 2 = 0 ∧ i + 1 = level.length
    · -- the lone node keeps its rank while the level above gains one
      rw [sibling_of_lone hlone.1 hlone.2]
      obtain ⟨hle, -⟩ := ih (i := i / 2) (j := j) (x := x) hnext (by omega) (by omega) (by omega)
      simp only [Option.toList_none, List.nil_append]
      exact ⟨by omega, fun _ => by omega⟩
    · obtain ⟨y, hy⟩ : ∃ y, level[i]? = some y := ⟨level[i], List.getElem?_eq_getElem hi⟩
      obtain ⟨s, hs, hsib, -⟩ := sibling_of_paired node hy hlone
      -- the sibling has the full rank of the level, so combining adds one level
      have hup : rank (combine node x j s) = rank x + 1 := by
        have hsv := hv s hs
        unfold combine
        split
        · rw [hrank x s (by omega) (by omega), hsv, min_eq_left hx]
        · rw [hrank s x (by omega) (by omega), hsv, min_eq_right hx]
      obtain ⟨hle, hlt⟩ := ih (i := i / 2) (j := j / 2) (x := combine node x j s) hnext (by omega)
        (by omega) (by omega)
      rw [hsib]
      simp only [Option.toList_some, List.singleton_append, climb]
      refine ⟨by omega, ?_⟩
      rintro ⟨-, hp | hu⟩
      · exact absurd hp hlone
      · have := hlt hu
        omega
  | case2 level hlen =>
    rw [path_of_le_one (by omega), climb, Nat.clog_of_right_le_one (by omega)]
    refine ⟨le_rfl, fun hu => ?_⟩
    have := (unpaired_iff.mp hu).1
    omega

end Rank

/-! ## Forged paths -/

/-- The last sibling of a path is combined with the node that the others lead to. -/
theorem climb_append_singleton (x : H) (i : ℕ) (proof : List H) (s : H) :
    climb node x i (proof ++ [s]) = combine node (climb node x i proof) (i / 2 ^ proof.length) s := by
  induction proof generalizing x i with
  | nil => simp [climb]
  | cons t proof ih =>
    rw [List.cons_append, climb, ih, climb, List.length_cons, pow_succ', Nat.div_div_eq_div_mul]

section Injective

variable {x : H}

/-- From a node that is no combination, climbing to the next level passes through this one. -/
theorem climb_nextLevel (hinj : ∀ l r l' r', node l r = node l' r' → l = l' ∧ r = r')
    (hx : ∀ l r, x ≠ node l r) {level : List H} {i : ℕ} {proof : List H}
    (h : climb node x i proof ∈ nextLevel node level) :
    ∃ proof', climb node x i proof' ∈ level := by
  obtain ⟨l, hl, r, hr, heq⟩ := exists_children h
  rcases List.eq_nil_or_concat proof with rfl | ⟨init, s, rfl⟩
  · exact absurd heq (hx l r)
  · -- the node that the others lead to is a child of a node of the next level
    refine ⟨init, ?_⟩
    rw [List.concat_eq_append, climb_append_singleton] at heq
    unfold combine at heq
    split at heq
    · obtain ⟨h₁, -⟩ := hinj _ _ _ _ heq
      rwa [h₁]
    · obtain ⟨-, h₂⟩ := hinj _ _ _ _ heq
      rwa [h₂]

/-- When nodes determine their children and leaves are no nodes, only a leaf of the tree leads
to its root, whatever the siblings and the index. -/
theorem mem_of_climb_eq_root (hinj : ∀ l r l' r', node l r = node l' r' → l = l' ∧ r = r')
    (hx : ∀ l r, x ≠ node l r) {leaves : List H} (hleaves : ∀ y ∈ leaves, ∀ l r, y ≠ node l r)
    {i : ℕ} {proof : List H} (h : root node leaves = some (climb node x i proof)) : x ∈ leaves := by
  -- some path leads to a node of every level, down to the leaves
  have hlevel : ∀ level : List H, ∀ proof, root node level = some (climb node x i proof) →
      ∃ proof', climb node x i proof' ∈ level := by
    intro level
    induction level using root.induct node with
    | case1 level hlen ih =>
      intro proof h
      rw [root_of_one_lt hlen] at h
      obtain ⟨proof', hmem⟩ := ih proof h
      exact climb_nextLevel hinj hx hmem
    | case2 level hlen =>
      intro proof h
      rw [root_of_le_one (by omega)] at h
      exact ⟨proof, List.mem_of_head? h⟩
  obtain ⟨proof', hmem⟩ := hlevel leaves proof h
  rcases List.eq_nil_or_concat proof' with rfl | ⟨init, s, rfl⟩
  · exact hmem
  · -- the last node of a longer path is a combination, and no leaf is one
    rw [List.concat_eq_append, climb_append_singleton] at hmem
    unfold combine at hmem
    split at hmem
    · exact absurd rfl (hleaves _ hmem _ _)
    · exact absurd rfl (hleaves _ hmem _ _)

end Injective

end MerkleTree
