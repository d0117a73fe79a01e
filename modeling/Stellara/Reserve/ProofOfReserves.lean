import Stellara.Host.Xdr
import Stellara.Lib.MerkleTree

/-!
# Proof of reserves

The Merkle tree over the holders of the stablecoin: the builder of its root, the generator of
the path of a leaf, and the verifier, each with its own loop over the levels of the tree. All
three are shown to compute the general hash tree. They disagree on the lone last node of an odd
level, which the builder combines with itself and the other two pass over.

## Main definitions

* `generateMerkleTree`, `generateProofForLeaf`, `verifyMerkleProof`, `verifyInclusion`: the
  functions of the contract
* `BytesN`: the arrays that the hash function returns

## Main results

* `generateMerkleTree_eq`, `generateProofForLeaf_eq`, `verifyMerkleProof_eq`: the three loops
  compute the root, the path and the climb of a hash tree
* `accepts_iff`: the leaves whose generated path is accepted with every hash function
* `verifyInclusion_sound`: only holders are accepted, along whatever path
-/

namespace Stellara.Reserve

inductive ReserveError where
  | unauthorized
  | insufficientReserves
  | invalidAsset
  | reserveRatioTooLow
  | rebalancingRequired
  | invalidMerkleProof
  | redemptionAmountTooSmall
  | redemptionAmountTooLarge
  | custodianError
  | reportingError
  | governanceError
deriving DecidableEq, Repr

/-- Arrays of bytes of a fixed length, as the host hands them out. -/
class BytesN (D : Type) where
  toArray : D → List UInt8
  /-- The array of zeros. -/
  zero : D

open BytesN (toArray)

/-- A holder and its balance. -/
abbrev Holder := Pair

variable {D : Type} [BytesN D] (keccak256 : List UInt8 → D) (toXdr : Holder → List UInt8)

/-! ## The contract -/

def leafHash (holder : Holder) : D := keccak256 (toXdr holder)

def parentHash (left right : D) : D := keccak256 (toArray left ++ toArray right)

/-- `get(i).unwrap()` on a vector of hashes. -/
def getUnwrap (level : List D) (i : ℕ) : Outcome ReserveError D :=
  orAbort (.panic "called `Option::unwrap()` on a `None` value") level[i]?

/-- The right child of the node at `i`: the last element is duplicated if there is none. -/
def rightChild (level : List D) (i : ℕ) (left : D) : Outcome ReserveError D :=
  if i + 1 < level.length then getUnwrap level (i + 1) else .ok left

/-- The inner loop of the builder and of the generator: one level from the level below. -/
def buildNextLevel (level : List D) : Outcome ReserveError (List D) :=
  (List.range' 0 ((level.length + 1) / 2) 2).mapM fun i => do
    let left ← getUnwrap level i
    let right ← rightChild level i left
    .ok (parentHash keccak256 left right)

def treeStep (level : List D) : Outcome ReserveError (Round (List D)) :=
  if 1 < level.length then do
    let next ← buildNextLevel keccak256 level
    .ok (.next next)
  else .ok (.stop level)

/-- The root of the tree over the holders. Every level is shorter than the one below, which
bounds the number of levels. -/
def generateMerkleTree (holderBalances : List Holder) : Outcome ReserveError D :=
  if holderBalances = [] then .ok BytesN.zero
  else do
    let leaves := holderBalances.map (leafHash keccak256 toXdr)
    let r ← loop (treeStep keccak256) (leaves.length + 1) leaves
    let level ← orAbort .diverges r
    getUnwrap level 0

def verifyMerkleProof (leaf : D) (proof : List D) (leafIndex : ℕ) : Outcome ReserveError D :=
  let p := proof.foldl (fun (computed, index) element =>
    (if index % 2 = 0 then keccak256 (toArray computed ++ toArray element)
      else keccak256 (toArray element ++ toArray computed), index / 2)) (leaf, leafIndex)
  .ok p.1

/-- The state of the generator: the level, the index on it and the proof so far. -/
structure ProofState (D : Type) where
  level : List D
  index : ℕ
  proof : List D

/-- The sibling that the generator adds to the proof, if any. -/
def proofElement (level : List D) (index : ℕ) : Outcome ReserveError (List D) :=
  if index % 2 = 0 then do
    let next ← IntFormat.u32.checkedNat .overflow (index + 1)
    if next < level.length then (getUnwrap level next).map (fun s => [s]) else .ok []
  else (getUnwrap level (index - 1)).map fun s => [s]

def proofStep (p : ProofState D) : Outcome ReserveError (Round (ProofState D)) :=
  if 1 < p.level.length then do
    let element ← proofElement p.level p.index
    let next ← buildNextLevel keccak256 p.level
    .ok (.next ⟨next, p.index / 2, p.proof ++ element⟩)
  else .ok (.stop p)

/-- The path of a leaf. -/
def generateProofForLeaf (holderBalances : List Holder) (leafIndex : ℕ) :
    Outcome ReserveError (List D) := do
  let leaves := holderBalances.map (leafHash keccak256 toXdr)
  let r ← loop (proofStep keccak256) (leaves.length + 1) ⟨leaves, leafIndex, []⟩
  let p ← orAbort .diverges r
  .ok p.proof

/-- Whether the path leads from the leaf of a user and an amount to the stored root. -/
def verifyInclusion [DecidableEq D] (root : Option D) (leafData : Holder) (proof : List D)
    (leafIndex : ℕ) : Outcome ReserveError Bool := do
  let currentRoot ← orAbort (.error .invalidMerkleProof) root
  let computedRoot ← verifyMerkleProof keccak256 (leafHash keccak256 toXdr leafData) proof leafIndex
  .ok (computedRoot = currentRoot)

/-! ## The loops compute a hash tree -/

variable {keccak256 toXdr}

theorem verifyMerkleProof_eq (leaf : D) (proof : List D) (leafIndex : ℕ) :
    verifyMerkleProof keccak256 leaf proof leafIndex =
      .ok (MerkleTree.climb (parentHash keccak256) leaf leafIndex proof) := by
  unfold verifyMerkleProof
  refine congrArg Except.ok ?_
  induction proof generalizing leaf leafIndex with
  | nil => rfl
  | cons s proof ih =>
    rw [List.foldl_cons, MerkleTree.climb, ← ih]
    rfl

theorem buildNextLevel_eq (level : List D) :
    buildNextLevel keccak256 level = .ok (MerkleTree.nextLevel (parentHash keccak256) level) := by
  -- the element at the even index `i`, with its right child
  have hbody : ∀ i ∈ List.range' 0 ((level.length + 1) / 2) 2,
      (do
        let left ← getUnwrap level i
        let right ← rightChild level i left
        .ok (parentHash keccak256 left right) : Outcome ReserveError D) =
      .ok (match level[i]? with
        | some l => parentHash keccak256 l ((level[i + 1]?).getD l)
        | none => BytesN.zero) := by
    intro i hi
    obtain ⟨j, hj, rfl⟩ := List.mem_range'.mp hi
    have hlt : 0 + 2 * j < level.length := by omega
    simp only [getUnwrap, rightChild, List.getElem?_eq_getElem hlt, orAbort, Except.ok_bind]
    split
    · rename_i hnext
      rw [List.getElem?_eq_getElem hnext]
      rfl
    · rename_i hlast
      rw [List.getElem?_eq_none (by omega)]
      rfl
  rw [buildNextLevel, Except.mapM_eq_ok hbody]
  refine congrArg Except.ok (List.ext_getElem? fun j => ?_)
  rw [List.getElem?_map, MerkleTree.getElem?_nextLevel]
  -- the loop visits every even index, so the lists agree at every place
  rcases Nat.lt_or_ge j ((level.length + 1) / 2) with hj | hj
  · have hlt : 2 * j < level.length := by omega
    rw [List.getElem?_range' (by omega), List.getElem?_eq_getElem hlt]
    simp [List.getElem?_eq_getElem hlt]
  · rw [List.getElem?_eq_none (by simpa using hj), List.getElem?_eq_none (show _ ≤ 2 * j by omega)]
    rfl

variable (keccak256) in
theorem loop_treeStep (n : ℕ) (level : List D) (h : level.length < n) :
    ∃ last, loop (treeStep keccak256) n level = .ok (some last) ∧
      last.head? = MerkleTree.root (parentHash keccak256) level := by
  induction n generalizing level with
  | zero => omega
  | succ n ih =>
    -- each step halves the level, so the fuel does not run out
    by_cases hlen : 1 < level.length
    · have hstep : treeStep keccak256 level =
          .ok (.next (MerkleTree.nextLevel (parentHash keccak256) level)) := by
        rw [treeStep, if_pos hlen, buildNextLevel_eq, Except.ok_bind]
      rw [loop_next hstep, MerkleTree.root_of_one_lt hlen]
      exact ih _ (by rw [MerkleTree.length_nextLevel]; omega)
    · have hstep : treeStep keccak256 level = .ok (.stop level) := by rw [treeStep, if_neg hlen]
      exact ⟨level, loop_stop hstep, (MerkleTree.root_of_le_one (by omega)).symm⟩

variable (keccak256 toXdr) in
/-- The builder computes the root of the tree over the leaves. -/
theorem generateMerkleTree_eq {holders : List Holder} (hne : holders ≠ []) :
    ∃ root, generateMerkleTree keccak256 toXdr holders = .ok root ∧
      MerkleTree.root (parentHash keccak256) (holders.map (leafHash keccak256 toXdr)) =
        some root := by
  have hlevel : holders.map (leafHash keccak256 toXdr) ≠ [] := by simpa using hne
  obtain ⟨root, hroot⟩ := Option.isSome_iff_exists.mp
    (MerkleTree.root_isSome (parentHash keccak256) hlevel)
  obtain ⟨last, hloop, hlast⟩ := loop_treeStep keccak256
    ((holders.map (leafHash keccak256 toXdr)).length + 1) (holders.map (leafHash keccak256 toXdr))
    (Nat.lt_succ_self _)
  rw [hroot, List.head?_eq_getElem?] at hlast
  refine ⟨root, ?_, hroot⟩
  simp only [generateMerkleTree, if_neg hne, hloop, Except.ok_bind, orAbort, getUnwrap, hlast]

omit [BytesN D] in
theorem proofElement_eq {level : List D} {index : ℕ} (hi : index < level.length)
    (hlen : (level.length : ℤ) ≤ IntFormat.u32.hi) :
    proofElement level index = .ok (MerkleTree.sibling level index).toList := by
  unfold proofElement MerkleTree.sibling
  split
  · -- the index of the sibling is computed in a word, which it fits
    have hnext : IntFormat.u32.checkedNat (.overflow : Fault ReserveError) (index + 1) =
        .ok (index + 1) := IntFormat.checkedNat_eq_ok.mpr ⟨by omega, rfl⟩
    rw [hnext, Except.ok_bind]
    split
    · rename_i hlt
      rw [getUnwrap, List.getElem?_eq_getElem hlt]
      rfl
    · -- the lone last node adds nothing to the path
      rename_i hge
      rw [List.getElem?_eq_none (by omega)]
      rfl
  · rw [getUnwrap, List.getElem?_eq_getElem (show index - 1 < level.length by omega)]
    rfl

variable (keccak256) in
theorem loop_proofStep (n : ℕ) (p : ProofState D) (h : p.level.length < n)
    (hi : p.index < p.level.length) (hlen : (p.level.length : ℤ) ≤ IntFormat.u32.hi) :
    ∃ last, loop (proofStep keccak256) n p = .ok (some last) ∧
      last.proof = p.proof ++ MerkleTree.path (parentHash keccak256) p.level p.index := by
  induction n generalizing p with
  | zero => omega
  | succ n ih =>
    by_cases hone : 1 < p.level.length
    · have hstep : proofStep keccak256 p =
          .ok (.next ⟨MerkleTree.nextLevel (parentHash keccak256) p.level, p.index / 2,
            p.proof ++ (MerkleTree.sibling p.level p.index).toList⟩) := by
        rw [proofStep, if_pos hone, proofElement_eq hi hlen, Except.ok_bind, buildNextLevel_eq,
          Except.ok_bind]
      have hnext := MerkleTree.length_nextLevel (parentHash keccak256) p.level
      -- the level, the index and the path have moved as in the tree
      rw [loop_next hstep, MerkleTree.path_of_one_lt hone, ← List.append_assoc]
      exact ih ⟨_, _, _⟩ (by simp only [hnext]; omega) (by simp only [hnext]; omega)
        (by simp only [hnext]; omega)
    · have hstep : proofStep keccak256 p = .ok (.stop p) := by rw [proofStep, if_neg hone]
      exact ⟨p, loop_stop hstep, by rw [MerkleTree.path_of_le_one (by omega), List.append_nil]⟩

variable (keccak256 toXdr) in
/-- The generator computes the path of a leaf. -/
theorem generateProofForLeaf_eq {holders : List Holder} {leafIndex : ℕ}
    (hi : leafIndex < holders.length) (hlen : (holders.length : ℤ) ≤ IntFormat.u32.hi) :
    generateProofForLeaf keccak256 toXdr holders leafIndex =
      .ok (MerkleTree.path (parentHash keccak256) (holders.map (leafHash keccak256 toXdr))
        leafIndex) := by
  obtain ⟨last, hloop, hlast⟩ := loop_proofStep keccak256
    ((holders.map (leafHash keccak256 toXdr)).length + 1)
    ⟨holders.map (leafHash keccak256 toXdr), leafIndex, []⟩ (Nat.lt_succ_self _)
    (by simpa using hi) (by simpa using hlen)
  simp only [generateProofForLeaf, hloop, Except.ok_bind, orAbort, hlast, List.nil_append]

/-! ## Completeness -/

/-- The verifier accepts the path that the generator returns for the leaf `i`. -/
def Accepts (keccak256 : List UInt8 → D) (toXdr : Holder → List UInt8) (holders : List Holder)
    (i : ℕ) (hi : i < holders.length) : Prop :=
  ∃ root proof, generateMerkleTree keccak256 toXdr holders = .ok root ∧
    generateProofForLeaf keccak256 toXdr holders i = .ok proof ∧
    verifyMerkleProof keccak256 (leafHash keccak256 toXdr holders[i]) proof i = .ok root

/-- A generated path is accepted exactly when climbing the path of the tree gives its root. -/
theorem accepts_iff_root {holders : List Holder} {i : ℕ} (hi : i < holders.length)
    (hlen : (holders.length : ℤ) ≤ IntFormat.u32.hi) :
    Accepts keccak256 toXdr holders i hi ↔
      MerkleTree.root (parentHash keccak256) (holders.map (leafHash keccak256 toXdr)) =
        some (MerkleTree.climb (parentHash keccak256) (leafHash keccak256 toXdr holders[i]) i
          (MerkleTree.path (parentHash keccak256) (holders.map (leafHash keccak256 toXdr)) i)) := by
  have hne : holders ≠ [] := by
    rintro rfl
    exact absurd hi (Nat.not_lt_zero _)
  -- both loops end, so only the last equation is at stake
  obtain ⟨root, hroot, htree⟩ := generateMerkleTree_eq keccak256 toXdr hne
  have hproof := generateProofForLeaf_eq keccak256 toXdr hi hlen
  rw [htree]
  constructor
  · rintro ⟨root', proof, hroot', hproof', h⟩
    obtain rfl : root = root' := Except.ok.inj (hroot.symm.trans hroot')
    obtain rfl := Except.ok.inj (hproof.symm.trans hproof')
    rw [verifyMerkleProof_eq] at h
    exact congrArg some (Except.ok.inj h).symm
  · intro h
    refine ⟨root, _, hroot, hproof, ?_⟩
    rw [verifyMerkleProof_eq, ← Option.some.inj h]

/-- Arrays of 32 bytes. -/
structure Bytes32 where
  bytes : List UInt8
  length_eq : bytes.length = 32
deriving DecidableEq

instance : BytesN Bytes32 := ⟨Bytes32.bytes, ⟨List.replicate 32 0, by simp⟩⟩

/-- The number in the first byte. -/
def firstByte (bytes : List UInt8) : ℕ := (bytes.headD 0).toNat

/-- The array of 32 copies of a byte. -/
def Bytes32.ofNat (n : ℕ) : Bytes32 := ⟨List.replicate 32 (UInt8.ofNat n), by simp⟩

/-- A hash function that counts the levels below a node in its first byte: it adds one to the
lower of the two counts of a pair of hashes, and starts anything else at zero. -/
def countingHash (bytes : List UInt8) : Bytes32 :=
  if bytes.length = 64 then
    .ofNat (min (firstByte (bytes.take 32)) (firstByte (bytes.drop 32)) + 1)
  else .ofNat 0

theorem firstByte_ofNat {n : ℕ} (h : n < 256) : firstByte (Bytes32.ofNat n).bytes = n := by
  show (UInt8.ofNat n).toNat = n
  rw [UInt8.toNat_ofNat', Nat.mod_eq_of_lt h]

theorem firstByte_parentHash (l r : Bytes32) (hl : firstByte l.bytes < 255)
    (hr : firstByte r.bytes < 255) :
    firstByte (parentHash countingHash l r).bytes =
      min (firstByte l.bytes) (firstByte r.bytes) + 1 := by
  have hlen : (l.bytes ++ r.bytes).length = 64 := by
    rw [List.length_append, l.length_eq, r.length_eq]
  show firstByte (countingHash (l.bytes ++ r.bytes)).bytes = _
  rw [countingHash, if_pos hlen, List.take_left' l.length_eq, List.drop_left' l.length_eq]
  exact firstByte_ofNat (by omega)

/-- With the counting hash the path of a leaf with a lone node on the way is rejected. -/
theorem not_accepts_countingHash {holders : List Holder} {i : ℕ}
    (hxdr : ∀ p, (toXdr p).length ≠ 64) (hi : i < holders.length)
    (hlen : (holders.length : ℤ) ≤ IntFormat.u32.hi)
    (hu : MerkleTree.Unpaired holders.length i) : ¬ Accepts countingHash toXdr holders i hi := by
  have hleaf : ∀ p, firstByte (leafHash countingHash toXdr p).bytes = 0 := fun p => by
    rw [leafHash, countingHash, if_neg (hxdr p)]
    rfl
  have hlevel : ∀ y ∈ holders.map (leafHash countingHash toXdr), firstByte y.bytes = 0 := by
    intro y hy
    obtain ⟨p, -, rfl⟩ := List.mem_map.mp hy
    exact hleaf p
  -- the counts fit into a byte: there are at most 32 levels
  have hclog : 0 + Nat.clog 2 (holders.map (leafHash countingHash toXdr)).length ≤ 255 := by
    have hpow : holders.length ≤ 2 ^ 32 := by
      have hu32 : IntFormat.u32.hi = 4294967295 := rfl
      omega
    have := Nat.clog_le_of_le_pow hpow
    rw [List.length_map]
    omega
  rw [accepts_iff_root hi hlen]
  intro hroot
  have hhigh := MerkleTree.rank_root
    firstByte_parentHash hlevel hclog hroot
  have hlow := (MerkleTree.rank_climb_path
    firstByte_parentHash hlevel hclog (i := i) (j := i)
    (x := leafHash countingHash toXdr holders[i]) (by rwa [List.length_map])
    (by rw [hleaf])).2 (by rwa [List.length_map])
  -- the root counts every level, and the path misses one
  rw [hleaf] at hlow
  omega

/-- The verifier accepts the generated path of a leaf with every hash function exactly when no
node on the way to the root is the lone last node of its level. -/
theorem accepts_iff {holders : List Holder} {i : ℕ} (hxdr : ∀ p, (toXdr p).length ≠ 64)
    (hi : i < holders.length) (hlen : (holders.length : ℤ) ≤ IntFormat.u32.hi) :
    (∀ keccak256 : List UInt8 → Bytes32, Accepts keccak256 toXdr holders i hi) ↔
      ¬ MerkleTree.Unpaired holders.length i := by
  constructor
  · -- one hash function is enough to reject
    intro h hu
    exact not_accepts_countingHash hxdr hi hlen hu (h countingHash)
  · intro h keccak256
    rw [accepts_iff_root hi hlen]
    refine MerkleTree.climb_path ?_ (by rwa [List.length_map])
    rw [List.getElem?_map, List.getElem?_eq_getElem hi]
    rfl

/-- Three holders: the tree has an odd level. -/
def sampleHolders : List Holder :=
  [⟨⟨1⟩, 5, by decide, by decide⟩, ⟨⟨2⟩, 7, by decide, by decide⟩, ⟨⟨3⟩, 11, by decide, by decide⟩]

theorem accepts_iff_sample : Accepts countingHash pairXdr sampleHolders 1 (by decide) :=
  (accepts_iff (fun p => by rw [length_pairXdr]; decide) (by decide) (by decide)).mpr (by decide)
    countingHash

/-- The path of the third of three holders is rejected. -/
theorem third_not_accepted :
    ¬ ∀ (keccak256 : List UInt8 → Bytes32) (holders : List Holder) (i : ℕ) (hi : i < holders.length),
      (holders.length : ℤ) ≤ IntFormat.u32.hi → Accepts keccak256 pairXdr holders i hi := by
  intro h
  refine not_accepts_countingHash (fun p => by rw [length_pairXdr]; decide) (by decide) (by decide)
    (by decide) (h countingHash sampleHolders 2 (by decide) (by decide))

/-! ## Soundness -/

/-- Only holders are accepted, along whatever path, when hashes determine what was hashed, the
encoding of a leaf determines the leaf and is no pair of hashes, pairs of hashes determine
their parts, and nothing hashes to the root of no holders. -/
theorem verifyInclusion_sound [DecidableEq D]
    (hkeccak : ∀ b b', keccak256 b = keccak256 b' → b = b')
    (hxdr : ∀ p q, toXdr p = toXdr q → p = q)
    (hpair : ∀ l r l' r' : D, toArray l ++ toArray r = toArray l' ++ toArray r' → l = l' ∧ r = r')
    (hleaf : ∀ p (l r : D), toXdr p ≠ toArray l ++ toArray r)
    (hzero : (∀ p, keccak256 (toXdr p) ≠ BytesN.zero) ∧
      ∀ l r : D, keccak256 (toArray l ++ toArray r) ≠ BytesN.zero)
    {holders : List Holder} {root : D} (htree : generateMerkleTree keccak256 toXdr holders = .ok root)
    {leafData : Holder} {proof : List D} {leafIndex : ℕ}
    (h : verifyInclusion keccak256 toXdr (some root) leafData proof leafIndex = .ok true) :
    leafData ∈ holders := by
  have hclimb : MerkleTree.climb (parentHash keccak256) (leafHash keccak256 toXdr leafData)
      leafIndex proof = root := by
    simpa [verifyInclusion, orAbort, verifyMerkleProof_eq] using h
  have hne : holders ≠ [] := by
    rintro rfl
    -- the root of no holders is no hash, but every path leads to one
    obtain rfl : BytesN.zero = root := by simpa [generateMerkleTree] using htree
    rcases List.eq_nil_or_concat proof with rfl | ⟨init, s, rfl⟩
    · exact hzero.1 leafData hclimb
    · rw [List.concat_eq_append, MerkleTree.climb_append_singleton] at hclimb
      unfold MerkleTree.combine at hclimb
      split at hclimb
      · exact hzero.2 _ _ hclimb
      · exact hzero.2 _ _ hclimb
  obtain ⟨root', hroot', hlast⟩ := generateMerkleTree_eq keccak256 toXdr hne
  obtain rfl : root = root' := Except.ok.inj (htree.symm.trans hroot')
  -- an injective hash makes the nodes and the leaves those of a free tree
  have hnode : ∀ l r l' r', parentHash keccak256 l r = parentHash keccak256 l' r' →
      l = l' ∧ r = r' := fun l r l' r' heq => hpair l r l' r' (hkeccak _ _ heq)
  have hleafNode : ∀ p l r, leafHash keccak256 toXdr p ≠ parentHash keccak256 l r :=
    fun p l r heq => hleaf p l r (hkeccak _ _ heq)
  have hmem : leafHash keccak256 toXdr leafData ∈ holders.map (leafHash keccak256 toXdr) := by
    refine MerkleTree.mem_of_climb_eq_root hnode (hleafNode leafData) (fun y hy => ?_)
      (hlast.trans (congrArg some hclimb.symm))
    obtain ⟨p, -, rfl⟩ := List.mem_map.mp hy
    exact hleafNode p
  obtain ⟨p, hp, heq⟩ := List.mem_map.mp hmem
  obtain rfl := hxdr _ _ (hkeccak _ _ heq)
  exact hp

/-- A hash that keeps what was hashed. -/
structure Transcript where
  bytes : List UInt8
deriving DecidableEq

/-- Mark every byte and the end, so that the parts of a concatenation can be told apart. -/
def framed : List UInt8 → List UInt8
  | [] => [2]
  | b :: bytes => 1 :: b :: framed bytes

instance : BytesN Transcript := ⟨fun d => framed d.bytes, ⟨[]⟩⟩

theorem framed_append_inj {a b r s : List UInt8} (h : framed a ++ r = framed b ++ s) :
    a = b ∧ r = s := by
  induction a generalizing b with
  | nil =>
    cases b with
    | nil => exact ⟨rfl, List.append_cancel_left h⟩
    | cons y b => cases h
  | cons x a ih =>
    cases b with
    | nil => cases h
    | cons y b =>
      simp only [framed, List.cons_append, List.cons.injEq, true_and] at h
      obtain ⟨rfl, hrest⟩ := h
      obtain ⟨rfl, hrs⟩ := ih hrest
      exact ⟨rfl, hrs⟩

theorem head?_framed_ne (a r : List UInt8) : (framed a ++ r).head? ≠ some 0 := by
  cases a <;> simp [framed]

/-- The root over the first two holders. -/
def sampleRoot : Transcript :=
  parentHash Transcript.mk (leafHash Transcript.mk pairXdr sampleHolders[0])
    (leafHash Transcript.mk pairXdr sampleHolders[1])

theorem verifyInclusion_sound_sample :
    verifyInclusion Transcript.mk pairXdr (some sampleRoot) sampleHolders[1]
      [leafHash Transcript.mk pairXdr sampleHolders[0]] 5 = .ok true ∧
    sampleHolders[1] ∈ sampleHolders.take 2 := by
  have haccepts : verifyInclusion Transcript.mk pairXdr (some sampleRoot) sampleHolders[1]
      [leafHash Transcript.mk pairXdr sampleHolders[0]] 5 = .ok true := by
    simp [verifyInclusion, orAbort, verifyMerkleProof_eq, MerkleTree.climb, MerkleTree.combine,
      sampleRoot]
  have hhead : ∀ p, (pairXdr p).head? = some 0 := fun p => rfl
  refine ⟨haccepts, verifyInclusion_sound
    (fun b b' h => congrArg Transcript.bytes h) (fun p q h => pairXdr_inj h)
    (fun l r l' r' h => ?_) (fun p l r h => ?_) ⟨fun p h => ?_, fun l r h => ?_⟩ rfl haccepts⟩
  · obtain ⟨hl, hr⟩ := framed_append_inj h
    have hr' := framed_append_inj (congrArg (· ++ []) hr)
    exact ⟨congrArg Transcript.mk hl, congrArg Transcript.mk hr'.1⟩
  · exact head?_framed_ne l.bytes (framed r.bytes) ((congrArg List.head? h).symm.trans (hhead p))
  · have hnil : pairXdr p = [] := congrArg Transcript.bytes h
    have hzero := congrArg List.head? hnil
    rw [hhead p] at hzero
    cases hzero
  · have hnil : framed l.bytes ++ framed r.bytes = [] := congrArg Transcript.bytes h
    have hlen := congrArg List.length hnil
    cases hl : l.bytes <;> simp [framed, hl] at hlen

end Stellara.Reserve
