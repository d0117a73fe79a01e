import Stellara.Host.Soroban

/-!
# The encoding of values

The host encodes a value before it is hashed. The encoding of the pair of a contract address
and an unsigned 128-bit integer is a vector of two values: a header, the 32 bytes of the
address, a second header and the 16 bytes of the integer, in big-endian order. It has a fixed
length and determines the pair. The encodings of single values, one after the other, determine
the values too.

## Main definitions

* `bigEndian k n`: the last `k` bytes of `n`
* `Pair`, `pairXdr`: an address and an integer in range, and their encoding
* `addressXdr`, `i128Xdr`, `u32Xdr`, `u64Xdr`: the encodings of single values

## Main results

* `bigEndian_inj`, `pairXdr_inj`: the encodings are injective
* `addressXdr_append_inj`, `i128Xdr_append_inj`, `u32Xdr_append_inj`: so are they in front of others
-/

namespace Stellara

/-- The last `k` bytes of `n`, the most significant one first. -/
def bigEndian : ℕ → ℕ → List UInt8
  | 0, _ => []
  | k + 1, n => bigEndian k (n / 256) ++ [UInt8.ofNat n]

theorem length_bigEndian (k n : ℕ) : (bigEndian k n).length = k := by
  induction k generalizing n with
  | zero => rfl
  | succ k ih => rw [bigEndian, List.length_append, ih, List.length_singleton]

theorem bigEndian_inj {k n m : ℕ} (hn : n < 256 ^ k) (hm : m < 256 ^ k)
    (h : bigEndian k n = bigEndian k m) : n = m := by
  induction k generalizing n m with
  | zero => omega
  | succ k ih =>
    have hlen : (bigEndian k (n / 256)).length = (bigEndian k (m / 256)).length := by
      rw [length_bigEndian, length_bigEndian]
    obtain ⟨hhigh, hlow⟩ := List.append_inj h hlen
    have hdiv : n / 256 = m / 256 := ih (by rw [pow_succ] at hn; omega)
      (by rw [pow_succ] at hm; omega) hhigh
    have hmod : n % 256 = m % 256 := by
      have hbyte := congrArg UInt8.toNat (List.singleton_inj.mp hlow)
      rwa [UInt8.toNat_ofNat', UInt8.toNat_ofNat'] at hbyte
    omega

/-- An address and an unsigned 128-bit integer. -/
structure Pair where
  address : Address
  value : ℕ
  address_lt : address.key < 256 ^ 32
  value_lt : value < 256 ^ 16
deriving DecidableEq

/-- The encoding of a pair, with the headers of a vector of two values, of the address of a
contract and of an unsigned 128-bit integer. -/
def pairXdr (p : Pair) : List UInt8 :=
  [0, 0, 0, 16, 0, 0, 0, 1, 0, 0, 0, 2, 0, 0, 0, 18, 0, 0, 0, 1] ++ bigEndian 32 p.address.key ++
    ([0, 0, 0, 9] ++ bigEndian 16 p.value)

theorem length_pairXdr (p : Pair) : (pairXdr p).length = 72 := by
  simp [pairXdr, length_bigEndian]

theorem pairXdr_inj {p q : Pair} (h : pairXdr p = pairXdr q) : p = q := by
  unfold pairXdr at h
  obtain ⟨haddress, hvalue⟩ := List.append_inj h (by simp [length_bigEndian])
  have hkey := bigEndian_inj p.address_lt q.address_lt (List.append_cancel_left haddress)
  have hval := bigEndian_inj p.value_lt q.value_lt (List.append_cancel_left hvalue)
  obtain ⟨⟨key⟩, value, _, _⟩ := p
  obtain ⟨⟨key'⟩, value', _, _⟩ := q
  simp only at hkey hval
  subst hkey
  subst hval
  rfl

/-! ## Single values -/

/-- The encoding of an address. The keys below `256 ^ 32` are the hashes of contracts, and the keys
from there on stand for the public keys of accounts. -/
def addressXdr (address : Address) : List UInt8 :=
  if address.key < 256 ^ 32 then
    [0, 0, 0, 18, 0, 0, 0, 1] ++ bigEndian 32 address.key
  else [0, 0, 0, 18, 0, 0, 0, 0, 0, 0, 0, 0] ++ bigEndian 32 (address.key - 256 ^ 32)

/-- The encoding of a signed 128-bit integer, in two's complement. -/
def i128Xdr (value : ℤ) : List UInt8 :=
  [0, 0, 0, 10] ++ bigEndian 16 (value % 2 ^ 128).toNat

/-- The encoding of an unsigned 32-bit integer. -/
def u32Xdr (value : ℕ) : List UInt8 := [0, 0, 0, 3] ++ bigEndian 4 value

/-- The encoding of an unsigned 64-bit integer. -/
def u64Xdr (value : ℕ) : List UInt8 := [0, 0, 0, 5] ++ bigEndian 8 value

/-! ## Sequences of values

In front of other bytes, each encoding determines its value and these bytes. -/

variable {u v : List UInt8}

theorem bigEndian_append_inj {k n m : ℕ} (hn : n < 256 ^ k) (hm : m < 256 ^ k)
    (h : bigEndian k n ++ u = bigEndian k m ++ v) : n = m ∧ u = v := by
  have hlen : (bigEndian k n).length = (bigEndian k m).length := by
    rw [length_bigEndian, length_bigEndian]
  obtain ⟨hvalue, hrest⟩ := List.append_inj h hlen
  exact ⟨bigEndian_inj hn hm hvalue, hrest⟩

theorem headed_append_inj {header : List UInt8} {k n m : ℕ} (hn : n < 256 ^ k) (hm : m < 256 ^ k)
    (h : header ++ bigEndian k n ++ u = header ++ bigEndian k m ++ v) : n = m ∧ u = v := by
  rw [List.append_assoc, List.append_assoc] at h
  exact bigEndian_append_inj hn hm (List.append_cancel_left h)

/-- The address of a contract or of an account. -/
def Address.Valid (address : Address) : Prop := address.key < 2 * 256 ^ 32

instance (address : Address) : Decidable address.Valid := inferInstanceAs (Decidable (_ < _))

theorem addressXdr_append_inj {a b : Address} (ha : a.Valid) (hb : b.Valid)
    (h : addressXdr a ++ u = addressXdr b ++ v) : a = b ∧ u = v := by
  unfold Address.Valid at ha hb
  unfold addressXdr at h
  have hkey : a.key = b.key ∧ u = v := by
    split at h <;> split at h
    · exact headed_append_inj ‹_› ‹_› h
    -- the kind of an address is a byte of its header
    · simp at h
    · simp at h
    · obtain ⟨hkey, hrest⟩ := headed_append_inj (by omega) (by omega) h
      exact ⟨by omega, hrest⟩
  obtain ⟨key⟩ := a
  obtain ⟨key'⟩ := b
  exact ⟨congrArg Address.mk hkey.1, hkey.2⟩

theorem i128Xdr_append_inj {x y : ℤ} (hx : IntFormat.i128.Mem x) (hy : IntFormat.i128.Mem y)
    (h : i128Xdr x ++ u = i128Xdr y ++ v) : x = y ∧ u = v := by
  obtain ⟨hvalue, hrest⟩ := headed_append_inj (by omega) (by omega) h
  obtain ⟨hlo, hhi⟩ := hx
  obtain ⟨hlo', hhi'⟩ := hy
  simp only [IntFormat.i128] at hlo hhi hlo' hhi'
  exact ⟨by omega, hrest⟩

theorem u32Xdr_append_inj {n m : ℕ} (hn : (n : ℤ) ≤ IntFormat.u32.hi)
    (hm : (m : ℤ) ≤ IntFormat.u32.hi) (h : u32Xdr n ++ u = u32Xdr m ++ v) : n = m ∧ u = v := by
  simp only [IntFormat.u32] at hn hm
  exact headed_append_inj (by omega) (by omega) h

theorem u64Xdr_inj {n m : ℕ} (hn : (n : ℤ) ≤ IntFormat.u64.hi) (hm : (m : ℤ) ≤ IntFormat.u64.hi)
    (h : u64Xdr n = u64Xdr m) : n = m := by
  simp only [IntFormat.u64] at hn hm
  exact bigEndian_inj (by omega) (by omega) (List.append_cancel_left h)

end Stellara
