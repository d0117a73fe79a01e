import Stellara.Lib.Expiry

/-!
# Stores with a record of their writes

A cache is filled by writes that come from several places, and its entries expire, are removed and
are overwritten. Beside such a store stands the record of the writes so far. As long as whatever is
stored under some keys was written as recorded, a value that is read there is one of the record,
under the same key and within its time to live.

## Main definitions

* `Write`: a value that is written under a key, with its time to live
* `WrittenBy P writes m`: the entries of `m` under keys that meet `P` are recorded writes

## Main results

* `WrittenBy.write`: what a recorded write keeps
* `WrittenBy.get`: a value that is read was written, and not too long ago
-/

universe u v

/-- A value that is written under a key, and how long it stays. -/
structure Write (K : Type u) (V : Type v) where
  time : ℕ
  key : K
  value : V
  ttl : Option ℕ
deriving DecidableEq, Repr

namespace Write

variable {K : Type u} {V : Type v}

/-- The entry that the write stores. -/
def entry (write : Write K V) : Expiring V := ⟨write.value, write.ttl.map (write.time + ·)⟩

def apply [DecidableEq K] (write : Write K V) (m : ExpiringStore K V) : ExpiringStore K V :=
  AList.insert write.key write.entry m

/-- The time is within the time to live. -/
def Covers (write : Write K V) (now : ℕ) : Prop := ∀ ttl ∈ write.ttl, now ≤ write.time + ttl

theorem covers_of_live {write : Write K V} {now : ℕ} (h : write.entry.live now = true) :
    write.Covers now := by
  intro ttl httl
  rw [Option.mem_def] at httl
  rw [Expiring.live, entry, httl, Option.map_some, Option.all_some, decide_eq_true_eq] at h
  exact h

end Write

section WrittenBy

variable {K : Type u} {V : Type v} [DecidableEq K] {P : K → Prop} {writes writes' : List (Write K V)}
  {m : ExpiringStore K V} {k : K} {v : V} {e : Expiring V} {now : ℕ}

/-- What is stored under keys that meet `P` was written as recorded. -/
def WrittenBy (P : K → Prop) (writes : List (Write K V)) (m : ExpiringStore K V) : Prop :=
  ∀ k e, P k → m.lookup k = some e → ∃ write ∈ writes, write.key = k ∧ write.entry = e

theorem writtenBy_empty : WrittenBy P [] (∅ : ExpiringStore K V) := by
  intro k e _ hread
  rw [AList.lookup_empty] at hread
  cases hread

/-- A write joins the record. -/
theorem WrittenBy.write (h : WrittenBy P writes m) (write : Write K V) :
    WrittenBy P (writes ++ [write]) (write.apply m) := by
  intro k e hk hread
  rcases Store.eq_or_lookup_of_insert hread with ⟨rfl, rfl⟩ | ⟨-, hread⟩
  · exact ⟨write, by simp, rfl, rfl⟩
  · obtain ⟨write', hwrite', hstored⟩ := h k e hk hread
    exact ⟨write', List.mem_append_left _ hwrite', hstored⟩

/-- A value that is read was written, and its time to live has not passed. -/
theorem WrittenBy.get (h : WrittenBy P writes m) (hk : P k)
    (hread : ExpiringStore.get now k m = some v) :
    ∃ write ∈ writes, write.key = k ∧ write.value = v ∧ write.Covers now := by
  obtain ⟨e, hstored, hlive, hvalue⟩ := ExpiringStore.get_eq_some.mp hread
  obtain ⟨write, hwrite, hkey, rfl⟩ := h k e hk hstored
  exact ⟨write, hwrite, hkey, hvalue, Write.covers_of_live hlive⟩

end WrittenBy
