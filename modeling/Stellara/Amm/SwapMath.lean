import Stellara.Amm.Pool
import Mathlib.Tactic.Linarith
import Mathlib.Tactic.Ring

/-!
# Prices, ticks and swap steps

The tick of a price and the price of a tick belong together although both interpolations round
down, and the price of a swap step stays between the current price and the target. A swap step
rounds its input and its output down, and the amounts of a position are rounded down as well, so
what a step takes in and what it adds to the amounts differ by a few units for each position.

## Main definitions

* `OnTable`: a price between the least and the greatest entry of the table

## Main results

* `sqrtPriceAt_le`, `le_sqrtPriceAt`: the ticks up to the tick of a price have lower prices, the
  others higher ones
* `sqrtPriceToTick_mono`: a higher price has a higher tick
* `stepDown_full`, `stepUp_in`, `stepUp_out`: what a step takes in and pays out, up to rounding
* `stepDown_between`, `stepUp_between`: the bounds of a step
* `amountA_move`, `amountB_move`: how the amounts of a position follow the price, up to rounding
-/

namespace Stellara.Amm

/-! ## The table -/

/-- A price between the least and the greatest entry of the table. -/
def OnTable (price : ℤ) : Prop := (tableEntry 0).2 ≤ price ∧ price ≤ (tableEntry 32).2

instance (price : ℤ) : Decidable (OnTable price) := inferInstanceAs (Decidable (_ ∧ _))

theorem tableEntry_mono {i j : ℕ} (h : i ≤ j) (hj : j ≤ 32) :
    (tableEntry i).2 ≤ (tableEntry j).2 := by
  induction j, h using Nat.le_induction with
  | base => exact le_rfl
  | succ j _ ih => exact (ih (by omega)).trans (tableEntry_snd j (by omega)).2.le

/-- The tick that a search returns is interpolated between two neighbouring entries. -/
theorem searchTable_eq_some {price tick : ℤ} : ∀ {l : List (ℤ × ℤ)},
    searchTable price l = some tick → ∃ i, i + 1 < l.length ∧ (l.getD i (0, 0)).2 ≤ price ∧
      price < (l.getD (i + 1) (0, 0)).2 ∧ tick = (l.getD i (0, 0)).1 +
        ((price - (l.getD i (0, 0)).2) * 512).tdiv
          (max ((l.getD (i + 1) (0, 0)).2 - (l.getD i (0, 0)).2) 1)
  | [], h => by cases h
  | [_], h => by cases h
  | (t₀, s₀) :: (t₁, s₁) :: rest, h => by
    rw [searchTable] at h
    split at h
    · rename_i hin
      exact ⟨0, by simp, hin.1, hin.2, (Option.some.inj h).symm⟩
    · obtain ⟨i, hlt, hrest⟩ := searchTable_eq_some h
      exact ⟨i + 1, by simpa using hlt, hrest⟩

/-- A search that fails from an entry below the price on meets no entry above it. -/
theorem searchTable_eq_none {price : ℤ} : ∀ {e : ℤ × ℤ} {l : List (ℤ × ℤ)},
    searchTable price (e :: l) = none → e.2 ≤ price → ∀ e' ∈ e :: l, e'.2 ≤ price
  | e, [], _, hle, e', he' => by
    obtain rfl := List.mem_singleton.mp he'
    exact hle
  | (t₀, s₀), (t₁, s₁) :: rest, h, hle, e', he' => by
    rw [searchTable] at h
    split at h
    · cases h
    · rename_i hout
      have hle₁ : s₁ ≤ price := not_lt.mp fun hlt => hout ⟨hle, hlt⟩
      rcases List.mem_cons.mp he' with rfl | he'
      · exact hle
      · exact searchTable_eq_none h hle₁ e' he'

/-- The tick of a price on the table is interpolated between the two entries around it. -/
theorem exists_segment {price : ℤ} (h : OnTable price) :
    ∃ i < 32, (tableEntry i).2 ≤ price ∧ price ≤ (tableEntry (i + 1)).2 ∧
      sqrtPriceToTick price = (tableEntry i).1 +
        (price - (tableEntry i).2) * 512 / ((tableEntry (i + 1)).2 - (tableEntry i).2) := by
  unfold sqrtPriceToTick
  cases hsearch : searchTable price tickSqrtTable with
  | some tick =>
    -- the search returns the interpolation, whose divisor is a difference of prices
    obtain ⟨i, hi, hle, hlt, rfl⟩ := searchTable_eq_some hsearch
    have hlen : tickSqrtTable.length = 33 := rfl
    have hstep := (tableEntry_snd i (by omega)).2
    refine ⟨i, by omega, hle, hlt.le, ?_⟩
    change (tableEntry i).1 + _ = _
    congr 1
    change ((price - (tableEntry i).2) * 512).tdiv
      (max ((tableEntry (i + 1)).2 - (tableEntry i).2) 1) = _
    change (tableEntry i).2 ≤ price at hle
    rw [max_eq_left (by omega), Int.tdiv_eq_ediv_of_nonneg (by omega)]
  | none =>
    -- the price is that of the last entry
    have hlast : (tableEntry 32).2 ≤ price := searchTable_eq_none hsearch h.1 _ (by decide)
    obtain rfl := le_antisymm h.2 hlast
    exact ⟨31, by decide, by decide, le_rfl, by decide⟩

/-- The price of a tick is interpolated between the two entries around it. -/
theorem sqrtPriceAt_eq {tick : ℤ} (hmin : minTick ≤ tick) (hmax : tick ≤ maxTick) :
    ∃ i < 32, (tableEntry i).1 ≤ tick ∧ tick ≤ (tableEntry (i + 1)).1 ∧
      sqrtPriceAt tick = (tableEntry i).2 +
        ((tableEntry (i + 1)).2 - (tableEntry i).2) * (tick - (tableEntry i).1) / 512 := by
  have hlt := lowerIndex_lt tick
  have hle := tableEntry_le hmin
  have hfst := tableEntry_fst (lowerIndex tick) (by omega)
  have hnext := tableEntry_fst (lowerIndex tick + 1) (by omega)
  have hindex : lowerIndex tick = min ((tick - minTick) / 512).toNat 31 := by
    rw [lowerIndex, Int.tdiv_eq_ediv_of_nonneg (by omega)]
    rfl
  unfold minTick at hmin hindex
  unfold maxTick at hmax
  refine ⟨lowerIndex tick, hlt, hle, by omega, ?_⟩
  have hstep := (tableEntry_snd _ hlt).2
  -- every segment of the table is 512 ticks wide
  have hwidth : (tableEntry (lowerIndex tick + 1)).1 - (tableEntry (lowerIndex tick)).1 = 512 := by
    omega
  have hdef : sqrtPriceAt tick = (tableEntry (lowerIndex tick)).2 +
      (((tableEntry (lowerIndex tick + 1)).2 - (tableEntry (lowerIndex tick)).2) *
        (tick - (tableEntry (lowerIndex tick)).1)).tdiv
      ((tableEntry (lowerIndex tick + 1)).1 - (tableEntry (lowerIndex tick)).1) := rfl
  rw [hdef, hwidth, Int.tdiv_eq_ediv_of_nonneg (Int.mul_nonneg (by omega) (by omega))]

/-! ## Ticks and prices -/

section Ticks

variable {price price' tick : ℤ}

/-- A tick up to the tick of a price has at most that price. -/
theorem sqrtPriceAt_le (h : OnTable price) (hmin : minTick ≤ tick)
    (hle : tick ≤ sqrtPriceToTick price) (hmax : tick ≤ maxTick) : sqrtPriceAt tick ≤ price := by
  obtain ⟨i, hi, hlow, hhigh, htick⟩ := exists_segment h
  obtain ⟨j, hj, hjlow, hjhigh, hprice⟩ := sqrtPriceAt_eq hmin hmax
  have hstepi := (tableEntry_snd i hi).2
  have hstepj := (tableEntry_snd j hj).2
  have hfsti := tableEntry_fst i (by omega)
  have hfstj := tableEntry_fst j (by omega)
  have hnextj := tableEntry_fst (j + 1) (by omega)
  push_cast at hnextj
  have hquot : (price - (tableEntry i).2) * 512 / ((tableEntry (i + 1)).2 - (tableEntry i).2) ≤ 512 :=
    Int.ediv_le_of_le_mul (by omega) (by omega)
  rcases lt_trichotomy j i with hlt | rfl | hlt
  · -- the tick is in a lower segment
    have hmono := tableEntry_mono (show j + 1 ≤ i by omega) (by omega)
    have hinterp : ((tableEntry (j + 1)).2 - (tableEntry j).2) * (tick - (tableEntry j).1) / 512 ≤
        (tableEntry (j + 1)).2 - (tableEntry j).2 := by
      refine Int.ediv_le_of_le_mul (by decide) ?_
      exact Int.mul_le_mul_of_nonneg_left (by omega) (by omega)
    omega
  · -- both are interpolated in the same segment
    have hmul : (tick - (tableEntry j).1) * ((tableEntry (j + 1)).2 - (tableEntry j).2) ≤
        (price - (tableEntry j).2) * 512 := Int.mul_le_of_le_ediv (by omega) (by omega)
    have hinterp : ((tableEntry (j + 1)).2 - (tableEntry j).2) * (tick - (tableEntry j).1) / 512 ≤
        price - (tableEntry j).2 := by
      refine Int.ediv_le_of_le_mul (by decide) ?_
      rw [Int.mul_comm]
      exact hmul
    omega
  · -- the tick is the common end of two segments, and the price is that of the entry there
    obtain rfl : j = i + 1 := by omega
    have hend : tick = (tableEntry (i + 1)).1 := by omega
    have hfull : 512 * ((tableEntry (i + 1)).2 - (tableEntry i).2) ≤
        (price - (tableEntry i).2) * 512 := Int.mul_le_of_le_ediv (by omega) (by omega)
    rw [hprice, hend]
    simp only [Int.sub_self, Int.mul_zero, Int.zero_ediv, Int.add_zero]
    omega

/-- A tick above the tick of a price has at least that price. -/
theorem le_sqrtPriceAt (h : OnTable price) (hmin : minTick ≤ tick)
    (hlt : sqrtPriceToTick price < tick) (hmax : tick ≤ maxTick) : price ≤ sqrtPriceAt tick := by
  obtain ⟨i, hi, hlow, hhigh, htick⟩ := exists_segment h
  obtain ⟨j, hj, hjlow, hjhigh, hprice⟩ := sqrtPriceAt_eq hmin hmax
  have hstepi := (tableEntry_snd i hi).2
  have hstepj := (tableEntry_snd j hj).2
  have hfsti := tableEntry_fst i (by omega)
  have hnextj := tableEntry_fst (j + 1) (by omega)
  push_cast at hnextj
  have hquot : 0 ≤ (price - (tableEntry i).2) * 512 / ((tableEntry (i + 1)).2 - (tableEntry i).2) :=
    Int.ediv_nonneg (by omega) (by omega)
  rcases lt_trichotomy j i with hji | rfl | hij
  · -- the tick is below the segment of the price, against the hypothesis
    omega
  · -- both are interpolated in the same segment
    have hmul : (price - (tableEntry j).2) * 512 <
        (tick - (tableEntry j).1) * ((tableEntry (j + 1)).2 - (tableEntry j).2) :=
      Int.lt_mul_of_ediv_lt (by omega) (by omega)
    have hinterp : price - (tableEntry j).2 ≤
        ((tableEntry (j + 1)).2 - (tableEntry j).2) * (tick - (tableEntry j).1) / 512 := by
      refine Int.le_ediv_of_mul_le (by decide) ?_
      rw [Int.mul_comm ((tableEntry (j + 1)).2 - (tableEntry j).2)]
      exact hmul.le
    omega
  · -- the tick is in a higher segment
    have hmono := tableEntry_mono (show i + 1 ≤ j by omega) (by omega)
    have hinterp : 0 ≤ ((tableEntry (j + 1)).2 - (tableEntry j).2) * (tick - (tableEntry j).1) / 512 :=
      Int.ediv_nonneg (Int.mul_nonneg (by omega) (by omega)) (by decide)
    omega

/-- A higher price on the table has a higher tick. -/
theorem OnTable.sqrtPriceToTick_le (h : OnTable price) (h' : OnTable price') (hle : price ≤ price') :
    sqrtPriceToTick price ≤ sqrtPriceToTick price' := by
  obtain ⟨i, hi, hlow, hhigh, htick⟩ := exists_segment h
  obtain ⟨j, hj, hjlow, hjhigh, htick'⟩ := exists_segment h'
  have hstepi := (tableEntry_snd i hi).2
  have hstepj := (tableEntry_snd j hj).2
  have hfsti := tableEntry_fst i (by omega)
  have hfstj := tableEntry_fst j (by omega)
  rcases lt_trichotomy i j with hlt | rfl | hlt
  · -- each tick stays in its own segment
    have hquot : (price - (tableEntry i).2) * 512 / ((tableEntry (i + 1)).2 - (tableEntry i).2) ≤
        512 := Int.ediv_le_of_le_mul (by omega) (by omega)
    have hquot' : 0 ≤ (price' - (tableEntry j).2) * 512 /
        ((tableEntry (j + 1)).2 - (tableEntry j).2) := Int.ediv_nonneg (by omega) (by omega)
    omega
  · -- in one segment the quotient grows with the price
    have hquot := Int.ediv_le_ediv (show 0 < (tableEntry (i + 1)).2 - (tableEntry i).2 by omega)
      (show (price - (tableEntry i).2) * 512 ≤ (price' - (tableEntry i).2) * 512 by omega)
    omega
  · -- the prices are equal, at the common end of two segments
    have hmono := tableEntry_mono (show j + 1 ≤ i by omega) (by omega)
    obtain rfl : price = price' := by omega
    exact le_rfl

/-- The prices of ticks are on the table. -/
theorem onTable_sqrtPriceAt (hmin : minTick ≤ tick) (hmax : tick ≤ maxTick) :
    OnTable (sqrtPriceAt tick) := by
  obtain ⟨j, hj, hjlow, hjhigh, hprice⟩ := sqrtPriceAt_eq hmin hmax
  have hstep := (tableEntry_snd j hj).2
  have hfst := tableEntry_fst j (by omega)
  have hnext := tableEntry_fst (j + 1) (by omega)
  push_cast at hnext
  have hlow := tableEntry_mono (Nat.zero_le j) (by omega)
  have hhigh := tableEntry_mono (show j + 1 ≤ 32 by omega) le_rfl
  have hnn : 0 ≤ ((tableEntry (j + 1)).2 - (tableEntry j).2) * (tick - (tableEntry j).1) / 512 :=
    Int.ediv_nonneg (Int.mul_nonneg (by omega) (by omega)) (by decide)
  have hle : ((tableEntry (j + 1)).2 - (tableEntry j).2) * (tick - (tableEntry j).1) / 512 ≤
      (tableEntry (j + 1)).2 - (tableEntry j).2 :=
    Int.ediv_le_of_le_mul (by decide) (Int.mul_le_mul_of_nonneg_left (by omega) (by omega))
  unfold OnTable
  omega

theorem OnTable.pos (h : OnTable price) : 0 < price := lt_of_lt_of_le (by decide) h.1

/-- A price on the table is at least a half. -/
theorem OnTable.Q64_le (h : OnTable price) : Q64 ≤ 2 * price := by
  have hmin : Q64 ≤ 2 * (tableEntry 0).2 := by decide
  have := h.1
  omega

theorem OnTable.le_i128Max (h : OnTable price) : price ≤ i128Max := h.2.trans (by decide)

theorem sqrtPriceAt_maxTick : sqrtPriceAt maxTick = (tableEntry 32).2 := by decide

/-- Below the table a price has the least tick. -/
theorem sqrtPriceToTick_of_lt (h : price < (tableEntry 0).2) : sqrtPriceToTick price = minTick := by
  unfold sqrtPriceToTick
  cases hsearch : searchTable price tickSqrtTable with
  | some tick =>
    -- no segment starts below the first entry
    obtain ⟨i, hi, hle, -⟩ := searchTable_eq_some hsearch
    have hlen : tickSqrtTable.length = 33 := rfl
    have hmono := tableEntry_mono (Nat.zero_le i) (by omega)
    change (tableEntry i).2 ≤ price at hle
    omega
  | none => exact if_pos h.le

/-- Above the table a price has the greatest tick. -/
theorem sqrtPriceToTick_of_gt (h : (tableEntry 32).2 < price) :
    sqrtPriceToTick price = maxTick := by
  have hfirst : (tableEntry 0).2 ≤ (tableEntry 32).2 := tableEntry_mono (by decide) le_rfl
  unfold sqrtPriceToTick
  cases hsearch : searchTable price tickSqrtTable with
  | some tick =>
    -- no segment ends above the last entry
    obtain ⟨i, hi, -, hlt, -⟩ := searchTable_eq_some hsearch
    have hlen : tickSqrtTable.length = 33 := rfl
    have hmono := tableEntry_mono (show i + 1 ≤ 32 by omega) le_rfl
    change price < (tableEntry (i + 1)).2 at hlt
    omega
  | none => exact if_neg (by omega)

/-- The price, moved onto the table. -/
def tablePrice (price : ℤ) : ℤ := max (tableEntry 0).2 (min price (tableEntry 32).2)

theorem onTable_tablePrice (price : ℤ) : OnTable (tablePrice price) := by
  have hfirst : (tableEntry 0).2 ≤ (tableEntry 32).2 := tableEntry_mono (by decide) le_rfl
  unfold tablePrice OnTable
  omega

/-- A price off the table has the tick of the nearest price on it. -/
theorem sqrtPriceToTick_tablePrice (price : ℤ) :
    sqrtPriceToTick (tablePrice price) = sqrtPriceToTick price := by
  have hfirst : (tableEntry 0).2 ≤ (tableEntry 32).2 := tableEntry_mono (by decide) le_rfl
  rcases lt_or_ge price (tableEntry 0).2 with hlt | hge
  · have heq : tablePrice price = (tableEntry 0).2 := by
      unfold tablePrice
      omega
    rw [heq, sqrtPriceToTick_of_lt hlt]
    decide
  · rcases lt_or_ge (tableEntry 32).2 price with hgt | hle
    · have heq : tablePrice price = (tableEntry 32).2 := by
        unfold tablePrice
        omega
      rw [heq, sqrtPriceToTick_of_gt hgt]
      decide
    · have heq : tablePrice price = price := by
        unfold tablePrice
        omega
      rw [heq]

/-- A higher price has a higher tick. -/
theorem sqrtPriceToTick_mono (h : price ≤ price') :
    sqrtPriceToTick price ≤ sqrtPriceToTick price' := by
  rw [← sqrtPriceToTick_tablePrice price, ← sqrtPriceToTick_tablePrice price']
  refine (onTable_tablePrice price).sqrtPriceToTick_le (onTable_tablePrice price') ?_
  unfold tablePrice
  omega

/-- The tick of a price is in the range of the ticks. -/
theorem sqrtPriceToTick_mem (price : ℤ) :
    minTick ≤ sqrtPriceToTick price ∧ sqrtPriceToTick price ≤ maxTick := by
  have hmin : sqrtPriceToTick (tableEntry 0).2 = minTick := by decide
  have hmax : sqrtPriceToTick (tableEntry 32).2 = maxTick := by decide
  have h := onTable_tablePrice price
  rw [← sqrtPriceToTick_tablePrice price, ← hmin, ← hmax]
  exact ⟨sqrtPriceToTick_mono h.1, sqrtPriceToTick_mono h.2⟩

end Ticks

/-! ## Rounding -/

/-- Two divisions that round down, with a scaling between them, lose less than three units when
the second divisor is at least a half. -/
theorem scaled_bounds {x d c : ℤ} (hd : 0 < d) (hc : 0 < c) (hQ : Q64 ≤ 2 * c) :
    x / d * Q64 / c * (d * c) ≤ x * Q64 ∧ x * Q64 ≤ (x / d * Q64 / c + 3) * (d * c) := by
  -- the two quotients, each within one of its exact value
  generalize hs : x / d = s
  generalize ha : s * Q64 / c = a
  have hsle : s * d ≤ x := hs ▸ Int.ediv_mul_le x hd.ne'
  have hlts : x < (s + 1) * d := hs ▸ Int.lt_ediv_add_one_mul_self x hd
  have hale : a * c ≤ s * Q64 := ha ▸ Int.ediv_mul_le (s * Q64) hc.ne'
  have hlta : s * Q64 < (a + 1) * c := ha ▸ Int.lt_ediv_add_one_mul_self (s * Q64) hc
  constructor
  · calc a * (d * c) = a * c * d := by ring
      _ ≤ s * Q64 * d := Int.mul_le_mul_of_nonneg_right hale hd.le
      _ = s * d * Q64 := by ring
      _ ≤ x * Q64 := Int.mul_le_mul_of_nonneg_right hsle Q64_pos.le
  · calc x * Q64 ≤ (s + 1) * d * Q64 := Int.mul_le_mul_of_nonneg_right hlts.le Q64_pos.le
      _ = (s * Q64 + Q64) * d := by ring
      _ ≤ ((a + 1) * c + 2 * c) * d := Int.mul_le_mul_of_nonneg_right (by omega) hd.le
      _ = (a + 3) * (d * c) := by ring

/-- A saturating product, divided, is at most the exact quotient. -/
theorem saturate_tdiv_le {x d : ℤ} (hx : 0 ≤ x) (hd : 0 < d) :
    (IntFormat.i128.saturate x).tdiv d ≤ x / d := by
  rw [Int.tdiv_eq_ediv_of_nonneg (IntFormat.saturate_nonneg hx)]
  exact Int.ediv_le_ediv hd (IntFormat.saturate_le_of_nonneg hx)

theorem saturate_tdiv_nonneg {x d : ℤ} (hx : 0 ≤ x) (hd : 0 < d) :
    0 ≤ (IntFormat.i128.saturate x).tdiv d :=
  Int.tdiv_nonneg (IntFormat.saturate_nonneg hx) hd.le

/-! ## Swap steps -/

section Steps

variable {current target liquidity after : ℤ}

/-- A step down that the input pays for as a whole takes it in and pays it out, up to rounding. -/
theorem stepDown_full (htarget : OnTable target) (hlt : target < current) (hnn : 0 ≤ liquidity)
    (hproduct : liquidity * (current - target) ≤ i128Max)
    (hscaled : liquidity * (current - target) / current * Q64 ≤ i128Max)
    (hfull : liquidity * (current - target) / current * Q64 / target ≤ after) :
    ∃ amountIn amountOut, stepDown current target liquidity after = (target, amountIn, amountOut) ∧
      (0 ≤ amountIn ∧ 0 ≤ amountOut) ∧
      liquidity * (current - target) * Q64 ≤ (amountIn + 3) * (current * target) ∧
      amountOut * Q64 ≤ liquidity * (current - target) := by
  have ht := htarget.pos
  have hc : 0 < current := ht.trans hlt
  have hprod : 0 ≤ liquidity * (current - target) := Int.mul_nonneg hnn (by omega)
  have hstep : 0 ≤ liquidity * (current - target) / current * Q64 :=
    Int.mul_nonneg (Int.ediv_nonneg hprod hc.le) Q64_pos.le
  refine ⟨liquidity * (current - target) / current * Q64 / target,
    liquidity * (current - target) / Q64, ?_, ⟨Int.ediv_nonneg hstep ht.le,
    Int.ediv_nonneg hprod Q64_pos.le⟩, (scaled_bounds hc ht htarget.Q64_le).2,
    Int.ediv_mul_le _ Q64_pos.ne'⟩
  -- nothing saturates, so the quotients are the exact ones rounded down
  simp only [stepDown, if_neg (show ¬ (current = 0 ∨ target = 0) by omega),
    IntFormat.saturate_of_nonneg hprod hproduct, Int.tdiv_eq_ediv_of_nonneg hprod,
    IntFormat.saturate_of_nonneg hstep hscaled, Int.tdiv_eq_ediv_of_nonneg hstep, if_pos hfull]

/-- The price that a step up reaches and what it takes in for it. -/
theorem stepUp_in (hcurrent : OnTable current) (hle : current ≤ target) (hpos : 0 < liquidity)
    (hafter : 0 ≤ after) (hproduct : liquidity * (target - current) ≤ i128Max) :
    (current ≤ (stepUp current target liquidity after).1 ∧
      (stepUp current target liquidity after).1 ≤ target) ∧
      0 ≤ (stepUp current target liquidity after).2.1 ∧
      liquidity * ((stepUp current target liquidity after).1 - current) ≤
        ((stepUp current target liquidity after).2.1 + 1) * Q64 := by
  have hprod : 0 ≤ liquidity * (target - current) := Int.mul_nonneg hpos.le (by omega)
  have hmoved : 0 ≤ after * Q64 := Int.mul_nonneg hafter Q64_pos.le
  simp only [stepUp, IntFormat.saturate_of_nonneg hprod hproduct,
    Int.tdiv_eq_ediv_of_nonneg hprod, max_eq_left (show 1 ≤ liquidity by omega)]
  split
  · -- the input pays for the whole step
    exact ⟨⟨hle, le_rfl⟩, Int.ediv_nonneg hprod Q64_pos.le,
      (Int.lt_ediv_add_one_mul_self _ Q64_pos).le⟩
  · -- it pays for a part: the price rises by what `after` moves, up to the target
    have hnonneg := saturate_tdiv_nonneg hmoved hpos
    have hquot := saturate_tdiv_le hmoved hpos
    generalize (IntFormat.i128.saturate (after * Q64)).tdiv liquidity = moved at *
    have hsat : IntFormat.i128.saturate (current + moved) ≤ current + moved :=
      IntFormat.saturate_le_of_nonneg (by have := hcurrent.pos; omega)
    have hmono : current ≤ IntFormat.i128.saturate (current + moved) := by
      have := IntFormat.saturate_mono (F := IntFormat.i128) (show current ≤ current + moved by omega)
      rwa [IntFormat.saturate_of_nonneg hcurrent.pos.le hcurrent.le_i128Max] at this
    refine ⟨⟨le_min hmono hle, min_le_right _ _⟩, hafter, ?_⟩
    calc liquidity * (min (IntFormat.i128.saturate (current + moved)) target - current)
        ≤ liquidity * moved := Int.mul_le_mul_of_nonneg_left (by omega) hpos.le
      _ ≤ after * Q64 := by rw [Int.mul_comm]; exact Int.mul_le_of_le_ediv hpos hquot
      _ ≤ (after + 1) * Q64 := Int.mul_le_mul_of_nonneg_right (by omega) Q64_pos.le

/-- What a step up pays out follows from where the price ends. -/
theorem stepUp_out_eq (current target liquidity after : ℤ) :
    (stepUp current target liquidity after).2.2 =
      if current = 0 ∨ (stepUp current target liquidity after).1 = 0 then 0
      else (IntFormat.i128.saturate ((IntFormat.i128.saturate (liquidity *
        ((stepUp current target liquidity after).1 - current))).tdiv current * Q64)).tdiv
        (stepUp current target liquidity after).1 := rfl

/-- What a step up pays out. -/
theorem stepUp_out (hcurrent : OnTable current) (hnn : 0 ≤ liquidity)
    (hle : current ≤ (stepUp current target liquidity after).1) :
    0 ≤ (stepUp current target liquidity after).2.2 ∧
      (stepUp current target liquidity after).2.2 *
        (current * (stepUp current target liquidity after).1) ≤
      liquidity * ((stepUp current target liquidity after).1 - current) * Q64 := by
  have hc := hcurrent.pos
  have hdef := stepUp_out_eq current target liquidity after
  generalize (stepUp current target liquidity after).1 = reached at *
  rw [hdef, if_neg (by omega)]
  have hprod : 0 ≤ liquidity * (reached - current) := Int.mul_nonneg hnn (by omega)
  have hstep := saturate_tdiv_nonneg hprod hc
  have hstep_le := saturate_tdiv_le hprod hc
  have hout := saturate_tdiv_le (Int.mul_nonneg hstep Q64_pos.le) (show 0 < reached by omega)
  refine ⟨saturate_tdiv_nonneg (Int.mul_nonneg hstep Q64_pos.le) (by omega), ?_⟩
  generalize (IntFormat.i128.saturate (liquidity * (reached - current))).tdiv current = s at *
  generalize (IntFormat.i128.saturate (s * Q64)).tdiv reached = out at *
  -- each of the two divisions rounds down
  calc out * (current * reached) = out * reached * current := by ring
    _ ≤ s * Q64 * current := Int.mul_le_mul_of_nonneg_right
        (Int.mul_le_of_le_ediv (by omega) hout) hc.le
    _ = s * current * Q64 := by ring
    _ ≤ liquidity * (reached - current) * Q64 := Int.mul_le_mul_of_nonneg_right
        (Int.mul_le_of_le_ediv hc hstep_le) Q64_pos.le

/-- A step up that is too small to move the price, or that is at its target, pays out nothing. -/
theorem stepUp_still (hc : 0 < current) (hcle : current ≤ i128Max) (hpos : 0 < liquidity)
    (hafter : 0 ≤ after)
    (h : target = current ∨ current < target ∧ after * Q64 < liquidity ∧
      after < (IntFormat.i128.saturate (liquidity * (target - current))).tdiv Q64) :
    ∃ amountIn, stepUp current target liquidity after = (current, amountIn, 0) ∧ 0 ≤ amountIn := by
  rcases h with rfl | ⟨hlt, hsmall, hpartial⟩
  · refine ⟨0, ?_, le_rfl⟩
    simp [stepUp, IntFormat.saturate_of_nonneg le_rfl IntFormat.i128.hi_nonneg, hafter, hc.ne']
  · refine ⟨after, ?_, hafter⟩
    have hmoved : 0 ≤ after * Q64 := Int.mul_nonneg hafter Q64_pos.le
    -- the price would move by less than one unit
    have hzero : (IntFormat.i128.saturate (after * Q64)).tdiv liquidity = 0 :=
      le_antisymm ((saturate_tdiv_le hmoved hpos).trans_eq (Int.ediv_eq_zero_of_lt hmoved hsmall))
        (saturate_tdiv_nonneg hmoved hpos)
    simp [stepUp, if_neg (not_le.mpr hpartial), max_eq_left (show 1 ≤ liquidity by omega), hzero,
      IntFormat.saturate_of_nonneg hc.le hcle, min_eq_left hlt.le,
      IntFormat.saturate_of_nonneg le_rfl IntFormat.i128.hi_nonneg, hc.ne']

/-- A step up below its target raises the price, unless it is too small to move it. -/
theorem stepUp_raises (hlt : current < target) (hmax : target ≤ i128Max) (hpos : 0 < liquidity)
    (hle : liquidity ≤ i128Max)
    (h : ¬ (after * Q64 < liquidity ∧
      after < (IntFormat.i128.saturate (liquidity * (target - current))).tdiv Q64)) :
    current < (stepUp current target liquidity after).1 := by
  simp only [stepUp, max_eq_left (show 1 ≤ liquidity by omega)]
  split
  · exact hlt
  · rename_i hpartial
    -- the price moves by one unit at least
    have hlarge : liquidity ≤ after * Q64 := not_lt.mp fun hsmall => h ⟨hsmall, not_le.mp hpartial⟩
    have hsat : liquidity ≤ IntFormat.i128.saturate (after * Q64) := by
      have hmono := IntFormat.saturate_mono (F := IntFormat.i128) hlarge
      rwa [IntFormat.saturate_of_nonneg hpos.le hle] at hmono
    have hmoved : 1 ≤ (IntFormat.i128.saturate (after * Q64)).tdiv liquidity := by
      rw [Int.tdiv_eq_ediv_of_nonneg (by omega)]
      exact Int.le_ediv_of_mul_le hpos (by rwa [Int.one_mul])
    refine lt_min ?_ hlt
    unfold IntFormat.saturate at *
    unfold i128Max at hmax
    omega

/-- What a step moves: its new price, input and output. -/
def stepTo (current target liquidity after : ℤ) : ℤ × ℤ × ℤ :=
  if target < current then stepDown current target liquidity after
  else stepUp current target liquidity after

/-- What a step takes in covers what its amounts move by, up to rounding, unless a step down is
left unfinished. -/
theorem stepTo_covers (hcurrent : OnTable current) (htarget : OnTable target) (hpos : 0 < liquidity)
    (hafter : 0 ≤ after) (hproduct : liquidity * |target - current| ≤ i128Max)
    (hdown : target < current → liquidity * (current - target) / current * Q64 ≤ i128Max ∧
      liquidity * (current - target) / current * Q64 / target ≤ after)
    {reached amountIn amountOut : ℤ}
    (h : stepTo current target liquidity after = (reached, amountIn, amountOut)) :
    (target ≤ current → liquidity * (current - reached) * Q64 ≤
        (amountIn + 3) * (current * reached) ∧
      liquidity * (reached - current) ≤ (-amountOut + 1) * Q64) ∧
    (current ≤ target → liquidity * (current - reached) * Q64 ≤
        (-amountOut + 3) * (current * reached) ∧
      liquidity * (reached - current) ≤ (amountIn + 1) * Q64) := by
  have hQ := Q64_pos
  unfold stepTo at h
  split at h
  · -- down: token a comes in, and token b goes out
    rename_i hlt
    rw [abs_of_neg (by omega), Int.neg_sub] at hproduct
    obtain ⟨amountIn', amountOut', heq, -, hin, hout⟩ := stepDown_full htarget hlt hpos.le hproduct
      (hdown hlt).1 (hdown hlt).2
    obtain ⟨rfl, hrest⟩ := Prod.mk.inj (heq.symm.trans h)
    obtain ⟨rfl, rfl⟩ := Prod.mk.inj hrest
    exact ⟨fun _ => ⟨hin, by linarith⟩, fun hle => absurd hlt (not_lt.mpr hle)⟩
  · -- up, or nowhere: token b comes in, and token a goes out
    rename_i hge
    rw [abs_of_nonneg (by omega)] at hproduct
    obtain ⟨⟨hlow, hhigh⟩, hnn, hin⟩ := stepUp_in hcurrent (not_lt.mp hge) hpos hafter hproduct
    obtain ⟨-, hout⟩ := stepUp_out hcurrent hpos.le hlow
    rw [h] at hlow hhigh hnn hin hout
    have hprod : 0 ≤ current * reached :=
      Int.mul_nonneg hcurrent.pos.le (hcurrent.pos.le.trans hlow)
    refine ⟨fun hle => ?_, fun _ => ⟨by linarith, hin⟩⟩
    -- the target is the price, and nothing moves
    obtain rfl := le_antisymm hle (not_lt.mp hge)
    obtain rfl := le_antisymm hhigh hlow
    rw [Int.sub_self, Int.mul_zero, Int.zero_mul] at hout
    have hnone : amountOut ≤ 0 :=
      Int.le_of_mul_le_mul_right (by rwa [Int.zero_mul]) (Int.mul_pos hcurrent.pos hcurrent.pos)
    rw [Int.sub_self, Int.mul_zero, Int.zero_mul]
    have hnn' : 0 ≤ amountIn := hnn
    exact ⟨Int.mul_nonneg (by omega) hprod, Int.mul_nonneg (by omega) hQ.le⟩

theorem computeSwapStep_eq_ok {amountIn : ℤ} {feeBps : ℕ} {step : SwapStep}
    (h : computeSwapStep current target liquidity amountIn feeBps = .ok step) :
    step.feePaid = (amountIn * feeBps).tdiv 10000 ∧
      (step.newSqrtPrice, step.amountIn, step.amountOut) =
        stepTo current target liquidity (max (amountIn - step.feePaid) 0) := by
  simp only [computeSwapStep, Except.bind_eq_ok, IntFormat.checked_eq_ok] at h
  obtain ⟨product, ⟨-, rfl⟩, h⟩ := h
  obtain rfl := Except.ok.inj h
  exact ⟨rfl, rfl⟩

/-- A step down ends between the target and the current price, takes in at most what there is,
and pays out no negative amount. -/
theorem stepDown_between (htarget : 0 < target) (hlt : target < current) (hnn : 0 ≤ liquidity)
    (hafter : 0 ≤ after) :
    (target ≤ (stepDown current target liquidity after).1 ∧
      (stepDown current target liquidity after).1 ≤ current) ∧
      (0 ≤ (stepDown current target liquidity after).2.1 ∧
        (stepDown current target liquidity after).2.1 ≤ after) ∧
      0 ≤ (stepDown current target liquidity after).2.2 := by
  have hcurrent : 0 < current := htarget.trans hlt
  have hprod : 0 ≤ liquidity * (current - target) := Int.mul_nonneg hnn (by omega)
  have hstep := saturate_tdiv_nonneg hprod hcurrent
  have hmax := saturate_tdiv_nonneg (Int.mul_nonneg hstep Q64_pos.le) htarget
  have hdef : (stepDown current target liquidity after).2.2 =
      (IntFormat.i128.saturate (liquidity *
        (current - (stepDown current target liquidity after).1))).tdiv Q64 := rfl
  -- what is paid out follows from where the price ends
  suffices hprice : (target ≤ (stepDown current target liquidity after).1 ∧
      (stepDown current target liquidity after).1 ≤ current) ∧
      (0 ≤ (stepDown current target liquidity after).2.1 ∧
        (stepDown current target liquidity after).2.1 ≤ after) by
    refine ⟨hprice.1, hprice.2, ?_⟩
    rw [hdef]
    exact saturate_tdiv_nonneg (Int.mul_nonneg hnn (by omega)) Q64_pos
  simp only [stepDown, if_neg (show ¬ (current = 0 ∨ target = 0) by omega)]
  split
  · -- the input pays for the whole step
    rename_i hfull
    exact ⟨⟨le_rfl, hlt.le⟩, hmax, hfull⟩
  · refine ⟨⟨le_max_right _ _, max_le ?_ hlt.le⟩, hafter, le_rfl⟩
    -- the denominator is at least one, in fixed point
    have hterm : 0 ≤ (IntFormat.i128.saturate (after * current)).tdiv (max liquidity 1) :=
      saturate_tdiv_nonneg (Int.mul_nonneg hafter hcurrent.le) (by omega)
    generalize (IntFormat.i128.saturate (after * current)).tdiv (max liquidity 1) = term at *
    have hden : Q64 ≤ IntFormat.i128.saturate (term + Q64) := by
      have hmono := IntFormat.saturate_mono (F := IntFormat.i128) (show Q64 ≤ term + Q64 by omega)
      rwa [IntFormat.saturate_of_nonneg Q64_pos.le (by decide)] at hmono
    have hone : 0 < Q64 := Q64_pos
    rw [max_eq_left (show 1 ≤ IntFormat.i128.saturate (term + Q64) by omega)]
    refine (saturate_tdiv_le (Int.mul_nonneg hcurrent.le Q64_pos.le) (by omega)).trans ?_
    exact Int.ediv_le_of_le_mul (by omega) (Int.mul_le_mul_of_nonneg_left hden hcurrent.le)

/-- A step up ends between the current price and the target, takes in at most what there is, and
pays out no negative amount. -/
theorem stepUp_between (hcurrent : 0 < current) (hle : current ≤ target)
    (hmax : current ≤ i128Max) (hpos : 0 < liquidity) (hafter : 0 ≤ after) :
    (current ≤ (stepUp current target liquidity after).1 ∧
      (stepUp current target liquidity after).1 ≤ target) ∧
      (0 ≤ (stepUp current target liquidity after).2.1 ∧
        (stepUp current target liquidity after).2.1 ≤ after) ∧
      0 ≤ (stepUp current target liquidity after).2.2 := by
  have hprod : 0 ≤ liquidity * (target - current) := Int.mul_nonneg hpos.le (by omega)
  have hmoved := saturate_tdiv_nonneg (Int.mul_nonneg hafter Q64_pos.le) hpos
  have hdef := stepUp_out_eq current target liquidity after
  -- what is paid out follows from where the price ends
  suffices hprice : (current ≤ (stepUp current target liquidity after).1 ∧
      (stepUp current target liquidity after).1 ≤ target) ∧
      (0 ≤ (stepUp current target liquidity after).2.1 ∧
        (stepUp current target liquidity after).2.1 ≤ after) by
    refine ⟨hprice.1, hprice.2, ?_⟩
    rw [hdef]
    split
    · exact le_rfl
    · have hstep := saturate_tdiv_nonneg (Int.mul_nonneg hpos.le
        (show 0 ≤ (stepUp current target liquidity after).1 - current by omega)) hcurrent
      exact saturate_tdiv_nonneg (Int.mul_nonneg hstep Q64_pos.le) (by omega)
  simp only [stepUp, max_eq_left (show 1 ≤ liquidity by omega)]
  split
  · -- the input pays for the whole step
    rename_i hfull
    exact ⟨⟨hle, le_rfl⟩, saturate_tdiv_nonneg hprod Q64_pos, hfull⟩
  · -- it pays for a part, and the price moves by what it pays for
    generalize (IntFormat.i128.saturate (after * Q64)).tdiv liquidity = moved at *
    have hmono := IntFormat.saturate_mono (F := IntFormat.i128)
      (show current ≤ current + moved by omega)
    rw [IntFormat.saturate_of_nonneg hcurrent.le hmax] at hmono
    exact ⟨⟨le_min hmono hle, min_le_right _ _⟩, hafter, le_rfl⟩

end Steps

/-! ## Amounts of positions -/

section Amounts

variable {liquidity lower upper price price' : ℤ}

theorem clampPrice_of_mem (hl : lower ≤ price) (hu : price ≤ upper) :
    clampPrice lower upper price = price := by
  unfold clampPrice
  omega

/-- The amount of token a, against the exact one. -/
theorem amountA_bounds (h : Unsaturated liquidity lower upper price) (hnn : 0 ≤ liquidity)
    (hlow : 0 < lower) (hl : lower ≤ price) (hu : price ≤ upper) (hQ : Q64 ≤ 2 * price) :
    amountA liquidity lower upper price * (upper * price) ≤ liquidity * (upper - price) * Q64 ∧
      liquidity * (upper - price) * Q64 ≤
        (amountA liquidity lower upper price + 3) * (upper * price) := by
  have hclamp := clampPrice_of_mem hl hu
  rw [amountA_eq (by rwa [hclamp]) hlow (by omega) hnn, hclamp]
  split
  · exact scaled_bounds (by omega) (by omega) hQ
  · obtain rfl : price = upper := by omega
    have : 0 ≤ price * price := Int.mul_nonneg (by omega) (by omega)
    simp only [Int.sub_self, Int.mul_zero, Int.zero_mul]
    omega

/-- The amount of token b, against the exact one. -/
theorem amountB_bounds (hnn : 0 ≤ liquidity) (hl : lower ≤ price) (hu : price ≤ upper) :
    amountB liquidity lower upper price * Q64 ≤ liquidity * (price - lower) ∧
      liquidity * (price - lower) ≤ (amountB liquidity lower upper price + 1) * Q64 := by
  rw [amountB_eq hnn, clampPrice_of_mem hl hu]
  split
  · exact ⟨Int.ediv_mul_le _ Q64_pos.ne', (Int.lt_ediv_add_one_mul_self _ Q64_pos).le⟩
  · obtain rfl : lower = price := by omega
    simp [Q64_pos.le]

/-- When the price moves within the range of a position, its amount of token a changes by that
of its liquidity, and less than three units. -/
theorem amountA_move (h : Unsaturated liquidity lower upper price)
    (h' : Unsaturated liquidity lower upper price') (hnn : 0 ≤ liquidity) (hlow : 0 < lower)
    (hl : lower ≤ price) (hu : price ≤ upper) (hl' : lower ≤ price') (hu' : price' ≤ upper)
    (hQ : Q64 ≤ 2 * price) (hQ' : Q64 ≤ 2 * price') :
    price * price' * (amountA liquidity lower upper price' - amountA liquidity lower upper price -
      3) ≤ liquidity * Q64 * (price - price') := by
  have hlo := (amountA_bounds h hnn hlow hl hu hQ).2
  have hup := (amountA_bounds h' hnn hlow hl' hu' hQ').1
  generalize amountA liquidity lower upper price = a at *
  generalize amountA liquidity lower upper price' = a' at *
  -- scaled by the upper price, both bounds are polynomial
  refine Int.le_of_mul_le_mul_left ?_ (show 0 < upper by omega)
  calc upper * (price * price' * (a' - a - 3))
      = price * (a' * (upper * price')) - price' * ((a + 3) * (upper * price)) := by ring
    _ ≤ price * (liquidity * (upper - price') * Q64) -
        price' * (liquidity * (upper - price) * Q64) :=
      Int.sub_le_sub (Int.mul_le_mul_of_nonneg_left hup (by omega))
        (Int.mul_le_mul_of_nonneg_left hlo (by omega))
    _ = upper * (liquidity * Q64 * (price - price')) := by ring

/-- When the price moves within the range of a position, its amount of token b changes by that
of its liquidity, and less than one unit. -/
theorem amountB_move (hnn : 0 ≤ liquidity) (hl : lower ≤ price) (hu : price ≤ upper)
    (hl' : lower ≤ price') (hu' : price' ≤ upper) :
    Q64 * (amountB liquidity lower upper price' - amountB liquidity lower upper price - 1) ≤
      liquidity * (price' - price) := by
  have hlo := (amountB_bounds hnn hl hu).2
  have hup := (amountB_bounds hnn hl' hu').1
  linarith

/-- The products that do not saturate at two prices do not saturate between them. -/
theorem Unsaturated.between {c₁ c₂ c : ℤ} (h₁ : Unsaturated liquidity lower upper c₁)
    (h₂ : Unsaturated liquidity lower upper c₂) (hnn : 0 ≤ liquidity) (hu : 0 < upper)
    (h : min c₁ c₂ ≤ c) (h' : c ≤ max c₁ c₂) : Unsaturated liquidity lower upper c := by
  -- two products shrink as the price rises, so they are largest at the lower price
  have hmin : Unsaturated liquidity lower upper (min c₁ c₂) := by
    rcases min_choice c₁ c₂ with hm | hm <;> rw [hm] <;> assumption
  -- and the third grows with the price
  have hmax : Unsaturated liquidity lower upper (max c₁ c₂) := by
    rcases max_choice c₁ c₂ with hm | hm <;> rw [hm] <;> assumption
  have hmul : liquidity * (upper - c) ≤ liquidity * (upper - min c₁ c₂) :=
    Int.mul_le_mul_of_nonneg_left (by omega) hnn
  constructor
  · intro hlt
    exact hmul.trans (hmin.product (by omega))
  · intro hlt
    exact (Int.mul_le_mul_of_nonneg_right (Int.ediv_le_ediv hu hmul) Q64_pos.le).trans
      (hmin.scaled (by omega))
  · intro hlt
    exact (Int.mul_le_mul_of_nonneg_left (by omega) hnn).trans (hmax.productB (by omega))

end Amounts

end Stellara.Amm
