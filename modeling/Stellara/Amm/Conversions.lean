import Stellara.Amm.SwapMath
import Mathlib.Order.GaloisConnection.Basic

/-!
# Ticks and prices as a Galois connection

Both conversions interpolate in the table with a division that rounds down. The entries of the
table are multiples of the width of a segment apart, so that the price of a tick is exact and
only the tick of a price is rounded. The two conversions then form a Galois connection, and the
tick of the price of a tick is that tick.

## Main definitions

* `slope`: by how much the price rises for each tick of a segment
* `Tick`, `Price`: the ticks of the table, and the prices that are not below it
* `Tick.price`, `Price.tick`: the two conversions between them

## Main results

* `sqrtPriceAt_exact`, `sqrtPriceToTick_exact`: both conversions in terms of the slope
* `gc_price_tick`: the conversions form a Galois connection
* `conversions_galois`: the same of the functions that the contract calls
-/

namespace Stellara.Amm

/-! ## Slopes -/

/-- By how much the price rises for each tick of a segment. -/
def slope (i : ℕ) : ℤ := ((tableEntry (i + 1)).2 - (tableEntry i).2) / 512

/-- The entries of the table lie on lines of integer slope. -/
theorem tableEntry_slope : ∀ i < 32,
    0 < slope i ∧ (tableEntry (i + 1)).2 = (tableEntry i).2 + 512 * slope i := by decide

/-- The price of a tick is on the line between the entries around it. -/
theorem sqrtPriceAt_exact {tick : ℤ} (hmin : minTick ≤ tick) (hmax : tick ≤ maxTick) :
    ∃ i < 32, (tableEntry i).1 ≤ tick ∧ tick ≤ (tableEntry (i + 1)).1 ∧
      sqrtPriceAt tick = (tableEntry i).2 + slope i * (tick - (tableEntry i).1) := by
  obtain ⟨i, hi, hlow, hhigh, hprice⟩ := sqrtPriceAt_eq hmin hmax
  refine ⟨i, hi, hlow, hhigh, ?_⟩
  have hdiff : (tableEntry (i + 1)).2 - (tableEntry i).2 = 512 * slope i := by
    have := (tableEntry_slope i hi).2
    omega
  rw [hprice, hdiff, Int.mul_assoc, Int.mul_ediv_cancel_left _ (by decide)]

/-- The tick of a price counts how often the slope goes into the rest of the price. -/
theorem sqrtPriceToTick_exact {price : ℤ} (h : OnTable price) :
    ∃ i < 32, (tableEntry i).2 ≤ price ∧ price ≤ (tableEntry (i + 1)).2 ∧
      sqrtPriceToTick price = (tableEntry i).1 + (price - (tableEntry i).2) / slope i := by
  obtain ⟨i, hi, hlow, hhigh, htick⟩ := exists_segment h
  refine ⟨i, hi, hlow, hhigh, ?_⟩
  have hdiff : (tableEntry (i + 1)).2 - (tableEntry i).2 = slope i * 512 := by
    have := (tableEntry_slope i hi).2
    omega
  rw [htick, hdiff, Int.mul_ediv_mul_of_pos_left _ _ (by decide)]

theorem tableEntry_lt {i j : ℕ} (h : i < j) (hj : j ≤ 32) :
    (tableEntry i).2 < (tableEntry j).2 :=
  (tableEntry_snd i (by omega)).2.trans_le (tableEntry_mono h hj)

/-- The tick of the price of a tick is that tick. -/
theorem sqrtPriceToTick_sqrtPriceAt {tick : ℤ} (hmin : minTick ≤ tick) (hmax : tick ≤ maxTick) :
    sqrtPriceToTick (sqrtPriceAt tick) = tick := by
  obtain ⟨j, hj, hjlow, hjhigh, hprice⟩ := sqrtPriceAt_exact hmin hmax
  obtain ⟨i, hi, hlow, hhigh, htick⟩ := sqrtPriceToTick_exact (onTable_sqrtPriceAt hmin hmax)
  obtain ⟨hposi, hnexti⟩ := tableEntry_slope i hi
  obtain ⟨hposj, hnextj⟩ := tableEntry_slope j hj
  have hfsti := tableEntry_fst i (by omega)
  have hfstj := tableEntry_fst j (by omega)
  have hendj := tableEntry_fst (j + 1) (by omega)
  push_cast at hendj
  have hrise : slope j * (tick - (tableEntry j).1) ≤ slope j * 512 :=
    Int.mul_le_mul_of_nonneg_left (by omega) hposj.le
  have hstart : 0 ≤ slope j * (tick - (tableEntry j).1) := Int.mul_nonneg hposj.le (by omega)
  rcases lt_trichotomy i j with hlt | rfl | hlt
  · -- the price is that of the common end of two segments
    have hstep : i + 1 = j := by
      by_contra hne
      have := tableEntry_lt (show i + 1 < j by omega) (by omega)
      omega
    subst hstep
    have hzero : slope (i + 1) * (tick - (tableEntry (i + 1)).1) = 0 := by omega
    have hend : tick = (tableEntry (i + 1)).1 := by
      rcases Int.mul_eq_zero.mp hzero with h | h
      · omega
      · omega
    have hrest : sqrtPriceAt tick - (tableEntry i).2 = 512 * slope i := by omega
    rw [htick, hrest, Int.mul_ediv_cancel _ hposi.ne']
    omega
  · -- both are on the same line
    have hrest : sqrtPriceAt tick - (tableEntry i).2 = slope i * (tick - (tableEntry i).1) := by
      omega
    rw [htick, hrest, Int.mul_ediv_cancel_left _ hposi.ne']
    omega
  · -- the tick is the common end of two segments
    have hstep : j + 1 = i := by
      by_contra hne
      have := tableEntry_lt (show j + 1 < i by omega) (by omega)
      omega
    subst hstep
    have hfull : slope j * (tick - (tableEntry j).1) = slope j * 512 := by omega
    have hend : tick - (tableEntry j).1 = 512 := Int.eq_of_mul_eq_mul_left hposj.ne' hfull
    have hrest : sqrtPriceAt tick - (tableEntry (j + 1)).2 = 0 := by omega
    rw [htick, hrest, Int.zero_ediv]
    omega

/-! ## The Galois connection -/

/-- The ticks of the table. -/
abbrev Tick := {tick : ℤ // minTick ≤ tick ∧ tick ≤ maxTick}

/-- The prices that are not below the table. -/
abbrev Price := {price : ℤ // (tableEntry 0).2 ≤ price}

instance : Preorder Tick := @Subtype.preorder ℤ Int.instLinearOrder.toPreorder _
instance : Preorder Price := @Subtype.preorder ℤ Int.instLinearOrder.toPreorder _

def Tick.price (tick : Tick) : Price :=
  ⟨sqrtPriceAt tick, (onTable_sqrtPriceAt tick.2.1 tick.2.2).1⟩

def Price.tick (price : Price) : Tick := ⟨sqrtPriceToTick price, sqrtPriceToTick_mem price⟩

/-- A tick is at most that of a price if and only if its price is at most that price. -/
theorem gc_price_tick : GaloisConnection Tick.price Price.tick := by
  rintro ⟨tick, hmin, hmax⟩ ⟨price, hprice⟩
  change sqrtPriceAt tick ≤ price ↔ tick ≤ sqrtPriceToTick price
  constructor
  · intro hle
    have hmono := sqrtPriceToTick_mono hle
    rwa [sqrtPriceToTick_sqrtPriceAt hmin hmax] at hmono
  · intro hle
    rcases lt_or_ge (tableEntry 32).2 price with hgt | hle'
    · exact (onTable_sqrtPriceAt hmin hmax).2.trans hgt.le
    · exact sqrtPriceAt_le ⟨hprice, hle'⟩ hmin hle hmax

/-- A higher tick has a higher price. -/
theorem sqrtPriceAt_mono {tick tick' : ℤ} (hmin : minTick ≤ tick) (hmax : tick' ≤ maxTick)
    (hle : tick ≤ tick') : sqrtPriceAt tick ≤ sqrtPriceAt tick' := by
  have hmono := gc_price_tick.monotone_l
  exact @hmono ⟨tick, hmin, hle.trans hmax⟩ ⟨tick', hmin.trans hle, hmax⟩ hle

/-- The conversions of the contract form a Galois connection between the ticks and the prices
from the least one of the table on; hence the tick of the price of a tick is that tick, and
both conversions are monotone. -/
theorem conversions_galois {price tick : ℤ} (hprice : (tableEntry 0).2 ≤ price)
    (hmin : minTick ≤ tick) (hmax : tick ≤ maxTick) :
    ∃ tickPrice, tickToSqrtPrice tick = .ok tickPrice ∧
      (tick ≤ sqrtPriceToTick price ↔ tickPrice ≤ price) ∧
      sqrtPriceToTick tickPrice = tick ∧
      (∀ tick' tickPrice', tickToSqrtPrice tick' = .ok tickPrice' → tick ≤ tick' →
        tickPrice ≤ tickPrice') ∧
      ∀ price', price ≤ price' → sqrtPriceToTick price ≤ sqrtPriceToTick price' := by
  refine ⟨sqrtPriceAt tick, tickToSqrtPrice_eq_ok.mpr ⟨⟨hmin, hmax⟩, rfl⟩, ?_, ?_, ?_, ?_⟩
  · have hgc := gc_price_tick (⟨tick, hmin, hmax⟩ : Tick) (⟨price, hprice⟩ : Price)
    exact hgc.symm
  · exact sqrtPriceToTick_sqrtPriceAt hmin hmax
  · intro tick' tickPrice' h hle
    obtain ⟨hmem, rfl⟩ := tickToSqrtPrice_eq_ok.mp h
    exact sqrtPriceAt_mono hmin hmem.2 hle
  · intro price' hle
    exact sqrtPriceToTick_mono hle

/-- The price one of the tick zero. -/
theorem conversions_galois_zero :
    ∃ tickPrice, tickToSqrtPrice 0 = .ok tickPrice ∧
      (0 ≤ sqrtPriceToTick Q64 ↔ tickPrice ≤ Q64) ∧
      sqrtPriceToTick tickPrice = 0 ∧
      (∀ tick' tickPrice', tickToSqrtPrice tick' = .ok tickPrice' → 0 ≤ tick' →
        tickPrice ≤ tickPrice') ∧
      ∀ price', Q64 ≤ price' → sqrtPriceToTick Q64 ≤ sqrtPriceToTick price' :=
  conversions_galois (by decide) (by decide) (by decide)

end Stellara.Amm
