/-
# The percentage that is shown

`percent`: `SPEC_FULL.md`, E7.

`Progress.percent` multiplies before it divides, with 64 bits, and keeps 8 bits of the quotient.
The 8 bits always suffice (`Progress.exists_percent`): what is left of the product is at most a
hundred times the total, whether or not the product fits into 64 bits.  That it fits is all that the
percentage needs to be right, and it is needed: of a product that does not fit, at least one whole
total is lost, and the quotient is too small (`Progress.percent_exact_iff`).

So where the product fits, the percentage is `Progress.wholePercent`, which is known from whole
numbers alone: it is at most a hundred, a hundred only when nothing is left to do, and it never
falls while the work goes on.
-/

import JobSpool.CommandLine.Output
import Mathlib.Algebra.Group.Nat.Defs
import Mathlib.Order.MinMax

namespace JobSpool
namespace Progress

/-- The items that are done.  More than all were never there. -/
def itemsDone (p : Progress) : Nat :=
  min p.processed.toNat p.total.toNat

/-- The whole percent of the items that are done. -/
def wholePercent (p : Progress) : Nat :=
  100 * p.itemsDone / p.total.toNat

variable {p p' : Progress} {q : UInt8}

/-- A total that is not zero is one at least. -/
theorem total_pos (h : p.total ≠ 0) : 0 < p.total.toNat :=
  Nat.pos_of_ne_zero fun hzero => h (UInt64.toNat_inj.1 hzero)

/-! ### In whole numbers -/

/-- **At most all items are done.** -/
theorem itemsDone_le_total (p : Progress) : p.itemsDone ≤ p.total.toNat :=
  Nat.min_le_right _ _

/-- A percentage is a hundred at most. -/
theorem wholePercent_le_hundred (h : p.total ≠ 0) : p.wholePercent ≤ 100 := by
  rw [wholePercent, Nat.div_le_iff_le_mul (total_pos h)]
  have := Nat.mul_le_mul_left 100 p.itemsDone_le_total
  omega

/-- **A hundred percent means that all items are done.** -/
theorem wholePercent_eq_hundred_iff (h : p.total ≠ 0) :
    p.wholePercent = 100 ↔ p.total ≤ p.processed := by
  rw [Nat.eq_iff_le_and_ge, wholePercent, Nat.le_div_iff_mul_le (total_pos h),
    UInt64.le_iff_toNat_le]
  constructor
  · rintro ⟨-, hall⟩
    rw [itemsDone] at hall
    omega
  · intro hall
    refine ⟨wholePercent_le_hundred h, ?_⟩
    rw [itemsDone]
    omega

/-- **The percentage never falls** while the total stays. -/
theorem wholePercent_mono (htotal : p.total = p'.total) (h : p.processed ≤ p'.processed) :
    p.wholePercent ≤ p'.wholePercent := by
  rw [UInt64.le_iff_toNat_le] at h
  have hdone : p.itemsDone ≤ p'.itemsDone := by
    rw [itemsDone, itemsDone, htotal]
    omega
  rw [wholePercent, wholePercent, htotal]
  exact Nat.div_le_div_right (Nat.mul_le_mul_left 100 hdone)

/-! ### With 64 bits, and with 8 -/

/-- **The quotient always fits into 8 bits.** -/
theorem exists_percent (h : p.total ≠ 0) :
    ∃ q, p.percent = some q ∧
      q.toNat = (min p.processed p.total * 100 / p.total).toNat ∧
      q.toNat = p.itemsDone * 100 % 2 ^ 64 / p.total.toNat := by
  have hquotient : (min p.processed p.total * 100 / p.total).toNat
      = p.itemsDone * 100 % 2 ^ 64 / p.total.toNat := by
    rw [UInt64.toNat_div, UInt64.toNat_mul, UInt64.toNat_min]
    rfl
  have hsmall : p.itemsDone * 100 % 2 ^ 64 / p.total.toNat ≤ 100 := by
    calc p.itemsDone * 100 % 2 ^ 64 / p.total.toNat
        ≤ p.itemsDone * 100 / p.total.toNat := Nat.div_le_div_right (Nat.mod_le _ _)
      _ = p.wholePercent := by rw [wholePercent, Nat.mul_comm]
      _ ≤ 100 := wholePercent_le_hundred h
  have hcast : (min p.processed p.total * 100 / p.total).toUInt8.toNat
      = (min p.processed p.total * 100 / p.total).toNat := by
    rw [UInt64.toNat_toUInt8, hquotient]
    exact Nat.mod_eq_of_lt (by omega)
  exact ⟨_, by rw [percent, if_neg h], hcast, hcast.trans hquotient⟩

/-- **The percentage is right exactly if the product fits into 64 bits.** -/
theorem percent_exact_iff (h : p.total ≠ 0) (hq : p.percent = some q) :
    q.toNat = p.wholePercent ↔ p.itemsDone * 100 < 2 ^ 64 := by
  obtain ⟨q', hq', -, hvalue⟩ := exists_percent h
  obtain rfl : q' = q := Option.some.inj (hq'.symm.trans hq)
  rw [hvalue, wholePercent, Nat.mul_comm 100]
  constructor
  · intro hsame
    by_contra hwraps
    -- What is lost is more than the total, so the quotient loses one at least.
    have hlost : p.itemsDone * 100 % 2 ^ 64 + p.total.toNat ≤ p.itemsDone * 100 := by
      have := Nat.mod_add_div (p.itemsDone * 100) (2 ^ 64)
      have := Nat.div_pos (Nat.le_of_not_lt hwraps) (by decide)
      have := p.total.toNat_lt
      omega
    have hless := Nat.div_le_div_right (c := p.total.toNat) hlost
    rw [Nat.add_div_right _ (total_pos h)] at hless
    omega
  · intro hfits
    rw [Nat.mod_eq_of_lt hfits]

/-- **The percentage is sound and monotone,** where the product fits into 64 bits: it is the whole
percent of the items that are done, at most a hundred, a hundred exactly if no item is left, and it
does not fall when more items are processed.  It is shown as it is. -/
theorem percent_sound_and_monotone (processed processed' total : UInt64) (htotal : 0 < total)
    (hfits : min processed.toNat total.toNat * 100 ≤ 2 ^ 64 - 1)
    (hfits' : min processed'.toNat total.toNat * 100 ≤ 2 ^ 64 - 1) :
    ∃ q q' : UInt8,
      percent ⟨processed, total⟩ = some q ∧ percent ⟨processed', total⟩ = some q' ∧
      (min processed total * 100).toNat = min processed.toNat total.toNat * 100 ∧
      q.toNat = (min processed total * 100 / total).toNat ∧
      q.toNat = 100 * min processed.toNat total.toNat / total.toNat ∧
      q.toNat ≤ 100 ∧
      (q = 100 ↔ total ≤ processed) ∧
      (processed ≤ processed' → q ≤ q') ∧
      CommandLine.shownProgress ⟨processed, total⟩
        = shown ⟨processed, total⟩ ++ " (" ++
          (100 * min processed.toNat total.toNat / total.toNat).repr ++ "%)" := by
  have hne : total ≠ 0 := by
    rintro rfl
    exact absurd htotal (by decide)
  obtain ⟨q, hq, hcast, -⟩ := exists_percent (p := ⟨processed, total⟩) hne
  obtain ⟨q', hq', -, -⟩ := exists_percent (p := ⟨processed', total⟩) hne
  have hexact := (percent_exact_iff hne hq).2 (Nat.lt_of_le_pred (by decide) hfits)
  have hexact' := (percent_exact_iff hne hq').2 (Nat.lt_of_le_pred (by decide) hfits')
  refine ⟨q, q', hq, hq', ?_, hcast, hexact, ?_, ?_, fun hmore => ?_, ?_⟩
  -- The product does not wrap around.
  · rw [UInt64.toNat_mul, UInt64.toNat_min]
    exact Nat.mod_eq_of_lt (Nat.lt_of_le_pred (by decide) hfits)
  · rw [hexact]
    exact wholePercent_le_hundred hne
  · rw [← UInt8.toNat_inj, hexact]
    exact wholePercent_eq_hundred_iff hne
  · rw [UInt8.le_iff_toNat_le, hexact, hexact']
    exact wholePercent_mono rfl hmore
  · rw [CommandLine.shownProgress, hq]
    dsimp only
    rw [hexact]
    rfl

/-- The largest total of which all percentages fit. -/
def largestTotal : UInt64 :=
  .ofNat ((2 ^ 64 - 1) / 100)

/-- One item is left of as many as can be, and then more are processed than there are. -/
theorem percent_sound_and_monotone_largestTotal :
    0 < largestTotal ∧
    min (largestTotal - 1).toNat largestTotal.toNat * 100 ≤ 2 ^ 64 - 1 ∧
    min (18446744073709551615 : UInt64).toNat largestTotal.toNat * 100 ≤ 2 ^ 64 - 1 ∧
    percent ⟨largestTotal - 1, largestTotal⟩ = some 99 ∧
    percent ⟨18446744073709551615, largestTotal⟩ = some 100 := by
  have htotal : 0 < largestTotal := by decide
  have hless : min (largestTotal - 1).toNat largestTotal.toNat * 100 ≤ 2 ^ 64 - 1 := by decide
  have hmore : min (18446744073709551615 : UInt64).toNat largestTotal.toNat * 100
      ≤ 2 ^ 64 - 1 := by decide
  obtain ⟨q, -, hq, -, -, -, hvalue, -⟩ :=
    percent_sound_and_monotone _ _ largestTotal htotal hless hmore
  obtain ⟨q', -, hq', -, -, -, -, -, hall, -⟩ :=
    percent_sound_and_monotone _ _ largestTotal htotal hmore hless
  have hq99 : q = 99 := UInt8.toNat_inj.1 (hvalue.trans (by decide))
  exact ⟨htotal, hless, hmore, hq99 ▸ hq, hall.2 (by decide) ▸ hq'⟩

end Progress
end JobSpool
