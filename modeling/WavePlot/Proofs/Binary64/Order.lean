import Mathlib.Data.Rat.Lemmas
import Mathlib.Algebra.Order.Field.Rat
import Mathlib.Tactic.FieldSimp
import WavePlot.Proofs.Binary64.Rounding

/-!
# Rounding keeps the order

Rounding as a function of the number of units alone, whatever quotient stands for it. It is
monotone, so the numbers that round to one magnitude have no gap between them.
-/

namespace WavePlot

/-- The grid point that a number of units rounds to. The number is not negative. -/
def roundRat (q : ℚ) : ℕ := roundUnits q.num.natAbs q.den

theorem roundUnits_eq_roundRat {den : Nat} (hd : 0 < den) (num : Nat) :
    roundUnits num den = roundRat (num / den) := by
  have hnum : 0 ≤ ((num : ℚ) / den).num :=
    Rat.num_nonneg.2 (div_nonneg (Nat.cast_nonneg _) (Nat.cast_nonneg _))
  have hdq : (den : ℚ) ≠ 0 := by exact_mod_cast hd.ne'
  have hden : (((num : ℚ) / den).den : ℚ) ≠ 0 := by exact_mod_cast Rat.den_nz _
  have hsame := Rat.num_div_den ((num : ℚ) / den)
  rw [div_eq_div_iff hden hdq] at hsame
  refine roundUnits_congr hd (Rat.den_pos _) ?_
  have hz : ((num : ℚ) / den).num * den = num * ((num : ℚ) / den).den := by exact_mod_cast hsame
  zify
  rw [abs_of_nonneg hnum]
  exact hz.symm

theorem exists_eq_div {q : ℚ} (hq : 0 ≤ q) : ∃ num den : ℕ, 0 < den ∧ q = num / den := by
  refine ⟨q.num.natAbs, q.den, q.den_pos, ?_⟩
  have hnum : ((q.num.natAbs : ℤ) : ℚ) = q.num := by
    rw [Int.natAbs_of_nonneg (Rat.num_nonneg.2 hq)]
  rw [← Int.cast_natCast q.num.natAbs, hnum, Rat.num_div_den]

theorem roundRat_natCast {n : Nat} (hn : gridStep n ∣ n) : roundRat n = n := by
  have h := roundUnits_eq_roundRat Nat.one_pos n
  rw [Nat.cast_one, div_one, roundUnits_of_dvd hn] at h
  exact h.symm

theorem gridStep_roundRat_dvd (q : ℚ) : gridStep (roundRat q) ∣ roundRat q :=
  gridStep_roundUnits_dvd _ _

/-- The distance of a quotient to an integer, in parts of the denominator. -/
theorem abs_div_sub_mul {den : Nat} (hd : 0 < den) (num n : Nat) :
    |(num : ℚ) / den - n| * den = |(num : ℚ) - den * n| := by
  have hdq : (0 : ℚ) < den := by exact_mod_cast hd
  have hsub : ((num : ℚ) / den - n) * den = num - den * n := by field_simp
  rw [← hsub, abs_mul, abs_of_pos hdq]

/-- No grid point is nearer than the one that is rounded to. -/
theorem roundRat_nearest {q : ℚ} (hq : 0 ≤ q) {w : Nat} (hw : gridStep w ∣ w) :
    |q - roundRat q| ≤ |q - w| := by
  obtain ⟨num, den, hd, rfl⟩ := exists_eq_div hq
  have hdq : (0 : ℚ) < den := by exact_mod_cast hd
  have hnear := roundUnits_nearest hd num hw
  rw [roundUnits_eq_roundRat hd] at hnear
  refine le_of_mul_le_mul_right ?_ hdq
  rw [abs_div_sub_mul hd, abs_div_sub_mul hd]
  exact_mod_cast hnear

/-- Rounding keeps the order: of two numbers in the order opposite to their roundings, each would be
on the far side of the middle between them. -/
theorem roundRat_mono {q r : ℚ} (hq : 0 ≤ q) (h : q ≤ r) : roundRat q ≤ roundRat r := by
  by_contra hlt
  have hcast : (roundRat r : ℚ) < roundRat q := by exact_mod_cast Nat.not_le.1 hlt
  have hqnear := roundRat_nearest hq (gridStep_roundRat_dvd r)
  have hrnear := roundRat_nearest (hq.trans h) (gridStep_roundRat_dvd q)
  rw [← sq_le_sq] at hqnear hrnear
  have hleft : (roundRat q + roundRat r : ℚ) ≤ 2 * q := by nlinarith
  have hright : 2 * r ≤ (roundRat q + roundRat r : ℚ) := by nlinarith
  have heq : q = r := by linarith
  rw [heq] at hcast
  exact lt_irrefl _ hcast

theorem roundRat_eq_of_between {a b c : ℚ} {u : ℕ} (ha : 0 ≤ a) (hab : a ≤ b) (hbc : b ≤ c)
    (hau : roundRat a = u) (hcu : roundRat c = u) : roundRat b = u :=
  le_antisymm (hcu ▸ roundRat_mono (ha.trans hab) hbc) (hau ▸ roundRat_mono ha hab)

end WavePlot
