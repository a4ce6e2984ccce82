import Mathlib.Algebra.Order.Ring.Abs
import Mathlib.Data.Nat.Log
import Mathlib.Tactic.Linarith
import Mathlib.Tactic.Ring
import WavePlot.Binary64.Basic

/-!
# Rounding takes the nearest grid point

Distances from a quotient `num / den` are compared after multiplication with the denominator,
so they are distances of integers. A magnitude on the grid is its own rounding, rounding depends
on the quotient alone, and no grid point is nearer than the one chosen. Two grid points are apart
by at least one part in `2 ^ 53` of either, so a quotient within one part in `2 ^ 54` of a grid
point rounds to it. No upper limit occurs here; overflow is decided after rounding.
-/

namespace WavePlot

theorem gridStep_pos (n : Nat) : 0 < gridStep n := Nat.two_pow_pos _

theorem gridStep_dvd_gridStep {m n : Nat} (h : m ≤ n) : gridStep m ∣ gridStep n := by
  refine Nat.pow_dvd_pow 2 (Nat.sub_le_sub_right ?_ 52)
  rw [Nat.log2_eq_log_two, Nat.log2_eq_log_two]
  exact Nat.log_mono_right h

theorem lt_gridStep_mul {n : Nat} (hn : gridStep n ∣ n) : n + gridStep n ≤ 2 ^ 53 * gridStep n := by
  obtain ⟨k, hk⟩ := hn
  have hlt : k < 2 ^ 53 := by
    have h := div_gridStep_lt n
    rwa [Nat.div_eq_of_eq_mul_right (gridStep_pos n) hk] at h
  calc n + gridStep n = gridStep n * k + gridStep n := by rw [← hk]
    _ = (k + 1) * gridStep n := by ring
    _ ≤ 2 ^ 53 * gridStep n := Nat.mul_le_mul_right _ hlt

/-- Two grid points are far apart for their size. -/
theorem grid_gap {m n : Nat} (hm : gridStep m ∣ m) (hn : gridStep n ∣ n) (hne : m ≠ n) :
    (m : ℤ) ≤ 2 ^ 53 * |(m : ℤ) - n| := by
  rcases Nat.lt_or_gt_of_ne hne with hlt | hgt
  · have hd : gridStep m ∣ n - m :=
      Nat.dvd_sub ((gridStep_dvd_gridStep hlt.le).trans hn) hm
    have hstep : gridStep m ≤ n - m := Nat.le_of_dvd (by omega) hd
    have hb := lt_gridStep_mul hm
    have ha : |(m : ℤ) - n| = ((n - m : ℕ) : ℤ) := by
      rw [abs_sub_comm, Nat.cast_sub hlt.le, abs_of_nonneg (by omega)]
    rw [ha]
    have hz : m ≤ 2 ^ 53 * (n - m) :=
      (Nat.le_add_right _ _).trans (hb.trans (Nat.mul_le_mul_left _ hstep))
    exact_mod_cast hz
  · have hd : gridStep n ∣ m - n :=
      Nat.dvd_sub ((gridStep_dvd_gridStep hgt.le).trans hm) hn
    have hstep : gridStep n ≤ m - n := Nat.le_of_dvd (by omega) hd
    have hb := lt_gridStep_mul hn
    have ha : |(m : ℤ) - n| = ((m - n : ℕ) : ℤ) := by
      rw [Nat.cast_sub hgt.le, abs_of_nonneg (by omega)]
    rw [ha]
    have hz : m ≤ 2 ^ 53 * (m - n) := by
      have h1 : n + gridStep n ≤ 2 ^ 53 * gridStep n := hb
      omega
    exact_mod_cast hz

/-! ## Rounding to an integer -/

/-- The distance of a quotient to any integer is at least its distance to the two around it. -/
theorem le_dist_integer (num den k : Nat) :
    min ((num % den : ℕ) : ℤ) (den - (num % den : ℕ)) ≤ |(num : ℤ) - den * k| := by
  have hdm : (num : ℤ) = den * (num / den : ℕ) + (num % den : ℕ) := by
    exact_mod_cast (Nat.div_add_mod num den).symm
  rcases Nat.lt_or_ge (num / den) k with hk | hk
  · have hle : (den : ℤ) * ((num / den : ℕ) + 1) ≤ den * k := by
      exact_mod_cast Nat.mul_le_mul_left den hk
    have habs := neg_le_abs ((num : ℤ) - den * k)
    exact (min_le_right _ _).trans (by linarith)
  · have hle : (den : ℤ) * k ≤ den * (num / den : ℕ) := by
      exact_mod_cast Nat.mul_le_mul_left den hk
    have habs := le_abs_self ((num : ℤ) - den * k)
    exact (min_le_left _ _).trans (by linarith)

/-- The distance to the rounding is the distance to the nearer of the two around it. -/
theorem dist_nearestEven {den : Nat} (hd : 0 < den) (num : Nat) :
    |(num : ℤ) - den * nearestEven num den| =
      min ((num % den : ℕ) : ℤ) (den - (num % den : ℕ)) := by
  have hdm : (num : ℤ) = den * (num / den : ℕ) + (num % den : ℕ) := by
    exact_mod_cast (Nat.div_add_mod num den).symm
  have hr : ((num % den : ℕ) : ℤ) < den := by exact_mod_cast Nat.mod_lt num hd
  have hdown : |(num : ℤ) - den * (num / den : ℕ)| = (num % den : ℕ) := by
    rw [hdm, add_sub_cancel_left, abs_of_nonneg (by positivity)]
  have hup : |(num : ℤ) - den * (num / den + 1 : ℕ)| = den - (num % den : ℕ) := by
    rw [abs_sub_comm, Nat.cast_add, Nat.cast_one, mul_add, abs_of_nonneg] <;> linarith
  unfold nearestEven
  dsimp only
  split_ifs with hlt hgt
  · rw [hdown, min_eq_left (by omega)]
  · rw [hup, min_eq_right (by omega)]
  · rcases Nat.mod_two_eq_zero_or_one (num / den) with he | ho
    · rw [he, Nat.add_zero, hdown, min_eq_left (by omega)]
    · rw [ho, hup, min_eq_right (by omega)]

theorem nearestEven_nearest {den : Nat} (hd : 0 < den) (num k : Nat) :
    |(num : ℤ) - den * nearestEven num den| ≤ |(num : ℤ) - den * k| := by
  rw [dist_nearestEven hd]
  exact le_dist_integer num den k

theorem nearestEven_mul_left {c : Nat} (hc : 0 < c) (num den : Nat) :
    nearestEven (c * num) (c * den) = nearestEven num den := by
  unfold nearestEven
  dsimp only
  rw [Nat.mul_div_mul_left _ _ hc, Nat.mul_mod_mul_left, Nat.mul_left_comm 2 c]
  simp only [Nat.mul_lt_mul_left hc]

theorem nearestEven_mul_self {den : Nat} (hd : 0 < den) (k : Nat) :
    nearestEven (den * k) den = k := by
  simp [nearestEven, Nat.mul_div_cancel_left k hd, hd]

/-! ## Rounding to the grid -/

theorem roundUnits_mul_left {c : Nat} (hc : 0 < c) (num den : Nat) :
    roundUnits (c * num) (c * den) = roundUnits num den := by
  unfold roundUnits
  dsimp only
  rw [Nat.mul_div_mul_left _ _ hc, Nat.mul_assoc, nearestEven_mul_left hc]

theorem roundUnits_congr {a b c d : Nat} (hb : 0 < b) (hd : 0 < d) (h : a * d = c * b) :
    roundUnits a b = roundUnits c d := by
  rw [← roundUnits_mul_left hd a b, ← roundUnits_mul_left hb c d, Nat.mul_comm d a, h,
    Nat.mul_comm c b, Nat.mul_comm d b]

theorem roundUnits_of_dvd {n : Nat} (hn : gridStep n ∣ n) : roundUnits n 1 = n := by
  obtain ⟨k, hk⟩ := hn
  have h := nearestEven_mul_self (gridStep_pos n) k
  rw [← hk] at h
  unfold roundUnits
  dsimp only
  rw [Nat.div_one, Nat.one_mul, h, ← hk]

/-- No point of the quotient's own grid is nearer to it than its rounding. -/
theorem roundUnits_nearest_step {den : Nat} (hd : 0 < den) (num k : Nat) :
    |(num : ℤ) - den * roundUnits num den| ≤
      |(num : ℤ) - den * (gridStep (num / den) * k : ℕ)| := by
  have h := nearestEven_nearest (Nat.mul_pos hd (gridStep_pos (num / den))) num k
  simpa only [roundUnits, Nat.cast_mul, mul_assoc] using h

/-- A point off the grid of the quotient lies in a lower binade, so the foot of the quotient's own
binade is nearer. -/
theorem roundUnits_nearer_of_not_dvd {den : Nat} (hd : 0 < den) {num w : Nat}
    (hw : gridStep w ∣ w) (hs : ¬ gridStep (num / den) ∣ w) :
    |(num : ℤ) - den * roundUnits num den| < |(num : ℤ) - den * w| := by
  have hlog : w.log2 < (num / den).log2 := by
    by_contra hge
    exact hs ((Nat.pow_dvd_pow 2 (by omega)).trans hw)
  have hwne : w ≠ 0 := fun h0 => hs (h0 ▸ dvd_zero _)
  have hqne : num / den ≠ 0 := by
    intro h0
    rw [h0, Nat.log2_zero] at hlog
    omega
  have hwp : w < 2 ^ (num / den).log2 := (Nat.log2_lt hwne).1 hlog
  have hpq : 2 ^ (num / den).log2 ≤ num / den := Nat.log2_self_le hqne
  obtain ⟨k, hk⟩ : gridStep (num / den) ∣ 2 ^ (num / den).log2 :=
    Nat.pow_dvd_pow 2 (Nat.sub_le _ 52)
  have hpnum : den * 2 ^ (num / den).log2 ≤ num :=
    (Nat.mul_le_mul_left den hpq).trans (Nat.mul_div_le num den)
  have hwden : den * w < den * 2 ^ (num / den).log2 := Nat.mul_lt_mul_of_pos_left hwp hd
  have h := roundUnits_nearest_step hd num k
  rw [← hk] at h
  refine h.trans_lt ?_
  rw [abs_of_nonneg (by rw [sub_nonneg]; exact_mod_cast hpnum),
    abs_of_nonneg (by rw [sub_nonneg]; exact_mod_cast hwden.le.trans hpnum)]
  exact sub_lt_sub_left (by exact_mod_cast hwden) _

/-- No grid point is nearer to a quotient than its rounding. -/
theorem roundUnits_nearest {den : Nat} (hd : 0 < den) (num : Nat) {w : Nat}
    (hw : gridStep w ∣ w) :
    |(num : ℤ) - den * roundUnits num den| ≤ |(num : ℤ) - den * w| := by
  by_cases hs : gridStep (num / den) ∣ w
  · obtain ⟨k, rfl⟩ := hs
    exact roundUnits_nearest_step hd num k
  · exact (roundUnits_nearer_of_not_dvd hd hw hs).le

theorem le_roundUnits {num den w : Nat} (hd : 0 < den) (hw : gridStep w ∣ w)
    (h : den * w ≤ num) : w ≤ roundUnits num den := by
  have hnear := roundUnits_nearest hd num hw
  have hz : (den : ℤ) * w ≤ num := by exact_mod_cast h
  have habs := le_abs_self ((num : ℤ) - den * roundUnits num den)
  rw [abs_of_nonneg (sub_nonneg.2 hz)] at hnear
  have hle : (den : ℤ) * w ≤ den * roundUnits num den := by linarith
  exact Nat.le_of_mul_le_mul_left (by exact_mod_cast hle) hd

theorem roundUnits_eq_zero {num den : Nat} (h : 2 * num < den) : roundUnits num den = 0 := by
  have hnear := roundUnits_nearest (by omega : 0 < den) num (dvd_zero (gridStep 0))
  have habs := neg_le_abs ((num : ℤ) - den * roundUnits num den)
  rw [Nat.cast_zero, mul_zero, sub_zero, Nat.abs_cast] at hnear
  have hz : (2 * num : ℤ) < den := by exact_mod_cast h
  have hlt : (den : ℤ) * roundUnits num den < den * 1 := by linarith
  have hlt' : den * roundUnits num den < den * 1 := by exact_mod_cast hlt
  exact Nat.lt_one_iff.1 (Nat.lt_of_mul_lt_mul_left hlt')

/-- A quotient within one part in `2 ^ 54` of a grid point rounds to it. -/
theorem roundUnits_eq_of_close {num den u : Nat} (hu : gridStep u ∣ u)
    (hclose : 2 ^ 54 * |(num : ℤ) - den * u| < den * u) : roundUnits num den = u := by
  have hd : 0 < den := by
    rcases Nat.eq_zero_or_pos den with rfl | hd
    · simp only [Nat.cast_zero, zero_mul] at hclose
      exact absurd hclose (not_lt.2 (by positivity))
    · exact hd
  by_contra hne
  have hnear := roundUnits_nearest hd num hu
  have hgap := grid_gap hu (gridStep_roundUnits_dvd num den) (Ne.symm hne)
  have hsplit : |(den : ℤ) * u - den * roundUnits num den| ≤
      |(num : ℤ) - den * u| + |(num : ℤ) - den * roundUnits num den| := by
    rw [abs_sub_comm (num : ℤ) (den * u)]
    exact abs_sub_le _ _ _
  have hscale : |(den : ℤ) * u - den * roundUnits num den| =
      den * |(u : ℤ) - roundUnits num den| := by
    rw [← mul_sub, abs_mul, Nat.abs_cast]
  have hden := mul_le_mul_of_nonneg_left hgap (Int.natCast_nonneg den)
  linarith

namespace Binary64

theorem round_congr (negative : Bool) {a b c d : Nat} (hb : 0 < b) (hd : 0 < d)
    (h : a * d = c * b) : round negative a b = round negative c d := by
  unfold round
  simp only [roundUnits_congr hb hd h]

theorem round_eq_finite (negative : Bool) {num den units : Nat} (onGrid : OnGrid units)
    (h : roundUnits num den = units) : round negative num den = .finite negative units onGrid := by
  subst h
  exact dif_pos onGrid.1

theorem round_eq_infinite (negative : Bool) {num den : Nat}
    (h : unitsLimit ≤ roundUnits num den) : round negative num den = .infinite negative :=
  dif_neg (Nat.not_lt.2 h)

end Binary64

end WavePlot
