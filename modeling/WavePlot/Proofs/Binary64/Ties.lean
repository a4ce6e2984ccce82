import WavePlot.Proofs.Binary64.Order

/-!
# Ties, overflow and underflow

Of two equally near grid points rounding takes the one whose last bit is zero: it is an even
multiple of its own grid step. With that the two ends of the range are decided exactly. Halfway
between the largest magnitude and the limit a number rounds to the limit, and half of the least
magnitude rounds to zero, so both bounds belong to the numbers that are lost.
-/

namespace WavePlot

/-! ## Even multiples -/

/-- Multiples of the denominator keep their distance on both sides of a quotient. -/
theorem mul_add_le_mul {den j k n : Nat} (h : j + n ≤ k) : (den : ℤ) * j + n * den ≤ den * k := by
  have hle := Nat.mul_le_mul_left den h
  rw [Nat.mul_add, Nat.mul_comm den n] at hle
  exact_mod_cast hle

/-- Away from the middle the other integers are farther than the rounding. -/
theorem ne_dist_of_not_middle {den : Nat} (hd : 0 < den) {num k : Nat}
    (hmiddle : 2 * (num % den) ≠ den) (hne : k ≠ nearestEven num den) :
    |(num : ℤ) - den * k| ≠ |(num : ℤ) - den * nearestEven num den| := by
  have hdm : (num : ℤ) = den * (num / den : ℕ) + (num % den : ℕ) := by
    exact_mod_cast (Nat.div_add_mod num den).symm
  have hr : num % den < den := Nat.mod_lt num hd
  rw [dist_nearestEven hd]
  unfold nearestEven at hne
  dsimp only at hne
  generalize num / den = quotient at hdm hne
  generalize num % den = remainder at hdm hr hmiddle hne ⊢
  intro h
  rcases lt_trichotomy k quotient with hlt | rfl | hgt
  · have hbelow : (den : ℤ) * k + (1 : ℕ) * den ≤ den * quotient := mul_add_le_mul hlt
    rcases abs_cases ((num : ℤ) - den * k) with ⟨habs, _⟩ | ⟨habs, _⟩ <;> omega
  · rcases abs_cases ((num : ℤ) - den * k) with ⟨habs, _⟩ | ⟨habs, _⟩ <;>
      split_ifs at hne <;> omega
  · rcases Nat.lt_or_ge (quotient + 1) k with hfar | hnear
    · have habove : (den : ℤ) * quotient + (2 : ℕ) * den ≤ den * k := mul_add_le_mul hfar
      rcases abs_cases ((num : ℤ) - den * k) with ⟨habs, _⟩ | ⟨habs, _⟩ <;> omega
    · obtain rfl : k = quotient + 1 := by omega
      rw [Nat.cast_succ, mul_add, mul_one] at h
      rcases abs_cases ((num : ℤ) - (den * quotient + den)) with ⟨habs, _⟩ | ⟨habs, _⟩ <;>
        split_ifs at hne <;> omega

/-- Of two integers at the same distance the even one is taken. -/
theorem nearestEven_tie {den : Nat} (hd : 0 < den) {num k : Nat} (hne : k ≠ nearestEven num den)
    (h : |(num : ℤ) - den * k| = |(num : ℤ) - den * nearestEven num den|) :
    2 ∣ nearestEven num den := by
  have hmiddle : 2 * (num % den) = den := by
    by_contra hmiddle
    exact ne_dist_of_not_middle hd hmiddle hne h
  unfold nearestEven
  dsimp only
  rw [if_neg (by omega), if_neg (by omega)]
  omega

/-- Even multiples of a power of two by at most `2 ^ 53` are even multiples of their own step. -/
theorem two_mul_gridStep_dvd {e m : Nat} (hm : m ≤ 2 ^ 53) (heven : 2 ∣ m) :
    2 * gridStep (2 ^ e * m) ∣ 2 ^ e * m := by
  obtain ⟨k, rfl⟩ := heven
  rcases Nat.eq_zero_or_pos k with rfl | hk
  · exact dvd_zero _
  have hpow : 0 < 2 ^ e := Nat.two_pow_pos e
  have hne : 2 ^ e * (2 * k) ≠ 0 := Nat.mul_ne_zero hpow.ne' (by omega)
  have hdouble : 2 * gridStep (2 ^ e * (2 * k)) = 2 ^ ((2 ^ e * (2 * k)).log2 - 52 + 1) :=
    (Nat.pow_succ').symm
  rw [hdouble]
  rcases (by omega : k ≤ 2 ^ 52).lt_or_eq with hlt | heq
  · have hlog : (2 ^ e * (2 * k)).log2 < e + 53 := by
      refine (Nat.log2_lt hne).2 ?_
      rw [Nat.pow_add]
      exact Nat.mul_lt_mul_of_pos_left (by omega) hpow
    have hdvd : 2 ^ ((2 ^ e * (2 * k)).log2 - 52 + 1) ∣ 2 ^ (e + 1) :=
      Nat.pow_dvd_pow 2 (by omega)
    refine hdvd.trans ⟨k, ?_⟩
    rw [Nat.pow_succ, Nat.mul_assoc]
  · have hwhole : 2 ^ e * (2 * k) = 2 ^ (e + 53) := by
      rw [heq, Nat.pow_add]
      rfl
    rw [hwhole, Nat.log2_two_pow]
    exact Nat.pow_dvd_pow 2 (by omega)

/-- If another grid point is as near, the rounding is an even multiple of its step. -/
theorem roundUnits_tie {den : Nat} (hd : 0 < den) {num w : Nat} (hw : gridStep w ∣ w)
    (hne : w ≠ roundUnits num den)
    (h : |(num : ℤ) - den * w| = |(num : ℤ) - den * roundUnits num den|) :
    2 * gridStep (roundUnits num den) ∣ roundUnits num den := by
  by_cases hs : gridStep (num / den) ∣ w
  · obtain ⟨k, rfl⟩ := hs
    have hstep := Nat.mul_pos hd (gridStep_pos (num / den))
    have hk : k ≠ nearestEven num (den * gridStep (num / den)) := by
      rintro rfl
      exact hne rfl
    have heven : 2 ∣ nearestEven num (den * gridStep (num / den)) := by
      refine nearestEven_tie hstep hk ?_
      simpa only [roundUnits, Nat.cast_mul, mul_assoc] using h
    refine two_mul_gridStep_dvd ?_ heven
    refine (nearestEven_le _ _).trans ?_
    rw [← Nat.div_div_eq_div_mul]
    exact div_gridStep_lt _
  · exact absurd h (roundUnits_nearer_of_not_dvd hd hw hs).ne'

theorem roundRat_tie {q : ℚ} (hq : 0 ≤ q) {w : Nat} (hw : gridStep w ∣ w) (hne : w ≠ roundRat q)
    (h : |q - w| = |q - roundRat q|) : 2 * gridStep (roundRat q) ∣ roundRat q := by
  obtain ⟨num, den, hd, rfl⟩ := exists_eq_div hq
  have hdist : |(num : ℤ) - den * w| = |(num : ℤ) - den * roundRat (num / den)| := by
    have hscaled := congrArg (· * (den : ℚ)) h
    rw [abs_div_sub_mul hd, abs_div_sub_mul hd] at hscaled
    exact_mod_cast hscaled
  rw [← roundUnits_eq_roundRat hd] at hne hdist ⊢
  exact roundUnits_tie hd hw hne hdist

/-! ## The ends of the range -/

/-- Half a step below the limit, in units. -/
def unitsOverflow : Nat := Nat.pow 2 2098 - Nat.pow 2 2044

theorem roundUnits_unitsOverflow : roundUnits unitsOverflow 1 = unitsLimit := by decide +kernel

/-- A number keeps below the limit when it is below the middle between the largest magnitude and the
limit. -/
theorem roundRat_lt_unitsLimit_iff {q : ℚ} (hq : 0 ≤ q) :
    roundRat q < unitsLimit ↔ q < unitsOverflow := by
  constructor
  · intro hlt
    by_contra hge
    have hmono := roundRat_mono (Nat.cast_nonneg _) (not_lt.1 hge)
    have hlimit := roundUnits_eq_roundRat Nat.one_pos unitsOverflow
    rw [Nat.cast_one, div_one, roundUnits_unitsOverflow] at hlimit
    omega
  · intro hlt
    by_contra hge
    have hgrid : gridStep (unitsOverflow - Nat.pow 2 2044) ∣ unitsOverflow - Nat.pow 2 2044 := by
      decide +kernel
    have hmiddle : unitsOverflow - Nat.pow 2 2044 + unitsLimit = 2 * unitsOverflow := by
      decide +kernel
    have hbelow : unitsOverflow - Nat.pow 2 2044 < unitsOverflow := by decide +kernel
    have hnear := roundRat_nearest hq hgrid
    generalize unitsOverflow - Nat.pow 2 2044 = largest at hmiddle hbelow hnear
    generalize unitsOverflow = middle at hlt hmiddle hbelow
    generalize unitsLimit = limit at hge hmiddle
    have hlimit : (limit : ℚ) ≤ roundRat q := by exact_mod_cast Nat.not_lt.1 hge
    have hsum : (largest + limit : ℚ) = 2 * middle := by exact_mod_cast hmiddle
    have horder : (largest : ℚ) < middle := by exact_mod_cast hbelow
    rw [abs_sub_comm, abs_of_nonneg (by linarith)] at hnear
    rcases abs_cases (q - largest) with ⟨habs, _⟩ | ⟨habs, _⟩ <;> linarith

/-- A number does not vanish when it is above half a unit. -/
theorem roundRat_pos_iff {q : ℚ} (hq : 0 ≤ q) : 0 < roundRat q ↔ 1 / 2 < q := by
  constructor
  · intro hpos
    by_contra hle
    have hmono := roundRat_mono hq (not_lt.1 hle)
    have hhalf := roundUnits_eq_roundRat Nat.two_pos 1
    have hzero : roundUnits 1 2 = 0 := by decide +kernel
    rw [Nat.cast_one, Nat.cast_ofNat, hzero] at hhalf
    omega
  · intro hhalf
    by_contra hzero
    have hnear := roundRat_nearest hq (w := 1) (by decide +kernel)
    rw [Nat.eq_zero_of_not_pos hzero, Nat.cast_zero, sub_zero, abs_of_nonneg hq, Nat.cast_one]
      at hnear
    rcases abs_cases (q - 1) with ⟨habs, _⟩ | ⟨habs, _⟩ <;> linarith

end WavePlot
