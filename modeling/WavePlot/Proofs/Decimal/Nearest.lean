import Mathlib.Algebra.Order.Field.Power
import Mathlib.Tactic.FieldSimp
import WavePlot.Decimal.Literal
import WavePlot.Proofs.Binary64.Rounding

/-!
# The number nearest to a decimal

The position of the leading digit settles the extreme decimals without a power; what it says is
what rounding would say. So the number nearest to `coefficient * 10 ^ exponent` is the rounding of
any quotient of units that equals it.
-/

namespace WavePlot.Decimal

open Binary64 (round)

theorem lt_pow_digitCount (n : Nat) : n < 10 ^ digitCount n :=
  (Nat.length_toDigits_le_iff (by decide) Nat.length_toDigits_pos).1 le_rfl

theorem pow_digitCount_le {n : Nat} (hn : n ≠ 0) : 10 ^ (digitCount n - 1) ≤ n := by
  by_contra hlt
  rcases Nat.eq_zero_or_pos (digitCount n - 1) with h0 | hpos
  · rw [h0] at hlt
    omega
  · have hle := (Nat.length_toDigits_le_iff (by decide) hpos).2 (Nat.not_le.1 hlt)
    change digitCount n ≤ digitCount n - 1 at hle
    omega

theorem unitsPerOne_pos : 0 < unitsPerOne := by decide +kernel

/-! ## Decimals as quotients of units -/

theorem scaled_natCast (negative : Bool) (c k : Nat) :
    scaled negative c k = round negative (c * 10 ^ k * unitsPerOne) 1 := by
  unfold scaled
  rw [if_pos (Int.natCast_nonneg k), Int.toNat_natCast]
  rfl

theorem scaled_neg_natCast (negative : Bool) (c k : Nat) :
    scaled negative c (-k) = round negative (c * unitsPerOne) (10 ^ k) := by
  rcases Nat.eq_zero_or_pos k with rfl | hk
  · exact (scaled_natCast negative c 0).trans (by rw [pow_zero, Nat.mul_one])
  · unfold scaled
    rw [if_neg (by omega), neg_neg, Int.toNat_natCast]
    rfl

/-- A decimal rounds as any quotient of units that equals it. -/
theorem scaled_eq_round (negative : Bool) {c num den : Nat} {e : Int} (hd : 0 < den)
    (h : (c : ℚ) * 10 ^ e * unitsPerOne = num / den) :
    scaled negative c e = round negative num den := by
  have hdq : (den : ℚ) ≠ 0 := by positivity
  rw [eq_div_iff hdq] at h
  obtain ⟨k, rfl | rfl⟩ := e.eq_nat_or_neg
  · rw [scaled_natCast]
    refine Binary64.round_congr negative Nat.one_pos hd ?_
    rw [zpow_natCast] at h
    rw [Nat.mul_one]
    exact_mod_cast h
  · rw [scaled_neg_natCast]
    refine Binary64.round_congr negative (by positivity) hd ?_
    rw [zpow_neg, zpow_natCast] at h
    have hk : (10 : ℚ) ^ k ≠ 0 := by positivity
    field_simp at h
    rw [mul_comm num]
    exact_mod_cast h

/-! ## Extreme decimals -/

theorem scaled_of_position_le (negative : Bool) {c : Nat} {e : Int}
    (h : digitCount c + e ≤ -324) : scaled negative c e = round negative 0 1 := by
  obtain ⟨k, rfl⟩ : ∃ k : Nat, e = -(k : Int) := ⟨(-e).toNat, by omega⟩
  have hk : digitCount c + 324 ≤ k := by omega
  have hsmall : 2 * (c * unitsPerOne) < 10 ^ k := by
    have hunit : 2 * unitsPerOne ≤ 10 ^ 324 := by decide +kernel
    calc 2 * (c * unitsPerOne) = c * (2 * unitsPerOne) := by ring
      _ ≤ c * 10 ^ 324 := Nat.mul_le_mul_left c hunit
      _ < 10 ^ digitCount c * 10 ^ 324 :=
          Nat.mul_lt_mul_of_pos_right (lt_pow_digitCount c) (by positivity)
      _ = 10 ^ (digitCount c + 324) := by rw [pow_add]
      _ ≤ 10 ^ k := Nat.pow_le_pow_right (by decide) hk
  have hgrid : OnGrid 0 := by decide +kernel
  rw [scaled_neg_natCast, Binary64.round_eq_finite negative hgrid (roundUnits_eq_zero hsmall),
    Binary64.round_eq_finite negative hgrid (roundUnits_eq_zero (by decide))]

theorem scaled_of_position_ge (negative : Bool) {c : Nat} {e : Int} (hc : c ≠ 0)
    (h : 310 ≤ digitCount c + e) : scaled negative c e = .infinite negative := by
  have hlow := pow_digitCount_le hc
  have hlimit : unitsLimit = 2 ^ 1024 * unitsPerOne := by decide +kernel
  have hgrid : gridStep unitsLimit ∣ unitsLimit := by decide +kernel
  have hpow : 2 ^ 1024 ≤ 10 ^ 309 := by decide +kernel
  obtain ⟨k, rfl | rfl⟩ := e.eq_nat_or_neg
  · rw [scaled_natCast]
    refine Binary64.round_eq_infinite negative (le_roundUnits Nat.one_pos hgrid ?_)
    rw [Nat.one_mul, hlimit]
    have hexp : 309 ≤ digitCount c - 1 + k := by omega
    refine Nat.mul_le_mul_right _ (hpow.trans ((pow_le_pow_right₀ (by decide) hexp).trans ?_))
    rw [pow_add]
    exact Nat.mul_le_mul_right _ hlow
  · rw [scaled_neg_natCast]
    refine Binary64.round_eq_infinite negative (le_roundUnits (by positivity) hgrid ?_)
    rw [hlimit, ← Nat.mul_assoc]
    refine Nat.mul_le_mul_right _ ?_
    calc 10 ^ k * 2 ^ 1024 ≤ 10 ^ k * 10 ^ 309 := Nat.mul_le_mul_left _ hpow
      _ = 10 ^ (k + 309) := (pow_add _ _ _).symm
      _ ≤ 10 ^ (digitCount c - 1) := Nat.pow_le_pow_right (by decide) (by omega)
      _ ≤ c := hlow

/-- The shortcuts by position do not change the number. -/
theorem nearest_eq_scaled (negative : Bool) (c : Nat) (e : Int) :
    nearest negative c e = scaled negative c e := by
  unfold nearest
  dsimp only
  split_ifs with hlow hhigh
  · rcases Bool.or_eq_true_iff.1 hlow with hzero | hpos
    · rw [of_decide_eq_true hzero]
      refine (scaled_eq_round negative Nat.one_pos ?_).symm
      rw [Nat.cast_zero, zero_mul, zero_mul, zero_div]
    · exact (scaled_of_position_le negative (of_decide_eq_true hpos)).symm
  · have hc : c ≠ 0 := by
      rintro rfl
      exact hlow rfl
    exact (scaled_of_position_ge negative hc hhigh).symm
  · rfl

/-- A decimal is read as the rounding of any quotient of units that equals it. -/
theorem nearest_eq_round (negative : Bool) {c num den : Nat} {e : Int} (hd : 0 < den)
    (h : (c : ℚ) * 10 ^ e * unitsPerOne = num / den) :
    nearest negative c e = round negative num den := by
  rw [nearest_eq_scaled, scaled_eq_round negative hd h]

end WavePlot.Decimal
