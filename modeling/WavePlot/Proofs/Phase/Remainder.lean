import Mathlib.Data.Rat.Floor
import WavePlot.Proofs.Binary64.CorrectRounding
import WavePlot.Proofs.Phase

/-!
# A reduced phase is the floored remainder

What an angle leaves above the next lower multiple of the full turn is computed in units without
rounding. For an angle that is not negative it lies on the grid, since the grid of the angle is no
finer than that of the turn unless the angle is below the turn already. For a negative angle it is
rounded once, and the turn itself counts as zero.
-/

namespace WavePlot.Phase

open Decimal (amount RoundsTo amount_nonneg amount_mul amount_lt_amount_iff unitsPerOne_cast_pos)
open Binary64 (IsNearest exact_finite)

/-- The full turn exactly. -/
@[irreducible] def turn : ℚ := 7074237752028440 / 2 ^ 50

/-- What a number leaves above the next lower multiple of the full turn. -/
def flooredRemainder (q : ℚ) : ℚ := q - turn * ⌊q / turn⌋

theorem div_pow_mul {m a b one whole : Nat} (hone : one = 2 ^ (a + b))
    (hwhole : whole = m * 2 ^ b) : (m : ℚ) / 2 ^ a * one = whole := by
  have ha : (2 : ℚ) ^ a ≠ 0 := by positivity
  rw [hone, hwhole, Nat.cast_pow, Nat.cast_mul, Nat.cast_pow, Nat.cast_ofNat, pow_add, ← mul_assoc,
    div_mul_cancel₀ _ ha]

theorem turn_mul : turn * unitsPerOne = fullTurn := by
  have hone : unitsPerOne = 2 ^ (50 + 1024) := by decide +kernel
  have hwhole : fullTurn = 7074237752028440 * 2 ^ 1024 := by decide +kernel
  have h := div_pow_mul hone hwhole
  rw [turn]
  exact h

theorem amount_fullTurn : amount fullTurn = turn := by
  rw [amount, ← turn_mul, mul_div_cancel_right₀ _ unitsPerOne_cast_pos.ne']

theorem turn_pos : 0 < turn := by
  have h := amount_lt_amount_iff.2 fullTurn_pos
  rwa [Decimal.amount_zero, amount_fullTurn] at h

/-! ## The exact remainder -/

variable {negative : Bool} {units : Nat} {onGrid : OnGrid units}

theorem remainder_lt (negative : Bool) (units : Nat) : remainder negative units < fullTurn := by
  unfold remainder
  split_ifs <;> exact Nat.mod_lt _ fullTurn_pos

theorem remainder_cast (negative : Bool) (units : Nat) :
    (remainder negative units : ℤ) = (if negative then -(units : ℤ) else units) % fullTurn := by
  have hlt : units % fullTurn ≤ fullTurn := (Nat.mod_lt _ fullTurn_pos).le
  unfold remainder
  generalize fullTurn = whole at hlt ⊢
  cases negative with
  | false => exact Int.natCast_emod units whole
  | true =>
    show (((whole - units % whole) % whole : ℕ) : ℤ) = -(units : ℤ) % whole
    rw [Int.natCast_emod, Nat.cast_sub hlt, Int.natCast_emod, Int.sub_emod_emod,
      sub_eq_add_neg, Int.add_emod_left]

/-- The remainder in units is the floored remainder. -/
theorem flooredRemainder_exact (negative : Bool) {units : Nat} (onGrid : OnGrid units) :
    flooredRemainder (Binary64.finite negative units onGrid).exact =
      amount (remainder negative units) := by
  have hexact : (Binary64.finite negative units onGrid).exact =
      ((if negative then -(units : ℤ) else units : ℤ) : ℚ) / unitsPerOne := by
    rw [exact_finite, amount]
    cases negative with
    | false =>
      show (units : ℚ) / unitsPerOne = ((units : ℤ) : ℚ) / unitsPerOne
      rw [Int.cast_natCast]
    | true =>
      show -((units : ℚ) / unitsPerOne) = ((-(units : ℤ) : ℤ) : ℚ) / unitsPerOne
      rw [Int.cast_neg, Int.cast_natCast, neg_div]
  have hrest := congrArg (Int.cast : ℤ → ℚ) (remainder_cast negative units)
  rw [Int.cast_natCast, Int.emod_def] at hrest
  generalize (if negative then -(units : ℤ) else units : ℤ) = z at hexact hrest
  have hquotient : z / (unitsPerOne : ℚ) / turn = z / fullTurn := by
    rw [div_div, mul_comm, turn_mul]
  rw [flooredRemainder, hexact, hquotient, Rat.floor_intCast_div_natCast, amount, hrest,
    ← amount_fullTurn, amount, Int.cast_sub, Int.cast_mul, Int.cast_natCast, sub_div,
    div_mul_eq_mul_div]

/-- The grid of the turn is the coarsest that a remainder needs. -/
theorem gridStep_mod_dvd (hgrid : gridStep units ∣ units) :
    gridStep (units % fullTurn) ∣ units % fullTurn := by
  have hturn : gridStep fullTurn ∣ fullTurn := by decide +kernel
  have hrest : units % fullTurn < fullTurn := Nat.mod_lt _ fullTurn_pos
  rcases Nat.lt_or_ge units fullTurn with hlt | hge
  · rw [Nat.mod_eq_of_lt hlt]
    exact hgrid
  · have hunits : gridStep fullTurn ∣ units := (gridStep_dvd_gridStep hge).trans hgrid
    exact (gridStep_dvd_gridStep hrest.le).trans ((Nat.dvd_mod_iff hturn).2 hunits)

theorem roundUnits_remainder_le (negative : Bool) (units : Nat) :
    roundUnits (remainder negative units) 1 ≤ fullTurn := by
  have hcast : (remainder negative units : ℚ) ≤ fullTurn := by
    exact_mod_cast (remainder_lt negative units).le
  have hmono := roundRat_mono (Nat.cast_nonneg _) hcast
  have hround := roundUnits_eq_roundRat Nat.one_pos (remainder negative units)
  rw [Nat.cast_one, div_one] at hround
  rw [hround]
  rwa [roundRat_natCast (by decide +kernel : gridStep fullTurn ∣ fullTurn)] at hmono

/-- A remainder on the grid is kept as it is. -/
theorem exact_reduce_of_dvd
    (h : gridStep (remainder negative units) ∣ remainder negative units) :
    (reduce (.finite negative units onGrid)).exact = amount (remainder negative units) := by
  have hlt := remainder_lt negative units
  have hround := roundUnits_of_dvd h
  have hgrid : OnGrid (remainder negative units) := ⟨hlt.trans_le fullTurn_le_unitsLimit, h⟩
  unfold reduce
  dsimp only
  rw [if_pos (by rwa [hround]), Binary64.round_eq_finite false hgrid hround]
  rfl

/-- Any remainder is rounded once, and the turn counts as zero. -/
theorem exists_isNearest_reduce (negative : Bool) {units : Nat} (onGrid : OnGrid units) :
    ∃ y, IsNearest (amount (remainder negative units)) y ∧
      (reduce (.finite negative units onGrid)).exact = if y.exact = turn then 0 else y.exact := by
  have hle := roundUnits_remainder_le negative units
  have hgrid : OnGrid (roundUnits (remainder negative units) 1) := by
    refine ⟨hle.trans_lt ?_, gridStep_roundUnits_dvd _ 1⟩
    decide +kernel
  have hround : RoundsTo (roundUnits (remainder negative units) 1)
      (amount (remainder negative units)) := by
    refine Decimal.roundsTo_of_eq_div Nat.one_pos ?_ rfl
    rw [amount_mul, Nat.cast_one, div_one]
  refine ⟨.finite false _ hgrid, Binary64.isNearest_of_roundsTo false hround, ?_⟩
  have hexact : (Binary64.finite false _ hgrid).exact =
      amount (roundUnits (remainder negative units) 1) := rfl
  rw [hexact]
  unfold reduce
  dsimp only
  rcases hle.lt_or_eq with hlt | heq
  · have hne : amount (roundUnits (remainder negative units) 1) ≠ turn := by
      rw [← amount_fullTurn]
      exact (amount_lt_amount_iff.2 hlt).ne
    rw [if_pos hlt, if_neg hne, Binary64.round_eq_finite false hgrid rfl]
    rfl
  · have hzero : Binary64.zero.exact = 0 := by
      have hform : Binary64.zero = .finite false 0 (by decide +kernel) := by decide +kernel
      rw [hform]
      exact Decimal.amount_zero
    rw [if_neg heq.not_lt, heq, amount_fullTurn, if_pos rfl, hzero]

theorem reduce_of_remainder_eq_zero (h : remainder negative units = 0) :
    reduce (.finite negative units onGrid) = .zero := by
  have hround : roundUnits 0 1 = 0 := roundUnits_eq_zero (by decide)
  unfold reduce
  dsimp only
  rw [h, hround, if_pos fullTurn_pos]
  rfl

theorem gridStep_remainder_dvd (hnonneg : 0 ≤ (Binary64.finite negative units onGrid).exact) :
    gridStep (remainder negative units) ∣ remainder negative units := by
  cases negative with
  | false => exact gridStep_mod_dvd onGrid.2
  | true =>
    have hle : amount units ≤ 0 := neg_nonneg.1 hnonneg
    have hzero : units = 0 := by
      by_contra hne
      have hpos := amount_lt_amount_iff.2 (Nat.pos_of_ne_zero hne)
      rw [Decimal.amount_zero] at hpos
      exact absurd hle hpos.not_ge
    have hrest : remainder true units = 0 := by
      rw [hzero, remainder, if_pos rfl, Nat.zero_mod, Nat.sub_zero, Nat.mod_self]
    rw [hrest]
    exact dvd_zero _

/-- A finite angle is reduced to its floored remainder: exactly if it is not negative, and else
rounded once to the nearest number, with zero for the turn. The result has no sign, is below the
turn, is zero for whole turns and is reduced to itself. -/
theorem reduce_is_floored_remainder {x : Binary64} (hx : x.IsFinite) :
    0 ≤ flooredRemainder x.exact ∧ flooredRemainder x.exact < turn ∧
      (0 ≤ x.exact → (reduce x).exact = flooredRemainder x.exact) ∧
      (x.exact < 0 → ∃ y, IsNearest (flooredRemainder x.exact) y ∧
        (reduce x).exact = if y.exact = turn then 0 else y.exact) ∧
      ((reduce x).IsFinite ∧ (reduce x).hasMinus = false ∧
        0 ≤ (reduce x).exact ∧ (reduce x).exact < turn) ∧
      ((∃ k : ℤ, x.exact = k * turn) → reduce x = .zero) ∧
      reduce (reduce x) = reduce x := by
  obtain ⟨negative, units, onGrid, rfl⟩ := hx
  rw [flooredRemainder_exact negative onGrid]
  refine ⟨amount_nonneg _, ?below, ?exact, fun _ => exists_isNearest_reduce negative onGrid,
    ?inTurn, ?multiple, reduce_reduce _⟩
  case below =>
    rw [← amount_fullTurn]
    exact amount_lt_amount_iff.2 (remainder_lt negative units)
  case exact =>
    intro hnonneg
    exact exact_reduce_of_dvd (gridStep_remainder_dvd hnonneg)
  case inTurn =>
    obtain ⟨rest, hrest, hreduce, hlt⟩ := inTurn_reduce_finite negative onGrid
    rw [hreduce]
    refine ⟨⟨false, rest, hrest, rfl⟩, rfl, amount_nonneg rest, ?_⟩
    rw [← amount_fullTurn]
    exact amount_lt_amount_iff.2 hlt
  case multiple =>
    intro hk
    obtain ⟨k, hk⟩ := hk
    have hzero := flooredRemainder_exact negative onGrid
    rw [flooredRemainder, hk, mul_div_cancel_right₀ _ turn_pos.ne', Int.floor_intCast, mul_comm,
      sub_self, ← Decimal.amount_zero] at hzero
    refine reduce_of_remainder_eq_zero ?_
    by_contra hne
    exact (amount_lt_amount_iff.2 (Nat.pos_of_ne_zero hne)).ne hzero

/-- The negative number nearest to zero leaves nearly a whole turn, which is rounded to the turn and
so becomes zero. -/
theorem reduce_of_least_negative :
    (Binary64.finite true 1 Binary64.onGrid_one).IsFinite ∧
      (Binary64.finite true 1 Binary64.onGrid_one).exact < 0 ∧
      (∃ y, IsNearest (flooredRemainder (Binary64.finite true 1 Binary64.onGrid_one).exact) y ∧
        (reduce (.finite true 1 Binary64.onGrid_one)).exact =
          if y.exact = turn then 0 else y.exact) ∧
      reduce (.finite true 1 Binary64.onGrid_one) = .zero := by
  have hfinite : (Binary64.finite true 1 Binary64.onGrid_one).IsFinite := ⟨true, 1, _, rfl⟩
  have hneg : (Binary64.finite true 1 Binary64.onGrid_one).exact < 0 := by
    have hpos := amount_lt_amount_iff.2 Nat.one_pos
    rw [Decimal.amount_zero] at hpos
    exact neg_lt_zero.2 hpos
  obtain ⟨_, _, _, hnearest, _, _, _⟩ := reduce_is_floored_remainder hfinite
  exact ⟨hfinite, hneg, hnearest hneg, by decide +kernel⟩

end WavePlot.Phase
