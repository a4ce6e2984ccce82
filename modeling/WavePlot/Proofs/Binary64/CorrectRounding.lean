import WavePlot.Proofs.Binary64.Text
import WavePlot.Proofs.Binary64.Ties

/-!
# Correct rounding

`IsNearest` says which finite number a rational is to be rounded to, and mentions no algorithm: no
finite number is nearer, and if another one is as near, the last bit of this one's significand is
zero. It determines the number up to the sign of zero. Rounding finds it below the overflow bound
and gives an infinity from there on.
-/

namespace WavePlot

open Decimal (amount RoundsTo roundsTo_amount unitsPerOne_cast_pos)

/-- A magnitude with a sign. -/
def withSign (negative : Bool) (q : ℚ) : ℚ := if negative then -q else q

theorem abs_withSign {q : ℚ} (hq : 0 ≤ q) (negative : Bool) : |withSign negative q| = q := by
  cases negative with
  | false => exact abs_of_nonneg hq
  | true => exact (abs_neg q).trans (abs_of_nonneg hq)

/-- Under the same sign the distance is that of the magnitudes. -/
theorem abs_withSign_sub_same (negative : Bool) (q r : ℚ) :
    |withSign negative q - withSign negative r| = |q - r| := by
  cases negative with
  | false => rfl
  | true =>
    show |-q - -r| = _
    rw [neg_sub_neg, abs_sub_comm]

/-- Under opposite signs zero lies between, and the magnitudes add up. -/
theorem abs_withSign_sub_opposite {negative sign : Bool} (hne : sign ≠ negative) {q r : ℚ}
    (hq : 0 ≤ q) (hr : 0 ≤ r) : |withSign negative q - withSign sign r| = q + r := by
  have hsum := add_nonneg hq hr
  cases negative with
  | false =>
    cases sign with
    | false => exact absurd rfl hne
    | true =>
      show |q - -r| = _
      rw [sub_neg_eq_add, abs_of_nonneg hsum]
  | true =>
    cases sign with
    | true => exact absurd rfl hne
    | false =>
      show |-q - r| = _
      rw [neg_sub_left, abs_neg, add_comm, abs_of_nonneg hsum]

theorem intCast_eq_withSign (n : ℤ) : (n : ℚ) = withSign (decide (n < 0)) n.natAbs := by
  unfold withSign
  rw [Nat.cast_natAbs]
  by_cases hn : n < 0
  · rw [if_pos (decide_eq_true hn), abs_of_neg hn, Int.cast_neg, neg_neg]
  · rw [if_neg (by simpa using hn), abs_of_nonneg (not_lt.1 hn)]

namespace Binary64

/-- Half a step below `2 ^ 1024`: the least magnitude that has no finite rounding. -/
@[irreducible] def overflowBound : ℚ := 2 ^ 1024 - 2 ^ 970

/-- Half of the least positive number: the greatest magnitude that rounds to zero. -/
@[irreducible] def underflowBound : ℚ := 2 ^ (-1075 : ℤ)

/-- Whether the number carries a minus sign; a zero can. -/
def hasMinus : Binary64 → Bool
  | .nan => false
  | .infinite negative => negative
  | .finite negative _ _ => negative

/-- The last bit of the significand is zero. -/
def HasEvenSignificand : Binary64 → Prop
  | .finite _ units _ => 2 * gridStep units ∣ units
  | _ => False

/-- The number is a finite one nearest to the rational; if it is not alone, it has the even
significand. -/
structure IsNearest (q : ℚ) (x : Binary64) : Prop where
  finite : x.IsFinite
  nearest : ∀ y : Binary64, y.IsFinite → |q - x.exact| ≤ |q - y.exact|
  even : ∀ y : Binary64, y.IsFinite → y.exact ≠ x.exact → |q - y.exact| = |q - x.exact| →
    x.HasEvenSignificand

theorem exact_finite (negative : Bool) {units : Nat} (onGrid : OnGrid units) :
    (finite negative units onGrid).exact = withSign negative (amount units) := rfl

end Binary64

/-! ## Magnitudes -/

namespace Decimal

theorem amount_nonneg (units : Nat) : 0 ≤ amount units := by
  rw [amount]
  exact div_nonneg (Nat.cast_nonneg _) (Nat.cast_nonneg _)

theorem amount_mul (units : Nat) : amount units * unitsPerOne = units := by
  rw [amount, div_mul_cancel₀ _ unitsPerOne_cast_pos.ne']

theorem amount_lt_amount_iff {a b : Nat} : amount a < amount b ↔ a < b := by
  rw [amount, amount, div_lt_div_iff_of_pos_right unitsPerOne_cast_pos, Nat.cast_lt]

theorem amount_zero : amount 0 = 0 := by
  rw [amount, Nat.cast_zero, zero_div]

/-- The distance to a magnitude, in units. -/
theorem abs_sub_amount_mul (q : ℚ) (units : Nat) :
    |q - amount units| * unitsPerOne = |q * unitsPerOne - units| := by
  have hsub : q * unitsPerOne - units = (q - amount units) * unitsPerOne := by
    rw [sub_mul, amount_mul]
  rw [hsub, abs_mul, abs_of_pos unitsPerOne_cast_pos]

variable {units w : Nat} {q : ℚ}

theorem RoundsTo.nearest (h : RoundsTo units q) (hw : gridStep w ∣ w) :
    |q - amount units| ≤ |q - amount w| := by
  have hnear := roundRat_nearest (mul_nonneg h.nonneg unitsPerOne_cast_pos.le) hw
  rw [h.round] at hnear
  refine le_of_mul_le_mul_right ?_ unitsPerOne_cast_pos
  rwa [abs_sub_amount_mul, abs_sub_amount_mul]

theorem RoundsTo.even_of_tie (h : RoundsTo units q) (hw : gridStep w ∣ w) (hne : w ≠ units)
    (htie : |q - amount w| = |q - amount units|) : 2 * gridStep units ∣ units := by
  have hscaled := congrArg (· * (unitsPerOne : ℚ)) htie
  rw [abs_sub_amount_mul, abs_sub_amount_mul] at hscaled
  rw [← h.round] at hne hscaled ⊢
  exact roundRat_tie (mul_nonneg h.nonneg unitsPerOne_cast_pos.le) hw hne hscaled

/-- The bounds in units. Their powers are kept in variables, so that nothing evaluates them. -/
theorem pow_sub_pow_mul {a b c one difference : Nat} (hone : one = Nat.pow 2 c)
    (hsum : difference + Nat.pow 2 (b + c) = Nat.pow 2 (a + c)) :
    ((2 : ℚ) ^ a - 2 ^ b) * one = difference := by
  have hcast := congrArg (Nat.cast : ℕ → ℚ) hsum
  rw [Nat.pow_eq, Nat.pow_eq] at hcast
  push_cast at hcast
  rw [hone, Nat.pow_eq, Nat.cast_pow, Nat.cast_ofNat, sub_mul, ← pow_add, ← pow_add, ← hcast,
    add_sub_cancel_right]

theorem overflowBound_mul : Binary64.overflowBound * unitsPerOne = unitsOverflow := by
  rw [Binary64.overflowBound]
  exact pow_sub_pow_mul (c := 1074) (by decide +kernel) (by decide +kernel)

theorem zpow_neg_succ_mul {k one : Nat} (hone : one = Nat.pow 2 k) :
    (2 : ℚ) ^ (-(k + 1 : ℕ) : ℤ) * one = 1 / 2 := by
  have hk : (2 : ℚ) ^ k ≠ 0 := by positivity
  rw [hone, Nat.pow_eq, zpow_neg, zpow_natCast, Nat.cast_pow, Nat.cast_ofNat, pow_succ,
    mul_inv_rev, mul_assoc, inv_mul_cancel₀ hk, mul_one, one_div]

theorem underflowBound_mul : Binary64.underflowBound * unitsPerOne = 1 / 2 := by
  rw [Binary64.underflowBound]
  exact zpow_neg_succ_mul (k := 1074) (by decide +kernel)

theorem RoundsTo.lt_unitsLimit_iff (h : RoundsTo units q) :
    units < unitsLimit ↔ q < Binary64.overflowBound := by
  have hiff := roundRat_lt_unitsLimit_iff (mul_nonneg h.nonneg unitsPerOne_cast_pos.le)
  rw [h.round, ← overflowBound_mul, mul_lt_mul_iff_left₀ unitsPerOne_cast_pos] at hiff
  exact hiff

theorem RoundsTo.pos_iff (h : RoundsTo units q) : 0 < units ↔ Binary64.underflowBound < q := by
  have hiff := roundRat_pos_iff (mul_nonneg h.nonneg unitsPerOne_cast_pos.le)
  rw [h.round, ← underflowBound_mul, mul_lt_mul_iff_left₀ unitsPerOne_cast_pos] at hiff
  exact hiff

end Decimal

/-! ## The nearest number -/

namespace Binary64

variable {q : ℚ} {x y : Binary64}

theorem isNearest_of_roundsTo (negative : Bool) {units : Nat} {onGrid : OnGrid units}
    (h : RoundsTo units q) : IsNearest (withSign negative q) (finite negative units onGrid) := by
  have hzero : |q - amount 0| = q := by rw [Decimal.amount_zero, sub_zero, abs_of_nonneg h.nonneg]
  have hsame : |withSign negative q - (finite negative units onGrid).exact| =
      |q - amount units| := abs_withSign_sub_same negative q (amount units)
  refine ⟨⟨negative, units, onGrid, rfl⟩, ?_, ?_⟩
  · intro y hy
    obtain ⟨sign, w, hw, rfl⟩ := hy
    rw [hsame, exact_finite sign hw]
    by_cases hsign : sign = negative
    · rw [hsign, abs_withSign_sub_same]
      exact h.nearest hw.2
    · rw [abs_withSign_sub_opposite hsign h.nonneg (Decimal.amount_nonneg w)]
      have hnear := h.nearest (dvd_zero (gridStep 0))
      rw [hzero] at hnear
      exact hnear.trans (le_add_of_nonneg_right (Decimal.amount_nonneg w))
  · intro y hy hne htie
    obtain ⟨sign, w, hw, rfl⟩ := hy
    rw [hsame, exact_finite sign hw] at htie
    by_cases hsign : sign = negative
    · rw [hsign, abs_withSign_sub_same] at htie
      refine h.even_of_tie hw.2 ?_ htie
      intro hunits
      subst hunits
      exact hne (by rw [hsign])
    -- A number of the other sign is as near only if it is zero.
    · rw [abs_withSign_sub_opposite hsign h.nonneg (Decimal.amount_nonneg w)] at htie
      have hnear := h.nearest (dvd_zero (gridStep 0))
      have hw0 : amount w = 0 := by
        have hnonneg := Decimal.amount_nonneg w
        rw [hzero] at hnear
        linarith
      refine h.even_of_tie (dvd_zero (gridStep 0)) ?_ ?_
      · intro hunits
        subst hunits
        refine hne ?_
        rw [exact_finite, exact_finite, hw0, Decimal.amount_zero]
        cases sign <;> cases negative <;> simp [withSign]
      · rw [hzero, ← htie, hw0, add_zero]

/-! ### Uniqueness -/

/-- Above a grid point that is an even multiple of its step there is another grid point before the
next such one. -/
theorem exists_units_between {a b : Nat} (ha : 2 * gridStep a ∣ a) (hb : 2 * gridStep b ∣ b)
    (hlt : a < b) : ∃ c, gridStep c ∣ c ∧ a < c ∧ c < b := by
  have hstep := gridStep_pos a
  have hb' : 2 * gridStep a ∣ b :=
    (Nat.mul_dvd_mul_left 2 (gridStep_dvd_gridStep hlt.le)).trans hb
  have hgap : 2 * gridStep a ≤ b - a := Nat.le_of_dvd (by omega) (Nat.dvd_sub hb' ha)
  have hgrid : gridStep (a + gridStep a) ∣ a + gridStep a := by
    obtain ⟨k, hk⟩ := (Nat.dvd_mul_left _ 2).trans ha
    have hk53 : k < 2 ^ 53 := by
      have hdiv := div_gridStep_lt a
      rwa [Nat.div_eq_of_eq_mul_right hstep hk] at hdiv
    have hnext : a + gridStep a = Nat.pow 2 (a.log2 - 52) * (k + 1) := by
      rw [Nat.mul_succ]
      exact congrArg (· + gridStep a) hk
    rw [hnext]
    exact gridStep_mul_dvd hk53
  exact ⟨a + gridStep a, hgrid, by omega, by omega⟩

theorem exists_amount_between {a b : Nat} (hgrid : OnGrid b) (ha : 2 * gridStep a ∣ a)
    (hb : 2 * gridStep b ∣ b) (hab : a < b) :
    ∃ c, OnGrid c ∧ amount a < amount c ∧ amount c < amount b := by
  obtain ⟨c, hc, hac, hcb⟩ := exists_units_between ha hb hab
  exact ⟨c, ⟨hcb.trans hgrid.1, hc⟩, Decimal.amount_lt_amount_iff.2 hac,
    Decimal.amount_lt_amount_iff.2 hcb⟩

/-- Between two numbers of different value with even significands there is a third number. -/
theorem exists_exact_between (hx : x.HasEvenSignificand) (hy : y.HasEvenSignificand)
    (hlt : x.exact < y.exact) : ∃ z : Binary64, z.IsFinite ∧ x.exact < z.exact ∧
      z.exact < y.exact := by
  cases x with
  | nan | infinite negative => exact hx.elim
  | finite negative a ha =>
    cases y with
    | nan | infinite negative => exact hy.elim
    | finite sign b hb =>
      have hapos := Decimal.amount_nonneg a
      have hbpos := Decimal.amount_nonneg b
      cases negative with
      | false =>
        cases sign with
        | false =>
          obtain ⟨c, hc, hac, hcb⟩ := exists_amount_between hb hx hy (Decimal.amount_lt_amount_iff.1 hlt)
          exact ⟨finite false c hc, ⟨false, c, hc, rfl⟩, hac, hcb⟩
        | true =>
          change amount a < -amount b at hlt
          linarith
      | true =>
        cases sign with
        | false =>
          change -amount a < amount b at hlt
          rcases Nat.eq_zero_or_pos b with rfl | hpos
          · have hneg : 0 < a := by
              rw [Decimal.amount_zero, neg_lt_zero, ← Decimal.amount_zero] at hlt
              exact Decimal.amount_lt_amount_iff.1 hlt
            obtain ⟨c, hc, h0c, hca⟩ := exists_amount_between ha (dvd_zero _) hx hneg
            refine ⟨finite true c hc, ⟨true, c, hc, rfl⟩, neg_lt_neg hca, ?_⟩
            have hnonneg := Decimal.amount_nonneg 0
            show -amount c < amount 0
            linarith
          · obtain ⟨c, hc, h0c, hcb⟩ := exists_amount_between hb (dvd_zero _) hy hpos
            refine ⟨finite false c hc, ⟨false, c, hc, rfl⟩, ?_, hcb⟩
            have hnonneg := Decimal.amount_nonneg 0
            show -amount a < amount c
            linarith
        | true =>
          obtain ⟨c, hc, hbc, hca⟩ := exists_amount_between ha hy hx
            (Decimal.amount_lt_amount_iff.1 (neg_lt_neg_iff.1 hlt))
          exact ⟨finite true c hc, ⟨true, c, hc, rfl⟩, neg_lt_neg hca, neg_lt_neg hbc⟩

/-- A rational has at most one nearest number, up to the sign of zero: a number between two would be
nearer than both. -/
theorem IsNearest.exact_eq (hx : IsNearest q x) (hy : IsNearest q y) : x.exact = y.exact := by
  have hdist : |q - x.exact| = |q - y.exact| :=
    le_antisymm (hx.nearest y hy.finite) (hy.nearest x hx.finite)
  have hnot : ∀ {x y : Binary64}, IsNearest q x → IsNearest q y →
      |q - x.exact| = |q - y.exact| → ¬ x.exact < y.exact := by
    intro x y hx hy hdist hlt
    obtain ⟨z, hz, hxz, hzy⟩ := exists_exact_between
      (hx.even y hy.finite hlt.ne' hdist.symm) (hy.even x hx.finite hlt.ne hdist) hlt
    have hnear := hx.nearest z hz
    rcases abs_cases (q - x.exact) with ⟨hax, _⟩ | ⟨hax, _⟩ <;>
    rcases abs_cases (q - y.exact) with ⟨hay, _⟩ | ⟨hay, _⟩ <;>
    rcases abs_cases (q - z.exact) with ⟨haz, _⟩ | ⟨haz, _⟩ <;>
    linarith
  exact le_antisymm (not_lt.1 (hnot hy hx hdist.symm)) (not_lt.1 (hnot hx hy hdist))

theorem eq_of_exact_eq (hx : x.IsFinite) (hy : y.IsFinite) (hexact : x.exact = y.exact)
    (hminus : x.hasMinus = y.hasMinus) : x = y := by
  obtain ⟨negative, a, ha, rfl⟩ := hx
  obtain ⟨sign, b, hb, rfl⟩ := hy
  change negative = sign at hminus
  subst hminus
  have habs := congrArg abs hexact
  rw [abs_exact, abs_exact] at habs
  have hnot : ¬ a < b ∧ ¬ b < a := by
    rw [← Decimal.amount_lt_amount_iff, ← Decimal.amount_lt_amount_iff, habs]
    exact ⟨lt_irrefl _, lt_irrefl _⟩
  obtain rfl : a = b := by omega
  rfl

theorem IsNearest.unique (hx : IsNearest q x) (hy : IsNearest q y)
    (hminus : x.hasMinus = y.hasMinus) : x = y :=
  eq_of_exact_eq hx.finite hy.finite (hx.exact_eq hy) hminus

/-! ### Rounding -/

/-- What rounding makes of a magnitude with a sign. -/
structure Rounds (negative : Bool) (q : ℚ) (x : Binary64) : Prop where
  nearest : q < overflowBound → IsNearest (withSign negative q) x ∧ x.hasMinus = negative
  infinite : overflowBound ≤ q → x = .infinite negative
  positive : x.IsFinitePositive ↔
    underflowBound < withSign negative q ∧ withSign negative q < overflowBound

variable {negative : Bool}

theorem underflowBound_pos : 0 < underflowBound := by
  rw [underflowBound]
  positivity

theorem isFinitePositive_finite_iff {units : Nat} {onGrid : OnGrid units} :
    (finite negative units onGrid).IsFinitePositive ↔ negative = false ∧ 0 < units := by
  constructor
  · intro h
    obtain ⟨_, _, heq, hpos⟩ := h
    cases heq
    exact ⟨rfl, hpos⟩
  · intro h
    obtain ⟨hsign, hpos⟩ := h
    exact ⟨units, onGrid, by rw [hsign], hpos⟩

theorem rounds_finite {units : Nat} {onGrid : OnGrid units} (h : Decimal.RoundsTo units q) :
    Rounds negative q (finite negative units onGrid) := by
  have hlt : q < overflowBound := h.lt_unitsLimit_iff.1 onGrid.1
  refine ⟨fun _ => ⟨isNearest_of_roundsTo negative h, rfl⟩, fun hle => absurd hlt hle.not_gt, ?_⟩
  rw [isFinitePositive_finite_iff]
  cases negative with
  | false =>
    show _ ↔ underflowBound < q ∧ q < overflowBound
    rw [and_iff_left hlt, ← h.pos_iff, and_iff_right rfl]
  | true =>
    have hbelow : ¬ underflowBound < -q :=
      not_lt.2 ((neg_nonpos.2 h.nonneg).trans underflowBound_pos.le)
    exact iff_of_false nofun fun hbounds => hbelow hbounds.1

theorem rounds_infinite (hnonneg : 0 ≤ q) (hle : overflowBound ≤ q) :
    Rounds negative q (infinite negative) := by
  refine ⟨fun hlt => absurd hlt hle.not_gt, fun _ => rfl, iff_of_false ?_ ?_⟩
  · intro h
    obtain ⟨_, _, heq, _⟩ := h
    cases heq
  · intro hbounds
    cases negative with
    | false => exact absurd hbounds.2 hle.not_gt
    | true =>
      have hneg : withSign true q ≤ 0 := neg_nonpos.2 hnonneg
      exact absurd (underflowBound_pos.trans hbounds.1) hneg.not_gt

theorem rounds_round {num den : Nat} (hd : 0 < den) (hq : q * unitsPerOne = num / den) :
    Rounds negative q (round negative num den) := by
  have hround := Decimal.roundsTo_of_eq_div hd hq rfl
  rcases lt_or_ge q overflowBound with hlt | hle
  · have hgrid : OnGrid (roundUnits num den) :=
      ⟨hround.lt_unitsLimit_iff.2 hlt, gridStep_roundUnits_dvd num den⟩
    rw [round_eq_finite negative hgrid rfl]
    exact rounds_finite hround
  · have hlimit : unitsLimit ≤ roundUnits num den :=
      not_lt.1 (hround.lt_unitsLimit_iff.not.2 hle.not_gt)
    rw [round_eq_infinite negative hlimit]
    exact rounds_infinite hround.nonneg hle

theorem Rounds.isFinite_iff (h : Rounds negative q x) : x.IsFinite ↔ q < overflowBound := by
  constructor
  · intro hx
    by_contra hle
    obtain ⟨_, _, _, heq⟩ := hx
    rw [h.infinite (not_lt.1 hle)] at heq
    cases heq
  · intro hlt
    exact (h.nearest hlt).1.finite

/-- Below the overflow bound the nearest number of the same sign is the rounding. -/
theorem Rounds.isNearest_iff (h : Rounds negative q x) (hlt : q < overflowBound) :
    IsNearest (withSign negative q) y ∧ y.hasMinus = negative ↔ y = x := by
  obtain ⟨hnear, hminus⟩ := h.nearest hlt
  constructor
  · intro hy
    exact hy.1.unique hnear (hy.2.trans hminus.symm)
  · intro hyx
    rw [hyx]
    exact ⟨hnear, hminus⟩

theorem rounds_ofInt (n : ℤ) : Rounds (decide (n < 0)) |(n : ℚ)| (ofInt n) := by
  have hq : |(n : ℚ)| * unitsPerOne = (n.natAbs * unitsPerOne : ℕ) / (1 : ℕ) := by
    rw [Nat.cast_one, div_one, Nat.cast_mul, Nat.cast_natAbs, Int.cast_abs]
  rw [ofInt, ofRatio]
  exact rounds_round Nat.one_pos hq

theorem abs_intCast_lt_overflowBound_iff {n : ℤ} :
    |(n : ℚ)| < overflowBound ↔ n.natAbs < 2 ^ 1024 - 2 ^ 970 := by
  have hpow : 2 ^ 970 ≤ 2 ^ 1024 := by decide +kernel
  have hbound : overflowBound = ((2 ^ 1024 - 2 ^ 970 : ℕ) : ℚ) := by
    rw [overflowBound, Nat.cast_sub hpow, Nat.cast_pow, Nat.cast_pow, Nat.cast_ofNat]
  rw [hbound, ← Int.cast_abs, ← Nat.cast_natAbs, Nat.cast_lt]

end Binary64

namespace Decimal

/-- A decimal is read as the rounding of its value, however it is written. -/
theorem rounds_nearest (negative : Bool) (c : Nat) (e : Int) :
    Binary64.Rounds negative (c * 10 ^ e) (nearest negative c e) := by
  have hnonneg : (0 : ℚ) ≤ c * 10 ^ e * unitsPerOne := by positivity
  obtain ⟨num, den, hd, hq⟩ := exists_eq_div hnonneg
  rw [nearest_eq_round negative hd hq]
  exact Binary64.rounds_round hd hq

end Decimal

end WavePlot
