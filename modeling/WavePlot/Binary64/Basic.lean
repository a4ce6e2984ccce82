/-!
# Binary64 numbers as exact counts of the least positive one

Every finite binary64 number is a whole multiple of the least positive one, `2 ^ -1074`,
which is called a unit here. A finite number is its sign and its magnitude in units, so
zero keeps its sign and comparisons are comparisons of naturals. The magnitude has to lie
on the binary64 grid: 53 significant bits, below `2 ^ 1024`.

Rounding is exact arithmetic on naturals: a quotient goes to the nearest multiple of the
grid step at its magnitude, a tie to the even multiple. `gridStep_roundUnits_dvd` says that
what comes out lies on the grid. Nothing here is computed in machine floating point.
-/

namespace WavePlot

/-- The distance between neighbours on the grid at a magnitude of `n` units. -/
def gridStep (n : Nat) : Nat := Nat.pow 2 (n.log2 - 52)

/-- The least magnitude, in units, that is too large for a finite number: `2 ^ 1024`. -/
def unitsLimit : Nat := Nat.pow 2 2098

/-- The number one, in units. -/
def unitsPerOne : Nat := Nat.pow 2 1074

/-- A magnitude that a finite binary64 number can have. -/
def OnGrid (n : Nat) : Prop := n < unitsLimit ∧ gridStep n ∣ n

instance (n : Nat) : Decidable (OnGrid n) := inferInstanceAs (Decidable (_ ∧ _))

/-- The natural nearest to `num / den`; of two equally near ones the even one. -/
def nearestEven (num den : Nat) : Nat :=
  let quotient := num / den
  let remainder := num % den
  if 2 * remainder < den then quotient
  else if den < 2 * remainder then quotient + 1
  else quotient + quotient % 2

/-- A quotient of units rounded to the grid, with no upper limit. -/
def roundUnits (num den : Nat) : Nat :=
  let step := gridStep (num / den)
  step * nearestEven num (den * step)

theorem nearestEven_le (num den : Nat) : nearestEven num den ≤ num / den + 1 := by
  unfold nearestEven
  simp only
  split
  · omega
  · split <;> omega

/-- Multiples of a power of two by at most `2 ^ 53` lie on the grid. -/
theorem gridStep_mul_dvd {e m : Nat} (hm : m ≤ Nat.pow 2 53) :
    gridStep (Nat.pow 2 e * m) ∣ Nat.pow 2 e * m := by
  have he : 0 < Nat.pow 2 e := Nat.two_pow_pos e
  by_cases hm0 : m = 0
  · simp [hm0]
  by_cases heq : m = Nat.pow 2 53
  · subst heq
    have hpow : Nat.pow 2 e * Nat.pow 2 53 = Nat.pow 2 (e + 53) := (Nat.pow_add 2 e 53).symm
    have hlog : (Nat.pow 2 (e + 53)).log2 = e + 53 := Nat.log2_two_pow
    rw [hpow]
    exact Nat.pow_dvd_pow 2 (by rw [hlog]; omega)
  · have hlt : m < Nat.pow 2 53 := Nat.lt_of_le_of_ne hm heq
    have hne : Nat.pow 2 e * m ≠ 0 := Nat.mul_ne_zero (Nat.ne_of_gt he) hm0
    have hlog : (Nat.pow 2 e * m).log2 < e + 53 := by
      refine (Nat.log2_lt hne).2 (Nat.lt_of_lt_of_eq ?_ (Nat.pow_add 2 e 53).symm)
      exact Nat.mul_lt_mul_of_pos_left hlt he
    exact Nat.dvd_trans (Nat.pow_dvd_pow 2 (by omega)) (Nat.dvd_mul_right _ m)

/-- A magnitude is less than `2 ^ 53` steps of its own grid. -/
theorem div_gridStep_lt (n : Nat) : n / gridStep n < Nat.pow 2 53 := by
  refine (Nat.div_lt_iff_lt_mul (Nat.two_pow_pos _)).2 ?_
  refine Nat.lt_of_lt_of_le Nat.lt_log2_self ?_
  refine Nat.le_trans (Nat.pow_le_pow_right (by decide) ?_) (Nat.le_of_eq (Nat.pow_add 2 53 _))
  omega

theorem gridStep_roundUnits_dvd (num den : Nat) :
    gridStep (roundUnits num den) ∣ roundUnits num den := by
  unfold roundUnits
  refine gridStep_mul_dvd (Nat.le_trans (nearestEven_le _ _) ?_)
  rw [← Nat.div_div_eq_div_mul]
  exact div_gridStep_lt _

inductive Binary64 where
  | nan
  | infinite (negative : Bool)
  | finite (negative : Bool) (units : Nat) (onGrid : OnGrid units)
  deriving DecidableEq

namespace Binary64

/-- The number nearest to a quotient of units; infinite from half a step below the limit on. -/
def round (negative : Bool) (num den : Nat) : Binary64 :=
  if h : roundUnits num den < unitsLimit then
    .finite negative (roundUnits num den) ⟨h, gridStep_roundUnits_dvd num den⟩
  else
    .infinite negative

def ofRatio (negative : Bool) (num den : Nat) : Binary64 :=
  round negative (num * unitsPerOne) den

def ofInt (n : Int) : Binary64 :=
  ofRatio (decide (n < 0)) n.natAbs 1

/-- Zero without a sign. -/
def zero : Binary64 := round false 0 1

def isNaN : Binary64 → Bool
  | .nan => true
  | _ => false

def isInfinite : Binary64 → Bool
  | .infinite _ => true
  | _ => false

/-- Whether the number is greater than zero; the positive infinity is. -/
def isPositive : Binary64 → Bool
  | .nan => false
  | .infinite negative => !negative
  | .finite negative units _ => !negative && decide (0 < units)

end Binary64

end WavePlot
