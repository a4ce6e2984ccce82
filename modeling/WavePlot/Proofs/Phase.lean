import WavePlot.Phase
import WavePlot.Proofs.Binary64.Rounding

/-!
# Reduced phases

A reduced phase is NaN or a number without a sign below the full turn, and reducing it again
changes nothing.
-/

namespace WavePlot.Phase

theorem fullTurn_le_unitsLimit : fullTurn ≤ unitsLimit := by decide +kernel

theorem fullTurn_pos : 0 < fullTurn := by decide +kernel

/-- A number without a sign that is below the full turn. -/
def InTurn (x : Binary64) : Prop :=
  ∃ units onGrid, x = .finite false units onGrid ∧ units < fullTurn

theorem not_inTurn_nan : ¬ InTurn .nan := by
  rintro ⟨_, _, h, _⟩
  cases h

theorem inTurn_reduce_finite (negative : Bool) {units : Nat} (onGrid : OnGrid units) :
    InTurn (reduce (.finite negative units onGrid)) := by
  unfold reduce
  dsimp only
  split_ifs with hlt
  · have hgrid : OnGrid (roundUnits (remainder negative units) 1) :=
      ⟨hlt.trans_le fullTurn_le_unitsLimit, gridStep_roundUnits_dvd _ 1⟩
    exact ⟨_, hgrid, Binary64.round_eq_finite false hgrid rfl, hlt⟩
  · have hgrid : OnGrid 0 := by decide +kernel
    exact ⟨0, hgrid, Binary64.round_eq_finite false hgrid (roundUnits_eq_zero (by decide)),
      fullTurn_pos⟩

/-- A reduction is NaN or lies in the full turn. -/
theorem reduce_range (x : Binary64) : reduce x = .nan ∨ InTurn (reduce x) := by
  cases x with
  | nan | infinite negative => exact Or.inl rfl
  | finite negative units onGrid => exact Or.inr (inTurn_reduce_finite negative onGrid)

theorem reduce_of_lt {units : Nat} (onGrid : OnGrid units) (h : units < fullTurn) :
    reduce (.finite false units onGrid) = .finite false units onGrid := by
  have hround : roundUnits units 1 = units := roundUnits_of_dvd onGrid.2
  have hrest : remainder false units = units := Nat.mod_eq_of_lt h
  unfold reduce
  dsimp only
  rw [hrest, if_pos (by rwa [hround]), Binary64.round_eq_finite false onGrid hround]

theorem reduce_reduce (x : Binary64) : reduce (reduce x) = reduce x := by
  rcases reduce_range x with hnan | ⟨units, onGrid, hfinite, hlt⟩
  · rw [hnan]
    rfl
  · rw [hfinite, reduce_of_lt onGrid hlt]

end WavePlot.Phase
