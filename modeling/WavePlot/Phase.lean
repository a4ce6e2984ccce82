import WavePlot.Binary64.Basic

/-!
# Phases

A phase is an angle reduced into one full turn, the binary64 number nearest to `2 * pi`. The
reduction takes the exact remainder and rounds once; a negative angle so small that its
remainder rounds up to the full turn becomes zero. Infinities and NaN have no remainder.
-/

namespace WavePlot.Phase

/-- A full turn in units: the binary64 number nearest to `2 * pi`. -/
def fullTurn : Nat := 7074237752028440 * Nat.pow 2 1024

/-- The exact remainder of an angle, in units: what is left above the next lower multiple of
the full turn. -/
def remainder (negative : Bool) (units : Nat) : Nat :=
  if negative then (fullTurn - units % fullTurn) % fullTurn else units % fullTurn

/-- An angle reduced into one full turn. -/
def reduce : Binary64 → Binary64
  | .finite negative units _ =>
    let rest := remainder negative units
    if roundUnits rest 1 < fullTurn then .round false rest 1 else .zero
  | _ => .nan

end WavePlot.Phase
