import WavePlot.Proofs.Settings.History
import WavePlot.Proofs.Settings.Invariant

/-!
# The shift and the turn

The shift is the number last taken for it, reduced. A finite number has a place in the turn. Unlike
the other numbers, the shift is not refused when it is infinite or NaN, and then it is NaN.
-/

namespace WavePlot

namespace Phase

variable {x : Binary64}

theorem inTurn_reduce (h : x.IsFinite) : InTurn (reduce x) := by
  obtain ⟨negative, units, onGrid, rfl⟩ := h
  exact inTurn_reduce_finite negative onGrid

theorem reduce_of_not_isFinite (h : ¬ x.IsFinite) : reduce x = .nan := by
  cases x with
  | nan | infinite negative => rfl
  | finite negative units onGrid => exact absurd ⟨negative, units, onGrid, rfl⟩ h

/-- A reduction is in the turn, or the number was not finite. -/
theorem inTurn_reduce_iff : InTurn (reduce x) ↔ x.IsFinite := by
  constructor
  · intro h
    by_contra hx
    rw [reduce_of_not_isFinite hx] at h
    exact not_inTurn_nan h
  · exact inTurn_reduce

theorem reduce_eq_nan_iff : reduce x = .nan ↔ ¬ x.IsFinite := by
  constructor
  · intro hnan hx
    have h := inTurn_reduce hx
    rw [hnan] at h
    exact not_inTurn_nan h
  · exact reduce_of_not_isFinite

end Phase

/-! ## Numbers taken for the shift -/

/-- The number that a value is taken for as a shift, before it is reduced. -/
def Value.angle? (v : Value) : Option Binary64 := (v.number (Parameter.name .shift)).toOption

/-- The number that a step takes for the shift. -/
def Step.angle? (step : Step) : Option Binary64 :=
  step.assignment?.bind fun a => if a.parameter = .shift then a.value.angle? else none

theorem Parameter.toOption_accept_shift (v : Value) :
    (Parameter.accept .shift v).toOption = v.angle?.map Phase.reduce := by
  show ((v.number (name .shift)).map Phase.reduce).toOption = _
  unfold Value.angle?
  cases v.number (name .shift) <;> rfl

theorem Parameter.bind_accept_shift (offered : Option Value) :
    (offered.bind fun v => (Parameter.accept .shift v).toOption) =
      (offered.bind Value.angle?).map Phase.reduce := by
  cases offered with
  | none => rfl
  | some v => exact toOption_accept_shift v

theorem Step.stored?_shift (step : Step) :
    step.stored? .shift = step.angle?.map Phase.reduce := by
  unfold stored? angle?
  cases step.assignment? with
  | none => rfl
  | some a =>
    show a.stored? .shift = Option.map Phase.reduce (if a.parameter = .shift then _ else none)
    unfold Assignment.stored?
    split_ifs
    · exact Parameter.toOption_accept_shift a.value
    · rfl

theorem Step.filterMap_stored?_shift (steps : List Step) :
    steps.filterMap (stored? .shift) = (steps.filterMap angle?).map Phase.reduce := by
  rw [List.map_filterMap]
  exact congrArg (fun f => steps.filterMap f) (funext stored?_shift)

/-- What a shift is that comes from an angle: the angle reduced, which lies in the turn, or NaN if
the angle has no place there. -/
structure ShiftOf (angle shift : Binary64) : Prop where
  reduced : shift = Phase.reduce angle
  inTurn : Phase.InTurn shift ↔ angle.IsFinite
  nan : shift = .nan ↔ ¬ angle.IsFinite

theorem shiftOf_reduce (angle : Binary64) : ShiftOf angle (Phase.reduce angle) :=
  ⟨rfl, Phase.inTurn_reduce_iff, Phase.reduce_eq_nan_iff⟩

namespace Settings

/-- The angle last taken by keywords and then a session; the shift is zero before any is. -/
def lastAngle (keywords : List (Wide × Value)) (steps : List Step) : Binary64 :=
  (((keywords.lookup ↑(Parameter.key .shift)).bind Value.angle?).toList ++
    steps.filterMap Step.angle?).getLastD .zero

theorem shift_after {keywords : List (Wide × Value)} {s : Settings}
    (h : ofKeywords keywords = .ok s) (steps : List Step) :
    (s.after steps).shift = Phase.reduce (lastAngle keywords steps) := by
  have hzero : Phase.reduce .zero = .zero := by decide +kernel
  have hdefault : default.get .shift = .zero := by simp only [get, default]
  have hget := get_after_of_ofKeywords h steps .shift
  rw [hdefault, Parameter.bind_accept_shift, Step.filterMap_stored?_shift, Option.toList_map,
    ← List.map_append, ← hzero] at hget
  exact hget.trans List.getLastD_map

/-- After keywords and a session, and after the words of a command line, the shift comes from the
angle that was last taken. -/
theorem shift_of_last_angle {keywords : List (Wide × Value)} {s : Settings}
    (h : ofKeywords keywords = .ok s) :
    (∀ steps, ShiftOf (lastAngle keywords steps) (s.after steps).shift) ∧
      ∀ words t, ofWords words = .ok t → ShiftOf (lastAngle [] (words.map .apply)) t.shift := by
  constructor
  · intro steps
    rw [shift_after h]
    exact shiftOf_reduce _
  · intro words t ht
    rw [← after_of_ofWords ht, shift_after (rfl : ofKeywords [] = .ok default)]
    exact shiftOf_reduce _

/-- Seven wraps around, an infinity is taken after it, and a word that is refused changes nothing. -/
theorem shift_of_infinite_angle :
    ofKeywords [] = .ok default ∧
      Phase.InTurn (default.after [.set .shift (.integer 7)]).shift ∧
      (default.after [.set .shift (.integer 7), .apply "--shift=inf",
        .apply "--shift=one"]).shift = .nan := by
  have hshift := (shift_of_last_angle (rfl : ofKeywords [] = .ok default)).1
  have hseven : (lastAngle [] [.set .shift (.integer 7)]).IsFinite :=
    (Binary64.isFinite_iff _).2 (by decide +kernel)
  have hinfinite : lastAngle [] [.set .shift (.integer 7), .apply "--shift=inf",
      .apply "--shift=one"] = .infinite false := by decide +kernel
  refine ⟨rfl, (hshift _).inTurn.2 hseven, (hshift _).nan.2 ?_⟩
  rw [hinfinite]
  rintro ⟨_, _, _, hfinite⟩
  cases hfinite

/-- Not every shift lies in the turn: an infinity is taken as well. -/
theorem not_forall_inTurn : ¬ ∀ s, Reachable s → Phase.InTurn s.shift := by
  intro h
  have hreach := (@Reachable.start [] default rfl).perform (.apply "--shift=inf")
  have hnan : (default.perform (.apply "--shift=inf")).2.shift = .nan := by decide +kernel
  have hturn := h _ hreach
  rw [hnan] at hturn
  exact Phase.not_inTurn_nan hturn

end Settings

end WavePlot
