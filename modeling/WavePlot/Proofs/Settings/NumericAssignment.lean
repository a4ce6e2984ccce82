import WavePlot.Proofs.Parameter.Numbers
import WavePlot.Proofs.Settings.Outcome

/-!
# Assigning to the parameters for numbers

For every value the outcome of assigning it to a parameter for numbers, and to the line width. The
limits of conversions come first: an integer past the digit limit anywhere in the value, and for
the numbers an integer past the range. What is neither stored nor past a limit is refused as an
invalid value, and no other refusal occurs.
-/

namespace WavePlot.Settings

open Binary64 (overflowBound)

variable {s : Settings} {p : Parameter} {v w : Value} {x : Binary64} {e : SettingError}

/-- What assigning the value to a parameter for numbers comes to. -/
structure NumberOutcome (s : Settings) (p : Parameter) (v : Value) : Prop where
  long : s.Refuses (.set p v) .pastDigitLimit ↔ v.HoldsLong
  other : ¬ v.HoldsLong → ¬ v.IsNumeric → ∃ e, s.Refuses (.set p v) e ∧ e.IsInvalidValue
  large : s.Refuses (.set p v) .tooLarge ↔
    ¬ v.HoldsLong ∧ ∃ n : ℤ, v = .integer n ∧ overflowBound ≤ |(n : ℚ)|
  stored : ∀ w, s.Stores (.set p v) p w ↔
    ¬ v.HoldsLong ∧ ∃ x y, v.IsNumber x ∧ p.Keeps x y ∧ w = .real y
  /-- Nothing else happens. -/
  total : (∃ w, s.Stores (.set p v) p w) ∨ s.Refuses (.set p v) .pastDigitLimit ∨
    s.Refuses (.set p v) .tooLarge ∨ ∃ e, s.Refuses (.set p v) e ∧ e.IsInvalidValue

/-- What assigning the value to the line width comes to. -/
structure WidthOutcome (s : Settings) (v : Value) : Prop where
  long : s.Refuses (.set .lineWidth v) .pastDigitLimit ↔ v.HoldsLong
  stored : ∀ w, s.Stores (.set .lineWidth v) .lineWidth w ↔
    ∃ n : ℤ, v = .integer n ∧ 1 ≤ n ∧ n < 10 ^ Decimal.digitLimit ∧ w = v
  /-- Nothing else happens. -/
  total : (∃ w, s.Stores (.set .lineWidth v) .lineWidth w) ∨
    s.Refuses (.set .lineWidth v) .pastDigitLimit ∨
    ∃ e, s.Refuses (.set .lineWidth v) e ∧ e.IsInvalidValue

/-! ## Numbers -/

/-- A refusal that does not find the value invalid comes from taking it as a number. -/
theorem refuses_set_iff_number (hp : p.kind = .real) (hlimit : ¬ e.IsInvalidValue) :
    s.Refuses (.set p v) e ↔ v.TakenAs p.name (.error e) := by
  rw [refuses_set_iff, Parameter.accept_eq_error_iff hp, ← Value.number_eq_iff]
  constructor
  · intro h
    rcases h with h | ⟨x, _, haccept⟩
    · exact h
    · exact absurd (Parameter.isInvalidValue_of_accept_real hp haccept) hlimit
  · intro h
    exact Or.inl h

theorem stores_set_iff_number (hp : p.kind = .real) : s.Stores (.set p v) p w ↔
    ¬ v.HoldsLong ∧ ∃ x y, v.IsNumber x ∧ p.Keeps x y ∧ w = .real y := by
  rw [stores_set_iff, Parameter.accept_eq_ok_iff hp]
  constructor
  · intro h
    obtain ⟨x, hnumber, y, hkeeps, hw⟩ := h
    cases Value.number_eq_iff.1 hnumber with
    | number hshort hx => exact ⟨hshort, x, y, hx, hkeeps, hw⟩
  · intro h
    obtain ⟨hshort, x, y, hx, hkeeps, hw⟩ := h
    exact ⟨x, Value.number_eq_iff.2 (.number hshort hx), y, hkeeps, hw⟩

/-- Offering a number or an integer in range is offering that number. -/
theorem perform_set_isNumber (hp : p.kind = .real) (hshort : ¬ v.HoldsLong) (hx : v.IsNumber x) :
    s.perform (.set p v) = s.perform (.set p (.real x)) := by
  have haccept : p.accept v = p.accept (.real x) := by
    rw [Parameter.accept_eq_bind hp, Value.number_of_takenAs (.number hshort hx)]
    rfl
  show s.change (s.assign p v) = s.change (s.assign p (.real x))
  rw [assign, haccept, assign]

theorem stores_or_refuses (s : Settings) (p : Parameter) (v : Value) :
    (∃ w, s.Stores (.set p v) p w) ∨ ∃ e, s.Refuses (.set p v) e ∧ p.accept v = .error e := by
  cases haccept : p.accept v with
  | error e => exact Or.inr ⟨e, refuses_set_iff.2 haccept, rfl⟩
  | ok x => exact Or.inl ⟨_, stores_set_iff.2 ⟨x, haccept, rfl⟩⟩

theorem numberOutcome (s : Settings) (hp : p.kind = .real) (v : Value) : s.NumberOutcome p v where
  long := by
    rw [refuses_set_iff_number hp SettingError.not_isInvalidValue_pastDigitLimit]
    constructor
    · intro h
      cases h with
      | long hlong => exact hlong
    · intro h
      exact .long h
  other := by
    intro hshort hother
    refine ⟨.notNumber p.name v, ?_, rfl, nofun⟩
    rw [refuses_set_iff, Parameter.accept_eq_error_iff hp]
    exact Or.inl (Value.number_of_takenAs (.other hshort hother))
  large := by
    rw [refuses_set_iff_number hp SettingError.not_isInvalidValue_tooLarge]
    constructor
    · intro h
      cases h with
      | large hshort heq hlarge => exact ⟨hshort, _, heq, hlarge⟩
    · intro h
      obtain ⟨hshort, n, heq, hlarge⟩ := h
      exact .large hshort heq hlarge
  stored := fun _ => stores_set_iff_number hp
  total := by
    rcases stores_or_refuses s p v with hstores | ⟨e, hrefuses, haccept⟩
    · exact Or.inl hstores
    rcases (Parameter.accept_eq_error_iff hp).1 haccept with hnumber | ⟨x, _, hreal⟩
    · cases Value.number_eq_iff.1 hnumber with
      | long hlong => exact Or.inr (Or.inl hrefuses)
      | large hshort heq hlarge => exact Or.inr (Or.inr (Or.inl hrefuses))
      | other hshort hother => exact Or.inr (Or.inr (Or.inr ⟨_, hrefuses, rfl, nofun⟩))
    · have hinvalid := Parameter.isInvalidValue_of_accept_real hp hreal
      exact Or.inr (Or.inr (Or.inr ⟨e, hrefuses, hinvalid⟩))

/-! ## The line width -/

theorem widthOutcome (s : Settings) (v : Value) : s.WidthOutcome v where
  long := by
    rw [refuses_set_iff]
    constructor
    · intro h
      by_contra hshort
      exact SettingError.not_isInvalidValue_pastDigitLimit (Value.isInvalidValue_of_thickness hshort h)
    · intro h
      exact Value.thickness_of_holdsLong h
  stored := by
    intro w
    rw [stores_set_iff]
    constructor
    · intro h
      obtain ⟨n, haccept, hw⟩ := h
      obtain ⟨hv, hone, hlt⟩ := Value.thickness_eq_ok_iff.1 haccept
      exact ⟨n, hv, hone, hlt, hw.symm.trans hv.symm⟩
    · intro h
      obtain ⟨n, hv, hone, hlt, hw⟩ := h
      exact ⟨n, Value.thickness_eq_ok_iff.2 ⟨hv, hone, hlt⟩, (hw.trans hv).symm⟩
  total := by
    rcases stores_or_refuses s .lineWidth v with hstores | ⟨e, hrefuses, haccept⟩
    · exact Or.inl hstores
    by_cases hlong : v.HoldsLong
    · exact Or.inr (Or.inl (refuses_set_iff.2 (Value.thickness_of_holdsLong hlong)))
    · exact Or.inr (Or.inr ⟨e, hrefuses, Value.isInvalidValue_of_thickness hlong haccept⟩)

/-! ## Both -/

/-- The outcome of every assignment to a parameter for numbers and to the line width. -/
theorem numeric_assignment_outcome (s : Settings) (v : Value) :
    (∀ p : Parameter, p.kind = .real → s.NumberOutcome p v) ∧ s.WidthOutcome v :=
  ⟨fun _ hp => numberOutcome s hp v, widthOutcome s v⟩

/-- A long integer inside two lists, the least integer out of range, and a line width. -/
theorem numeric_assignment_of_limits :
    default.Refuses (.set .period (.list [.list [.integer (10 ^ 4300)]])) .pastDigitLimit ∧
    default.Refuses (.set .shift (.integer (2 ^ 1024 - 2 ^ 970))) .tooLarge ∧
    default.Stores (.set .lineWidth (.integer 3)) .lineWidth (.integer 3) := by
  refine ⟨?_, ?_, ?_⟩
  · have hlong : (Value.integer (10 ^ 4300)).HoldsLong :=
      .integer (Decimal.hasNumeral_eq_false_iff.1 (by decide +kernel))
    refine ((numeric_assignment_outcome default _).1 .period rfl).long.2 ?_
    exact .list List.mem_cons_self (.list List.mem_cons_self hlong)
  · have hshort : ¬ (Value.integer (2 ^ 1024 - 2 ^ 970)).HoldsLong :=
      Value.hasNumerals_iff.1 (by decide +kernel)
    refine ((numeric_assignment_outcome default _).1 .shift rfl).large.2 ⟨hshort, _, rfl, ?_⟩
    exact not_lt.1 (Binary64.abs_intCast_lt_overflowBound_iff.not.2 (by decide +kernel))
  · refine ((numeric_assignment_outcome default (.integer 3)).2.stored _).2 ?_
    exact ⟨3, rfl, by decide, by decide +kernel, rfl⟩

end WavePlot.Settings
