import WavePlot.Proofs.Binary64.CorrectRounding
import WavePlot.Proofs.Parameter.Acceptance

/-!
# Values taken as numbers

A parameter for numbers first takes the value it is offered as a number and then looks at that
number only. The first step fails for an integer past the digit limit anywhere in the value, for a
value that is no number, and for an integer past the range, in this order; an integer that does not
fail becomes the nearest number. The second step is the parameter's own rule and can only find the
number invalid.
-/

namespace WavePlot

open Binary64 (IsNearest overflowBound)

namespace SettingError

/-- The refusal is for a value that the parameter does not take, not for a name and not for a limit
of conversions. -/
def IsInvalidValue (e : SettingError) : Prop :=
  e.isParameterMistake = true ∧ ∀ word, e ≠ .unknownName word

theorem not_isInvalidValue_pastDigitLimit : ¬ IsInvalidValue .pastDigitLimit := nofun

theorem not_isInvalidValue_tooLarge : ¬ IsInvalidValue .tooLarge := nofun

end SettingError

/-! ## Long integers -/

theorem Decimal.hasNumeral_eq_false_iff {n : Int} :
    hasNumeral n = false ↔ digitLimit < digitCount n.natAbs := by
  have hpos : 0 < digitLimit := by decide
  unfold hasNumeral digitCount
  generalize digitLimit = limit at hpos ⊢
  have hlength := Nat.length_toDigits_le_iff (n := n.natAbs) (by decide : 1 < 10) hpos
  exact decide_eq_false_iff_not.trans ((not_congr hlength.symm).trans Nat.not_le)

namespace Value

/-- An integer with more digits than the limit allows is the value or is in it at some depth. -/
inductive HoldsLong : Value → Prop where
  | integer {n : Int} (h : Decimal.digitLimit < Decimal.digitCount n.natAbs) :
      HoldsLong (.integer n)
  | list {items : List Value} {v : Value} (hmem : v ∈ items) (h : HoldsLong v) :
      HoldsLong (.list items)

mutual

theorem hasNumerals_eq_false_iff : (v : Value) → (v.hasNumerals = false ↔ v.HoldsLong)
  | .integer n => by
    rw [hasNumerals, Decimal.hasNumeral_eq_false_iff]
    constructor
    · intro h
      exact .integer h
    · intro h
      cases h with
      | integer h => exact h
  | .list items => by
    rw [hasNumerals, allHaveNumerals_eq_false_iff items]
    constructor
    · intro h
      obtain ⟨v, hmem, hlong⟩ := h
      exact .list hmem hlong
    · intro h
      cases h with
      | list hmem hlong => exact ⟨_, hmem, hlong⟩
  | .real _ | .text _ | .flag _ | .absent => iff_of_false nofun nofun

theorem allHaveNumerals_eq_false_iff :
    (items : List Value) → (allHaveNumerals items = false ↔ ∃ v ∈ items, v.HoldsLong)
  | [] => iff_of_false nofun nofun
  | v :: rest => by
    rw [allHaveNumerals, Bool.and_eq_false_iff, hasNumerals_eq_false_iff v,
      allHaveNumerals_eq_false_iff rest, List.exists_mem_cons_iff]

end

theorem hasNumerals_iff {v : Value} : v.hasNumerals = true ↔ ¬ v.HoldsLong := by
  rw [← hasNumerals_eq_false_iff, Bool.not_eq_false]

/-- An integer in the range of numbers is never long. -/
theorem not_holdsLong_of_lt {n : Int} (hlt : |(n : ℚ)| < overflowBound) :
    ¬ (Value.integer n).HoldsLong := by
  have hmagnitude : n.natAbs < 10 ^ Decimal.digitLimit :=
    (Binary64.abs_intCast_lt_overflowBound_iff.1 hlt).trans_le (by decide +kernel)
  intro h
  cases h with
  | integer hdigits =>
    have hle := (Nat.length_toDigits_le_iff (by decide : 1 < 10) (by decide)).2 hmagnitude
    exact absurd hdigits (Nat.not_lt.2 hle)

/-! ## The number that a value is -/

/-- A number is itself. An integer below the overflow bound is the nearest number, of two equally
near ones that with the even significand. -/
inductive IsNumber : Value → Binary64 → Prop where
  | real (x : Binary64) : IsNumber (.real x) x
  | integer {n : Int} {x : Binary64} (hlt : |(n : ℚ)| < overflowBound) (hnear : IsNearest n x)
      (hminus : x.hasMinus = decide (n < 0)) : IsNumber (.integer n) x

/-- Whether the value is of a kind of numbers. -/
def IsNumeric : Value → Prop
  | .real _ | .integer _ => True
  | _ => False

/-- What comes of taking a value as a number. -/
inductive TakenAs (name : String) (v : Value) : Except SettingError Binary64 → Prop where
  | long (hlong : v.HoldsLong) : TakenAs name v (.error .pastDigitLimit)
  | other (hshort : ¬ v.HoldsLong) (hother : ¬ v.IsNumeric) :
      TakenAs name v (.error (.notNumber name v))
  | large {n : Int} (hshort : ¬ v.HoldsLong) (heq : v = .integer n)
      (hlarge : overflowBound ≤ |(n : ℚ)|) : TakenAs name v (.error .tooLarge)
  | number {x : Binary64} (hshort : ¬ v.HoldsLong) (hnumber : v.IsNumber x) :
      TakenAs name v (.ok x)

variable {name : String} {v : Value} {x : Binary64}

theorem isNumber_integer_iff {n : Int} (hlt : |(n : ℚ)| < overflowBound) :
    (Value.integer n).IsNumber x ↔ x = .ofInt n := by
  have hcast : (n : ℚ) = withSign (decide (n < 0)) |(n : ℚ)| := by
    rw [← Int.cast_abs, ← Nat.cast_natAbs]
    exact intCast_eq_withSign n
  have hrounds := (Binary64.rounds_ofInt n).isNearest_iff (y := x) hlt
  rw [← hcast] at hrounds
  rw [← hrounds]
  constructor
  · intro h
    cases h with
    | integer _ hnear hminus => exact ⟨hnear, hminus⟩
  · intro h
    exact .integer hlt h.1 h.2

theorem toReal_integer_of_lt {n : Int} (hlt : |(n : ℚ)| < overflowBound) :
    (Value.integer n).toReal = .ok (.ofInt n) := by
  obtain ⟨negative, units, onGrid, hfinite⟩ := (Binary64.rounds_ofInt n).isFinite_iff.2 hlt
  rw [toReal, hfinite]
  rfl

theorem toReal_integer_of_le {n : Int} (hle : overflowBound ≤ |(n : ℚ)|) :
    (Value.integer n).toReal = .error .tooLarge := by
  rw [toReal, (Binary64.rounds_ofInt n).infinite hle, inRange]

theorem exists_takenAs (name : String) (v : Value) : ∃ r, TakenAs name v r := by
  by_cases hlong : v.HoldsLong
  · exact ⟨_, .long hlong⟩
  · cases v with
    | real x => exact ⟨_, .number hlong (.real x)⟩
    | integer n =>
      rcases lt_or_ge |(n : ℚ)| overflowBound with hlt | hle
      · exact ⟨_, .number hlong ((isNumber_integer_iff hlt).2 rfl)⟩
      · exact ⟨_, .large hlong rfl hle⟩
    | text _ | flag _ | absent | list _ => exact ⟨_, .other hlong id⟩

theorem number_of_takenAs {r : Except SettingError Binary64} (h : TakenAs name v r) :
    v.number name = r := by
  cases h with
  | long hlong =>
    have hnumerals := (hasNumerals_eq_false_iff v).2 hlong
    unfold number
    rw [if_neg (Bool.eq_false_iff.1 hnumerals)]
  | other hshort hother =>
    have hnumerals := hasNumerals_iff.2 hshort
    cases v with
    | real _ | integer _ => exact absurd trivial hother
    | text _ | flag _ | absent | list _ => simp only [number, hnumerals, ↓reduceIte]
  | large hshort heq hlarge =>
    have hnumerals := hasNumerals_iff.2 hshort
    rw [heq] at hnumerals ⊢
    simp only [number, hnumerals, ↓reduceIte, toReal_integer_of_le hlarge]
  | number hshort hnumber =>
    have hnumerals := hasNumerals_iff.2 hshort
    cases hnumber with
    | real x => rfl
    | integer hlt hnear hminus =>
      rw [(isNumber_integer_iff hlt).1 (.integer hlt hnear hminus)]
      simp only [number, hnumerals, ↓reduceIte, toReal_integer_of_lt hlt]

theorem number_eq_iff {r : Except SettingError Binary64} :
    v.number name = r ↔ TakenAs name v r := by
  constructor
  · intro h
    obtain ⟨taken, htaken⟩ := exists_takenAs name v
    rw [← h, number_of_takenAs htaken]
    exact htaken
  · intro h
    exact number_of_takenAs h

/-! ## The integer that a value is -/

theorem thickness_of_holdsLong (h : v.HoldsLong) : v.thickness = .error .pastDigitLimit := by
  simp only [thickness, (hasNumerals_eq_false_iff v).2 h, Bool.false_eq_true, ↓reduceIte]

/-- A value without long integers is refused for a line width only as invalid. -/
theorem isInvalidValue_of_thickness {e : SettingError} (hshort : ¬ v.HoldsLong)
    (h : v.thickness = .error e) : e.IsInvalidValue := by
  have hnumerals := hasNumerals_iff.2 hshort
  cases v with
  | integer n =>
    simp only [thickness, hnumerals, ↓reduceIte] at h
    split_ifs at h
    cases h
    exact ⟨rfl, nofun⟩
  | real _ | text _ | flag _ | absent | list _ =>
    simp only [thickness, hnumerals, ↓reduceIte] at h
    cases h
    exact ⟨rfl, nofun⟩

end Value

/-! ## The rules of the parameters for numbers -/

namespace Parameter

variable {p : Parameter} {v w : Value} {x : Binary64} {e : SettingError}

/-- What a parameter for numbers keeps of a number: a size the number itself if it is finite and
greater than zero, an end of a range the number itself if it is finite, the shift the reduction of
any number. -/
def Keeps : Parameter → Binary64 → Binary64 → Prop
  | .period, x, y | .amplitude, x, y => x.IsFinitePositive ∧ y = x
  | .shift, x, y => y = Phase.reduce x
  | .xRangeStart, x, y | .xRangeEnd, x, y | .yRangeStart, x, y | .yRangeEnd, x, y =>
    x.IsFinite ∧ y = x
  | .color, _, _ | .lineWidth, _, _ | .plotWidth, _, _ | .plotHeight, _, _ => False

/-- A parameter for numbers decides by the number that the value is. -/
theorem accept_eq_bind (hp : p.kind = .real) (v : Value) :
    p.accept v = v.number p.name >>= fun x => p.accept (.real x) := by
  cases p with
  | color | lineWidth | plotWidth | plotHeight => cases hp
  | period | amplitude | shift | xRangeStart | xRangeEnd | yRangeStart | yRangeEnd => rfl

theorem accept_real_iff (hp : p.kind = .real) :
    (∃ z, p.accept (.real x) = .ok z ∧ p.kind.toValue z = w) ↔ ∃ y, p.Keeps x y ∧ w = .real y := by
  cases p with
  | color | lineWidth | plotWidth | plotHeight => cases hp
  | period | amplitude =>
    constructor
    · intro h
      obtain ⟨z, haccept, hw⟩ := h
      obtain ⟨hnumber, hpositive⟩ := Value.positive_eq_ok_iff.1 haccept
      cases hnumber
      exact ⟨x, ⟨hpositive, rfl⟩, hw.symm⟩
    · intro h
      obtain ⟨y, ⟨hpositive, hy⟩, hw⟩ := h
      exact ⟨x, Value.positive_eq_ok_iff.2 ⟨rfl, hpositive⟩, (hw.trans (congrArg _ hy)).symm⟩
  | xRangeStart | xRangeEnd | yRangeStart | yRangeEnd =>
    constructor
    · intro h
      obtain ⟨z, haccept, hw⟩ := h
      obtain ⟨hnumber, hfinite⟩ := Value.finite_eq_ok_iff.1 haccept
      cases hnumber
      exact ⟨x, ⟨hfinite, rfl⟩, hw.symm⟩
    · intro h
      obtain ⟨y, ⟨hfinite, hy⟩, hw⟩ := h
      exact ⟨x, Value.finite_eq_ok_iff.2 ⟨rfl, hfinite⟩, (hw.trans (congrArg _ hy)).symm⟩
  | shift =>
    constructor
    · intro h
      obtain ⟨z, haccept, hw⟩ := h
      cases haccept
      exact ⟨_, rfl, hw.symm⟩
    · intro h
      obtain ⟨y, hy, hw⟩ := h
      exact ⟨_, rfl, (hw.trans (congrArg _ hy)).symm⟩

/-- A parameter refuses a number only as invalid. -/
theorem isInvalidValue_of_accept_real (hp : p.kind = .real)
    (h : p.accept (.real x) = .error e) : e.IsInvalidValue := by
  cases p with
  | color | lineWidth | plotWidth | plotHeight => cases hp
  | period | amplitude =>
    change (if x.isNaN then Except.error _ else if !x.isPositive then Except.error _
      else if x.isInfinite then Except.error _ else .ok x) = .error e at h
    split_ifs at h <;> cases h <;> exact ⟨rfl, nofun⟩
  | xRangeStart | xRangeEnd | yRangeStart | yRangeEnd =>
    change (if x.isNaN then Except.error _ else if x.isInfinite then Except.error _ else .ok x) =
      .error e at h
    split_ifs at h <;> cases h <;> exact ⟨rfl, nofun⟩
  | shift => cases h

theorem accept_eq_error_iff (hp : p.kind = .real) : p.accept v = .error e ↔
    v.number p.name = .error e ∨ ∃ x, v.number p.name = .ok x ∧ p.accept (.real x) = .error e := by
  rw [accept_eq_bind hp]
  cases v.number p.name with
  | error cause =>
    constructor
    · intro h
      exact Or.inl (congrArg Except.error (Except.error.inj h))
    · intro h
      rcases h with h | ⟨x, hx, _⟩
      · exact congrArg Except.error (Except.error.inj h)
      · cases hx
  | ok x =>
    constructor
    · intro h
      exact Or.inr ⟨x, rfl, h⟩
    · intro h
      rcases h with h | ⟨y, hy, h⟩
      · cases h
      · cases hy
        exact h

theorem accept_eq_ok_iff (hp : p.kind = .real) :
    (∃ z, p.accept v = .ok z ∧ p.kind.toValue z = w) ↔
      ∃ x, v.number p.name = .ok x ∧ ∃ y, p.Keeps x y ∧ w = .real y := by
  rw [accept_eq_bind hp]
  cases v.number p.name with
  | error cause =>
    constructor
    · intro h
      obtain ⟨z, hz, _⟩ := h
      cases hz
    · intro h
      obtain ⟨x, hx, _⟩ := h
      cases hx
  | ok x =>
    constructor
    · intro h
      exact ⟨x, rfl, (accept_real_iff hp).1 h⟩
    · intro h
      obtain ⟨y, hy, hkeeps⟩ := h
      cases hy
      exact (accept_real_iff hp).2 hkeeps

end Parameter

end WavePlot
