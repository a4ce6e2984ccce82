import WavePlot.Proofs.Phase
import WavePlot.Settings.Basic

/-!
# What accepted values look like

For each rule the values it takes and what it makes of them. Whatever a parameter accepts becomes
normal, and a normal value offered again to its own parameter is accepted as it is: the normal
forms are the fixed points of the rules.
-/

namespace WavePlot

/-! ## Kinds of numbers and colours -/

namespace Binary64

/-- A number that is neither NaN nor an infinity. -/
def IsFinite (x : Binary64) : Prop :=
  ∃ negative units onGrid, x = .finite negative units onGrid

def IsFinitePositive (x : Binary64) : Prop :=
  ∃ units onGrid, x = .finite false units onGrid ∧ 0 < units

theorem isFinite_iff (x : Binary64) : x.IsFinite ↔ x.isNaN = false ∧ x.isInfinite = false := by
  cases x with
  | nan => simp [IsFinite, isNaN]
  | infinite negative => simp [IsFinite, isInfinite]
  | finite negative units onGrid => simp [IsFinite, isNaN, isInfinite, onGrid]

theorem isFinitePositive_iff (x : Binary64) :
    x.IsFinitePositive ↔ x.isNaN = false ∧ x.isPositive = true ∧ x.isInfinite = false := by
  cases x with
  | nan => simp [IsFinitePositive, isNaN]
  | infinite negative => simp [IsFinitePositive, isInfinite]
  | finite negative units onGrid =>
    cases negative <;> simp [IsFinitePositive, isNaN, isPositive, isInfinite, onGrid]

end Binary64

namespace Color

/-- A hash sign and exactly three hexadecimal digits. -/
def IsShort (text : Wide) : Prop :=
  ∃ r g b, isHexDigit r = true ∧ isHexDigit g = true ∧ isHexDigit b = true ∧
    text = ['#', r, g, b].map .char

theorem expand_of_not_isShort {text : Wide} (h : ¬ IsShort text) : expand text = text := by
  unfold expand
  split
  · rename_i r g b
    split_ifs with hdigits
    · simp only [Bool.and_eq_true] at hdigits
      exact absurd ⟨r, g, b, hdigits.1.1, hdigits.1.2, hdigits.2, rfl⟩ h
    · rfl
  · rfl

theorem length_expand_of_isShort {text : Wide} (h : IsShort text) : (expand text).length = 7 := by
  obtain ⟨r, g, b, hr, hg, hb, rfl⟩ := h
  simp [expand, hr, hg, hb]

theorem not_isShort_expand (text : Wide) : ¬ IsShort (expand text) := by
  by_cases h : IsShort text
  · rintro ⟨r, g, b, _, _, _, heq⟩
    have hlen := length_expand_of_isShort h
    rw [heq] at hlen
    exact absurd hlen (by decide : ¬ 4 = 7)
  · rwa [expand_of_not_isShort h]

end Color

/-! ## Rules -/

namespace Value

theorem number_real (name : String) (x : Binary64) : (Value.real x).number name = .ok x := rfl

theorem finite_eq_ok_iff {name : String} {v : Value} {x : Binary64} :
    v.finite name = .ok x ↔ v.number name = .ok x ∧ x.IsFinite := by
  unfold finite
  cases v.number name with
  | error e => exact ⟨fun h => (by cases h), fun h => (by cases h.1)⟩
  | ok y =>
    show (if y.isNaN then Except.error _ else if y.isInfinite then Except.error _ else .ok y) =
      .ok x ↔ _
    rw [Binary64.isFinite_iff]
    constructor
    · intro h
      split_ifs at h with hnan hinf
      cases h
      exact ⟨rfl, by simpa using hnan, by simpa using hinf⟩
    · rintro ⟨h, hnan, hinf⟩
      cases h
      simp [hnan, hinf]

theorem positive_eq_ok_iff {name : String} {v : Value} {x : Binary64} :
    v.positive name = .ok x ↔ v.number name = .ok x ∧ x.IsFinitePositive := by
  unfold positive
  cases v.number name with
  | error e => exact ⟨fun h => (by cases h), fun h => (by cases h.1)⟩
  | ok y =>
    show (if y.isNaN then Except.error _ else if !y.isPositive then Except.error _
      else if y.isInfinite then Except.error _ else .ok y) = .ok x ↔ _
    rw [Binary64.isFinitePositive_iff]
    constructor
    · intro h
      split_ifs at h with hnan hpos hinf
      cases h
      exact ⟨rfl, by simpa using hnan, by simpa using hpos, by simpa using hinf⟩
    · rintro ⟨h, hnan, hpos, hinf⟩
      cases h
      simp [hnan, hpos, hinf]

/-- A positive integer has a numeral when it is below the bound of the digit limit. -/
theorem hasNumeral_iff {n : Int} (hn : 1 ≤ n) :
    Decimal.hasNumeral n = true ↔ n < 10 ^ Decimal.digitLimit := by
  have hcast : ((n.natAbs : ℕ) : ℤ) = n := Int.natAbs_of_nonneg (by omega)
  unfold Decimal.hasNumeral
  generalize Decimal.digitLimit = limit
  rw [decide_eq_true_iff, Nat.pow_eq, ← Int.ofNat_lt, hcast]
  push_cast
  rfl

theorem thickness_eq_ok_iff {v : Value} {n : Int} :
    v.thickness = .ok n ↔ v = .integer n ∧ 1 ≤ n ∧ n < 10 ^ Decimal.digitLimit := by
  unfold thickness
  constructor
  · intro h
    split_ifs at h with hnumeral
    cases v <;> simp only [reduceCtorEq] at h
    rename_i m
    split_ifs at h with hm
    cases h
    exact ⟨rfl, hm, (hasNumeral_iff hm).1 hnumeral⟩
  · rintro ⟨rfl, hn, hlt⟩
    have hnumeral : (Value.integer n).hasNumerals = true := (hasNumeral_iff hn).2 hlt
    simp only [hnumeral, if_pos hn, ↓reduceIte]

end Value

/-! ## Normal forms of the parameters -/

namespace Parameter

/-- What a stored value of each parameter satisfies. -/
def Normal : (p : Parameter) → p.Carrier → Prop
  | .period, x => x.IsFinitePositive
  | .amplitude, x => x.IsFinitePositive
  | .shift, x => Phase.reduce x = x
  | .color, text => ¬ Color.IsShort text
  | .lineWidth, n => 1 ≤ n ∧ n < 10 ^ Decimal.digitLimit
  | .xRangeStart, x => x.IsFinite
  | .xRangeEnd, x => x.IsFinite
  | .yRangeStart, x => x.IsFinite
  | .yRangeEnd, x => x.IsFinite
  | .plotWidth, _ => True
  | .plotHeight, _ => True

theorem map_eq_ok {α β ε : Type} {f : α → β} {r : Except ε α} {b : β} (h : r.map f = .ok b) :
    ∃ a, r = .ok a ∧ f a = b := by
  cases r with
  | error e => cases h
  | ok a => exact ⟨a, rfl, Except.ok.inj h⟩

/-- What a parameter accepts becomes normal. -/
theorem normal_of_accept {p : Parameter} {v : Value} {x : p.Carrier}
    (h : p.accept v = .ok x) : p.Normal x := by
  cases p with
  | period | amplitude => exact (Value.positive_eq_ok_iff.1 h).2
  | xRangeStart | xRangeEnd | yRangeStart | yRangeEnd => exact (Value.finite_eq_ok_iff.1 h).2
  | shift =>
    obtain ⟨y, _, rfl⟩ := map_eq_ok h
    exact Phase.reduce_reduce y
  | color =>
    obtain ⟨text, _, rfl⟩ := map_eq_ok h
    exact Color.not_isShort_expand text
  | lineWidth => exact (Value.thickness_eq_ok_iff.1 h).2
  | plotWidth | plotHeight => trivial

/-- A normal value is accepted as it is. -/
theorem accept_of_normal {p : Parameter} {x : p.Carrier} (h : p.Normal x) :
    p.accept (p.kind.toValue x) = .ok x := by
  cases p with
  | period | amplitude => exact Value.positive_eq_ok_iff.2 ⟨Value.number_real _ x, h⟩
  | xRangeStart | xRangeEnd | yRangeStart | yRangeEnd =>
    exact Value.finite_eq_ok_iff.2 ⟨Value.number_real _ x, h⟩
  | shift => exact congrArg Except.ok h
  | color => exact congrArg Except.ok (Color.expand_of_not_isShort h)
  | lineWidth => exact Value.thickness_eq_ok_iff.2 ⟨rfl, h⟩
  | plotWidth | plotHeight => rfl

end Parameter

end WavePlot
