import WavePlot.Proofs.Decimal.Fewest
import WavePlot.Proofs.Decimal.Layout

/-!
# Which notation a number is written in

The layout chooses by the exponent of the digits that are written, which is not quite the exponent
of the number: digits round up. At a bound that is written with one digit and is not rounded down,
both are on the same side, for rounding keeps the order.
-/

namespace WavePlot.Decimal

/-! ## The two notations -/

/-- Digits on both sides of a point, at least one on each. -/
def IsPositional (body : List Char) : Prop :=
  ∃ whole fraction, body = whole ++ '.' :: fraction ∧ whole ≠ [] ∧ fraction ≠ [] ∧
    ∀ c ∈ whole ++ fraction, c.isDigit = true

/-- One digit, more of them behind a point if there are any, and a signed exponent of at least two
digits. -/
def IsExponential (body : List Char) : Prop :=
  ∃ first fraction sign exponent, body = first :: (fraction ++ 'e' :: sign :: exponent) ∧
    first.isDigit = true ∧
    (fraction = [] ∨ ∃ others, fraction = '.' :: others ∧ others ≠ [] ∧
      ∀ c ∈ others, c.isDigit = true) ∧
    (sign = '-' ∨ sign = '+') ∧ 2 ≤ exponent.length ∧ ∀ c ∈ exponent, c.isDigit = true

theorem mark_not_mem_of_isPositional {body : List Char} (h : IsPositional body) :
    'e' ∉ body := by
  obtain ⟨whole, fraction, rfl, _, _, hdigits⟩ := h
  intro hmem
  rw [List.mem_append, List.mem_cons] at hmem
  have hnot : 'e'.isDigit ≠ true := by decide
  rcases hmem with hmem | heq | hmem
  · exact hnot (hdigits _ (List.mem_append_left _ hmem))
  · exact absurd heq (by decide)
  · exact hnot (hdigits _ (List.mem_append_right _ hmem))

theorem mark_mem_of_isExponential {body : List Char} (h : IsExponential body) : 'e' ∈ body := by
  obtain ⟨first, fraction, sign, exponent, rfl, _⟩ := h
  simp

theorem isPositional_positional {d : Digits} (hd : d.WellFormed) : IsPositional (positional d) := by
  obtain ⟨hne, hall⟩ := hd
  have hzero : ∀ c ∈ ['0'], c.isDigit = true := by
    intro c hc
    rw [List.mem_singleton.1 hc]
    rfl
  unfold positional
  dsimp only
  refine ⟨_, _, rfl, ?_, ?_, fun c hc => ?_⟩
  · split_ifs with hbefore
    · exact List.cons_ne_nil _ _
    · refine List.append_ne_nil_of_left_ne_nil ?_ _
      intro hnil
      exact (List.take_eq_nil_iff.1 hnil).elim hbefore hne
  · split_ifs with hempty
    · exact List.cons_ne_nil _ _
    · exact fun hnil => hempty (List.isEmpty_iff.2 hnil)
  · rcases List.mem_append.1 hc with hwhole | hfraction
    · split_ifs at hwhole
      · exact hzero c hwhole
      · rcases List.mem_append.1 hwhole with htake | hpad
        · exact hall c (List.mem_of_mem_take htake)
        · exact isDigit_of_mem_zeros hpad
    · split_ifs at hfraction
      · exact hzero c hfraction
      · rcases List.mem_append.1 hfraction with hpad | hdrop
        · exact isDigit_of_mem_zeros hpad
        · exact hall c (List.mem_of_mem_drop hdrop)

theorem isExponential_exponential {width : Nat} (hwidth : 2 ≤ width) {d : Digits}
    (hd : d.WellFormed) : IsExponential (exponential width d) := by
  obtain ⟨digits, point⟩ := d
  obtain ⟨hne, hall⟩ := hd
  obtain ⟨first, others, rfl⟩ := List.exists_cons_of_ne_nil hne
  have hfirst := hall first List.mem_cons_self
  have hothers : ∀ c ∈ others, c.isDigit = true := fun c hc => hall c (List.mem_cons_of_mem _ hc)
  have hsign : ∀ e : Int, (if e < 0 then '-' else '+') = '-' ∨
      (if e < 0 then '-' else '+') = '+' := by
    intro e
    split_ifs
    · exact Or.inl rfl
    · exact Or.inr rfl
  have hlength : 2 ≤ (padded width (point - 1).natAbs).length := by
    have hpadded : width ≤ (padded width (point - 1).natAbs).length := by
      unfold padded
      rw [List.length_leftpad]
      exact Nat.le_max_left _ _
    omega
  have hexponent : ∀ c ∈ padded width (point - 1).natAbs, c.isDigit = true :=
    fun c hc => isDigit_of_mem_padded hc
  cases others with
  | nil => exact ⟨first, [], _, _, rfl, hfirst, Or.inl rfl, hsign _, hlength, hexponent⟩
  | cons second rest =>
    exact ⟨first, '.' :: second :: rest, _, _, rfl, hfirst,
      Or.inr ⟨_, rfl, List.cons_ne_nil _ _, hothers⟩, hsign _, hlength, hexponent⟩

/-- The layout's range of exponents decides between the notations, which exclude each other. -/
theorem notation_write {layout : Layout} (hwidth : 2 ≤ layout.exponentWidth) {d : Digits}
    (hd : d.WellFormed) :
    (IsPositional (layout.write d) ↔
      layout.leastPositional ≤ d.point - 1 ∧ d.point - 1 < layout.leastExponential) ∧
    (IsExponential (layout.write d) ↔ ¬ IsPositional (layout.write d)) := by
  unfold Layout.write
  dsimp only
  split_ifs with hrange
  · have hpositional := isPositional_positional hd
    rw [Bool.and_eq_true, decide_eq_true_iff, decide_eq_true_iff] at hrange
    refine ⟨iff_of_true hpositional hrange, iff_of_false ?_ (not_not.2 hpositional)⟩
    exact fun h => mark_not_mem_of_isPositional hpositional (mark_mem_of_isExponential h)
  · have hexponential := isExponential_exponential hwidth hd
    have hnot : ¬ IsPositional (exponential layout.exponentWidth d) :=
      fun h => mark_not_mem_of_isPositional h (mark_mem_of_isExponential hexponential)
    rw [Bool.and_eq_true, decide_eq_true_iff, decide_eq_true_iff] at hrange
    exact ⟨iff_of_false hnot hrange, iff_of_true hexponential hnot⟩

/-! ## Powers of ten around the digits -/

theorem value_shortest {units c place : Nat} (h : shortest units = .ofCoefficient c place) :
    (shortest units).value = atPlace c place := by
  rw [h, value_ofCoefficient, atPlace, fineUnitsPerOne_eq]

/-- The point stands behind the leading digit's power of ten. -/
theorem value_between {c : Nat} (hc : c ≠ 0) (place : Nat) :
    (10 : ℚ) ^ ((Digits.ofCoefficient c place).point - 1) ≤ (Digits.ofCoefficient c place).value ∧
      (Digits.ofCoefficient c place).value < 10 ^ (Digits.ofCoefficient c place).point := by
  have hpoint : (Digits.ofCoefficient c place).point =
      (digitCount c : ℤ) + ((place : ℤ) - 341) := by
    have hdef : (Digits.ofCoefficient c place).point = (digitCount c : ℤ) + place - 341 := rfl
    omega
  have hvalue : (Digits.ofCoefficient c place).value = c * 10 ^ ((place : ℤ) - 341) := by
    rw [value_ofCoefficient, zpow_sub₀ (by norm_num), zpow_natCast, mul_div_assoc]
  have hlead : 0 < digitCount c := Nat.length_toDigits_pos
  have hlow : (10 : ℚ) ^ ((digitCount c - 1 : ℕ) : ℤ) ≤ c := by
    rw [zpow_natCast]
    exact_mod_cast pow_digitCount_le hc
  have hhigh : (c : ℚ) < 10 ^ (digitCount c : ℤ) := by
    rw [zpow_natCast]
    exact_mod_cast lt_pow_digitCount c
  have hscale : (0 : ℚ) < 10 ^ ((place : ℤ) - 341) := by positivity
  have hexp : (digitCount c : ℤ) + ((place : ℤ) - 341) - 1 =
      ((digitCount c - 1 : ℕ) : ℤ) + ((place : ℤ) - 341) := by omega
  rw [hpoint, hvalue, hexp, zpow_add₀ (by norm_num), zpow_add₀ (by norm_num)]
  exact ⟨mul_le_mul_of_nonneg_right hlow hscale.le, mul_lt_mul_of_pos_right hhigh hscale⟩

theorem pow_le_value_iff {c : Nat} (hc : c ≠ 0) (place : Nat) (k : ℤ) :
    (10 : ℚ) ^ k ≤ (Digits.ofCoefficient c place).value ↔
      k ≤ (Digits.ofCoefficient c place).point - 1 := by
  obtain ⟨hlow, hhigh⟩ := value_between hc place
  constructor
  · intro hle
    have hlt := (zpow_lt_zpow_iff_right₀ (by norm_num : (1 : ℚ) < 10)).1 (hle.trans_lt hhigh)
    omega
  · intro hle
    exact (zpow_le_zpow_right₀ (by norm_num) hle).trans hlow

/-! ## Bounds on the number and on its digits -/

theorem amount_le_amount {a b : Nat} (h : a ≤ b) : amount a ≤ amount b := by
  rw [amount, amount]
  exact div_le_div_of_nonneg_right (by exact_mod_cast h) unitsPerOne_cast_pos.le

theorem RoundsTo.mono {a b : Nat} {q r : ℚ} (hq : RoundsTo a q) (hr : RoundsTo b r) (h : q ≤ r) :
    a ≤ b := by
  rw [← hq.round, ← hr.round]
  have hone : (0 : ℚ) ≤ unitsPerOne := Nat.cast_nonneg _
  exact roundRat_mono (mul_nonneg hq.nonneg hone) (mul_le_mul_of_nonneg_right h hone)

/-- A number that rounds to a magnitude not below it, and is what the magnitude's digits stand
for. -/
structure Sharp (q : ℚ) (bound : Nat) : Prop where
  rounds : RoundsTo bound q
  le_amount : q ≤ amount bound
  written : (shortest bound).value = q

theorem roundsTo_shortest {units : Nat} (hgrid : gridStep units ∣ units) (hpos : 0 < units) :
    RoundsTo units (shortest units).value := by
  obtain ⟨_, num, den, hd, hq, hround⟩ := shortest_spec hgrid hpos
  exact roundsTo_of_eq_div hd hq hround

/-- At a sharp bound a magnitude and its digits are on the same side. -/
theorem Sharp.le_value_iff {q : ℚ} {bound units : Nat} (h : Sharp q bound)
    (hgrid : gridStep units ∣ units) (hpos : 0 < units) :
    q ≤ (shortest units).value ↔ q ≤ amount units := by
  have hshortest := roundsTo_shortest hgrid hpos
  constructor
  · intro hle
    exact h.le_amount.trans (amount_le_amount (h.rounds.mono hshortest hle))
  · intro hle
    by_contra hlt
    have hbelow : units ≤ bound := hshortest.mono h.rounds (not_le.1 hlt).le
    have habove : bound ≤ units := h.rounds.mono (roundsTo_amount hgrid) hle
    obtain rfl : units = bound := le_antisymm hbelow habove
    exact hlt h.written.ge

end WavePlot.Decimal
