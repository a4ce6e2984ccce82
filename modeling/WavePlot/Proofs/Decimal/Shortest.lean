import WavePlot.Decimal.Shortest
import WavePlot.Proofs.Decimal.Nearest
import WavePlot.Proofs.Decimal.Plain

/-!
# The shortest digits read back

Whatever place the search stops at, its coefficient rounds to the magnitude: a candidate has been
tried, and on the last place, where sixteen digits lie above the grid, the nearer neighbour is
within one part in `2 ^ 54`. The zeros that are taken off the end move the point and nothing else.
-/

namespace WavePlot.Decimal

theorem fineUnitsPerOne_eq : (fineUnitsPerOne : ℚ) = 10 ^ (341 : ℤ) := by
  have hpow : fineUnitsPerOne = 10 ^ 341 := by decide +kernel
  have hcast : (341 : ℤ) = (341 : ℕ) := rfl
  rw [hpow, hcast]
  generalize 341 = k
  rw [Nat.cast_pow, zpow_natCast, Nat.cast_ofNat]

theorem fineUnitsPerOne_pos : 0 < fineUnitsPerOne := by decide +kernel

/-! ## Neighbours on a grid of tens -/

theorem lower_le (units place : Nat) :
    fineUnits units / 10 ^ place * 10 ^ place * unitsPerOne ≤ fineUnitsPerOne * units := by
  rw [Nat.mul_comm fineUnitsPerOne]
  exact (Nat.mul_le_mul_right _ (Nat.div_mul_le_self _ _)).trans (Nat.div_mul_le_self _ _)

theorem lt_upper (units place : Nat) :
    fineUnitsPerOne * units < (fineUnits units / 10 ^ place + 1) * 10 ^ place * unitsPerOne := by
  rw [Nat.mul_comm fineUnitsPerOne]
  refine (Nat.div_lt_iff_lt_mul unitsPerOne_pos).1 ?_
  exact Nat.lt_mul_of_div_lt (Nat.lt_succ_self _) (by positivity)

theorem nearer_eq_or (units lower place : Nat) :
    nearer units lower place = lower ∨ nearer units lower place = lower + 1 := by
  unfold nearer
  dsimp only
  split_ifs <;> omega

theorem two_mul_abs_sub_le {a b c : Nat} (hab : 2 * a ≤ 2 * b + c) (hba : 2 * b ≤ 2 * a + c) :
    2 * |(a : ℤ) - b| ≤ c := by
  rcases abs_cases ((a : ℤ) - b) with ⟨habs, _⟩ | ⟨habs, _⟩ <;> omega

/-- The nearer neighbour is within half a step of its grid. -/
theorem dist_nearer (units place : Nat) :
    2 * |((nearer units (fineUnits units / 10 ^ place) place * 10 ^ place * unitsPerOne : ℕ) : ℤ)
      - (fineUnitsPerOne * units : ℕ)| ≤ (10 ^ place * unitsPerOne : ℕ) := by
  have hlow := lower_le units place
  have hup := lt_upper units place
  generalize fineUnits units / 10 ^ place = lower at hlow hup ⊢
  have hmiddle : (2 * lower + 1) * 10 ^ place * unitsPerOne =
      2 * (lower * 10 ^ place * unitsPerOne) + 10 ^ place * unitsPerOne := by ring
  have hnext : (lower + 1) * 10 ^ place * unitsPerOne =
      lower * 10 ^ place * unitsPerOne + 10 ^ place * unitsPerOne := by ring
  have htwice : 2 * units * fineUnitsPerOne = 2 * (fineUnitsPerOne * units) := by ring
  rw [hnext] at hup
  have hboth : 2 * (nearer units lower place * 10 ^ place * unitsPerOne) ≤
        2 * (fineUnitsPerOne * units) + 10 ^ place * unitsPerOne ∧
      2 * (fineUnitsPerOne * units) ≤
        2 * (nearer units lower place * 10 ^ place * unitsPerOne) + 10 ^ place * unitsPerOne := by
    unfold nearer
    simp only [Nat.pow_eq, hmiddle, htwice]
    split_ifs with hlt hgt
    · omega
    · rw [hnext]
      omega
    · rcases Nat.mod_two_eq_zero_or_one lower with he | ho
      · rw [he, Nat.add_zero]
        omega
      · rw [ho, hnext]
        omega
  exact two_mul_abs_sub_le hboth.1 hboth.2

/-! ## The search -/

theorem readsBack_eq_true_iff (units c place : Nat) : readsBack units c place = true ↔
    roundUnits (c * 10 ^ place * unitsPerOne) fineUnitsPerOne = units := by
  rw [readsBack, beq_iff_eq, Nat.pow_eq]

theorem readsBack_of_candidate? {units place c : Nat} (h : candidate? units place = some c) :
    readsBack units c place = true := by
  unfold candidate? at h
  dsimp only at h
  split_ifs at h with hlower hupper hupper
  · rw [← Option.some.inj h]
    rcases nearer_eq_or units (fineUnits units / Nat.pow 10 place) place with heq | heq
    · rw [heq]
      exact hlower
    · rw [heq]
      exact hupper
  · rw [← Option.some.inj h]
    exact hlower
  · rw [← Option.some.inj h]
    exact hupper

/-- The last place leaves at least sixteen digits above the grid. -/
theorem pow_last_mul_le {units : Nat} (hpos : 0 < units) :
    10 ^ (digitCount (fineUnits units) - maxDigits) * 10 ^ 16 ≤ fineUnits units := by
  have hleast : 10 ^ 16 ≤ fineUnits 1 := by decide +kernel
  have hmono : fineUnits 1 ≤ fineUnits units :=
    Nat.div_le_div_right (Nat.mul_le_mul_right _ hpos)
  have hne : fineUnits units ≠ 0 := by
    have hten : 0 < 10 ^ 16 := by positivity
    omega
  have hcount : 16 < digitCount (fineUnits units) := by
    have hlt := (hleast.trans hmono).trans_lt (lt_pow_digitCount (fineUnits units))
    exact (Nat.pow_lt_pow_iff_right (by decide)).1 hlt
  rw [← pow_add]
  have hexp : digitCount (fineUnits units) - maxDigits + 16 = digitCount (fineUnits units) - 1 := by
    unfold maxDigits
    omega
  rw [hexp]
  exact pow_digitCount_le hne

theorem close_of_half_step {a t step : Nat} (ht : 0 < t) (hstep : 10 ^ 16 * step ≤ t)
    (hdist : 2 * |(a : ℤ) - t| ≤ step) : 2 ^ 54 * |(a : ℤ) - t| < t := by
  have hz : (10 ^ 16 * step : ℤ) ≤ t := by exact_mod_cast hstep
  have hzpos : (0 : ℤ) < t := by exact_mod_cast ht
  linarith

theorem readsBack_last {units last : Nat} (hgrid : gridStep units ∣ units) (hpos : 0 < units)
    (hlast : 10 ^ last * 10 ^ 16 ≤ fineUnits units) :
    readsBack units (nearer units (fineUnits units / 10 ^ last) last) last = true := by
  have hstep : 10 ^ 16 * (10 ^ last * unitsPerOne) ≤ fineUnitsPerOne * units := by
    calc 10 ^ 16 * (10 ^ last * unitsPerOne) = 10 ^ last * 10 ^ 16 * unitsPerOne := by ring
      _ ≤ fineUnits units * unitsPerOne := Nat.mul_le_mul_right _ hlast
      _ ≤ units * fineUnitsPerOne := Nat.div_mul_le_self _ _
      _ = fineUnitsPerOne * units := Nat.mul_comm _ _
  have hclose := close_of_half_step (Nat.mul_pos fineUnitsPerOne_pos hpos) hstep
    (dist_nearer units last)
  rw [Nat.cast_mul fineUnitsPerOne] at hclose
  exact (readsBack_eq_true_iff _ _ _).2 (roundUnits_eq_of_close hgrid hclose)

/-- The search ends with a coefficient that reads back, whatever place it ends at. -/
theorem readsBack_searchGrid {units last : Nat} (hgrid : gridStep units ∣ units)
    (hpos : 0 < units) (hlast : 10 ^ last * 10 ^ 16 ≤ fineUnits units) (more : Nat) :
    readsBack units (searchGrid units last more).1 (searchGrid units last more).2 = true := by
  unfold searchGrid
  dsimp only
  split
  · rename_i found h
    obtain ⟨place, _, hplace⟩ := List.exists_of_findSome?_eq_some h
    obtain ⟨c, hc, rfl⟩ := Option.map_eq_some_iff.1 hplace
    exact readsBack_of_candidate? hc
  · simp only [Nat.pow_eq]
    exact readsBack_last hgrid hpos hlast

/-! ## The digits -/

/-- The number that the digits stand for. -/
def Digits.value (d : Digits) : ℚ :=
  Nat.ofDigitChars 10 d.digits 0 * 10 ^ (d.point - d.digits.length)

/-- There are digits, and nothing but digits. -/
def Digits.WellFormed (d : Digits) : Prop := d.digits ≠ [] ∧ ∀ c ∈ d.digits, c.isDigit = true

/-- A numeral is its digits up to the last that is not zero, and zeros. -/
theorem exists_toDigits_eq (n : Nat) : ∃ zeros,
    Nat.toDigits 10 n =
      Text.dropEndWhile (· == '0') (Nat.toDigits 10 n) ++ List.replicate zeros '0' := by
  obtain ⟨dropped, heq, hall⟩ :=
    Text.dropEndWhile_append_dropped (· == '0') (Nat.toDigits 10 n)
  refine ⟨dropped.length, ?_⟩
  have hzeros : dropped = List.replicate dropped.length '0' :=
    List.eq_replicate_iff.2 ⟨rfl, fun c hc => beq_iff_eq.1 (hall c hc)⟩
  rwa [← hzeros]

/-- The zeros taken off the end are made up for by the point. -/
theorem value_ofCoefficient (c place : Nat) :
    (Digits.ofCoefficient c place).value = c * 10 ^ place / 10 ^ (341 : ℤ) := by
  obtain ⟨zeros, hzeros⟩ := exists_toDigits_eq c
  unfold Digits.ofCoefficient Digits.value
  dsimp only
  generalize Text.dropEndWhile (· == '0') (Nat.toDigits 10 c) = kept at hzeros ⊢
  have hvalue : c = 10 ^ zeros * Nat.ofDigitChars 10 kept 0 := by
    have hread := congrArg (Nat.ofDigitChars 10 · 0) hzeros
    simpa [Nat.ofDigitChars_append] using hread
  have hexp : ((Nat.toDigits 10 c).length + place - 341 - kept.length : ℤ) =
      zeros + (place - 341) := by
    rw [hzeros, List.length_append, List.length_replicate]
    push_cast
    ring
  have hc : (c : ℚ) = 10 ^ zeros * (Nat.ofDigitChars 10 kept 0 : ℕ) := by exact_mod_cast hvalue
  rw [hexp, hc, zpow_add₀ (by norm_num), zpow_sub₀ (by norm_num), zpow_natCast, zpow_natCast]
  generalize (10 : ℚ) ^ (341 : ℤ) = fine
  ring

theorem wellFormed_ofCoefficient {c : Nat} (hc : c ≠ 0) (place : Nat) :
    (Digits.ofCoefficient c place).WellFormed := by
  obtain ⟨zeros, hzeros⟩ := exists_toDigits_eq c
  unfold Digits.ofCoefficient
  dsimp only
  generalize Text.dropEndWhile (· == '0') (Nat.toDigits 10 c) = kept at hzeros ⊢
  constructor
  · rintro rfl
    have hread := congrArg (Nat.ofDigitChars 10 · 0) hzeros
    exact hc (by simpa using hread)
  · intro x hx
    have hmem : x ∈ Nat.toDigits 10 c := by
      rw [hzeros]
      exact List.mem_append_left _ hx
    exact Nat.isDigit_of_mem_toDigits (by decide) (by decide) hmem

/-- The shortest digits of a magnitude are digits, and the number they stand for rounds to it. -/
theorem shortest_spec {units : Nat} (hgrid : gridStep units ∣ units) (hpos : 0 < units) :
    (shortest units).WellFormed ∧ ∃ num den : Nat, 0 < den ∧
      (shortest units).value * unitsPerOne = num / den ∧ roundUnits num den = units := by
  have hread := readsBack_searchGrid hgrid hpos (pow_last_mul_le hpos) (maxDigits - 1)
  rw [readsBack_eq_true_iff] at hread
  unfold shortest
  dsimp only
  generalize searchGrid units _ _ = found at hread ⊢
  have hc : found.1 ≠ 0 := by
    intro h0
    rw [h0, Nat.zero_mul, Nat.zero_mul, roundUnits_eq_zero fineUnitsPerOne_pos] at hread
    omega
  refine ⟨wellFormed_ofCoefficient hc _, found.1 * 10 ^ found.2 * unitsPerOne, fineUnitsPerOne,
    fineUnitsPerOne_pos, ?_, hread⟩
  rw [value_ofCoefficient, fineUnitsPerOne_eq, Nat.cast_mul, Nat.cast_mul, Nat.cast_pow,
    Nat.cast_ofNat, div_mul_eq_mul_div]

end WavePlot.Decimal
