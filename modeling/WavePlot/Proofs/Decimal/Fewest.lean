import WavePlot.Proofs.Binary64.Order
import WavePlot.Proofs.Decimal.Significant

/-!
# No shorter decimal reads back

A decimal of `k` digits never lies strictly between the two neighbours of a magnitude on the grid of
`k` digits. So if it rounds to the magnitude, one of the neighbours does, for rounding keeps the
order, and the search has tried both. Hence the search stops at the fewest digits and takes a
decimal that is nearest among all with as many.
-/

namespace WavePlot.Decimal

/-! ## Numbers that round to a magnitude -/

/-- The number that a magnitude is. It is irreducible, as `atPlace` is, so that no unification
compares their huge denominators. -/
@[irreducible] def amount (units : Nat) : ℚ := units / unitsPerOne

/-- The number that `coefficient * 10 ^ place` fine units are. -/
@[irreducible] def atPlace (coefficient place : Nat) : ℚ :=
  coefficient * 10 ^ place / fineUnitsPerOne

theorem unitsPerOne_cast_pos : (0 : ℚ) < unitsPerOne := by exact_mod_cast unitsPerOne_pos

theorem fineUnitsPerOne_cast_pos : (0 : ℚ) < fineUnitsPerOne := by
  exact_mod_cast fineUnitsPerOne_pos

theorem atPlace_eq (coefficient place : Nat) :
    atPlace coefficient place = (coefficient * 10 ^ place : ℕ) / fineUnitsPerOne := by
  rw [atPlace, Nat.cast_mul, Nat.cast_pow, Nat.cast_ofNat]

theorem atPlace_eq_zpow (coefficient place : Nat) :
    atPlace coefficient place = coefficient * 10 ^ ((place : ℤ) - 341) := by
  rw [atPlace, fineUnitsPerOne_eq, zpow_sub₀ (by norm_num), zpow_natCast, mul_div_assoc]

structure RoundsTo (units : Nat) (q : ℚ) : Prop where
  nonneg : 0 ≤ q
  round : roundRat (q * unitsPerOne) = units

theorem roundsTo_amount {units : Nat} (hgrid : gridStep units ∣ units) :
    RoundsTo units (amount units) := by
  rw [amount]
  refine ⟨div_nonneg (Nat.cast_nonneg _) (Nat.cast_nonneg _), ?_⟩
  rw [div_mul_cancel₀ _ unitsPerOne_cast_pos.ne', roundRat_natCast hgrid]

theorem RoundsTo.between {units : Nat} {a b c : ℚ} (ha : RoundsTo units a)
    (hc : RoundsTo units c) (hab : a ≤ b) (hbc : b ≤ c) : RoundsTo units b := by
  have hone : (0 : ℚ) ≤ unitsPerOne := Nat.cast_nonneg _
  refine ⟨ha.nonneg.trans hab, ?_⟩
  exact roundRat_eq_of_between (mul_nonneg ha.nonneg hone) (mul_le_mul_of_nonneg_right hab hone)
    (mul_le_mul_of_nonneg_right hbc hone) ha.round hc.round

theorem roundsTo_of_eq_div {units num den : Nat} {q : ℚ} (hd : 0 < den)
    (hq : q * unitsPerOne = num / den) (h : roundUnits num den = units) : RoundsTo units q := by
  constructor
  · refine nonneg_of_mul_nonneg_left ?_ unitsPerOne_cast_pos
    rw [hq]
    exact div_nonneg (Nat.cast_nonneg _) (Nat.cast_nonneg _)
  · rw [hq, ← roundUnits_eq_roundRat hd, h]

theorem readsBack_iff_roundsTo {units c place : Nat} :
    readsBack units c place = true ↔ RoundsTo units (atPlace c place) := by
  have hvalue : atPlace c place * unitsPerOne =
      (c * 10 ^ place * unitsPerOne : ℕ) / fineUnitsPerOne := by
    rw [atPlace_eq, div_mul_eq_mul_div, Nat.cast_mul _ unitsPerOne]
  rw [readsBack_eq_true_iff]
  constructor
  · exact roundsTo_of_eq_div fineUnitsPerOne_pos hvalue
  · intro h
    rw [roundUnits_eq_roundRat fineUnitsPerOne_pos, ← hvalue]
    exact h.round

/-- A decimal that is read as a finite number rounds to its magnitude. -/
theorem roundsTo_of_nearest {negative sign : Bool} {c units : Nat} {e : Int}
    {onGrid : OnGrid units} (h : nearest negative c e = .finite sign units onGrid) :
    sign = negative ∧ RoundsTo units (c * 10 ^ e) := by
  have hnonneg : (0 : ℚ) ≤ c * 10 ^ e * unitsPerOne := by positivity
  obtain ⟨num, den, hd, hq⟩ := exists_eq_div hnonneg
  rw [nearest_eq_round negative hd hq] at h
  unfold Binary64.round at h
  split_ifs at h
  obtain ⟨hsign, hunits⟩ := Binary64.finite.inj h
  exact ⟨hsign.symm, roundsTo_of_eq_div hd hq hunits⟩

/-! ## The neighbours of a magnitude -/

theorem atPlace_lower_le (units place : Nat) :
    atPlace (fineUnits units / 10 ^ place) place ≤ amount units := by
  have hle := lower_le units place
  rw [atPlace_eq, amount, div_le_div_iff₀ fineUnitsPerOne_cast_pos unitsPerOne_cast_pos,
    mul_comm (units : ℚ)]
  generalize unitsPerOne = one at hle ⊢
  generalize fineUnitsPerOne = fine at hle ⊢
  exact_mod_cast hle

theorem amount_lt_atPlace_upper (units place : Nat) :
    amount units < atPlace (fineUnits units / 10 ^ place + 1) place := by
  have hlt := lt_upper units place
  rw [atPlace_eq, amount, div_lt_div_iff₀ unitsPerOne_cast_pos fineUnitsPerOne_cast_pos,
    mul_comm (units : ℚ)]
  generalize unitsPerOne = one at hlt ⊢
  generalize fineUnitsPerOne = fine at hlt ⊢
  exact_mod_cast hlt

theorem atPlace_le_atPlace {a b place : Nat} (h : a ≤ b) : atPlace a place ≤ atPlace b place := by
  have hcast : (a : ℚ) ≤ b := by exact_mod_cast h
  have hpower : (0 : ℚ) ≤ 10 ^ place := by positivity
  rw [atPlace, atPlace]
  exact div_le_div_of_nonneg_right (mul_le_mul_of_nonneg_right hcast hpower)
    fineUnitsPerOne_cast_pos.le

theorem atPlace_nonneg (coefficient place : Nat) : 0 ≤ atPlace coefficient place := by
  rw [atPlace_eq]
  exact div_nonneg (Nat.cast_nonneg _) (Nat.cast_nonneg _)

theorem abs_atPlace_sub (a b place : Nat) :
    |atPlace a place - atPlace b place| = |(a : ℚ) - b| * atPlace 1 place := by
  have hfactor : atPlace a place - atPlace b place = ((a : ℚ) - b) * atPlace 1 place := by
    unfold atPlace
    generalize (fineUnitsPerOne : ℚ) = fine
    rw [Nat.cast_one]
    ring
  rw [hfactor, abs_mul, abs_of_nonneg (atPlace_nonneg 1 place)]

theorem dist_div_le {a b step one fine : Nat} (hone : (0 : ℚ) < one) (hfine : (0 : ℚ) < fine)
    (h : 2 * |((a * one : ℕ) : ℤ) - (fine * b : ℕ)| ≤ (step * one : ℕ)) :
    2 * |(a : ℚ) / fine - b / one| ≤ step / fine := by
  have hsub : ((a : ℚ) / fine - b / one) * (fine * one) = (a * one : ℕ) - (fine * b : ℕ) := by
    push_cast
    field_simp
  have hscale : |(a : ℚ) / fine - b / one| * (fine * one) =
      |((a * one : ℕ) : ℚ) - (fine * b : ℕ)| := by
    rw [← hsub, abs_mul, abs_of_pos (mul_pos hfine hone)]
  have hstep : (step : ℚ) / fine * (fine * one) = (step * one : ℕ) := by
    push_cast
    field_simp
  refine le_of_mul_le_mul_right ?_ (mul_pos hfine hone)
  rw [mul_assoc, hscale, hstep]
  exact_mod_cast h

/-- The nearer neighbour is within half a step, in numbers. -/
theorem dist_atPlace_nearer (units place : Nat) :
    2 * |atPlace (nearer units (fineUnits units / 10 ^ place) place) place - amount units| ≤
      atPlace 1 place := by
  have hdist := dist_nearer units place
  generalize nearer units (fineUnits units / 10 ^ place) place = c at hdist ⊢
  rw [atPlace_eq, atPlace_eq, amount, Nat.one_mul]
  exact dist_div_le unitsPerOne_cast_pos fineUnitsPerOne_cast_pos hdist

theorem one_le_abs_sub {a b : Nat} (h : a ≠ b) : (1 : ℚ) ≤ |(a : ℚ) - b| := by
  have hz : (1 : ℤ) ≤ |(a : ℤ) - b| := Int.one_le_abs (by omega)
  exact_mod_cast hz

/-- No point of the grid of tens is nearer than the nearer neighbour. -/
theorem nearer_nearest (units place c : Nat) :
    |atPlace (nearer units (fineUnits units / 10 ^ place) place) place - amount units| ≤
      |atPlace c place - amount units| := by
  have hhalf := dist_atPlace_nearer units place
  generalize nearer units (fineUnits units / 10 ^ place) place = m at hhalf ⊢
  by_cases heq : c = m
  · rw [heq]
  · have hgrid : atPlace 1 place ≤ |atPlace c place - atPlace m place| := by
      rw [abs_atPlace_sub]
      exact le_mul_of_one_le_left (atPlace_nonneg 1 place) (one_le_abs_sub heq)
    have hsplit := abs_sub_le (atPlace c place) (amount units) (atPlace m place)
    rw [abs_sub_comm (amount units)] at hsplit
    linarith

/-- The number does not lie strictly between the neighbours of the magnitude. -/
def Outside (units place : Nat) (q : ℚ) : Prop :=
  q ≤ atPlace (fineUnits units / 10 ^ place) place ∨
    atPlace (fineUnits units / 10 ^ place + 1) place ≤ q

/-- A decimal of `k` digits is not between the neighbours on the grid of `k` digits: it is on that
grid, or its last digit is further right and it is below all numbers of as many places. -/
theorem outside_of_lt {units k c : Nat} (hne : fineUnits units ≠ 0) (hk : 0 < k)
    (hcount : k ≤ digitCount (fineUnits units)) (hc : c < 10 ^ k) (e : Int) :
    Outside units (digitCount (fineUnits units) - k) (c * 10 ^ e) := by
  have hlead := pow_digitCount_le hne
  unfold Outside
  generalize digitCount (fineUnits units) = count at hcount hlead ⊢
  generalize fineUnits units = fine at hlead ⊢
  rcases le_or_gt ((count - k : ℕ) : ℤ) (e + 341) with hle | hgt
  · obtain ⟨zeros, hzeros⟩ := Int.le.dest hle
    have hgrid : (c : ℚ) * 10 ^ e = atPlace (c * 10 ^ zeros) (count - k) := by
      have hexp : e = zeros + (((count - k : ℕ) : ℤ) - 341) := by omega
      rw [atPlace_eq_zpow, hexp, zpow_add₀ (by norm_num), zpow_natCast, ← mul_assoc, Nat.cast_mul,
        Nat.cast_pow, Nat.cast_ofNat]
    rw [hgrid]
    rcases Nat.lt_or_ge (fine / 10 ^ (count - k)) (c * 10 ^ zeros) with hlt | hge
    · exact Or.inr (atPlace_le_atPlace hlt)
    · exact Or.inl (atPlace_le_atPlace hge)
  · left
    have hcq : (c : ℚ) ≤ 10 ^ (k : ℤ) := by
      rw [zpow_natCast]
      exact_mod_cast hc.le
    have hpower : (0 : ℚ) ≤ 10 ^ e := by positivity
    have hlower : 10 ^ (k - 1) ≤ fine / 10 ^ (count - k) := by
      rw [Nat.le_div_iff_mul_le (by positivity), ← pow_add]
      have hexp : k - 1 + (count - k) = count - 1 := by omega
      rwa [hexp]
    calc (c : ℚ) * 10 ^ e ≤ 10 ^ (k : ℤ) * 10 ^ e := mul_le_mul_of_nonneg_right hcq hpower
      _ = 10 ^ (k + e) := (zpow_add₀ (by norm_num) _ _).symm
      _ ≤ 10 ^ (((k - 1 : ℕ) : ℤ) + (((count - k : ℕ) : ℤ) - 341)) :=
          zpow_le_zpow_right₀ (by norm_num) (by omega)
      _ = atPlace (10 ^ (k - 1)) (count - k) := by
          rw [atPlace_eq_zpow, zpow_add₀ (by norm_num), zpow_natCast, Nat.cast_pow, Nat.cast_ofNat]
      _ ≤ atPlace (fine / 10 ^ (count - k)) (count - k) := atPlace_le_atPlace hlower

/-! ## What the search finds -/

/-- If a number outside the neighbours rounds to the magnitude, then there is a candidate, and it is
as near as that number. -/
theorem exists_candidate {units place : Nat} {q : ℚ} (hgrid : gridStep units ∣ units)
    (hq : RoundsTo units q) (houtside : Outside units place q) :
    ∃ c, candidate? units place = some c ∧
      |atPlace c place - amount units| ≤ |q - amount units| := by
  have hlow := atPlace_lower_le units place
  have hup := amount_lt_atPlace_upper units place
  have hnearer := nearer_nearest units place
  have hamount := roundsTo_amount hgrid
  unfold candidate?
  simp only [Nat.pow_eq]
  unfold Outside at houtside
  generalize fineUnits units / 10 ^ place = lower at hlow hup hnearer houtside ⊢
  rcases houtside with hbelow | habove
  · have hreads : readsBack units lower place = true :=
      readsBack_iff_roundsTo.2 (hq.between hamount hbelow hlow)
    have hcloser : |atPlace lower place - amount units| ≤ |q - amount units| := by
      rw [abs_of_nonpos (by linarith), abs_of_nonpos (by linarith)]
      linarith
    rw [if_pos hreads]
    split_ifs
    · exact ⟨_, rfl, (hnearer lower).trans hcloser⟩
    · exact ⟨_, rfl, hcloser⟩
  · have hreads : readsBack units (lower + 1) place = true :=
      readsBack_iff_roundsTo.2 (hamount.between hq hup.le habove)
    have hcloser : |atPlace (lower + 1) place - amount units| ≤ |q - amount units| := by
      rw [abs_of_nonneg (by linarith), abs_of_nonneg (by linarith)]
      linarith
    rw [if_pos hreads]
    split_ifs
    · exact ⟨_, rfl, (hnearer (lower + 1)).trans hcloser⟩
    · exact ⟨_, rfl, hcloser⟩

theorem candidate?_le {units place c : Nat} (h : candidate? units place = some c) :
    c ≤ fineUnits units / 10 ^ place + 1 := by
  unfold candidate? at h
  simp only [Nat.pow_eq] at h
  generalize fineUnits units / 10 ^ place = lower at h ⊢
  split_ifs at h
  · have hcases := nearer_eq_or units lower place
    have heq := Option.some.inj h
    omega
  · have heq := Option.some.inj h
    omega
  · have heq := Option.some.inj h
    omega

theorem searchGrid_eq (units last more : Nat) : searchGrid units last more =
    ((List.range' (last + 1) more).reverse.findSome? fun place =>
      (candidate? units place).map (·, place)).getD
        (nearer units (fineUnits units / 10 ^ last) last, last) := by
  unfold searchGrid
  dsimp only
  generalize (List.range' (last + 1) more).reverse.findSome? _ = found
  cases found <;> simp only [Nat.pow_eq, Option.getD_some, Option.getD_none]

theorem searchGrid_zero (units last : Nat) : searchGrid units last 0 =
    (nearer units (fineUnits units / 10 ^ last) last, last) := by
  rw [searchGrid_eq]
  rfl

theorem reverse_range'_succ (last more : Nat) : (List.range' (last + 1) (more + 1)).reverse =
    (last + more + 1) :: (List.range' (last + 1) more).reverse := by
  have hlast : last + 1 + more = last + more + 1 := by omega
  rw [List.range'_1_concat, List.reverse_append, List.reverse_singleton, hlast]
  exact List.singleton_append

/-- Trying one more place first. The candidates are a variable here, so that nothing evaluates
them. -/
theorem findSome?_map_cons (candidate : Nat → Option Nat) (place : Nat) (places : List Nat) :
    (place :: places).findSome? (fun p => (candidate p).map (·, p)) =
      ((candidate place).map (·, place)).or
        (places.findSome? fun p => (candidate p).map (·, p)) := by
  rw [List.findSome?_cons]
  cases candidate place <;> rfl

theorem searchGrid_succ (units last more : Nat) : searchGrid units last (more + 1) =
    ((candidate? units (last + more + 1)).map (·, last + more + 1)).getD
      (searchGrid units last more) := by
  rw [searchGrid_eq, searchGrid_eq, reverse_range'_succ, findSome?_map_cons, Option.getD_or]

/-- What the search ends with: the place, with no candidate at any coarser one, and the candidate
there; on the last place, the nearer neighbour. -/
structure Found (units last more coefficient place : Nat) : Prop where
  last_le : last ≤ place
  le_top : place ≤ last + more
  candidate : candidate? units place = some coefficient ∨
    place = last ∧ coefficient = nearer units (fineUnits units / 10 ^ last) last
  coarser : ∀ other, place < other → other ≤ last + more → candidate? units other = none

theorem found_searchGrid (units last more : Nat) :
    Found units last more (searchGrid units last more).1 (searchGrid units last more).2 := by
  induction more with
  | zero =>
    rw [searchGrid_zero]
    dsimp only
    exact ⟨Nat.le_refl _, Nat.le_refl _, Or.inr ⟨rfl, rfl⟩, fun other hlt hle => by omega⟩
  | succ more ih =>
    rw [searchGrid_succ]
    generalize searchGrid units last more = found at ih ⊢
    cases hcandidate : candidate? units (last + more + 1) with
    | some c =>
      rw [Option.map_some, Option.getD_some]
      dsimp only
      exact ⟨by omega, Nat.le_refl _, Or.inl hcandidate, fun other hlt hle => by omega⟩
    | none =>
      rw [Option.map_none, Option.getD_none]
      refine ⟨ih.last_le, Nat.le_succ_of_le ih.le_top, ih.candidate, fun other hlt hle => ?_⟩
      rcases Nat.lt_or_ge (last + more) other with hgt | hge
      · obtain rfl : other = last + more + 1 := by omega
        exact hcandidate
      · exact ih.coarser other hlt hge

namespace Found

variable {units last more c place : Nat}

theorem le_succ_lower (h : Found units last more c place) :
    c ≤ fineUnits units / 10 ^ place + 1 := by
  rcases h.candidate with hcandidate | ⟨hplace, hc⟩
  · exact candidate?_le hcandidate
  · rw [hc, hplace]
    have hcases := nearer_eq_or units (fineUnits units / 10 ^ last) last
    omega

/-- The coefficient is as near as any number that rounds to the magnitude and is not between its
neighbours. -/
theorem nearest_of_outside (h : Found units last more c place) (hgrid : gridStep units ∣ units)
    {q : ℚ} (hq : RoundsTo units q) (houtside : Outside units place q) :
    |atPlace c place - amount units| ≤ |q - amount units| := by
  obtain ⟨m, hm, hcloser⟩ := exists_candidate hgrid hq houtside
  rcases h.candidate with hcandidate | ⟨hplace, hc⟩
  · rw [hm] at hcandidate
    rwa [← Option.some.inj hcandidate]
  · rw [hc, hplace]
    rw [hplace] at hcloser
    exact (nearer_nearest units last m).trans hcloser

end Found

/-! ## The shortest digits -/

theorem RoundsTo.ne_zero {units c : Nat} {e : Int} (hpos : 0 < units)
    (h : RoundsTo units (c * 10 ^ e)) : c ≠ 0 := by
  intro hzero
  have hround := h.round
  have hgrid : gridStep 0 ∣ 0 := dvd_zero _
  rw [hzero, Nat.cast_zero, zero_mul, zero_mul, ← Nat.cast_zero, roundRat_natCast hgrid] at hround
  omega

theorem lt_digitCount_fineUnits {units : Nat} (hpos : 0 < units) :
    16 < digitCount (fineUnits units) := by
  have hlead := pow_last_mul_le hpos
  have hlow : 10 ^ 16 ≤ fineUnits units :=
    (Nat.le_mul_of_pos_left _ (by positivity)).trans hlead
  have hlt := hlow.trans_lt (lt_pow_digitCount (fineUnits units))
  exact (Nat.pow_lt_pow_iff_right (by decide)).1 hlt

/-- A decimal that rounds to the magnitude has a coefficient of its significant digits alone. -/
theorem RoundsTo.exists_kept {units c : Nat} {e : Int} (hpos : 0 < units)
    (h : RoundsTo units (c * 10 ^ e)) : 0 < significant c ∧
      ∃ (kept : Nat) (f : Int), kept < 10 ^ significant c ∧ (c : ℚ) * 10 ^ e = kept * 10 ^ f := by
  have hne := h.ne_zero hpos
  obtain ⟨kept, zeros, heq, hkept⟩ := exists_eq_mul_pow c
  constructor
  · by_contra hzero
    rw [Nat.eq_zero_of_not_pos hzero, pow_zero] at hkept
    rw [Nat.lt_one_iff.1 hkept, Nat.zero_mul] at heq
    exact hne heq
  · refine ⟨kept, zeros + e, hkept, ?_⟩
    rw [zpow_add₀ (by norm_num), zpow_natCast, ← mul_assoc]
    exact congrArg (· * (10 : ℚ) ^ e) (by exact_mod_cast heq)

namespace Found

variable {units c place : Nat}

/-- The digits above the place that the search ends at. -/
theorem place_eq (hpos : 0 < units)
    (h : Found units (digitCount (fineUnits units) - maxDigits) (maxDigits - 1) c place) :
    ∃ n, 0 < n ∧ n ≤ digitCount (fineUnits units) ∧ place = digitCount (fineUnits units) - n := by
  have hcount := lt_digitCount_fineUnits hpos
  have hlast := h.last_le
  have htop := h.le_top
  unfold maxDigits at hlast htop
  exact ⟨digitCount (fineUnits units) - place, by omega, by omega, by omega⟩

theorem significant_le (h : Found units (digitCount (fineUnits units) - maxDigits)
    (maxDigits - 1) c place) {n : Nat} (hn : 0 < n) (hle : n ≤ digitCount (fineUnits units))
    (hplace : place = digitCount (fineUnits units) - n) : significant c ≤ n := by
  refine Decimal.significant_le (h.le_succ_lower.trans ?_) hn
  have hlt := lt_pow_digitCount (fineUnits units)
  have hsplit : digitCount (fineUnits units) = n + place := by omega
  rw [hsplit, pow_add] at hlt
  exact (Nat.div_lt_iff_lt_mul (by positivity)).2 hlt

end Found

/-- The shortest digits come from a coefficient with the fewest significant digits of all decimals
that round to the magnitude, and no decimal with as few is nearer. -/
theorem shortest_fewest {units : Nat} (hgrid : gridStep units ∣ units) (hpos : 0 < units) :
    ∃ coefficient place, shortest units = .ofCoefficient coefficient place ∧
      ∀ (c : Nat) (e : Int), RoundsTo units (c * 10 ^ e) →
        significant coefficient ≤ significant c ∧
          (significant c ≤ significant coefficient →
            |atPlace coefficient place - amount units| ≤ |(c : ℚ) * 10 ^ e - amount units|) := by
  have hfound := found_searchGrid units (digitCount (fineUnits units) - maxDigits) (maxDigits - 1)
  refine ⟨_, _, rfl, fun c e hround => ?_⟩
  generalize searchGrid units _ _ = found at hfound ⊢
  obtain ⟨n, hn, hle, hplace⟩ := hfound.place_eq hpos
  have hcount := lt_digitCount_fineUnits hpos
  have hne : fineUnits units ≠ 0 := by
    intro hzero
    rw [hzero] at hcount
    exact absurd hcount (by decide)
  have hdigits := hfound.significant_le hn hle hplace
  obtain ⟨hk, kept, f, hkept, hvalue⟩ := hround.exists_kept hpos
  rw [hvalue] at hround ⊢
  constructor
  · by_contra hfewer
    have houtside := outside_of_lt hne hk (by omega) hkept f
    obtain ⟨m, hm, _⟩ := exists_candidate hgrid hround houtside
    have hnone := hfound.coarser (digitCount (fineUnits units) - significant c) (by omega)
      (by unfold maxDigits; omega)
    rw [hm] at hnone
    cases hnone
  · intro hfew
    have hkept' : kept < 10 ^ n :=
      hkept.trans_le (Nat.pow_le_pow_right (by decide) (hfew.trans hdigits))
    have houtside := outside_of_lt hne hn hle hkept' f
    rw [← hplace] at houtside
    exact hfound.nearest_of_outside hgrid hround houtside

end WavePlot.Decimal
