import WavePlot.Proofs.Decimal.Notation
import WavePlot.Proofs.Decimal.RoundTrip
import WavePlot.Proofs.Parameter.Acceptance

/-!
# The text of a number is the shortest

The decimal that a finite number is written as reads back as the number, no decimal with fewer
significant digits does, and none with as many is nearer. It is positional from `10 ^ -4` up to
`10 ^ 16` and for zero.
-/

namespace WavePlot

open Decimal

/-- The number exactly. Infinities and NaN are no numbers; they are given zero. -/
def Binary64.exact : Binary64 → ℚ
  | .finite negative units _ => if negative then -amount units else amount units
  | _ => 0

namespace Decimal

namespace Literal

/-- The number that a literal spells, before rounding; the words for none spell zero here. -/
def exact : Literal → ℚ
  | .number negative coefficient exponent =>
    if negative then -(coefficient * 10 ^ exponent) else coefficient * 10 ^ exponent
  | _ => 0

/-- How many significant digits a literal has. -/
def digits : Literal → Nat
  | .number _ coefficient _ => significant coefficient
  | _ => 0

end Literal

/-! ## The shortest literal -/

/-- The literal reads as the number, none with fewer significant digits does, and none with as many
is nearer. -/
structure IsShortest (l : Literal) (x : Binary64) : Prop where
  reads : l.value = x
  fewest : ∀ other : Literal, other.value = x → l.digits ≤ other.digits
  nearest : ∀ other : Literal, other.value = x → other.digits = l.digits →
    |l.exact - x.exact| ≤ |other.exact - x.exact|

section Shortest

variable {negative : Bool} {units : Nat} {onGrid : OnGrid units}

/-- A literal that is read as a finite number has its sign and rounds to its magnitude. -/
theorem exists_roundsTo_of_value {l : Literal} (h : l.value = .finite negative units onGrid) :
    ∃ c e, l = .number negative c e ∧ RoundsTo units (c * 10 ^ e) := by
  cases l with
  | infinity sign => cases h
  | nan => cases h
  | number sign c e =>
    obtain ⟨rfl, hround⟩ := roundsTo_of_nearest h
    exact ⟨c, e, rfl, hround⟩

/-- Under the same sign the distance is that of the magnitudes. -/
theorem abs_exact_sub (c : Nat) (e : Int) :
    |(Literal.number negative c e).exact - (Binary64.finite negative units onGrid).exact| =
      |(c : ℚ) * 10 ^ e - amount units| := by
  cases negative with
  | false => rfl
  | true =>
    show |-((c : ℚ) * 10 ^ e) - -amount units| = _
    rw [neg_sub_neg, abs_sub_comm]

/-- The literal that the shortest digits are written as. -/
theorem isShortest_of_value {c : Nat} {e : Int} (hpos : 0 < units)
    (hreads : (Literal.number negative c e).value = .finite negative units onGrid)
    (hdigits : (c : ℚ) * 10 ^ e = (shortest units).value) :
    IsShortest (.number negative c e) (.finite negative units onGrid) := by
  obtain ⟨coefficient, place, hshortest, hbest⟩ := shortest_fewest onGrid.2 hpos
  rw [value_shortest hshortest] at hdigits
  have hsame : significant c = significant coefficient := by
    rw [atPlace_eq_zpow] at hdigits
    exact significant_eq_of_value_eq hdigits
  refine ⟨hreads, fun other hother => ?_, fun other hother hcount => ?_⟩
  · obtain ⟨c', e', rfl, hround⟩ := exists_roundsTo_of_value hother
    show significant c ≤ significant c'
    rw [hsame]
    exact (hbest c' e' hround).1
  · obtain ⟨c', e', rfl, hround⟩ := exists_roundsTo_of_value hother
    change significant c' = significant c at hcount
    rw [abs_exact_sub, abs_exact_sub, hdigits]
    exact (hbest c' e' hround).2 (by omega)

end Shortest

/-! ## Bounds of the positional notation -/

theorem value_one (point : ℤ) : Digits.value ⟨['1'], point⟩ = 10 ^ (point - 1) := by
  have hone : Nat.ofDigitChars 10 ['1'] 0 = 1 := rfl
  rw [Digits.value, hone, Nat.cast_one, one_mul]
  rfl

theorem sharp_ten_pow_sixteen : Sharp (10 ^ (16 : ℤ)) (10 ^ 16 * unitsPerOne) := by
  have hgrid : gridStep (10 ^ 16 * unitsPerOne) ∣ 10 ^ 16 * unitsPerOne := by decide +kernel
  have hshortest : shortest (10 ^ 16 * unitsPerOne) = ⟨['1'], 17⟩ := by decide +kernel
  have hamount : amount (10 ^ 16 * unitsPerOne) = 10 ^ (16 : ℤ) := by
    rw [amount, Nat.cast_mul, mul_div_cancel_right₀ _ unitsPerOne_cast_pos.ne']
    norm_num
  refine ⟨?_, hamount.ge, ?_⟩
  · rw [← hamount]
    exact roundsTo_amount hgrid
  · rw [hshortest, value_one]
    rfl

theorem sharp_ten_pow_neg_four :
    Sharp (10 ^ (-4 : ℤ)) (roundUnits unitsPerOne (10 ^ 4)) := by
  have hshortest : shortest (roundUnits unitsPerOne (10 ^ 4)) = ⟨['1'], -3⟩ := by decide +kernel
  have hup : unitsPerOne ≤ roundUnits unitsPerOne (10 ^ 4) * 10 ^ 4 := by decide +kernel
  generalize hbound : roundUnits unitsPerOne (10 ^ 4) = bound at hshortest hup
  refine ⟨roundsTo_of_eq_div (by decide) ?_ hbound, ?_, ?_⟩
  · rw [zpow_neg, inv_mul_eq_div, Nat.cast_pow, Nat.cast_ofNat, ← zpow_natCast]
    rfl
  · have hcast : (unitsPerOne : ℚ) ≤ (bound * 10 ^ 4 : ℕ) := Nat.cast_le.2 hup
    rw [Nat.cast_mul, Nat.cast_pow, Nat.cast_ofNat, ← zpow_natCast] at hcast
    rw [amount, zpow_neg, inv_eq_one_div, div_le_div_iff₀ (by norm_num) unitsPerOne_cast_pos,
      one_mul]
    exact hcast
  · rw [hshortest, value_one]
    rfl

/-- The exponent of the shortest digits is in the range when the number is. -/
theorem point_shortest_range {units : Nat} (hgrid : gridStep units ∣ units) (hpos : 0 < units) :
    (-4 ≤ (shortest units).point - 1 ∧ (shortest units).point - 1 < 16) ↔
      10 ^ (-4 : ℤ) ≤ amount units ∧ amount units < 10 ^ (16 : ℤ) := by
  obtain ⟨c, place, hshortest, _⟩ := shortest_fewest hgrid hpos
  have hround := roundsTo_shortest hgrid hpos
  rw [value_shortest hshortest, atPlace_eq_zpow] at hround
  have hpower := pow_le_value_iff (hround.ne_zero hpos) place
  rw [← hshortest] at hpower
  rw [← not_le, ← not_le, ← hpower, ← hpower, sharp_ten_pow_neg_four.le_value_iff hgrid hpos,
    sharp_ten_pow_sixteen.le_value_iff hgrid hpos]

/-! ## Signs -/

/-- The text is an optional minus sign and a body with the property. -/
def Signed (P : List Char → Prop) (text : String) : Prop :=
  ∃ negative body, text.toList = Binary64.signText negative ++ body ∧ P body

theorem signed_iff {P : List Char → Prop} (hP : ∀ body, P body → ∃ c rest, body = c :: rest ∧
    c.isDigit = true) {c : Char} {rest : List Char} (hc : c.isDigit = true) (negative : Bool) :
    Signed P (String.ofList (Binary64.signText negative ++ c :: rest)) ↔ P (c :: rest) := by
  constructor
  · rintro ⟨sign, body, heq, hbody⟩
    obtain ⟨c', rest', rfl, hc'⟩ := hP body hbody
    rw [String.toList_ofList] at heq
    have hsplit := congrArg splitSign heq
    rw [splitSign_signText _ hc, splitSign_signText _ hc'] at hsplit
    rwa [(Prod.mk.inj hsplit).2]
  · intro h
    exact ⟨negative, _, String.toList_ofList, h⟩

theorem startsWithDigit_of_isPositional {body : List Char} (h : IsPositional body) :
    ∃ c rest, body = c :: rest ∧ c.isDigit = true := by
  obtain ⟨whole, fraction, rfl, hne, _, hdigits⟩ := h
  obtain ⟨c, rest, rfl⟩ := List.exists_cons_of_ne_nil hne
  exact ⟨c, _, rfl, hdigits c List.mem_cons_self⟩

theorem startsWithDigit_of_isExponential {body : List Char} (h : IsExponential body) :
    ∃ c rest, body = c :: rest ∧ c.isDigit = true := by
  obtain ⟨first, fraction, sign, exponent, rfl, hfirst, _⟩ := h
  exact ⟨first, _, rfl, hfirst⟩

end Decimal

namespace Binary64

variable {negative : Bool} {units : Nat} {onGrid : OnGrid units}

theorem abs_exact : |(finite negative units onGrid).exact| = amount units := by
  have hnonneg := (roundsTo_amount onGrid.2).nonneg
  cases negative with
  | false => exact abs_of_nonneg hnonneg
  | true => exact (abs_neg _).trans (abs_of_nonneg hnonneg)

theorem exact_eq_zero_iff : (finite negative units onGrid).exact = 0 ↔ units = 0 := by
  rw [← abs_eq_zero, abs_exact, amount, div_eq_zero_iff, or_iff_left unitsPerOne_cast_pos.ne',
    Nat.cast_eq_zero]

/-- The magnitudes that are written positionally. -/
def InPositionalRange (x : Binary64) : Prop :=
  x.exact = 0 ∨ 10 ^ (-4 : ℤ) ≤ |x.exact| ∧ |x.exact| < 10 ^ (16 : ℤ)

theorem point_range_iff (negative : Bool) (onGrid : OnGrid units) :
    numberLayout.leastPositional ≤ (digitsOf units).point - 1 ∧
      (digitsOf units).point - 1 < numberLayout.leastExponential ↔
      (finite negative units onGrid).InPositionalRange := by
  unfold InPositionalRange
  rw [exact_eq_zero_iff, abs_exact]
  unfold digitsOf
  split_ifs with hzero
  · exact iff_of_true (by decide) (Or.inl hzero)
  · rw [or_iff_right hzero]
    exact point_shortest_range onGrid.2 (Nat.pos_of_ne_zero hzero)

/-- The notation of a finite number is that of its digits. -/
theorem notation_text : (Signed IsPositional (finite negative units onGrid).text ↔
      (finite negative units onGrid).InPositionalRange) ∧
    (Signed IsExponential (finite negative units onGrid).text ↔
      ¬ (finite negative units onGrid).InPositionalRange) := by
  obtain ⟨hdigits, _⟩ := digitsOf_spec onGrid.2
  obtain ⟨hpositional, hexponential⟩ := notation_write (by decide : 2 ≤ numberLayout.exponentWidth)
    hdigits
  obtain ⟨c, rest, hbody, hc⟩ := (denotes_write numberLayout hdigits).startsWithDigit
  rw [point_range_iff negative onGrid] at hpositional
  rw [hpositional] at hexponential
  rw [text, chars, hbody, signed_iff (fun _ => startsWithDigit_of_isPositional) hc,
    signed_iff (fun _ => startsWithDigit_of_isExponential) hc, ← hbody]
  exact ⟨hpositional, hexponential⟩

/-- A finite number's text reads back as it and as no other number. Unless the number is zero, the
text is a shortest literal for it, and the magnitude decides between the notations. -/
theorem text_is_shortest {x : Binary64} (hx : x.IsFinite) :
    real? x.text = some x ∧ (∀ y : Binary64, y.text = x.text → y = x) ∧
      (x.exact ≠ 0 → ∃ l, literal? x.text = some l ∧ IsShortest l x) ∧
      (Signed IsPositional x.text ↔ x.InPositionalRange) ∧
      (Signed IsExponential x.text ↔ ¬ x.InPositionalRange) := by
  obtain ⟨negative, units, onGrid, rfl⟩ := hx
  have hreads := real?_text (finite negative units onGrid)
  refine ⟨hreads, fun y hy => ?_, fun hne => ?_, notation_text⟩
  · rw [← hy, real?_text] at hreads
    exact Option.some.inj hreads
  · rw [ne_eq, exact_eq_zero_iff] at hne
    obtain ⟨c, e, hliteral, hvalue⟩ := literal?_text negative onGrid
    rw [real?_eq_map_value, hliteral] at hreads
    rw [digitsOf, if_neg hne] at hvalue
    exact ⟨_, hliteral, isShortest_of_value (Nat.pos_of_ne_zero hne) (Option.some.inj hreads)
      hvalue⟩

theorem onGrid_one : OnGrid 1 := by decide +kernel

/-- The negative number nearest to zero is written with one digit. -/
theorem text_is_shortest_of_least : (finite true 1 onGrid_one).IsFinite ∧
    (finite true 1 onGrid_one).text = "-5e-324" ∧ (finite true 1 onGrid_one).exact ≠ 0 ∧
      (∃ l, literal? "-5e-324" = some l ∧ IsShortest l (finite true 1 onGrid_one)) ∧
      Signed IsExponential "-5e-324" := by
  have hfinite : (finite true 1 onGrid_one).IsFinite := ⟨true, 1, onGrid_one, rfl⟩
  have htext : (finite true 1 onGrid_one).text = "-5e-324" := by decide +kernel
  have hne : (finite true 1 onGrid_one).exact ≠ 0 := exact_eq_zero_iff.not.2 Nat.one_ne_zero
  have hsmall : amount 1 < 10 ^ (-4 : ℤ) := by
    have hone : 10 ^ 4 < unitsPerOne := by decide +kernel
    rw [amount, zpow_neg, inv_eq_one_div, div_lt_div_iff₀ unitsPerOne_cast_pos (by norm_num),
      Nat.cast_one, one_mul, one_mul]
    exact_mod_cast hone
  have hrange : ¬ (finite true 1 onGrid_one).InPositionalRange := by
    unfold InPositionalRange
    rw [abs_exact, or_iff_right hne, not_and_or]
    exact Or.inl (not_le.2 hsmall)
  obtain ⟨_, _, hshortest, _, hexponential⟩ := text_is_shortest hfinite
  rw [htext] at hshortest hexponential
  exact ⟨hfinite, htext, hne, hshortest hne, hexponential.2 hrange⟩

end Binary64

end WavePlot
