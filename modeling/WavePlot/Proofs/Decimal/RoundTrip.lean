import WavePlot.Binary64.Text
import WavePlot.Decimal.Numeral
import WavePlot.Proofs.Decimal.Layout

/-!
# Numbers survive being written and read

Every binary64 number reads back from its own text: either zero with its sign, NaN, the
infinities, and each finite number by the digits that round to it. Every integer that keeps within
the digit limit reads back from its numeral.
-/

namespace WavePlot

namespace Binary64

/-- The digits of a magnitude stand for a number that rounds to it, also for zero. -/
theorem digitsOf_spec {units : Nat} (hgrid : gridStep units ∣ units) :
    (digitsOf units).WellFormed ∧ ∃ num den : Nat, 0 < den ∧
      (digitsOf units).value * unitsPerOne = num / den ∧ roundUnits num den = units := by
  unfold digitsOf
  split_ifs with hzero
  · have hdigit : ∀ c ∈ ['0'], c.isDigit = true := by
      intro c hc
      rw [List.mem_singleton.1 hc]
      rfl
    refine ⟨⟨by simp, hdigit⟩, 0, 1, Nat.one_pos, ?_, ?_⟩
    · have hvalue : Decimal.Digits.value ⟨['0'], 1⟩ = 0 := by
        simp [Decimal.Digits.value, Nat.ofDigitChars_cons]
      rw [hvalue, zero_mul, Nat.cast_zero, zero_div]
    · rw [hzero, roundUnits_eq_zero (by decide)]
  · exact Decimal.shortest_spec hgrid (Nat.pos_of_ne_zero hzero)

theorem isPlain_of_mem_signText {negative : Bool} {c : Char} (hc : c ∈ signText negative) :
    Decimal.IsPlain c := by
  cases negative with
  | false => cases hc
  | true =>
    rw [List.mem_singleton.1 hc]
    decide

end Binary64

namespace Decimal

open Binary64 (signText)

theorem toLower_of_isDigit {c : Char} (h : c.isDigit = true) : c.toLower = c := by
  unfold Char.toLower
  rw [dif_neg]
  intro hupper
  have hrange := Char.isDigit_iff_toNat.1 h
  have hnine : '9'.toNat = 57 := rfl
  have hlow : 65 ≤ c.toNat := hupper.1
  omega

theorem splitSign_signText (negative : Bool) {c : Char} {rest : List Char}
    (hc : c.isDigit = true) :
    splitSign (signText negative ++ c :: rest) = (negative, c :: rest) := by
  cases negative with
  | true => rfl
  | false =>
    refine splitSign_eq_self ?_ ?_ <;>
    · rintro rfl
      revert hc
      decide

/-- A signed numeral is read as a number, not as a word. -/
theorem ofPlain?_signed (negative : Bool) {c : Char} {rest : List Char} (hc : c.isDigit = true) :
    Literal.ofPlain? (signText negative ++ c :: rest) =
      (unsigned? (c :: rest)).map fun (coefficient, exponent) =>
        .number negative coefficient exponent := by
  have hword : ∀ {letter : Char} {letters : List Char}, letter.isDigit = false →
      (c :: rest).map Char.toLower ≠ letter :: letters := by
    intro letter letters hletter heq
    rw [List.map_cons, toLower_of_isDigit hc] at heq
    rw [← (List.cons.inj heq).1, hc] at hletter
    cases hletter
  unfold Literal.ofPlain?
  rw [splitSign_signText negative hc]
  dsimp only
  rw [if_neg, if_neg]
  · exact hword (by decide)
  · rw [Bool.or_eq_true, decide_eq_true_iff, decide_eq_true_iff]
    exact not_or.2 ⟨hword (by decide), hword (by decide)⟩

/-- The literal that a text spells. -/
def literal? (text : String) : Option Literal := (plain? text.toList).bind Literal.ofPlain?

theorem real?_eq_map_value (text : String) : real? text = (literal? text).map Literal.value := by
  unfold real? literal?
  cases plain? text.toList <;> rfl

/-- A finite number is written as a literal with its sign and the number of its digits. -/
theorem literal?_text (negative : Bool) {units : Nat} (onGrid : OnGrid units) : ∃ c e,
    literal? (Binary64.finite negative units onGrid).text = some (.number negative c e) ∧
      (c : ℚ) * 10 ^ e = (Binary64.digitsOf units).value := by
  obtain ⟨hdigits, _⟩ := Binary64.digitsOf_spec onGrid.2
  obtain ⟨⟨c, rest, hbody, hc⟩, hplain, coefficient, exponent, hread, hq⟩ :=
    denotes_write numberLayout hdigits
  have hchars : ∀ c ∈ signText negative ++ numberLayout.write (Binary64.digitsOf units),
      IsPlain c := by
    intro c hc
    exact (List.mem_append.1 hc).elim Binary64.isPlain_of_mem_signText (hplain c)
  refine ⟨coefficient, exponent, ?_, hq⟩
  rw [hbody] at hread
  rw [literal?, Binary64.text, String.toList_ofList, Binary64.chars, plain?_eq_self hchars, hbody,
    Option.bind_some, ofPlain?_signed negative hc, hread]
  rfl

/-- Every number reads back from its own text. -/
theorem real?_text (x : Binary64) : real? x.text = some x := by
  cases x with
  | nan => rfl
  | infinite negative => cases negative <;> rfl
  | finite negative units onGrid =>
    obtain ⟨_, num, den, hden, hvalue, hround⟩ := Binary64.digitsOf_spec onGrid.2
    obtain ⟨c, e, hliteral, hq⟩ := literal?_text negative onGrid
    rw [← hq] at hvalue
    rw [real?_eq_map_value, hliteral, Option.map_some, Literal.value,
      nearest_eq_round negative hden hvalue, Binary64.round_eq_finite negative onGrid hround]

theorem toList_toString (n : Int) :
    (toString n).toList = signText (decide (n < 0)) ++ Nat.toDigits 10 n.natAbs := by
  rw [Int.toString_eq_repr, Int.repr_eq_if]
  by_cases hn : 0 ≤ n
  · have hmag : n.toNat = n.natAbs := by omega
    rw [if_pos hn, Nat.toList_repr, hmag, decide_eq_false (by omega)]
    rfl
  · have hmag : (-n).toNat = n.natAbs := by omega
    rw [if_neg hn, String.toList_append, Nat.toList_repr, hmag, decide_eq_true (by omega)]
    rfl

theorem isDigit_of_mem_toDigits {n : Nat} : ∀ c ∈ Nat.toDigits 10 n, c.isDigit = true :=
  fun _ hc => Nat.isDigit_of_mem_toDigits (by decide) (by decide) hc

/-- An integer's numeral is a sign and digits, and is read as it stands. -/
theorem plain?_toString (n : Int) :
    plain? (toString n).toList = some (signText (decide (n < 0)) ++ Nat.toDigits 10 n.natAbs) := by
  rw [toList_toString]
  refine plain?_eq_self fun c hc => ?_
  rcases List.mem_append.1 hc with hc | hc
  · exact Binary64.isPlain_of_mem_signText hc
  · exact isPlain_of_isDigit (isDigit_of_mem_toDigits c hc)

theorem exists_toDigits_eq_cons (n : Nat) :
    ∃ c rest, Nat.toDigits 10 n = c :: rest ∧ c.isDigit = true := by
  obtain ⟨c, rest, heq⟩ := List.exists_cons_of_ne_nil (@Nat.toDigits_ne_nil n 10)
  exact ⟨c, rest, heq, isDigit_of_mem_toDigits c (heq ▸ List.mem_cons_self)⟩

/-- Every integer within the digit limit reads back from its numeral. -/
theorem integer?_toString {n : Int} (h : hasNumeral n = true) :
    integer? (toString n) = some n := by
  have hlength : (Nat.toDigits 10 n.natAbs).length ≤ digitLimit := by
    refine (Nat.length_toDigits_le_iff (by decide) (by decide)).2 ?_
    unfold hasNumeral at h
    generalize digitLimit = limit at h ⊢
    exact of_decide_eq_true h
  have hsplit : splitSign (signText (decide (n < 0)) ++ Nat.toDigits 10 n.natAbs) =
      (decide (n < 0), Nat.toDigits 10 n.natAbs) := by
    obtain ⟨c, rest, heq, hc⟩ := exists_toDigits_eq_cons n.natAbs
    rw [heq]
    exact splitSign_signText _ hc
  have hsigned : signed (decide (n < 0)) n.natAbs = n := by
    unfold signed
    split_ifs with hneg
    · have hlt := of_decide_eq_true hneg
      omega
    · have hge := mt decide_eq_true hneg
      omega
  unfold integer?
  rw [plain?_toString]
  simp only [Option.bind_eq_bind, Option.bind_some, hsplit, if_pos hlength,
    natural?_digits Nat.toDigits_ne_nil isDigit_of_mem_toDigits, Nat.ofDigitChars_ten_toDigits,
    Option.map_some, hsigned]

/-- An integer's numeral is read as a number by rounding the integer. -/
theorem real?_toString (n : Int) : real? (toString n) = some (Binary64.ofInt n) := by
  have hwhole : unsigned? (Nat.toDigits 10 n.natAbs ++ []) = some (_, 0) :=
    unsigned?_whole isDigit_of_mem_toDigits Nat.toDigits_ne_nil (by simp) rfl
  rw [List.append_nil, Nat.ofDigitChars_ten_toDigits] at hwhole
  obtain ⟨c, rest, heq, hc⟩ := exists_toDigits_eq_cons n.natAbs
  have hvalue : nearest (decide (n < 0)) n.natAbs 0 = Binary64.ofInt n := by
    have hscaled := scaled_natCast (decide (n < 0)) n.natAbs 0
    rw [pow_zero, Nat.mul_one] at hscaled
    exact (nearest_eq_scaled _ _ _).trans hscaled
  rw [real?_eq_map_value, literal?, plain?_toString, Option.bind_some, heq, ofPlain?_signed _ hc,
    ← heq, hwhole]
  exact congrArg some hvalue

end Decimal

end WavePlot
