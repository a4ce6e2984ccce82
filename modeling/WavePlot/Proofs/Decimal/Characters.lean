import WavePlot.Proofs.Decimal.Notation
import WavePlot.Proofs.Decimal.RoundTrip

/-!
# The characters of written numbers

A written number is made of digits, signs, points and the letters of exponents and of the words for
NaN and infinity. So no brace, no blank and no colon stands in one.
-/

namespace WavePlot

namespace Decimal

/-- A digit, a sign, a point, the mark of an exponent or a letter of `inf` and `nan`. -/
def IsNumeric (c : Char) : Prop :=
  c.isDigit = true ∨ c ∈ ['+', '-', '.', 'e', 'i', 'n', 'f', 'a']

instance (c : Char) : Decidable (IsNumeric c) := inferInstanceAs (Decidable (_ ∨ _))

variable {c : Char} {body : List Char}

theorem isNumeric_of_isPositional (h : IsPositional body) (hc : c ∈ body) : IsNumeric c := by
  obtain ⟨whole, fraction, rfl, _, _, hdigits⟩ := h
  rcases List.mem_append.1 hc with hc | hc
  · exact Or.inl (hdigits c (List.mem_append_left _ hc))
  · rcases List.mem_cons.1 hc with rfl | hc
    · decide
    · exact Or.inl (hdigits c (List.mem_append_right _ hc))

theorem isNumeric_of_isExponential (h : IsExponential body) (hc : c ∈ body) : IsNumeric c := by
  obtain ⟨first, fraction, sign, exponent, rfl, hfirst, hfraction, hsign, _, hexponent⟩ := h
  rcases List.mem_cons.1 hc with rfl | hc
  · exact Or.inl hfirst
  rcases List.mem_append.1 hc with hc | hc
  · rcases hfraction with rfl | ⟨others, rfl, _, hothers⟩
    · cases hc
    · rcases List.mem_cons.1 hc with rfl | hc
      · decide
      · exact Or.inl (hothers c hc)
  · rcases List.mem_cons.1 hc with rfl | hc
    · decide
    rcases List.mem_cons.1 hc with rfl | hc
    · rcases hsign with rfl | rfl <;> decide
    · exact Or.inl (hexponent c hc)

theorem isNumeric_of_mem_signText {negative : Bool} (hc : c ∈ Binary64.signText negative) :
    IsNumeric c := by
  cases negative with
  | false => cases hc
  | true =>
    rw [List.mem_singleton.1 hc]
    decide

theorem isNumeric_of_mem_text {x : Binary64} (hc : c ∈ x.text.toList) : IsNumeric c := by
  rw [Binary64.text, String.toList_ofList] at hc
  cases x with
  | nan =>
    have hall : ['n', 'a', 'n'].all (fun c => IsNumeric c) = true := by decide
    exact of_decide_eq_true (List.all_eq_true.1 hall c hc)
  | infinite negative =>
    have hall : ['i', 'n', 'f'].all (fun c => IsNumeric c) = true := by decide
    rcases List.mem_append.1 hc with hc | hc
    · exact isNumeric_of_mem_signText hc
    · exact of_decide_eq_true (List.all_eq_true.1 hall c hc)
  | finite negative units onGrid =>
    obtain ⟨hdigits, _⟩ := Binary64.digitsOf_spec onGrid.2
    obtain ⟨_, hexponential⟩ :=
      notation_write (by decide : 2 ≤ numberLayout.exponentWidth) hdigits
    rcases List.mem_append.1 hc with hc | hc
    · exact isNumeric_of_mem_signText hc
    · by_cases hpositional : IsPositional (numberLayout.write (Binary64.digitsOf units))
      · exact isNumeric_of_isPositional hpositional hc
      · exact isNumeric_of_isExponential (hexponential.2 hpositional) hc

theorem isNumeric_of_mem_toString {n : Int} (hc : c ∈ (toString n).toList) : IsNumeric c := by
  rw [toList_toString] at hc
  rcases List.mem_append.1 hc with hc | hc
  · exact isNumeric_of_mem_signText hc
  · exact Or.inl (isDigit_of_mem_toDigits c hc)

end Decimal

end WavePlot
