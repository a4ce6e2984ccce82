import WavePlot.Proofs.Decimal.RoundTrip
import WavePlot.Proofs.Settings.Locality
import WavePlot.Proofs.Settings.NumericAssignment

/-!
# Words that write a value

A value can be assigned as it is, or by a word with its text. Reading the text gives a number back,
rounds an integer to the number that taking it as a number also gives, and gives a line width back
as long as it has a numeral; texts are not read at all. Either way has the same effect.
-/

namespace WavePlot

open Binary64 (overflowBound)

/-- The text writes the value for a parameter of the kind. -/
inductive Kind.Writes : Kind → Value → Wide → Prop where
  | number (x : Binary64) : Writes .real (.real x) x.text
  | integral {n : Int} (hlt : |(n : ℚ)| < overflowBound) :
      Writes .real (.integer n) (toString n)
  | integer {n : Int} (hdigits : Decimal.digitCount n.natAbs ≤ Decimal.digitLimit) :
      Writes .integer (.integer n) (toString n)
  | text (text : Wide) : Writes .text (.text text) text

namespace Settings

variable {s : Settings} {p : Parameter} {v : Value} {text : Wide}

/-- An integer in range and its numeral are taken for the same number. -/
theorem perform_apply_numeral {n : Int} (hp : p.kind = .real) (hlt : |(n : ℚ)| < overflowBound) :
    s.perform (.apply (p.word (toString n))) = s.perform (.set p (.integer n)) := by
  have hread : p.kind.read? (toString n) = some (.real (.ofInt n)) := by
    rw [hp, Kind.read?_real, Decimal.real?_toString, Option.map_some]
  calc s.perform (.apply (p.word (toString n)))
      = s.perform (.set p (.real (.ofInt n))) := perform_apply_word hread
    _ = s.perform (.set p (.integer n)) :=
      (perform_set_isNumber hp (Value.not_holdsLong_of_lt hlt)
        ((Value.isNumber_integer_iff hlt).2 rfl)).symm

/-- A word that writes a value has exactly the effect of assigning the value. -/
theorem apply_written_eq_set (h : p.kind.Writes v text) :
    s.perform (.apply (p.word text)) = s.perform (.set p v) ∧
      ∀ e, (s.perform (.set p v)).1 = .error e → (s.perform (.set p v)).2 = s := by
  refine ⟨?_, fun e he => perform_snd_of_error he⟩
  generalize hk : p.kind = kind at h
  cases h with
  | number x =>
    refine perform_apply_word ?_
    rw [hk, Kind.read?_real, Decimal.real?_text, Option.map_some]
  | integral hlt => exact perform_apply_numeral hk hlt
  | @integer n hdigits =>
    have hnumeral : Decimal.hasNumeral n = true := by
      rw [← Bool.not_eq_false, Decimal.hasNumeral_eq_false_iff]
      exact Nat.not_lt.2 hdigits
    refine perform_apply_word ?_
    rw [hk, Kind.read?_integer, Decimal.integer?_toString hnumeral, Option.map_some]
  | text text =>
    refine perform_apply_word ?_
    rw [hk, Kind.read?]

/-- A refused number, an integer for the shift and a line width that is too small. -/
theorem apply_written_of_numerals :
    (default.perform (.apply "--period=-inf") =
        default.perform (.set .period (.real (.infinite true))) ∧
      (default.perform (.set .period (.real (.infinite true)))).2 = default) ∧
    default.perform (.apply "--shift=-7") = default.perform (.set .shift (.integer (-7))) ∧
    default.perform (.apply "--lineWidth=0") = default.perform (.set .lineWidth (.integer 0)) := by
  have hperiod := @apply_written_eq_set default .period _ _ (.number (.infinite true))
  have hseven : |((-7 : ℤ) : ℚ)| < overflowBound :=
    Binary64.abs_intCast_lt_overflowBound_iff.2 (by decide +kernel)
  have hshift := @apply_written_eq_set default .shift _ _ (.integral hseven)
  have hwidth := @apply_written_eq_set default .lineWidth (.integer 0) _ (.integer (by decide))
  exact ⟨⟨hperiod.1, hperiod.2 (.notPositive "period" (.infinite true)) rfl⟩, hshift.1, hwidth.1⟩

end Settings

end WavePlot
