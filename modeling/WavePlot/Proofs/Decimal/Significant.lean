import WavePlot.Proofs.Decimal.Numeral
import WavePlot.Proofs.Decimal.Shortest

/-!
# Significant digits

The zeros at the end of a coefficient can be traded for its power of ten, so what counts is the
number of digits without them. Decimals of the same value have the same count.
-/

namespace WavePlot

namespace Text

theorem dropEndWhile_append_of_all {p : Char → Bool} {text dropped : List Char}
    (h : ∀ c ∈ dropped, p c = true) : dropEndWhile p (text ++ dropped) = dropEndWhile p text := by
  have hnil : dropEndWhile p dropped = [] := by
    induction dropped with
    | nil => rfl
    | cons c rest ih =>
      have hrest := ih fun x hx => h x (List.mem_cons_of_mem c hx)
      have hc := h c List.mem_cons_self
      simp only [dropEndWhile, hrest, hc, if_true]
  induction text with
  | nil => exact hnil
  | cons c rest ih => simp only [List.cons_append, dropEndWhile, ih]

theorem length_dropEndWhile_le (p : Char → Bool) (text : List Char) :
    (dropEndWhile p text).length ≤ text.length := by
  obtain ⟨dropped, heq, _⟩ := dropEndWhile_append_dropped p text
  have hlength := congrArg List.length heq
  rw [List.length_append] at hlength
  omega

end Text

namespace Decimal

/-- The number of significant digits of a coefficient: its digits without the zeros at their end. -/
def significant (coefficient : Nat) : Nat :=
  (Text.dropEndWhile (· == '0') (Nat.toDigits 10 coefficient)).length

theorem significant_le_digitCount (n : Nat) : significant n ≤ digitCount n :=
  Text.length_dropEndWhile_le _ _

theorem significant_mul_ten (n : Nat) : significant (10 * n) = significant n := by
  rcases Nat.eq_zero_or_pos n with rfl | hn
  · rfl
  · have hdigits := Nat.toDigits_append_toDigits (b := 10) (by decide) hn (d := 0) (by decide)
    rw [Nat.add_zero] at hdigits
    unfold significant
    rw [← hdigits, Text.dropEndWhile_append_of_all]
    intro c hc
    rw [Nat.toDigits_zero, List.mem_singleton] at hc
    rw [hc]
    rfl

theorem significant_mul_pow (n zeros : Nat) : significant (n * 10 ^ zeros) = significant n := by
  induction zeros with
  | zero => rw [pow_zero, Nat.mul_one]
  | succ zeros ih =>
    have hnext : n * 10 ^ (zeros + 1) = 10 * (n * 10 ^ zeros) := by ring
    rw [hnext, significant_mul_ten, ih]

/-- A coefficient is a shorter one of its significant digits alone, and zeros. -/
theorem exists_eq_mul_pow (n : Nat) : ∃ kept zeros, n = kept * 10 ^ zeros ∧
    kept < 10 ^ significant n := by
  obtain ⟨zeros, hzeros⟩ := exists_toDigits_eq n
  unfold significant
  have hdigits : ∀ c ∈ Text.dropEndWhile (· == '0') (Nat.toDigits 10 n), c.isDigit = true := by
    intro c hc
    have hmem : c ∈ Nat.toDigits 10 n := by
      rw [hzeros]
      exact List.mem_append_left _ hc
    exact Nat.isDigit_of_mem_toDigits (by decide) (by decide) hmem
  generalize Text.dropEndWhile (· == '0') (Nat.toDigits 10 n) = kept at hzeros hdigits ⊢
  refine ⟨Nat.ofDigitChars 10 kept 0, zeros, ?_, ?_⟩
  · have hread := congrArg (Nat.ofDigitChars 10 · 0) hzeros
    simpa [Nat.ofDigitChars_append, Nat.mul_comm] using hread
  · have hlt := ofDigitChars_lt hdigits 0
    rwa [Nat.zero_add, Nat.one_mul] at hlt

theorem digitCount_le {n k : Nat} (hk : 0 < k) (h : n < 10 ^ k) : digitCount n ≤ k :=
  (Nat.length_toDigits_le_iff (by decide) hk).2 h

theorem significant_le {n k : Nat} (h : n ≤ 10 ^ k) (hk : 0 < k) : significant n ≤ k := by
  rcases h.lt_or_eq with hlt | rfl
  · exact (significant_le_digitCount n).trans (digitCount_le hk hlt)
  · have hone := significant_mul_pow 1 k
    rw [Nat.one_mul] at hone
    rw [hone]
    exact hk

/-- Decimals of the same value have the same number of significant digits. -/
theorem significant_eq_of_value_eq {a b : Nat} {e f : Int}
    (h : (a : ℚ) * 10 ^ e = b * 10 ^ f) : significant a = significant b := by
  have hpower : ∀ {a b : Nat} {e f : Int}, e ≤ f → (a : ℚ) * 10 ^ e = b * 10 ^ f →
      significant a = significant b := by
    intro a b e f hle h
    obtain ⟨zeros, rfl⟩ := Int.le.dest hle
    have hten : (10 : ℚ) ^ e ≠ 0 := by positivity
    rw [zpow_add₀ (by norm_num), zpow_natCast, mul_comm ((10 : ℚ) ^ e), ← mul_assoc] at h
    have hnat : a = b * 10 ^ zeros := by exact_mod_cast mul_right_cancel₀ hten h
    rw [hnat, significant_mul_pow]
  rcases le_total e f with hle | hle
  · exact hpower hle h
  · exact (hpower hle h.symm).symm

end Decimal

end WavePlot
