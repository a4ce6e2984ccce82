import Mathlib.Algebra.Group.Nat.Defs
import Mathlib.Tactic.SplitIfs
import WavePlot.Decimal.Numeral
import WavePlot.Proofs.Decimal.Plain

/-!
# Integers that have been read

Digits denote a number below the power of ten that their count gives. The digit limit on reading
is therefore a limit on the value: whatever integer has been read can be written.
-/

namespace WavePlot.Decimal

theorem ofDigitChars_lt {digits : List Char} (h : ∀ c ∈ digits, c.isDigit = true) (start : Nat) :
    Nat.ofDigitChars 10 digits start < (start + 1) * 10 ^ digits.length := by
  induction digits generalizing start with
  | nil => simp
  | cons c rest ih =>
    have hdigit : c.toNat - '0'.toNat ≤ 9 := by
      have hnine : '9'.toNat = 57 := rfl
      have hzero : '0'.toNat = 48 := rfl
      have hrange := Char.isDigit_iff_toNat.1 (h c List.mem_cons_self)
      omega
    have hrest := ih (fun x hx => h x (List.mem_cons_of_mem c hx))
      (10 * start + (c.toNat - '0'.toNat))
    rw [Nat.ofDigitChars_cons, List.length_cons, Nat.pow_succ']
    calc Nat.ofDigitChars 10 rest (10 * start + (c.toNat - '0'.toNat))
        < (10 * start + (c.toNat - '0'.toNat) + 1) * 10 ^ rest.length := hrest
      _ ≤ ((start + 1) * 10) * 10 ^ rest.length := Nat.mul_le_mul_right _ (by omega)
      _ = (start + 1) * (10 * 10 ^ rest.length) := Nat.mul_assoc _ _ _

theorem natAbs_signed (negative : Bool) (magnitude : Nat) :
    (signed negative magnitude).natAbs = magnitude := by
  cases negative <;> simp [signed]

theorem natural?_lt {digits : List Char} {n : Nat} (h : natural? digits = some n) :
    n < 10 ^ digits.length := by
  unfold natural? at h
  split_ifs at h with hdigits
  simp only [Bool.and_eq_true, List.all_eq_true] at hdigits
  have hlt := ofDigitChars_lt hdigits.2 0
  rw [Nat.zero_add, Nat.one_mul] at hlt
  rwa [← Option.some.inj h]

/-- An integer that has been read keeps within the digit limit. -/
theorem hasNumeral_of_integer? {text : String} {n : Int} (h : integer? text = some n) :
    hasNumeral n = true := by
  obtain ⟨plain, _, h⟩ := Option.bind_eq_some_iff.1 h
  dsimp only at h
  split_ifs at h with hlength
  obtain ⟨magnitude, hmagnitude, rfl⟩ := Option.map_eq_some_iff.1 h
  have hlt := natural?_lt hmagnitude
  unfold hasNumeral
  rw [natAbs_signed]
  generalize digitLimit = limit at hlength ⊢
  exact decide_eq_true (Nat.lt_of_lt_of_le hlt (Nat.pow_le_pow_right (by decide) hlength))

end WavePlot.Decimal
