import WavePlot.Decimal.Plain

/-!
# Text that is plain already

Number text in ASCII without blanks and underscores is read as it stands: there is nothing to
trim, no digit of another script to replace and no group to join. A sign in front is split off and
nothing else is, and digits are read at their value.
-/

namespace WavePlot

namespace Text

theorem dropEndWhile_append_dropped (p : Char → Bool) (text : List Char) :
    ∃ dropped, text = dropEndWhile p text ++ dropped ∧ ∀ c ∈ dropped, p c = true := by
  induction text with
  | nil => exact ⟨[], rfl, by simp⟩
  | cons c rest ih =>
    obtain ⟨dropped, heq, hall⟩ := ih
    unfold dropEndWhile
    cases hkept : dropEndWhile p rest with
    | nil =>
      rw [hkept, List.nil_append] at heq
      subst heq
      by_cases hc : p c = true
      · refine ⟨c :: rest, by simp [hc], ?_⟩
        intro x hx
        rcases List.mem_cons.1 hx with rfl | hx
        · exact hc
        · exact hall x hx
      · exact ⟨rest, by simp [hc], hall⟩
    | cons k kept =>
      rw [hkept] at heq
      exact ⟨dropped, congrArg (c :: ·) heq, hall⟩

theorem dropEndWhile_eq_self {p : Char → Bool} {text : List Char}
    (h : ∀ c ∈ text, p c = false) : dropEndWhile p text = text := by
  induction text with
  | nil => rfl
  | cons c rest ih =>
    have hrest := ih fun x hx => h x (List.mem_cons_of_mem c hx)
    have hc := h c List.mem_cons_self
    unfold dropEndWhile
    rw [hrest]
    cases rest with
    | nil => simp [hc]
    | cons d rest => rfl

theorem trim_eq_self {text : List Char} (h : ∀ c ∈ text, isBlank c = false) :
    trim text = text := by
  have hdrop : text.dropWhile isBlank = text := by
    cases text with
    | nil => rfl
    | cons c rest => simp [h c List.mem_cons_self]
  rw [trim, hdrop, dropEndWhile_eq_self h]

theorem toAsciiDigit_eq_self {c : Char} (hc : c.toNat < 128) : toAsciiDigit c = c := by
  unfold toAsciiDigit digitValue?
  by_cases hdigit : c.isDigit = true
  · have hrange := Char.isDigit_iff_toNat.1 hdigit
    simp only [hdigit, if_true]
    have hlt : c.toNat - 48 < 10 := by
      have hnine : '9'.toNat = 57 := rfl
      omega
    apply Char.toNat_inj.1
    rw [Nat.toNat_digitChar_of_lt_ten hlt]
    have hzero : '0'.toNat = 48 := rfl
    omega
  · simp only [hdigit, hc, if_true]
    rfl

end Text

namespace Decimal

open Text

/-- A character that number text keeps as it is. -/
def IsPlain (c : Char) : Prop := c.toNat < 128 ∧ isBlank c = false ∧ c ≠ '_'

instance (c : Char) : Decidable (IsPlain c) := inferInstanceAs (Decidable (_ ∧ _))

theorem isPlain_of_isDigit {c : Char} (h : c.isDigit = true) : IsPlain c := by
  have hlow : '0'.toNat = 48 := rfl
  have hhigh : '9'.toNat = 57 := rfl
  have hrange := Char.isDigit_iff_toNat.1 h
  refine ⟨by omega, ?_, ?_⟩
  · simp only [isBlank, Bool.or_eq_false_iff, Bool.and_eq_false_iff, beq_eq_false_iff_ne,
      decide_eq_false_iff_not]
    omega
  · rintro rfl
    revert h
    decide

theorem ungroup_eq_self {text : List Char} (afterDigit : Bool) (h : ∀ c ∈ text, c ≠ '_') :
    ungroup afterDigit text = some text := by
  induction text generalizing afterDigit with
  | nil => rfl
  | cons c rest ih =>
    have hrest := ih c.isDigit fun x hx => h x (List.mem_cons_of_mem c hx)
    unfold ungroup
    rw [if_neg (h c List.mem_cons_self), hrest]
    rfl

/-- Plain text is read as it stands. -/
theorem plain?_eq_self {text : List Char} (h : ∀ c ∈ text, IsPlain c) :
    plain? text = some text := by
  have hmap : text.map toAsciiDigit = text :=
    (List.map_congr_left fun c hc => toAsciiDigit_eq_self (h c hc).1).trans (List.map_id' text)
  rw [plain?, hmap, trim_eq_self fun c hc => (h c hc).2.1,
    ungroup_eq_self false fun c hc => (h c hc).2.2]

theorem splitSign_eq_self {c : Char} {rest : List Char} (hminus : c ≠ '-') (hplus : c ≠ '+') :
    splitSign (c :: rest) = (false, c :: rest) := by
  unfold splitSign
  split
  · rename_i heq
    exact absurd (List.cons.inj heq).1 hminus
  · rename_i heq
    exact absurd (List.cons.inj heq).1 hplus
  · rfl

theorem natural?_digits {digits : List Char} (hne : digits ≠ [])
    (h : ∀ c ∈ digits, c.isDigit = true) :
    natural? digits = some (Nat.ofDigitChars 10 digits 0) := by
  have hall : digits.all Char.isDigit = true := List.all_eq_true.2 h
  simp [natural?, hne, hall]

end Decimal

end WavePlot
