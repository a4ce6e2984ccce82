import WavePlot.Decimal.Layout
import WavePlot.Proofs.Decimal.Shortest

/-!
# Written forms are read at their value

In either notation the text starts with a digit, holds nothing that reading would change, and
denotes the number that its digits and point stand for. Zeros that a notation puts in front or at
the end leave that number as it is.
-/

namespace WavePlot.Decimal

/-! ## The parts of an unsigned literal -/

theorem spanDigits_append {digits rest : List Char} (hdigits : ∀ c ∈ digits, c.isDigit = true)
    (hrest : ∀ c ∈ rest.head?, c.isDigit = false) :
    spanDigits (digits ++ rest) = (digits, rest) := by
  unfold spanDigits
  rw [List.takeWhile_append_of_pos hdigits, List.dropWhile_append_of_pos hdigits]
  cases rest with
  | nil => simp
  | cons c rest =>
    have hc := hrest c rfl
    simp [hc]

theorem unsigned?_point {whole fraction rest : List Char} {e : Int}
    (hwhole : ∀ c ∈ whole, c.isDigit = true) (hfraction : ∀ c ∈ fraction, c.isDigit = true)
    (hne : whole ++ fraction ≠ []) (hrest : ∀ c ∈ rest.head?, c.isDigit = false)
    (he : exponent? rest = some e) :
    unsigned? (whole ++ '.' :: (fraction ++ rest)) =
      some (Nat.ofDigitChars 10 (whole ++ fraction) 0, e - fraction.length) := by
  have hboth : ∀ c ∈ whole ++ fraction, c.isDigit = true := by
    intro c hc
    exact (List.mem_append.1 hc).elim (hwhole c) (hfraction c)
  have hspan : spanDigits (whole ++ '.' :: (fraction ++ rest)) =
      (whole, '.' :: (fraction ++ rest)) :=
    spanDigits_append hwhole fun c hc => by cases hc; rfl
  unfold unsigned?
  rw [hspan]
  simp only [spanFraction, spanDigits_append hfraction hrest, he,
    natural?_digits hne hboth, Option.bind_eq_bind, Option.bind_some]

theorem unsigned?_whole {whole rest : List Char} {e : Int}
    (hwhole : ∀ c ∈ whole, c.isDigit = true) (hne : whole ≠ [])
    (hrest : ∀ c ∈ rest.head?, c.isDigit = false ∧ c ≠ '.') (he : exponent? rest = some e) :
    unsigned? (whole ++ rest) = some (Nat.ofDigitChars 10 whole 0, e) := by
  have hspan : spanDigits (whole ++ rest) = (whole, rest) :=
    spanDigits_append hwhole fun c hc => (hrest c hc).1
  have hfraction : spanFraction rest = ([], rest) := by
    unfold spanFraction
    split
    · exact absurd rfl (hrest '.' rfl).2
    · rfl
  unfold unsigned?
  rw [hspan]
  simp only [hfraction, he, List.append_nil, natural?_digits hne hwhole, Option.bind_eq_bind,
    Option.bind_some, List.length_nil, Nat.cast_zero, sub_zero]

/-- Zeros around digits multiply their number by a power of ten. -/
theorem ofDigitChars_zeros_around (digits : List Char) (front back : Nat) :
    Nat.ofDigitChars 10 (List.replicate front '0' ++ digits ++ List.replicate back '0') 0 =
      10 ^ back * Nat.ofDigitChars 10 digits 0 := by
  rw [Nat.ofDigitChars_append, Nat.ofDigitChars_append, Nat.ofDigitChars_replicate_zero,
    Nat.ofDigitChars_replicate_zero, Nat.mul_zero]

/-! ## Positional notation -/

theorem isDigit_of_mem_zeros {n : Nat} {c : Char} (hc : c ∈ List.replicate n '0') :
    c.isDigit = true := by
  rw [List.eq_of_mem_replicate hc]
  rfl

/-- A positional text is digits on both sides of a point, and these are the digits of the number
among zeros. -/
theorem positional_eq {d : Digits} (hd : d.WellFormed) : ∃ whole fraction front back,
    positional d = whole ++ '.' :: fraction ∧ whole ≠ [] ∧
      whole ++ fraction = List.replicate front '0' ++ d.digits ++ List.replicate back '0' ∧
      (back : Int) - fraction.length = d.point - d.digits.length := by
  obtain ⟨hne, _⟩ := hd
  have hlen : 0 < d.digits.length := List.length_pos_iff.2 hne
  unfold positional
  dsimp only
  rcases Nat.eq_zero_or_pos d.point.toNat with hzero | hpos
  · refine ⟨['0'], List.replicate (-d.point).toNat '0' ++ d.digits, (-d.point).toNat + 1, 0, ?_,
      by simp, ?_, ?_⟩
    · rw [hzero, if_pos rfl, List.drop_zero, if_neg (by simp [hne])]
    · rw [List.replicate_succ, List.replicate_zero, List.append_nil]
      rfl
    · rw [List.length_append, List.length_replicate]
      omega
  · have hnofront : (-d.point).toNat = 0 := by omega
    rw [if_neg (by omega), hnofront, List.replicate_zero, List.nil_append]
    rcases Nat.lt_or_ge d.point.toNat d.digits.length with hlt | hge
    · refine ⟨d.digits.take d.point.toNat, d.digits.drop d.point.toNat, 0, 0, ?_, ?_, ?_, ?_⟩
      · have hdrop : (d.digits.drop d.point.toNat).isEmpty = false := by
          simp only [List.isEmpty_eq_false_iff, ne_eq, List.drop_eq_nil_iff]
          omega
        have hfull : d.point.toNat - (d.digits.take d.point.toNat).length = 0 := by
          rw [List.length_take]
          omega
        rw [hdrop, List.rightpad, hfull, List.replicate_zero, List.append_nil]
        rfl
      · intro hnil
        have h := congrArg List.length hnil
        rw [List.length_take, List.length_nil] at h
        omega
      · simp
      · rw [List.length_drop]
        omega
    · refine ⟨d.digits ++ List.replicate (d.point.toNat - d.digits.length) '0', ['0'], 0,
        d.point.toNat - d.digits.length + 1, ?_, ?_, ?_, ?_⟩
      · rw [List.drop_eq_nil_of_le hge, List.take_of_length_le hge]
        rfl
      · simp [hne]
      · rw [List.replicate_succ', List.append_assoc]
        rfl
      · rw [List.length_singleton]
        omega

/-! ## Exponent notation -/

def exponentPart (width : Nat) (e : Int) : List Char :=
  'e' :: (if e < 0 then '-' else '+') :: padded width e.natAbs

theorem isDigit_of_mem_padded {width n : Nat} {c : Char} (hc : c ∈ padded width n) :
    c.isDigit = true := by
  rcases List.mem_append.1 hc with hzero | hdigit
  · exact isDigit_of_mem_zeros hzero
  · exact Nat.isDigit_of_mem_toDigits (by decide) (by decide) hdigit

theorem natural?_padded (width n : Nat) : natural? (padded width n) = some n := by
  have hne : padded width n ≠ [] :=
    List.append_ne_nil_of_right_ne_nil _ Nat.toDigits_ne_nil
  have hvalue : Nat.ofDigitChars 10 (padded width n) 0 = n := by
    rw [padded, List.leftpad, Nat.ofDigitChars_append, Nat.ofDigitChars_replicate_zero,
      Nat.mul_zero, Nat.ofDigitChars_ten_toDigits]
  rw [natural?_digits hne fun c hc => isDigit_of_mem_padded hc, hvalue]

/-- The sign and the digits behind the mark of an exponent are read as the exponent. -/
theorem exponent?_written (width : Nat) (e : Int) :
    exponent? (exponentPart width e) = some e := by
  unfold exponentPart exponent?
  split_ifs with hneg
  · simp only [splitSign, natural?_padded, Option.map_some, signed, if_true]
    exact congrArg some (by omega)
  · simp only [splitSign, natural?_padded, Option.map_some, signed]
    exact congrArg some (by simp; omega)

theorem isPlain_of_mem_exponentPart {width : Nat} {e : Int} {c : Char}
    (hc : c ∈ exponentPart width e) : IsPlain c := by
  unfold exponentPart at hc
  rcases List.mem_cons.1 hc with rfl | hc
  · decide
  · rcases List.mem_cons.1 hc with rfl | hc
    · split_ifs <;> decide
    · exact isPlain_of_isDigit (isDigit_of_mem_padded hc)

/-! ## Either notation -/

/-- The text is an unsigned numeral for the number, and reading changes no character of it. -/
structure Denotes (body : List Char) (q : ℚ) : Prop where
  startsWithDigit : ∃ c rest, body = c :: rest ∧ c.isDigit = true
  plain : ∀ c ∈ body, IsPlain c
  value : ∃ c e, unsigned? body = some (c, e) ∧ (c : ℚ) * 10 ^ e = q

theorem denotes_positional {d : Digits} (hd : d.WellFormed) :
    Denotes (positional d) d.value := by
  obtain ⟨whole, fraction, front, back, hbody, hne, hsame, hexp⟩ := positional_eq hd
  have hall : ∀ c ∈ whole ++ fraction, c.isDigit = true := by
    intro c hc
    rw [hsame, List.mem_append, List.mem_append] at hc
    rcases hc with (hfront | hdigit) | hback
    · exact isDigit_of_mem_zeros hfront
    · exact hd.2 c hdigit
    · exact isDigit_of_mem_zeros hback
  have hwhole : ∀ c ∈ whole, c.isDigit = true := fun c hc => hall c (List.mem_append_left _ hc)
  have hfraction : ∀ c ∈ fraction, c.isDigit = true :=
    fun c hc => hall c (List.mem_append_right _ hc)
  rw [hbody]
  refine ⟨?_, ?_, ?_⟩
  · obtain ⟨c, rest, rfl⟩ := List.exists_cons_of_ne_nil hne
    exact ⟨c, rest ++ '.' :: fraction, rfl, hwhole c List.mem_cons_self⟩
  · intro c hc
    rcases List.mem_append.1 hc with hc | hc
    · exact isPlain_of_isDigit (hwhole c hc)
    · rcases List.mem_cons.1 hc with rfl | hc
      · decide
      · exact isPlain_of_isDigit (hfraction c hc)
  · have hboth := List.append_ne_nil_of_left_ne_nil hne fraction
    have hread := @unsigned?_point whole fraction [] 0 hwhole hfraction hboth (by simp) rfl
    rw [List.append_nil] at hread
    refine ⟨_, _, hread, ?_⟩
    rw [hsame, ofDigitChars_zeros_around, Nat.cast_mul, Nat.cast_pow, Nat.cast_ofNat,
      mul_right_comm, ← zpow_natCast, ← zpow_add₀ (by norm_num), zero_sub, ← sub_eq_add_neg, hexp,
      mul_comm]
    rfl

theorem denotes_exponential (width : Nat) {d : Digits} (hd : d.WellFormed) :
    Denotes (exponential width d) d.value := by
  obtain ⟨digits, point⟩ := d
  obtain ⟨hne, hall⟩ := hd
  obtain ⟨first, others, rfl⟩ := List.exists_cons_of_ne_nil hne
  have hfirst := hall first List.mem_cons_self
  have hothers : ∀ c ∈ others, c.isDigit = true := fun c hc => hall c (List.mem_cons_of_mem _ hc)
  have hlone : ∀ c ∈ [first], c.isDigit = true := by
    intro c hc
    rwa [List.mem_singleton.1 hc]
  have hmark : ∀ c ∈ (exponentPart width (point - 1)).head?, c.isDigit = false ∧ c ≠ '.' := by
    intro c hc
    cases hc
    decide
  have he := exponent?_written width (point - 1)
  cases others with
  | nil =>
    show Denotes ([first] ++ exponentPart width (point - 1)) _
    refine ⟨⟨first, _, rfl, hfirst⟩, ?_, _, _, unsigned?_whole hlone (by simp) hmark he, rfl⟩
    intro c hc
    rcases List.mem_append.1 hc with hc | hc
    · exact isPlain_of_isDigit (hlone c hc)
    · exact isPlain_of_mem_exponentPart hc
  | cons second rest =>
    show Denotes ([first] ++ '.' :: (second :: rest ++ exponentPart width (point - 1))) _
    have hread := unsigned?_point hlone hothers (by simp) (fun c hc => (hmark c hc).1) he
    refine ⟨⟨first, _, rfl, hfirst⟩, ?_, _, _, hread, ?_⟩
    · intro c hc
      rcases List.mem_append.1 hc with hc | hc
      · exact isPlain_of_isDigit (hlone c hc)
      · rcases List.mem_cons.1 hc with rfl | hc
        · decide
        · rcases List.mem_append.1 hc with hc | hc
          · exact isPlain_of_isDigit (hothers c hc)
          · exact isPlain_of_mem_exponentPart hc
    · have hexp : point - 1 - ((second :: rest).length : Int) =
          point - (first :: second :: rest).length := by
        have hlength : (first :: second :: rest).length = (second :: rest).length + 1 := rfl
        rw [hlength]
        omega
      rw [hexp]
      rfl

/-- A written number denotes the number of its digits, whichever notation it is in. -/
theorem denotes_write (layout : Layout) {d : Digits} (hd : d.WellFormed) :
    Denotes (layout.write d) d.value := by
  unfold Layout.write
  dsimp only
  split_ifs
  · exact denotes_positional hd
  · exact denotes_exponential _ hd

end WavePlot.Decimal
