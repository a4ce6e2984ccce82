import WavePlot.Proofs.Decimal.IntegerText
import WavePlot.Proofs.Decimal.Numeral
import WavePlot.Proofs.Settings.NumberWords

/-!
# Words with integer text

For every text the outcome of a word that assigns it to the line width. A text that spells a
positive integer within the digit limit is stored as that integer, one that spells another integer
within it is refused as too small, and any other text is refused and quoted. What has been read can
always be written, so the limit is never met a second time.
-/

namespace WavePlot

open Decimal (SpellsInteger)

theorem SettingError.message_tooThin (n : Int) : (SettingError.tooThin n).message =
    "Line width is too small: " ++ toString n ++ ". Must be at least 1." := rfl

namespace Settings

variable {s : Settings} {v w : Value} {raw : Wide} {n : Int}

/-- The text is a string that spells the integer, with these digits. -/
def RawSpellsInteger (raw : Wide) (digits : List Char) (n : Int) : Prop :=
  ∃ text : String, raw = text ∧ SpellsInteger text digits n

/-- What a word with any text comes to, for the line width. -/
structure WidthWordOutcome (s : Settings) (raw : Wide) : Prop where
  stored : ∀ w, s.Stores (.apply (Parameter.lineWidth.word raw)) .lineWidth w ↔
    ∃ digits n, RawSpellsInteger raw digits n ∧ digits.length ≤ Decimal.digitLimit ∧ 1 ≤ n ∧
      w = .integer n
  small : ∀ digits n, RawSpellsInteger raw digits n → digits.length ≤ Decimal.digitLimit → n ≤ 0 →
    ∃ e, s.Refuses (.apply (Parameter.lineWidth.word raw)) e ∧ e.IsInvalidValue ∧
      e.message = "Line width is too small: " ++ toString n ++ ". Must be at least 1."
  other : (¬ ∃ digits n, RawSpellsInteger raw digits n ∧ digits.length ≤ Decimal.digitLimit) →
    ∃ e, s.Refuses (.apply (Parameter.lineWidth.word raw)) e ∧ e.IsInvalidValue ∧
      e.message = "Bad value for --lineWidth: " ++ Text.quote raw

/-- The texts that are read for the line width, and what is read. -/
theorem read?_lineWidth_eq_some_iff : Parameter.lineWidth.kind.read? raw = some v ↔
    ∃ digits n, RawSpellsInteger raw digits n ∧ digits.length ≤ Decimal.digitLimit ∧
      v = .integer n := by
  constructor
  · intro h
    obtain ⟨n, hn, rfl⟩ := Option.map_eq_some_iff.1 h
    obtain ⟨text, htext, hn⟩ := Option.bind_eq_some_iff.1 hn
    obtain ⟨digits, hspells, hlength⟩ := Decimal.integer?_eq_some_iff.1 hn
    exact ⟨digits, n, ⟨text, Wide.string?_eq_some_iff.1 htext, hspells⟩, hlength, rfl⟩
  · rintro ⟨digits, n, ⟨text, rfl, hspells⟩, hlength, rfl⟩
    show Kind.integer.read? text = _
    rw [Kind.read?_integer, Decimal.integer?_eq_some_iff.2 ⟨digits, hspells, hlength⟩,
      Option.map_some]

/-- An integer that has been read is judged by its size alone. -/
theorem accept_lineWidth_of_read? (h : Parameter.lineWidth.kind.read? raw = some (.integer n)) :
    Parameter.accept .lineWidth (.integer n) = if 1 ≤ n then .ok n else .error (.tooThin n) := by
  obtain ⟨m, hm, heq⟩ := Option.map_eq_some_iff.1 h
  cases heq
  obtain ⟨text, _, hread⟩ := Option.bind_eq_some_iff.1 hm
  have hnumerals : (Value.integer n).hasNumerals = true := Decimal.hasNumeral_of_integer? hread
  show Value.thickness (.integer n) = _
  simp only [Value.thickness, hnumerals, ↓reduceIte]

theorem stores_width_word_iff (h : Parameter.lineWidth.kind.read? raw = some (.integer n)) :
    s.Stores (.apply (Parameter.lineWidth.word raw)) .lineWidth w ↔ 1 ≤ n ∧ w = .integer n := by
  rw [stores_apply_word_iff h, stores_set_iff, accept_lineWidth_of_read? h]
  constructor
  · rintro ⟨x, hx, rfl⟩
    split_ifs at hx with hone
    cases hx
    exact ⟨hone, rfl⟩
  · rintro ⟨hone, rfl⟩
    exact ⟨n, if_pos hone, rfl⟩

theorem refuses_width_word_of_small (h : Parameter.lineWidth.kind.read? raw = some (.integer n))
    (hn : n ≤ 0) : s.Refuses (.apply (Parameter.lineWidth.word raw)) (.tooThin n) := by
  rw [refuses_apply_word_iff h, refuses_set_iff, accept_lineWidth_of_read? h, if_neg (by omega)]

/-- The outcome of every word for the line width. -/
theorem width_word_outcome (s : Settings) (raw : Wide) : s.WidthWordOutcome raw := by
  constructor
  case stored =>
    intro w
    constructor
    · intro hstores
      cases hread : Parameter.lineWidth.kind.read? raw with
      | none => exact absurd (refuses_apply_word_of_unread hread) (not_refuses_of_stores hstores)
      | some v =>
        obtain ⟨digits, n, hspells, hlength, rfl⟩ := read?_lineWidth_eq_some_iff.1 hread
        obtain ⟨hone, rfl⟩ := (stores_width_word_iff hread).1 hstores
        exact ⟨digits, n, hspells, hlength, hone, rfl⟩
    · rintro ⟨digits, n, hspells, hlength, hone, rfl⟩
      have hread := read?_lineWidth_eq_some_iff.2 ⟨digits, n, hspells, hlength, rfl⟩
      exact (stores_width_word_iff hread).2 ⟨hone, rfl⟩
  case small =>
    intro digits n hspells hlength hn
    have hread := read?_lineWidth_eq_some_iff.2 ⟨digits, n, hspells, hlength, rfl⟩
    have hinvalid : (SettingError.tooThin n).IsInvalidValue := ⟨rfl, nofun⟩
    exact ⟨_, refuses_width_word_of_small hread hn, hinvalid, SettingError.message_tooThin n⟩
  case other =>
    intro hnot
    have hread : Parameter.lineWidth.kind.read? raw = none := by
      refine Option.eq_none_iff_forall_ne_some.2 fun v hv => ?_
      obtain ⟨digits, n, hspells, hlength, _⟩ := read?_lineWidth_eq_some_iff.1 hv
      exact hnot ⟨digits, n, hspells, hlength⟩
    have hinvalid : (SettingError.badValue "--lineWidth" raw).IsInvalidValue := ⟨rfl, nofun⟩
    exact ⟨_, refuses_apply_word_of_unread hread, hinvalid, message_badValue .lineWidth raw⟩

/-- Zeros, an underscore, a digit of another script and blanks around it; a negative zero; two
underscores in turn. -/
theorem width_word_of_texts :
    default.Stores (.apply "--lineWidth= +00_\u0667\n") .lineWidth (.integer 7) ∧
    (∃ e, default.Refuses (.apply "--lineWidth=-0") e ∧ e.IsInvalidValue ∧
      e.message = "Line width is too small: 0. Must be at least 1.") ∧
    ∃ e, default.Refuses (.apply "--lineWidth=1__0") e ∧ e.IsInvalidValue ∧
      e.message = "Bad value for --lineWidth: '1__0'" := by
  obtain ⟨zeros, hzeros, hzerosLength⟩ :=
    Decimal.integer?_eq_some_iff.1 (rfl : Decimal.integer? " +00_\u0667\n" = some 7)
  obtain ⟨zero, hzero, hzeroLength⟩ :=
    Decimal.integer?_eq_some_iff.1 (rfl : Decimal.integer? "-0" = some 0)
  have hnone : ¬ ∃ digits n, RawSpellsInteger "1__0" digits n ∧
      digits.length ≤ Decimal.digitLimit := by
    rintro ⟨digits, n, ⟨text, htext, hspells⟩, hlength⟩
    obtain rfl := Wide.ofString_inj.1 htext
    cases Decimal.integer?_eq_some_iff.2 ⟨digits, hspells, hlength⟩
  exact ⟨((width_word_outcome default _).stored _).2
      ⟨zeros, 7, ⟨_, rfl, hzeros⟩, hzerosLength, by decide, rfl⟩,
    (width_word_outcome default "-0").small zero 0 ⟨_, rfl, hzero⟩ hzeroLength le_rfl,
    (width_word_outcome default "1__0").other hnone⟩

end Settings

end WavePlot
