import WavePlot.Proofs.Decimal.Grammar
import WavePlot.Proofs.Settings.NumericAssignment
import WavePlot.Proofs.Settings.Shift

/-!
# Words with number text

For every text the outcome of a word that assigns it to a parameter for numbers. A text outside the
language of number text is refused and quoted. A decimal of any length is decided by its exact value
alone: against the two bounds for a size, against the upper one for an end of a range, while the
shift takes everything. What is stored is the nearest number.
-/

namespace WavePlot

open Binary64 (IsNearest underflowBound overflowBound)
open Decimal (Literal Spells)

namespace Parameter

variable {p : Parameter} {x y : Binary64}

def sizes : List Parameter := [.period, .amplitude]

def rangeEnds : List Parameter := [.xRangeStart, .xRangeEnd, .yRangeStart, .yRangeEnd]

theorem keeps_size_iff (hp : p ∈ sizes) : p.Keeps x y ↔ x.IsFinitePositive ∧ y = x := by
  simp only [sizes, List.mem_cons, List.not_mem_nil, or_false] at hp
  rcases hp with rfl | rfl <;> exact Iff.rfl

theorem keeps_rangeEnd_iff (hp : p ∈ rangeEnds) : p.Keeps x y ↔ x.IsFinite ∧ y = x := by
  simp only [rangeEnds, List.mem_cons, List.not_mem_nil, or_false] at hp
  rcases hp with rfl | rfl | rfl | rfl <;> exact Iff.rfl

/-- Only the shift keeps something else than the number itself. -/
theorem eq_of_keeps (hp : p ≠ .shift) (h : p.Keeps x y) : x.IsFinite ∧ y = x := by
  cases p with
  | shift => exact absurd rfl hp
  | color | lineWidth | plotWidth | plotHeight => exact h.elim
  | xRangeStart | xRangeEnd | yRangeStart | yRangeEnd => exact h
  | period | amplitude =>
    obtain ⟨⟨units, onGrid, hx, _⟩, hy⟩ := h
    exact ⟨⟨false, units, onGrid, hx⟩, hy⟩

end Parameter

namespace Settings

variable {s : Settings} {p : Parameter} {w : Value} {raw : Wide} {l : Literal}

/-- The text of a word is a string that spells the literal. -/
def RawSpells (raw : Wide) (l : Literal) : Prop := ∃ text : String, raw = text ∧ Spells text l

/-- What a word with the text of a decimal comes to. -/
structure DecimalOutcome (s : Settings) (p : Parameter) (raw : Wide) (negative : Bool) (q : ℚ) :
    Prop where
  size : p ∈ Parameter.sizes →
    ((∃ w, s.Stores (.apply (p.word raw)) p w) ↔ underflowBound < q ∧ q < overflowBound)
  rangeEnd : p ∈ Parameter.rangeEnds →
    ((∃ w, s.Stores (.apply (p.word raw)) p w) ↔ |q| < overflowBound)
  /-- A zero keeps the sign of what has been rounded to it. -/
  nearest : p ≠ .shift → ∀ w, s.Stores (.apply (p.word raw)) p w →
    ∃ y, w = .real y ∧ IsNearest q y ∧ y.hasMinus = negative
  shift : p = .shift → ∃ y, s.Stores (.apply (p.word raw)) p (.real (Phase.reduce y)) ∧
    (|q| < overflowBound → IsNearest q y ∧ y.hasMinus = negative) ∧
    (overflowBound ≤ |q| → y = .infinite negative)
  refused : (¬ ∃ w, s.Stores (.apply (p.word raw)) p w) →
    ∃ e, s.Refuses (.apply (p.word raw)) e ∧ e.IsInvalidValue

/-- What a word with any text comes to, for a parameter for numbers. -/
structure TextOutcome (s : Settings) (p : Parameter) (raw : Wide) : Prop where
  misspelt : (¬ ∃ l, RawSpells raw l) → ∃ e, s.Refuses (.apply (p.word raw)) e ∧ e.IsInvalidValue ∧
    e.message = "Bad value for --" ++ p.name ++ ": " ++ Text.quote raw
  decimal : ∀ negative c e, RawSpells raw (.number negative c e) →
    s.DecimalOutcome p raw negative (withSign negative (c * 10 ^ e))
  notFinite : (∃ negative, RawSpells raw (.infinity negative)) ∨ RawSpells raw .nan →
    (p = .shift → s.Stores (.apply (p.word raw)) p (.real .nan)) ∧
    (p ≠ .shift → ∃ e, s.Refuses (.apply (p.word raw)) e ∧ e.IsInvalidValue)

/-! ## Reading the text -/

theorem read?_of_spells (hp : p.kind = .real) (h : RawSpells raw l) :
    p.kind.read? raw = some (.real l.value) := by
  obtain ⟨text, rfl, htext⟩ := h
  rw [hp, Kind.read?_real, Decimal.real?_eq_map_value, Decimal.spells_iff.1 htext,
    Option.map_some, Option.map_some]

theorem read?_of_misspelt (hp : p.kind = .real) (h : ¬ ∃ l, RawSpells raw l) :
    p.kind.read? raw = none := by
  rw [hp]
  cases htext : raw.string? with
  | none => rw [Kind.read?, htext, Option.bind_none, Option.map_none]
  | some text =>
    obtain rfl := Wide.string?_eq_some_iff.1 htext
    have hnone : Decimal.literal? text = none := by
      refine Option.eq_none_iff_forall_ne_some.2 fun l hl => ?_
      exact h ⟨l, text, rfl, Decimal.spells_iff.2 hl⟩
    rw [Kind.read?_real, Decimal.real?_eq_map_value, hnone, Option.map_none, Option.map_none]

theorem stores_word_iff (hp : p.kind = .real) (h : RawSpells raw l) :
    s.Stores (.apply (p.word raw)) p w ↔ ∃ y, p.Keeps l.value y ∧ w = .real y := by
  rw [stores_apply_word_iff (read?_of_spells hp h), stores_set_iff, Parameter.accept_real_iff hp]

theorem refuses_word_of_not_stores (hp : p.kind = .real) (h : RawSpells raw l)
    (hnot : ¬ ∃ w, s.Stores (.apply (p.word raw)) p w) :
    ∃ e, s.Refuses (.apply (p.word raw)) e ∧ e.IsInvalidValue := by
  have hread := read?_of_spells hp h
  rcases stores_or_refuses s p (.real l.value) with ⟨w, hw⟩ | ⟨e, hrefuses, haccept⟩
  · exact absurd ⟨w, (stores_apply_word_iff hread).2 hw⟩ hnot
  · exact ⟨e, (refuses_apply_word_iff hread).2 hrefuses,
      Parameter.isInvalidValue_of_accept_real hp haccept⟩

/-- A parameter that keeps a number as it is stores it if and only if it keeps it. -/
theorem exists_stores_word_iff {P : Binary64 → Prop} (hp : p.kind = .real) (h : RawSpells raw l)
    (hkeeps : ∀ {x y}, p.Keeps x y ↔ P x ∧ y = x) :
    (∃ w, s.Stores (.apply (p.word raw)) p w) ↔ P l.value := by
  constructor
  · intro hstores
    obtain ⟨w, hw⟩ := hstores
    obtain ⟨y, hy, _⟩ := (stores_word_iff hp h).1 hw
    exact (hkeeps.1 hy).1
  · intro hvalue
    exact ⟨_, (stores_word_iff hp h).2 ⟨_, hkeeps.2 ⟨hvalue, rfl⟩, rfl⟩⟩

/-! ## The outcomes -/

theorem decimalOutcome {negative : Bool} {c : Nat} {e : Int} (s : Settings) (hp : p.kind = .real)
    (h : RawSpells raw (.number negative c e)) :
    s.DecimalOutcome p raw negative (withSign negative (c * 10 ^ e)) := by
  have hrounds : Binary64.Rounds negative (c * 10 ^ e) (Literal.number negative c e).value :=
    Decimal.rounds_nearest negative c e
  have habs : |withSign negative ((c : ℚ) * 10 ^ e)| = c * 10 ^ e :=
    abs_withSign (by positivity) negative
  constructor
  case size =>
    intro hsize
    exact (exists_stores_word_iff hp h (Parameter.keeps_size_iff hsize)).trans hrounds.positive
  case rangeEnd =>
    intro hend
    rw [habs]
    exact (exists_stores_word_iff hp h (Parameter.keeps_rangeEnd_iff hend)).trans
      hrounds.isFinite_iff
  case nearest =>
    intro hshift w hw
    obtain ⟨y, hkeeps, hwy⟩ := (stores_word_iff hp h).1 hw
    obtain ⟨hfinite, hy⟩ := Parameter.eq_of_keeps hshift hkeeps
    rw [hy] at hwy
    exact ⟨_, hwy, hrounds.nearest (hrounds.isFinite_iff.1 hfinite)⟩
  case shift =>
    intro hshift
    subst hshift
    rw [habs]
    exact ⟨_, (stores_word_iff hp h).2 ⟨_, rfl, rfl⟩, hrounds.nearest, hrounds.infinite⟩
  case refused => exact refuses_word_of_not_stores hp h

theorem notFiniteOutcome (s : Settings) (hp : p.kind = .real) (h : RawSpells raw l)
    (hvalue : ¬ l.value.IsFinite) :
    (p = .shift → s.Stores (.apply (p.word raw)) p (.real .nan)) ∧
    (p ≠ .shift → ∃ e, s.Refuses (.apply (p.word raw)) e ∧ e.IsInvalidValue) := by
  constructor
  · intro hshift
    subst hshift
    refine (stores_word_iff hp h).2 ⟨_, rfl, ?_⟩
    rw [Phase.reduce_of_not_isFinite hvalue]
  · intro hshift
    refine refuses_word_of_not_stores hp h ?_
    intro hstores
    obtain ⟨w, hw⟩ := hstores
    obtain ⟨y, hkeeps, _⟩ := (stores_word_iff hp h).1 hw
    exact hvalue (Parameter.eq_of_keeps hshift hkeeps).1

theorem message_badValue (p : Parameter) (raw : Wide) :
    (SettingError.badValue ("--" ++ p.name) raw).message =
      "Bad value for --" ++ p.name ++ ": " ++ Text.quote raw := by
  have hprefix : Wide.ofString "Bad value for " ++ Wide.ofString "--" = "Bad value for --" := by
    decide
  show Wide.ofString "Bad value for " ++ ("--" ++ p.name) ++ ": " ++ Text.quote raw = _
  rw [← List.append_assoc, hprefix]

theorem misspeltOutcome (s : Settings) (hp : p.kind = .real) (h : ¬ ∃ l, RawSpells raw l) :
    ∃ e, s.Refuses (.apply (p.word raw)) e ∧ e.IsInvalidValue ∧
      e.message = "Bad value for --" ++ p.name ++ ": " ++ Text.quote raw := by
  have hrefuses : s.Refuses (.apply (p.word raw)) (.badValue ("--" ++ p.name) raw) :=
    refuses_apply_word_of_unread (read?_of_misspelt hp h)
  have hinvalid : (SettingError.badValue ("--" ++ p.name) raw).IsInvalidValue := ⟨rfl, nofun⟩
  exact ⟨_, hrefuses, hinvalid, message_badValue p raw⟩

theorem not_isFinite_value (h : (∃ negative, l = .infinity negative) ∨ l = .nan) :
    ¬ l.value.IsFinite := by
  intro hfinite
  obtain ⟨_, _, _, heq⟩ := hfinite
  rcases h with ⟨negative, rfl⟩ | rfl <;> cases heq

/-- The outcome of every word for a parameter for numbers. -/
theorem number_word_outcome (s : Settings) (hp : p.kind = .real) (raw : Wide) :
    s.TextOutcome p raw := by
  constructor
  case misspelt => exact misspeltOutcome s hp
  case decimal => exact fun negative c e h => decimalOutcome s hp h
  case notFinite =>
    intro h
    rcases h with ⟨negative, h⟩ | h
    · exact notFiniteOutcome s hp h (not_isFinite_value (Or.inl ⟨negative, rfl⟩))
    · exact notFiniteOutcome s hp h (not_isFinite_value (Or.inr rfl))

/-- Two underscores in turn, and a negative decimal below the least positive number. -/
theorem number_word_of_texts :
    (∃ e, default.Refuses (.apply "--period=1__0") e ∧ e.IsInvalidValue ∧
      e.message = "Bad value for --period: '1__0'") ∧
    (∃ w, default.Stores (.apply "--xRangeEnd=-1e-400") .xRangeEnd w) ∧
    ¬ ∃ w, default.Stores (.apply "--period=-1e-400") .period w := by
  have hspells : RawSpells "-1e-400" (.number true 1 (-400)) :=
    ⟨_, rfl, Decimal.spells_iff.2 rfl⟩
  have hnone : ¬ ∃ l, RawSpells "1__0" l := by
    rintro ⟨l, text, htext, hl⟩
    obtain rfl := Wide.ofString_inj.1 htext
    cases Decimal.spells_iff.1 hl
  have hsmall : ((1 : ℕ) : ℚ) * 10 ^ (-400 : ℤ) < overflowBound := by
    have hone : |((1 : ℤ) : ℚ)| < overflowBound :=
      Binary64.abs_intCast_lt_overflowBound_iff.2 (by decide +kernel)
    rw [Int.cast_one, abs_one] at hone
    rw [Nat.cast_one, one_mul]
    exact (zpow_le_one_of_nonpos₀ (by norm_num) (by norm_num)).trans_lt hone
  have hend := (number_word_outcome (p := .xRangeEnd) default rfl "-1e-400").decimal _ _ _ hspells
  have hsize := (number_word_outcome (p := .period) default rfl "-1e-400").decimal _ _ _ hspells
  refine ⟨(number_word_outcome (p := .period) default rfl "1__0").misspelt hnone, ?_, ?_⟩
  · refine (hend.rangeEnd (by decide)).2 ?_
    rw [abs_withSign (by positivity)]
    exact hsmall
  · intro hstores
    have hpos := ((hsize.size (by decide)).1 hstores).1
    have hneg : withSign true (((1 : ℕ) : ℚ) * 10 ^ (-400 : ℤ)) ≤ 0 :=
      neg_nonpos.2 (by positivity)
    exact absurd (Binary64.underflowBound_pos.trans hpos) hneg.not_gt

end Settings

end WavePlot
