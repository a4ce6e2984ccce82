import WavePlot.Proofs.Decimal.Numeral
import WavePlot.Proofs.Parameter.Numbers
import WavePlot.Proofs.Settings.Assignment
import WavePlot.Proofs.Settings.Invariant

/-!
# Words that are refused

A word is accepted or refused by its own text, whatever settings it is applied to. Words applied
in turn therefore fail at the first refused one and for its cause. The cause is always a mistake
in the parameters: what has been read from text is never past a limit of conversions.
-/

namespace WavePlot

/-! ## Causes -/

/-- A parameter refuses a value read from text for a mistake only. -/
theorem Parameter.isParameterMistake_of_accept {p : Parameter} {raw : Wide} {v : Value}
    {e : SettingError} (hread : p.kind.read? raw = some v) (h : p.accept v = .error e) :
    e.isParameterMistake = true := by
  cases p with
  | period | amplitude | shift | xRangeStart | xRangeEnd | yRangeStart | yRangeEnd =>
    obtain ⟨x, _, rfl⟩ := Option.map_eq_some_iff.1 hread
    exact (isInvalidValue_of_accept_real rfl h).1
  | color | plotWidth | plotHeight =>
    cases hread
    cases h
  | lineWidth =>
    obtain ⟨n, hn, rfl⟩ := Option.map_eq_some_iff.1 hread
    obtain ⟨_, _, hn⟩ := Option.bind_eq_some_iff.1 hn
    have hnumerals : (Value.integer n).hasNumerals = true := Decimal.hasNumeral_of_integer? hn
    exact (Value.isInvalidValue_of_thickness (Value.hasNumerals_iff.1 hnumerals) h).1

namespace Assignment

theorem isParameterMistake_of_ofWord {word : Wide} {e : SettingError}
    (h : ofWord word = .error e) : e.isParameterMistake = true := by
  unfold ofWord at h
  dsimp only at h
  split at h
  · cases h
    rfl
  · cases h
    rfl
  · split at h <;> cases h
    rfl

end Assignment

namespace Settings

/-! ## One word -/

/-- Whether the word assigns a parameter a value that it accepts. -/
def Acceptable (word : Wide) : Prop := ∃ s, default.apply word = .ok s

theorem acceptable_iff_isOk {word : Wide} :
    Acceptable word ↔ (default.apply word).isOk = true := by
  unfold Acceptable
  cases default.apply word <;> simp [Except.isOk, Except.toBool]

instance (word : Wide) : Decidable (Acceptable word) :=
  decidable_of_iff _ acceptable_iff_isOk.symm

theorem apply_eq_error_iff {s : Settings} {word : Wide} {e : SettingError} :
    s.apply word = .error e ↔ Assignment.ofWord word = .error e ∨
      ∃ a, Assignment.ofWord word = .ok a ∧ a.parameter.accept a.value = .error e := by
  unfold apply
  cases hword : Assignment.ofWord word with
  | error cause =>
    constructor
    · intro h
      cases h
      exact Or.inl rfl
    · rintro (h | ⟨a, h, _⟩) <;> cases h
      rfl
  | ok a =>
    show s.assign a.parameter a.value = _ ↔ _
    unfold assign
    cases haccept : a.parameter.accept a.value with
    | error cause =>
      constructor
      · intro h
        cases h
        exact Or.inr ⟨a, rfl, haccept⟩
      · rintro (h | ⟨b, h, hb⟩) <;> cases h
        cases haccept.symm.trans hb
        rfl
    | ok x =>
      constructor
      · intro h
        cases h
      · rintro (h | ⟨b, h, hb⟩) <;> cases h
        rw [haccept] at hb
        cases hb

/-- A word is refused for the same cause whatever settings it is applied to. -/
theorem apply_eq_error_congr (s t : Settings) {word : Wide} {e : SettingError} :
    s.apply word = .error e ↔ t.apply word = .error e :=
  apply_eq_error_iff.trans apply_eq_error_iff.symm

theorem isParameterMistake_of_apply {s : Settings} {word : Wide} {e : SettingError}
    (h : s.apply word = .error e) : e.isParameterMistake = true := by
  rcases apply_eq_error_iff.1 h with hword | ⟨a, hword, haccept⟩
  · exact Assignment.isParameterMistake_of_ofWord hword
  · obtain ⟨raw, _, hread⟩ := Assignment.ofWord_eq_ok_iff.1 hword
    exact Parameter.isParameterMistake_of_accept hread haccept

/-! ## Words in turn -/

/-- The first of the words that is refused is refused for the cause. -/
def FirstRefusal (words : List Wide) (e : SettingError) : Prop :=
  ∃ before word after, words = before ++ word :: after ∧
    (∀ earlier ∈ before, Acceptable earlier) ∧ ∀ s : Settings, s.apply word = .error e

/-- Why the word is refused, if it is. -/
def wordRefusal? (word : Wide) : Option SettingError :=
  match default.apply word with
  | .error e => some e
  | .ok _ => none

theorem apply_eq_error_iff_wordRefusal? (s : Settings) (word : Wide) (e : SettingError) :
    s.apply word = .error e ↔ wordRefusal? word = some e := by
  rw [apply_eq_error_congr s default, wordRefusal?]
  cases default.apply word <;> simp

theorem acceptable_iff_wordRefusal? {word : Wide} :
    Acceptable word ↔ wordRefusal? word = none := by
  rw [Acceptable, wordRefusal?]
  cases default.apply word <;> simp

theorem firstRefusal_iff {words : List Wide} {e : SettingError} :
    FirstRefusal words e ↔ words.findSome? wordRefusal? = some e := by
  rw [List.findSome?_eq_some_iff]
  constructor
  · rintro ⟨before, word, after, rfl, hbefore, hrefused⟩
    exact ⟨before, word, after, rfl, (apply_eq_error_iff_wordRefusal? default word e).1 (hrefused default),
      fun earlier h => acceptable_iff_wordRefusal?.1 (hbefore earlier h)⟩
  · rintro ⟨before, word, after, rfl, hrefused, hbefore⟩
    exact ⟨before, word, after, rfl,
      fun earlier h => acceptable_iff_wordRefusal?.2 (hbefore earlier h),
      fun s => (apply_eq_error_iff_wordRefusal? s word e).2 hrefused⟩

theorem foldlM_apply_eq_error_iff {words : List Wide} {s : Settings} {e : SettingError} :
    words.foldlM apply s = .error e ↔ FirstRefusal words e :=
  (foldlM_eq_error_iff apply_eq_error_iff_wordRefusal?).trans firstRefusal_iff.symm

theorem exists_foldlM_apply_iff {words : List Wide} {s : Settings} :
    (∃ t, words.foldlM apply s = .ok t) ↔ ∀ word ∈ words, Acceptable word := by
  simp only [acceptable_iff_wordRefusal?]
  exact exists_foldlM_eq_ok_iff apply_eq_error_iff_wordRefusal?

theorem ofWords_eq_error_iff {words : List Wide} {e : SettingError} :
    ofWords words = .error e ↔ FirstRefusal words e :=
  foldlM_apply_eq_error_iff

theorem exists_ofWords_iff {words : List Wide} :
    (∃ s, ofWords words = .ok s) ↔ ∀ word ∈ words, Acceptable word :=
  exists_foldlM_apply_iff

theorem exists_not_acceptable_iff {words : List Wide} :
    (∃ word ∈ words, ¬ Acceptable word) ↔ ∃ e, ofWords words = .error e := by
  have hiff := not_congr (@exists_ofWords_iff words)
  push Not at hiff
  rw [← hiff]
  cases ofWords words <;> simp

theorem isParameterMistake_of_ofWords {words : List Wide} {e : SettingError}
    (h : ofWords words = .error e) : e.isParameterMistake = true := by
  obtain ⟨_, _, _, _, _, hrefused⟩ := ofWords_eq_error_iff.1 h
  exact isParameterMistake_of_apply (hrefused default)

theorem normal_ofWords {words : List Wide} {s : Settings} (h : ofWords words = .ok s) :
    s.Normal :=
  foldlM_invariant (fun _ _ _ _ hs ht => normal_apply hs ht) normal_default h

end Settings

end WavePlot
