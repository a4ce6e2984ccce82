import Mathlib.Logic.Basic
import WavePlot.Proofs.CommandLine.Words

/-!
# Which words are operands

A word is an operand by its text: it has no dash in front or is the dash alone, it is a negative
number, or it has a space in it and is not like an option. A word that is neither like an option
nor an operand is unknown.
-/

namespace WavePlot.CommandLine

namespace Word

/-! ## Negative numbers -/

section Negative

variable {text fraction : Wide}

/-- A point and digits of any script, or nothing. -/
inductive IsPointed : Wide → Prop
  | whole : IsPointed []
  | point {digits : Wide} (hne : digits ≠ [])
      (hdigits : ∀ c ∈ digits, isDecimalDigit c = true) : IsPointed (.char '.' :: digits)

/-- A minus sign with a number behind it, in digits of any script; the digits before the point may
be missing, and a line feed may stand at the end. -/
def IsNegativeNumber (word : Wide) : Prop :=
  ∃ whole fraction ending, word = .char '-' :: (whole ++ fraction) ++ ending ∧
    whole ++ fraction ≠ [] ∧
    (∀ c ∈ whole, isDecimalDigit c = true) ∧ IsPointed fraction ∧
    (ending = [] ∨ ending = [.char '\n'])

theorem dropFinalNewline_cons {c : CodePoint} {rest : Wide} (h : c = .char '\n' → rest ≠ []) :
    dropFinalNewline (c :: rest) = c :: dropFinalNewline rest := by
  rw [dropFinalNewline]
  exact h

theorem dropFinalNewline_append_newline (text : Wide) :
    dropFinalNewline (text ++ [.char '\n']) = text := by
  induction text with
  | nil => rfl
  | cons c rest ih =>
    rw [List.cons_append, dropFinalNewline_cons fun _ => by simp, ih]

theorem dropFinalNewline_eq_self (h : .char '\n' ∉ text) : dropFinalNewline text = text := by
  induction text with
  | nil => rfl
  | cons c rest ih =>
    have hc : c ≠ .char '\n' := fun heq => h (heq ▸ List.mem_cons_self)
    rw [dropFinalNewline_cons fun heq => absurd heq hc,
      ih fun hmem => h (List.mem_cons_of_mem c hmem)]

theorem exists_ending (text : Wide) :
    ∃ ending, text = dropFinalNewline text ++ ending ∧ (ending = [] ∨ ending = [.char '\n']) := by
  induction text with
  | nil => exact ⟨[], rfl, Or.inl rfl⟩
  | cons c rest ih =>
    by_cases hlast : c = .char '\n' ∧ rest = []
    · obtain ⟨rfl, rfl⟩ := hlast
      exact ⟨[.char '\n'], rfl, Or.inr rfl⟩
    · obtain ⟨ending, hrest, hending⟩ := ih
      refine ⟨ending, ?_, hending⟩
      rw [dropFinalNewline_cons fun hc hnil => hlast ⟨hc, hnil⟩, List.cons_append, ← hrest]

theorem newline_not_mem {whole : Wide}
    (hwhole : ∀ c ∈ whole, isDecimalDigit c = true) (hfraction : IsPointed fraction) :
    .char '\n' ∉ .char '-' :: (whole ++ fraction) := by
  have hnewline : isDecimalDigit (.char '\n') ≠ true := by decide
  intro hmem
  rcases List.mem_cons.1 hmem with heq | hmem
  · exact absurd heq (by decide)
  · rcases List.mem_append.1 hmem with hmem | hmem
    · exact hnewline (hwhole _ hmem)
    · cases hfraction with
      | whole => cases hmem
      | point _ hdigits =>
        rcases List.mem_cons.1 hmem with heq | hmem
        · exact absurd heq (by decide)
        · exact hnewline (hdigits _ hmem)

/-- What is left of the text behind its minus sign when the digits in front are taken away. -/
theorem dropWhile_isDecimalDigit {whole : Wide}
    (hwhole : ∀ c ∈ whole, isDecimalDigit c = true) (hfraction : IsPointed fraction) :
    (whole ++ fraction).dropWhile isDecimalDigit = fraction := by
  have hpoint : isDecimalDigit (.char '.') = false := by decide
  rw [List.dropWhile_append_of_pos hwhole]
  cases hfraction with
  | whole => rfl
  | point => simp [hpoint]

theorem looksNegative_iff (word : Wide) : looksNegative word = true ↔ IsNegativeNumber word := by
  constructor
  · intro h
    obtain ⟨ending, hword, hending⟩ := exists_ending word
    unfold looksNegative at h
    split at h
    · rename_i body hbody
      rw [hbody] at hword
      have hsplit := List.takeWhile_append_dropWhile (p := isDecimalDigit) (l := body)
      have hwhole : ∀ c ∈ body.takeWhile isDecimalDigit, isDecimalDigit c = true :=
        List.all_eq_true.1 List.all_takeWhile
      refine ⟨body.takeWhile isDecimalDigit, body.dropWhile isDecimalDigit, ending,
        by rw [hsplit]; exact hword, ?_, hwhole, ?_, hending⟩
      · rw [hsplit]
        rintro rfl
        cases h
      · split at h
        · rename_i hnil
          rw [hnil]
          exact .whole
        · rename_i fraction hfraction
          rw [Bool.and_eq_true, Bool.not_eq_true', List.isEmpty_eq_false_iff, List.all_eq_true] at h
          rw [hfraction]
          exact .point h.1 h.2
        · cases h
    · cases h
  · rintro ⟨whole, fraction, ending, rfl, hne, hwhole, hfraction, hending⟩
    have hbody : dropFinalNewline (.char '-' :: (whole ++ fraction) ++ ending) =
        .char '-' :: (whole ++ fraction) := by
      rcases hending with rfl | rfl
      · rw [List.append_nil, dropFinalNewline_eq_self (newline_not_mem hwhole hfraction)]
      · exact dropFinalNewline_append_newline _
    unfold looksNegative
    rw [hbody]
    simp only [dropWhile_isDecimalDigit hwhole hfraction]
    cases hfraction with
    | whole =>
      rw [Bool.not_eq_true', List.isEmpty_eq_false_iff]
      exact hne
    | @point digits hnedigits hdigits =>
      show (!digits.isEmpty && digits.all isDecimalDigit) = true
      rw [Bool.and_eq_true, Bool.not_eq_true', List.isEmpty_eq_false_iff, List.all_eq_true]
      exact ⟨hnedigits, hdigits⟩

end Negative

/-! ## Operands by their texts -/

/-- The word is an option's name, has one before an equals sign, or starts like the short request
for help. -/
def IsOptionLike (word : Wide) : Prop :=
  ("-h" : Wide) <+: word ∨
    ∃ option : OptionName, word = option.text ∨ (option.text ++ "=" : Wide) <+: word

/-- The text of an operand: without a dash in front, the dash alone, a negative number, or a text
with a space that is not like an option. -/
def IsOperandText (word : Wide) : Prop :=
  word.head? ≠ some (.char '-') ∨ word = "-" ∨ IsNegativeNumber word ∨
    .char ' ' ∈ word ∧ ¬ IsOptionLike word

/-- The text of a word that looks like an option and is none. -/
def IsUnknownText (word : Wide) : Prop := ¬ IsOperandText word ∧ ¬ IsOptionLike word

theorem alone_ne_operand (option : OptionName) : option.alone ≠ .operand := by
  cases option <;> exact nofun

theorem ofHelpLetters_ne_operand (letters : Wide) : ofHelpLetters letters ≠ .operand := by
  intro h
  have hstops := stops_ofHelpLetters letters
  rw [h] at hstops
  exact hstops

theorem attach_ne_operand (option : OptionName) (value : Wide) :
    option.attach value ≠ .operand := by
  cases option with
  | shortHelp => exact ofHelpLetters_ne_operand value
  | longHelp | valued o | flag f => exact nofun

theorem ofText_ne_operand_of_isOptionLike {word : Wide} (h : IsOptionLike word) :
    ofText word ≠ .operand := by
  rcases h with hshort | ⟨option, hname | hattached⟩
  · intro hoperand
    have hstops := stops_of_short_help hshort
    rw [hoperand] at hstops
    exact hstops
  · rw [hname, ofText_text]
    exact alone_ne_operand option
  · obtain ⟨value, hvalue⟩ := isPrefix_attached.1 hattached
    rw [hvalue, ofText_attached]
    exact attach_ne_operand option value

/-- A word that is not like an option and has a dash in front is an operand exactly if it is a
negative number or has a space. -/
theorem ofDashed_of_not_isOptionLike {word : Wide} (h : ¬ IsOptionLike word) :
    ofDashed word = .operand ↔ IsNegativeNumber word ∨ .char ' ' ∈ word := by
  rw [← looksNegative_iff, ← List.contains_iff_mem, ← Bool.or_eq_true]
  unfold ofDashed
  split
  · rename_i letters
    exact absurd (Or.inl ⟨letters, rfl⟩) h
  · split_ifs with hlooks
    · exact iff_of_true rfl hlooks
    · exact iff_of_false nofun hlooks

/-- What follows the minus sign of a negative number is no letter and no dash. -/
theorem not_isOptionLike_of_isNegativeNumber {word : Wide}
    (h : IsNegativeNumber word) : ¬ IsOptionLike word := by
  obtain ⟨whole, fraction, ending, hword, hne, hwhole, hfraction, hending⟩ := h
  obtain ⟨c, rest, hsecond, hc⟩ : ∃ c rest, whole ++ fraction = c :: rest ∧
      c ≠ .char 'h' ∧ c ≠ .char '-' := by
    cases whole with
    | nil =>
      cases hfraction with
      | whole => exact absurd rfl hne
      | point => exact ⟨.char '.', _, rfl, by decide, by decide⟩
    | cons c others =>
      have hdigit := hwhole c List.mem_cons_self
      refine ⟨c, _, rfl, ?_, ?_⟩
      · rintro rfl
        exact absurd hdigit (by decide)
      · rintro rfl
        exact absurd hdigit (by decide)
  rw [hsecond] at hword
  have hnot : ∀ d more, (.char '-' :: d :: more <+: word) → d ≠ .char 'h' ∧ d ≠ .char '-' := by
    intro d more hprefix
    rw [hword, List.cons_append, List.cons_prefix_cons, List.cons_append,
      List.cons_prefix_cons] at hprefix
    exact hprefix.2.1 ▸ hc
  have hname : ∀ option : OptionName, ¬ (option.text : Wide) <+: word := by
    intro option hprefix
    cases option with
    | shortHelp => exact (hnot _ _ hprefix).1 rfl
    | longHelp => exact (hnot _ _ hprefix).2 rfl
    | valued o => cases o <;> exact (hnot _ _ hprefix).2 rfl
    | flag f => cases f <;> exact (hnot _ _ hprefix).2 rfl
  rintro (hshort | ⟨option, heq | hattached⟩)
  · exact hname .shortHelp hshort
  · exact hname option (heq ▸ List.prefix_refl _)
  · exact hname option ((List.prefix_append _ _).trans hattached)

theorem ofText_eq_operand_iff (word : Wide) :
    ofText word = .operand ↔ IsOperandText word := by
  by_cases hdash : ∃ c rest, word = .char '-' :: c :: rest
  · obtain ⟨c, rest, hword⟩ := hdash
    have hhead : word.head? = some (.char '-') := by rw [hword]; rfl
    have hlone : word ≠ "-" := by
      rintro rfl
      cases hword
    unfold IsOperandText
    rw [or_iff_right (not_not.2 hhead), or_iff_right hlone]
    by_cases hlike : IsOptionLike word
    · refine iff_of_false (ofText_ne_operand_of_isOptionLike hlike) ?_
      rintro (hnegative | ⟨_, hnot⟩)
      · exact not_isOptionLike_of_isNegativeNumber hnegative hlike
      · exact hnot hlike
    · rw [and_iff_left hlike, ← ofDashed_of_not_isOptionLike hlike]
      rcases ofText_cases word with ⟨hno, _⟩ | ⟨option, h⟩ | ⟨option, value, h⟩ | h
      · exact absurd hword (hno c rest)
      · exact absurd (Or.inr ⟨option, Or.inl h⟩) hlike
      · exact absurd (Or.inr ⟨option, Or.inr (isPrefix_attached.2 ⟨value, h⟩)⟩) hlike
      · rw [← h]
  · have htext : word.head? ≠ some (.char '-') ∨ word = "-" := by
      cases hword : word with
      | nil => exact Or.inl nofun
      | cons d rest =>
        by_cases hd : d = .char '-'
        · subst hd
          cases rest with
          | nil => exact Or.inr rfl
          | cons c rest => exact absurd ⟨c, rest, hword⟩ hdash
        · exact Or.inl fun h => hd (Option.some.inj h)
    refine iff_of_true ?_ (htext.imp_right Or.inl)
    have hbool : (word.head? != some (.char '-') || word = "-") = true := by
      rw [Bool.or_eq_true, bne_iff_ne, decide_eq_true_iff]
      exact htext
    unfold ofText
    rw [if_pos hbool]

theorem ofText_ne_unknown_of_isOptionLike {word : Wide} (h : IsOptionLike word) :
    ofText word ≠ .unknown := by
  rcases h with hshort | ⟨option, hname | hattached⟩
  · intro hunknown
    have hstops := stops_of_short_help hshort
    rw [hunknown] at hstops
    exact hstops
  · rw [hname, ofText_text]
    cases option <;> exact nofun
  · obtain ⟨value, hvalue⟩ := isPrefix_attached.1 hattached
    rw [hvalue, ofText_attached]
    intro hunknown
    cases option with
    | shortHelp =>
      have hstops := stops_ofHelpLetters value
      rw [show ofHelpLetters value = .unknown from hunknown] at hstops
      exact hstops
    | longHelp | valued o | flag f => cases hunknown

theorem ofText_eq_unknown_iff (word : Wide) :
    ofText word = .unknown ↔ IsUnknownText word := by
  constructor
  · intro h
    refine ⟨fun hoperand => ?_, fun hlike => ofText_ne_unknown_of_isOptionLike hlike h⟩
    cases h.symm.trans ((ofText_eq_operand_iff word).2 hoperand)
  · rintro ⟨hoperand, hlike⟩
    rw [← ofText_eq_operand_iff] at hoperand
    rcases ofText_cases word with ⟨_, h⟩ | ⟨option, h⟩ | ⟨option, value, h⟩ | h
    · exact absurd h hoperand
    · exact absurd (Or.inr ⟨option, Or.inl h⟩) hlike
    · exact absurd (Or.inr ⟨option, Or.inr (isPrefix_attached.2 ⟨value, h⟩)⟩) hlike
    · rw [h] at hoperand ⊢
      rcases ofDashed_cases word with ⟨letters, hword, _⟩ | hdashed | hdashed
      · exact absurd (Or.inl ⟨letters, hword.symm⟩) hlike
      · exact absurd hdashed hoperand
      · exact hdashed

end Word

end WavePlot.CommandLine
