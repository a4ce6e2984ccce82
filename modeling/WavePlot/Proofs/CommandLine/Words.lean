import Mathlib.Tactic.SplitIfs
import WavePlot.CommandLine.Word
import WavePlot.Proofs.Settings.Assignment

/-!
# Which words are options

A word is an option on its own exactly when it is the option's name, and an option with a value
attached exactly when it is the name, an equals sign and the value. The words that end the reading
where they stand are those that start like a request for help and the flags with a value attached.
-/

namespace WavePlot.CommandLine

namespace OptionName

def text : OptionName → String
  | .shortHelp => "-h"
  | .longHelp => "--help"
  | .valued o => o.name
  | .flag f => f.name

theorem ofText?_text (option : OptionName) : ofText? option.text = some option := by
  cases option with
  | valued o => cases o <;> decide
  | flag f => cases f <;> decide
  | _ => decide

theorem ofText?_eq_some_iff {name : Wide} {option : OptionName} :
    ofText? name = some option ↔ name = option.text := by
  constructor
  · intro h
    unfold ofText? at h
    split_ifs at h with h1 h2 h3 h4 h5 h6 <;> cases h <;> assumption
  · rintro rfl
    exact ofText?_text option

theorem equals_not_mem_text (option : OptionName) : .char '=' ∉ (option.text : Wide) := by
  cases option with
  | valued o => cases o <;> decide
  | flag f => cases f <;> decide
  | _ => decide

theorem ofText?_of_equals {word : Wide} (h : .char '=' ∈ word) : ofText? word = none := by
  rw [Option.eq_none_iff_forall_ne_some]
  intro option hoption
  rw [ofText?_eq_some_iff] at hoption
  rw [hoption] at h
  exact option.equals_not_mem_text h

theorem text_eq_dash (option : OptionName) :
    ∃ c rest, (option.text : Wide) = .char '-' :: c :: rest := by
  cases option with
  | valued o => cases o <;> exact ⟨_, _, rfl⟩
  | flag f => cases f <;> exact ⟨_, _, rfl⟩
  | _ => exact ⟨_, _, rfl⟩

end OptionName

namespace Word

/-! ## The three ways to classify a word -/

/-- A word with a dash in front and more behind it is looked at further. -/
theorem not_isPlain {word : Wide} {c : CodePoint} {rest : Wide}
    (h : word = .char '-' :: c :: rest) :
    ¬ (word.head? != some (.char '-') || word = "-") = true := by
  have hdash : Wide.ofString "-" = [.char '-'] := rfl
  simp [h, hdash]

theorem ofText_text (option : OptionName) : ofText option.text = option.alone := by
  obtain ⟨c, rest, htext⟩ := option.text_eq_dash
  unfold ofText
  rw [if_neg (not_isPlain htext), OptionName.ofText?_text]

theorem ofText_attached (option : OptionName) (value : Wide) :
    ofText (option.text ++ .char '=' :: value) = option.attach value := by
  obtain ⟨c, rest, htext⟩ := option.text_eq_dash
  have hword : option.text ++ .char '=' :: value =
      .char '-' :: c :: (rest ++ .char '=' :: value) := by
    rw [htext]
    rfl
  have hnone : OptionName.ofText? (option.text ++ .char '=' :: value) = none :=
    OptionName.ofText?_of_equals (List.mem_append_right _ List.mem_cons_self)
  unfold ofText
  rw [if_neg (not_isPlain hword), hnone, Assignment.splitWord_append option.equals_not_mem_text]
  simp only [OptionName.ofText?_text]

/-- Any other word with a dash in front has no option in it. -/
theorem ofText_cases (word : Wide) :
    ((∀ c rest, word ≠ .char '-' :: c :: rest) ∧ ofText word = .operand) ∨
      (∃ option : OptionName, word = option.text) ∨
      (∃ (option : OptionName) (value : Wide), word = option.text ++ .char '=' :: value) ∨
      ofText word = ofDashed word := by
  unfold ofText
  split_ifs with hdash
  · left
    refine ⟨?_, rfl⟩
    intro c rest hword
    exact not_isPlain hword hdash
  · right
    split
    · rename_i option h
      exact Or.inl ⟨option, OptionName.ofText?_eq_some_iff.1 h⟩
    · right
      split
      · rename_i name value hsplit
        split
        · rename_i option h
          rw [OptionName.ofText?_eq_some_iff] at h
          exact Or.inl ⟨option, value, h ▸ Assignment.eq_of_splitWord hsplit⟩
        · exact Or.inr rfl
      · exact Or.inr rfl

/-! ## Words that end the reading -/

/-- Whether the word asks for help or has a value that its option does not take. -/
def Stops : Word → Prop
  | .help | .surplus _ _ => True
  | _ => False

theorem stops_ofHelpLetters (letters : Wide) : (ofHelpLetters letters).Stops := by
  induction letters with
  | nil => exact trivial
  | cons c rest ih =>
    unfold ofHelpLetters
    split <;> first | trivial | skip
    rename_i heq
    cases heq
    exact ih

/-- A word with a dash in front and no option in it asks for help, is unknown or is an operand. -/
theorem ofDashed_cases (word : Wide) :
    (∃ letters, word = .char '-' :: .char 'h' :: letters ∧ ofDashed word = ofHelpLetters letters) ∨
      ofDashed word = .operand ∨ ofDashed word = .unknown := by
  unfold ofDashed
  split
  · rename_i letters
    exact Or.inl ⟨letters, rfl, rfl⟩
  · split_ifs <;> simp

/-- A word that starts like a request for help. -/
def IsHelpLike (word : Wide) : Prop :=
  ("-h" : Wide) <+: word ∨ word = "--help" ∨ ("--help=" : Wide) <+: word

def IsLoadedFlag (word : Wide) : Prop := ∃ f : Flag, (f.name ++ "=" : Wide) <+: word

theorem eq_shortHelp {option : OptionName} {letters more : Wide}
    (h : .char '-' :: .char 'h' :: letters = option.text ++ more) : option = .shortHelp := by
  cases option with
  | shortHelp => rfl
  | longHelp => cases h
  | valued o => cases o <;> cases h
  | flag f => cases f <;> cases h

theorem stops_of_short_help {word : Wide} (h : ("-h" : Wide) <+: word) :
    (ofText word).Stops := by
  obtain ⟨letters, rfl⟩ := h
  show (ofText (.char '-' :: .char 'h' :: letters)).Stops
  rcases ofText_cases (.char '-' :: .char 'h' :: letters) with
    ⟨h, _⟩ | ⟨option, h⟩ | ⟨option, value, h⟩ | h
  · exact absurd rfl (h _ letters)
  · have hoption : option = .shortHelp := eq_shortHelp (h.trans (List.append_nil _).symm)
    rw [h, ofText_text, hoption]
    trivial
  · have hoption : option = .shortHelp := eq_shortHelp h
    rw [h, ofText_attached, hoption]
    exact stops_ofHelpLetters value
  · rw [h]
    exact stops_ofHelpLetters letters

theorem isPrefix_attached {name word : Wide} :
    name ++ [.char '='] <+: word ↔ ∃ value, word = name ++ .char '=' :: value := by
  constructor
  · rintro ⟨value, rfl⟩
    exact ⟨value, by simp⟩
  · rintro ⟨value, rfl⟩
    exact ⟨value, by simp⟩

/-- The reading ends at the words that start like a request for help and at the flags with a value
attached. -/
theorem stops_iff (word : Wide) :
    (ofText word).Stops ↔ IsHelpLike word ∨ IsLoadedFlag word := by
  constructor
  · intro hstops
    rcases ofText_cases word with ⟨_, h⟩ | ⟨option, h⟩ | ⟨option, value, h⟩ | h
    · rw [h] at hstops
      exact hstops.elim
    · rw [h, ofText_text] at hstops
      cases option with
      | shortHelp => exact Or.inl (Or.inl (h ▸ List.prefix_refl _))
      | longHelp => exact Or.inl (Or.inr (Or.inl (h)))
      | valued o => exact hstops.elim
      | flag f => exact hstops.elim
    · have hprefix := isPrefix_attached.2 ⟨value, h⟩
      rw [h, ofText_attached] at hstops
      cases option with
      | shortHelp => exact Or.inl (Or.inl ((List.prefix_append _ _).trans hprefix))
      | longHelp => exact Or.inl (Or.inr (Or.inr hprefix))
      | valued o => exact hstops.elim
      | flag f =>
        exact Or.inr ⟨f, hprefix⟩
    · rw [h] at hstops
      rcases ofDashed_cases word with ⟨letters, hword, _⟩ | hoperand | hunknown
      · exact Or.inl (Or.inl ⟨letters, hword.symm⟩)
      · rw [hoperand] at hstops
        exact hstops.elim
      · rw [hunknown] at hstops
        exact hstops.elim
  · rintro ((hshort | rfl | hlong) | ⟨f, hflag⟩)
    · exact stops_of_short_help hshort
    · exact trivial
    · change ("--help" : Wide) ++ [.char '='] <+: word at hlong
      obtain ⟨value, hvalue⟩ := isPrefix_attached.1 hlong
      have h := ofText_attached .longHelp value
      change ofText (("--help" : Wide) ++ .char '=' :: value) = _ at h
      rw [hvalue, h]
      exact trivial
    · obtain ⟨value, hvalue⟩ := isPrefix_attached.1 hflag
      have h := ofText_attached (.flag f) value
      change ofText ((f.name : Wide) ++ .char '=' :: value) = _ at h
      rw [hvalue, h]
      exact trivial

/-! ## Words that are options -/

/-- A word that neither ends the reading nor is an operand or unknown is the name of an option, or
that of an option that takes a value with one attached. -/
theorem option_of_ofText {word : Wide} {r : Word} (h : ofText word = r)
    (hstops : ¬ r.Stops) (hoperand : r ≠ .operand) (hunknown : r ≠ .unknown) :
    (∃ option : OptionName, word = option.text ∧ option.alone = r) ∨
      ∃ (o : Valued) (value : Wide), word = o.name ++ .char '=' :: value ∧
        r = .valued o (some value) := by
  subst h
  rcases ofText_cases word with ⟨_, h⟩ | ⟨option, h⟩ | ⟨option, value, h⟩ | h
  · exact absurd h hoperand
  · rw [h, ofText_text]
    exact Or.inl ⟨option, rfl, rfl⟩
  · rw [h, ofText_attached] at hstops ⊢
    cases option with
    | shortHelp => exact absurd (stops_ofHelpLetters value) hstops
    | longHelp => exact absurd trivial hstops
    | valued o => exact Or.inr ⟨o, value, rfl, rfl⟩
    | flag f => exact absurd trivial hstops
  · rw [h] at hstops hoperand hunknown
    rcases ofDashed_cases word with ⟨letters, _, hletters⟩ | h | h
    · rw [hletters] at hstops
      exact absurd (stops_ofHelpLetters letters) hstops
    · exact absurd h hoperand
    · exact absurd h hunknown

theorem ofText_eq_separate_iff {word : Wide} {o : Valued} :
    ofText word = .valued o none ↔ word = o.name := by
  constructor
  · intro h
    rcases option_of_ofText h id nofun nofun with ⟨option, hword, halone⟩ | ⟨o', value, _, heq⟩
    · cases option <;> cases halone
      exact hword
    · cases heq
  · rintro rfl
    exact ofText_text (.valued o)

theorem ofText_eq_attached_iff {word text : Wide} {o : Valued} :
    ofText word = .valued o (some text) ↔ word = o.name ++ "=" ++ text := by
  constructor
  · intro h
    rcases option_of_ofText h id nofun nofun with ⟨option, _, halone⟩ | ⟨o', value, hword, heq⟩
    · cases option <;> cases halone
    · cases heq
      rw [hword, List.append_assoc]
      rfl
  · rintro rfl
    rw [List.append_assoc]
    exact ofText_attached (.valued o) text

theorem ofText_eq_flag_iff {word : Wide} {f : Flag} :
    ofText word = .flag f ↔ word = f.name := by
  constructor
  · intro h
    rcases option_of_ofText h id nofun nofun with ⟨option, hword, halone⟩ | ⟨o, value, _, heq⟩
    · cases option <;> cases halone
      exact hword
    · cases heq
  · rintro rfl
    exact ofText_text (.flag f)

end Word

end WavePlot.CommandLine
