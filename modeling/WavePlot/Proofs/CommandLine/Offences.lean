import WavePlot.Proofs.CommandLine.Operands
import WavePlot.Proofs.CommandLine.Reading
import WavePlot.Proofs.Settings.Refusal

/-!
# The first offence

A word offends where it stands, before the separator, if it starts like a request for help, is a
flag with a value attached, or is an option that lacks its value. The reading ends at the first such
word and at no other place, and what it ends with is said by the word's text: help, or one mistake.
Whether a word offends is seen in the words up to the next one, so nothing behind that one matters.
-/

namespace WavePlot.CommandLine

/-! ## Offences by text and position -/

/-- The long request for help, or the short one with more of its letter behind it, directly or
behind an equals sign. -/
def AsksForHelp (word : Wide) : Prop :=
  word = "--help" ∨ (∃ n, word = ("-h" : Wide) ++ List.replicate n (.char 'h')) ∨
    ∃ n, word = ("-h=" : Wide) ++ List.replicate (n + 1) (.char 'h')

/-- Of the letters behind the short request for help, the same letter is taken as often as it
comes, and the text is what is left. -/
def LeavesSurplus (letters text : Wide) : Prop :=
  ∃ n, letters = List.replicate n (.char 'h') ++ text ∧ text.head? ≠ some (.char 'h') ∧
    (text = [] → n = 0)

/-- What is said of an option with a text that it does not take. -/
def surplusText (option : String) (text : Wide) : String :=
  "argument " ++ option ++ ": ignored explicit argument " ++ Text.quote text

/-- The mistake that an offending word is reported for, in words. -/
inductive MistakeOf : Wide → String → Prop
  | lacking (o : Valued) : MistakeOf o.name ("argument " ++ o.name ++ ": expected one argument")
  | flag (f : Flag) (text : Wide) : MistakeOf (f.name ++ "=" ++ text) (surplusText f.name text)
  | longHelp (text : Wide) : MistakeOf ("--help" ++ "=" ++ text) (surplusText "-h/--help" text)
  | shortHelp {letters text : Wide} (hne : letters ≠ [])
      (hequals : letters.head? ≠ some (.char '='))
      (h : LeavesSurplus letters text) : MistakeOf ("-h" ++ letters) (surplusText "-h/--help" text)
  | attachedHelp {letters text : Wide} (h : LeavesSurplus letters text) :
      MistakeOf ("-h=" ++ letters) (surplusText "-h/--help" text)

/-- The word at the position stands before the separator and starts like a request for help, is a
flag with a value attached, or is an option with no operand behind it. -/
def OffendingAt (words : List Wide) (k : Nat) : Prop :=
  k < optionEnd words ∧ ∃ word, words[k]? = some word ∧
    (Word.IsHelpLike word ∨ Word.IsLoadedFlag word ∨
      (∃ o : Valued, word = o.name) ∧
        ∀ next, words[k + 1]? = some next → ¬ Word.IsOperandText next)

structure FirstOffence (words : List Wide) (k : Nat) : Prop where
  offending : OffendingAt words k
  first : ∀ j, j < k → ¬ OffendingAt words j

theorem FirstOffence.unique {words : List Wide} {j k : Nat} (hj : FirstOffence words j)
    (hk : FirstOffence words k) : j = k := by
  rcases Nat.lt_trichotomy j k with hlt | heq | hlt
  · exact absurd hj.offending (hk.first j hlt)
  · exact heq
  · exact absurd hk.offending (hj.first k hlt)

/-! ## Texts that end the reading -/

namespace Word

theorem leavesSurplus_cons_iff {letters text : Wide} (hne : letters ≠ []) :
    LeavesSurplus (.char 'h' :: letters) text ↔ LeavesSurplus letters text := by
  constructor
  · rintro ⟨n, hletters, hhead, hempty⟩
    cases n with
    | zero =>
      rw [List.replicate_zero, List.nil_append] at hletters
      rw [← hletters] at hhead
      exact absurd rfl hhead
    | succ n =>
      rw [List.replicate_succ, List.cons_append] at hletters
      have hrest := (List.cons.inj hletters).2
      refine ⟨n, hrest, hhead, fun htext => ?_⟩
      cases hempty htext
  · rintro ⟨n, hletters, hhead, hempty⟩
    refine ⟨n + 1, by rw [hletters]; rfl, hhead, fun htext => ?_⟩
    rw [hempty htext, htext] at hletters
    exact absurd hletters hne

/-- Letters behind the short request for help ask for help if all of them are its own, and leave
the text from the first other one on. -/
theorem ofHelpLetters_cases (letters : Wide) :
    ((∃ n, letters = List.replicate (n + 1) (.char 'h')) ∧ ofHelpLetters letters = .help) ∨
      ∃ text, LeavesSurplus letters text ∧
        ofHelpLetters letters = .surplus helpName text := by
  fun_induction ofHelpLetters letters with
  | case1 => exact Or.inl ⟨⟨0, rfl⟩, rfl⟩
  | case2 second rest ih =>
    rcases ih with ⟨⟨n, hn⟩, hhelp⟩ | ⟨text, hleaves, htext⟩
    · exact Or.inl ⟨⟨n + 1, by rw [hn]; rfl⟩, hhelp⟩
    · exact Or.inr ⟨text, (leavesSurplus_cons_iff (List.cons_ne_nil _ _)).2 hleaves, htext⟩
  | case3 letters hlone hmore =>
    refine Or.inr ⟨letters, ⟨0, rfl, ?_, fun _ => rfl⟩, rfl⟩
    cases letters with
    | nil => exact nofun
    | cons c rest =>
      intro hc
      cases Option.some.inj hc
      cases rest with
      | nil => exact hlone rfl
      | cons second others => exact hmore second others rfl

/-- The letters leave one text at most. -/
theorem leavesSurplus_unique {letters : Wide} {text other : Wide}
    (h : LeavesSurplus letters text) (hother : LeavesSurplus letters other) : text = other := by
  induction letters with
  | nil =>
    obtain ⟨_, hletters, _⟩ := h
    obtain ⟨_, hletters', _⟩ := hother
    have htext := (List.append_eq_nil_iff.1 hletters.symm).2
    rw [htext, (List.append_eq_nil_iff.1 hletters'.symm).2]
  | cons c rest ih =>
    by_cases hstep : c = .char 'h' ∧ rest ≠ []
    · obtain ⟨rfl, hne⟩ := hstep
      exact ih ((leavesSurplus_cons_iff hne).1 h) ((leavesSurplus_cons_iff hne).1 hother)
    · have hall : ∀ t : Wide, LeavesSurplus (c :: rest) t → t = c :: rest := by
        rintro t ⟨n, hletters, _, hempty⟩
        cases n with
        | zero => exact hletters.symm
        | succ n =>
          obtain ⟨rfl, hrest⟩ := List.cons.inj hletters
          have hnil : rest = [] := not_not.1 fun hne => hstep ⟨rfl, hne⟩
          rw [hnil] at hrest
          have htext := (List.append_eq_nil_iff.1 hrest.symm).2
          cases hempty htext
      rw [hall text h, hall other hother]

theorem not_leavesSurplus_replicate (n : Nat) (text : Wide) :
    ¬ LeavesSurplus (List.replicate (n + 1) (.char 'h')) text := by
  rintro ⟨m, hletters, hhead, hempty⟩
  have hall : ∀ c ∈ text, c = .char 'h' := by
    intro c hc
    have hmem : c ∈ List.replicate (n + 1) (.char 'h') := by
      rw [hletters]
      exact List.mem_append_right _ hc
    exact List.eq_of_mem_replicate hmem
  cases htext : text with
  | nil =>
    have hzero := hempty htext
    rw [hzero, htext] at hletters
    cases hletters
  | cons c rest =>
    rw [htext] at hall hhead
    exact hhead (congrArg some (hall c List.mem_cons_self))

theorem ofHelpLetters_replicate (n : Nat) :
    ofHelpLetters (List.replicate (n + 1) (.char 'h')) = .help := by
  rcases ofHelpLetters_cases (List.replicate (n + 1) (.char 'h')) with ⟨_, h⟩ | ⟨text, hleaves, _⟩
  · exact h
  · exact absurd hleaves (not_leavesSurplus_replicate n text)

theorem ofHelpLetters_of_leavesSurplus {letters text : Wide}
    (h : LeavesSurplus letters text) : ofHelpLetters letters = .surplus helpName text := by
  rcases ofHelpLetters_cases letters with ⟨⟨n, rfl⟩, _⟩ | ⟨other, hother, hclass⟩
  · exact absurd h (not_leavesSurplus_replicate n text)
  · rw [hclass, leavesSurplus_unique h hother]

theorem ofText_shortHelp {letters : Wide} (hne : letters ≠ [])
    (hequals : letters.head? ≠ some (.char '=')) :
    ofText (.char '-' :: .char 'h' :: letters) = ofHelpLetters letters := by
  rcases ofText_cases (.char '-' :: .char 'h' :: letters) with
    ⟨h, _⟩ | ⟨option, h⟩ | ⟨option, value, h⟩ | h
  · exact absurd rfl (h _ letters)
  · obtain rfl : option = .shortHelp := eq_shortHelp (h.trans (List.append_nil _).symm)
    cases h
    exact absurd rfl hne
  · obtain rfl : option = .shortHelp := eq_shortHelp h
    cases h
    exact absurd rfl hequals
  · exact h

/-- A word that starts like the short request for help either is one or leaves some text. -/
theorem shortHelp_cases (letters : Wide) :
    (AsksForHelp ("-h" ++ letters) ∧ ofText ("-h" ++ letters) = .help) ∨
      ∃ text, MistakeOf ("-h" ++ letters) (surplusText helpName text) ∧
        ofText ("-h" ++ letters) = .surplus helpName text := by
  cases letters with
  | nil => exact Or.inl ⟨Or.inr (Or.inl ⟨0, rfl⟩), ofText_text .shortHelp⟩
  | cons c rest =>
    by_cases hc : c = .char '='
    · subst hc
      have hclass : ofText ("-h" ++ .char '=' :: rest) = ofHelpLetters rest :=
        ofText_attached .shortHelp rest
      rw [hclass]
      rcases ofHelpLetters_cases rest with ⟨⟨n, rfl⟩, hhelp⟩ | ⟨text, hleaves, hsurplus⟩
      · exact Or.inl ⟨Or.inr (Or.inr ⟨n, rfl⟩), hhelp⟩
      · exact Or.inr ⟨text, .attachedHelp hleaves, hsurplus⟩
    · have hequals : (c :: rest).head? ≠ some (.char '=') := fun h => hc (Option.some.inj h)
      have hclass : ofText ("-h" ++ c :: rest) = ofHelpLetters (c :: rest) :=
        ofText_shortHelp (List.cons_ne_nil c rest) hequals
      rw [hclass]
      rcases ofHelpLetters_cases (c :: rest) with ⟨⟨n, hn⟩, hhelp⟩ | ⟨text, hleaves, hsurplus⟩
      · exact Or.inl ⟨Or.inr (Or.inl ⟨n + 1, by rw [hn]⟩), hhelp⟩
      · exact Or.inr ⟨text, .shortHelp (List.cons_ne_nil c rest) hequals hleaves, hsurplus⟩

theorem ofText_name_attached (option : OptionName) (text : Wide) :
    ofText (option.text ++ "=" ++ text) = option.attach text := by
  rw [List.append_assoc]
  exact ofText_attached option text

theorem exists_attached_of_isPrefix {word : Wide} {name : String}
    (h : (name ++ "=" : Wide) <+: word) : ∃ text, word = name ++ "=" ++ text := by
  obtain ⟨text, htext⟩ := h
  exact ⟨text, htext.symm⟩

/-- What the words are read as that end the reading by their texts alone. -/
theorem helpLike_or_loadedFlag_cases {word : Wide} (h : IsHelpLike word ∨ IsLoadedFlag word) :
    (AsksForHelp word ∧ ofText word = .help) ∨
      ∃ option text, MistakeOf word (surplusText option text) ∧
        ofText word = .surplus option text := by
  rcases h with (⟨letters, rfl⟩ | rfl | hlong) | ⟨f, hflag⟩
  · rcases shortHelp_cases letters with hhelp | ⟨text, hmistake, hsurplus⟩
    · exact Or.inl hhelp
    · exact Or.inr ⟨helpName, text, hmistake, hsurplus⟩
  · exact Or.inl ⟨Or.inl rfl, ofText_text .longHelp⟩
  · obtain ⟨text, rfl⟩ := @exists_attached_of_isPrefix word "--help" hlong
    exact Or.inr ⟨helpName, text, .longHelp text, ofText_name_attached .longHelp text⟩
  · obtain ⟨text, rfl⟩ := exists_attached_of_isPrefix hflag
    exact Or.inr ⟨f.name, text, .flag f text, ofText_name_attached (.flag f) text⟩

theorem ofText_of_asksForHelp {word : Wide} (h : AsksForHelp word) : ofText word = .help := by
  rcases h with rfl | ⟨n, rfl⟩ | ⟨n, rfl⟩
  · exact ofText_text .longHelp
  · cases n with
    | zero => exact ofText_text .shortHelp
    | succ n =>
      have hclass : ofText (("-h" : Wide) ++ List.replicate (n + 1) (.char 'h')) =
          ofHelpLetters (List.replicate (n + 1) (.char 'h')) :=
        ofText_shortHelp (List.cons_ne_nil _ _) (by simp [List.replicate_succ])
      exact hclass.trans (ofHelpLetters_replicate n)
  · exact (ofText_attached .shortHelp _).trans (ofHelpLetters_replicate n)

end Word

/-! ## Where the reading ends -/

/-- What a word ends the reading with if the reading ends at it. -/
def Word.stop? : Word → Option Stop
  | .help => some .help
  | .surplus option text => some (.mistake (.surplusArgument option text))
  | .valued o none => some (.mistake (.expectedArgument o))
  | _ => none

def Item.stop? : Item → Option Stop
  | .help => some .help
  | .surplus option text => some (.mistake (.surplusArgument option text))
  | .lacking o => some (.mistake (.expectedArgument o))
  | _ => none

/-- Whether a step ends the reading is said by the item, whatever has been read. -/
theorem step_eq_error_iff (p : Progress) (item : Item) (stop : Stop) :
    p.step item = .error stop ↔ item.stop? = some stop := by
  cases item with
  | operand word | separator =>
    unfold Progress.step Item.stop?
    dsimp only
    split_ifs <;> exact iff_of_false nofun nofun
  | help | lacking o | surplus option text =>
    unfold Progress.step Item.stop?
    rw [Except.error.injEq, Option.some.injEq]
  | unknown word | flag f | value o value => exact iff_of_false nofun nofun

section Cons

variable {word : Wide} {rest : List Wide}

theorem offendingAt_succ (hne : word ≠ separator) (k : Nat) :
    OffendingAt (word :: rest) (k + 1) ↔ OffendingAt rest k := by
  have hend : optionEnd (word :: rest) = optionEnd rest + 1 := List.idxOf_cons_ne rest hne
  unfold OffendingAt
  rw [hend, Nat.add_lt_add_iff_right]
  rfl

theorem not_offendingAt_separator (k : Nat) : ¬ OffendingAt (separator :: rest) k := by
  rintro ⟨hk, _⟩
  rw [optionEnd, List.idxOf_cons_self] at hk
  exact absurd hk (Nat.not_lt_zero k)

/-- Whether the first word offends is said by its class and by the word behind it. -/
theorem offendingAt_zero_iff (hne : word ≠ separator) : OffendingAt (word :: rest) 0 ↔
    (Word.ofText word).Stops ∨
      (∃ o, Word.ofText word = .valued o none) ∧ ∀ next, rest[0]? = some next →
        isOperand next = false := by
  have hend : optionEnd (word :: rest) = optionEnd rest + 1 := List.idxOf_cons_ne rest hne
  simp only [OffendingAt, hend, Nat.zero_lt_succ, true_and, List.getElem?_cons_zero,
    List.getElem?_cons_succ, Option.some.injEq, exists_eq_left', Word.stops_iff,
    Word.ofText_eq_separate_iff, ← isOperand_iff, Bool.not_eq_true, or_assoc]

theorem not_offendingAt_zero {kind : Word} (hne : word ≠ separator)
    (hword : Word.ofText word = kind) (hstops : ¬ kind.Stops)
    (hvalued : ∀ o, kind ≠ .valued o none) : ¬ OffendingAt (word :: rest) 0 := by
  rw [offendingAt_zero_iff hne, hword]
  intro hzero
  rcases hzero with hends | ⟨⟨o, ho⟩, _⟩
  · exact hstops hends
  · exact hvalued o ho

/-- The reading of the words ends at the first offence with what that word ends it with, or at no
place because no word offends. -/
inductive EndsAtFirst (words : List Wide) : Option Stop → Prop
  | offence {k : Nat} {word : Wide} (hk : FirstOffence words k) (hword : words[k]? = some word) :
      EndsAtFirst words (Word.ofText word).stop?
  | clean (h : ∀ k, ¬ OffendingAt words k) : EndsAtFirst words none

theorem EndsAtFirst.head {kind : Word} (hword : Word.ofText word = kind)
    (h : OffendingAt (word :: rest) 0) : EndsAtFirst (word :: rest) kind.stop? := by
  rw [← hword]
  exact .offence ⟨h, fun j hj => absurd hj (Nat.not_lt_zero j)⟩ rfl

theorem EndsAtFirst.cons {stop? : Option Stop} (hne : word ≠ separator)
    (hzero : ¬ OffendingAt (word :: rest) 0) (h : EndsAtFirst rest stop?) :
    EndsAtFirst (word :: rest) stop? := by
  cases h with
  | @offence k other hk hother =>
    refine .offence ⟨(offendingAt_succ hne k).2 hk.offending, fun j hj => ?_⟩ hother
    cases j with
    | zero => exact hzero
    | succ j =>
      rw [offendingAt_succ hne]
      exact hk.first j (Nat.lt_of_succ_lt_succ hj)
  | clean h =>
    refine .clean fun k => ?_
    cases k with
    | zero => exact hzero
    | succ k =>
      rw [offendingAt_succ hne]
      exact h k

end Cons

/-- The items that words form end the reading at the words' first offence. -/
theorem endsAtFirst_items (words : List Wide) :
    EndsAtFirst words ((items words).findSome? Item.stop?) := by
  fun_induction items words with
  | case1 => exact .clean fun k hk => absurd hk.1 (Nat.not_lt_zero k)
  | case2 rest =>
    have hnone : (Item.separator :: rest.map .operand).findSome? Item.stop? = none := by
      rw [List.findSome?_eq_none_iff]
      intro item hitem
      rcases List.mem_cons.1 hitem with rfl | hitem
      · rfl
      · obtain ⟨word, _, rfl⟩ := List.mem_map.1 hitem
        rfl
    rw [hnone]
    exact .clean not_offendingAt_separator
  | case3 word rest hne hword ih | case4 word rest hne hword ih
  | case6 word rest hne f hword ih | case8 word rest hne o text hword ih =>
    exact .cons hne (not_offendingAt_zero hne hword id fun o ho => by cases ho) ih
  | case5 word rest hne hword ih =>
    have hzero : OffendingAt (word :: rest) 0 := by
      rw [offendingAt_zero_iff hne, hword]
      exact Or.inl trivial
    exact .head hword hzero
  | case7 word rest hne option text hword ih =>
    have hzero : OffendingAt (word :: rest) 0 := by
      rw [offendingAt_zero_iff hne, hword]
      exact Or.inl trivial
    exact .head hword hzero
  | case9 word hne o hword =>
    have hzero : OffendingAt [word] 0 := by
      refine (offendingAt_zero_iff hne).2 (Or.inr ⟨⟨o, hword⟩, fun next hnext => ?_⟩)
      cases hnext
    exact .head hword hzero
  | case10 word hne o hword next others hoperand ih =>
    have hnextne : next ≠ separator := by
      rintro rfl
      cases hoperand
    have hnextclass : Word.ofText next = .operand := by
      rw [isOperand, Bool.and_eq_true, beq_iff_eq] at hoperand
      exact hoperand.2
    refine .cons hne ?_ (.cons hnextne ?_ ih)
    · rw [offendingAt_zero_iff hne, hword]
      rintro (hstops | ⟨_, hlacks⟩)
      · exact hstops
      · have hnot := hlacks next rfl
        rw [hoperand] at hnot
        cases hnot
    · exact not_offendingAt_zero hnextne hnextclass id fun o ho => by cases ho
  | case11 word hne o hword next others hoperand ih =>
    have hzero : OffendingAt (word :: next :: others) 0 := by
      refine (offendingAt_zero_iff hne).2 (Or.inr ⟨⟨o, hword⟩, fun other hother => ?_⟩)
      cases hother
      exact Bool.eq_false_of_not_eq_true hoperand
    exact .head hword hzero

/-! ## The reading at its first offence -/

section Reading

variable {words words' : List Wide} {k : Nat} {word : Wide}

/-- What a word is reported for is what the reading ends with at it. -/
theorem stop?_of_mistakeOf {mistake : String} (h : MistakeOf word mistake) :
    ∃ e : UsageError, e.message = mistake ∧ (Word.ofText word).stop? = some (.mistake e) := by
  cases h with
  | lacking o =>
    refine ⟨.expectedArgument o, rfl, ?_⟩
    rw [Word.ofText_eq_separate_iff.2 rfl]
    rfl
  | flag f text =>
    refine ⟨.surplusArgument f.name text, rfl, ?_⟩
    have hclass := Word.ofText_name_attached (.flag f) text
    rw [OptionName.text] at hclass
    rw [hclass]
    rfl
  | longHelp text =>
    refine ⟨.surplusArgument helpName text, rfl, ?_⟩
    have hclass := Word.ofText_name_attached .longHelp text
    rw [OptionName.text] at hclass
    rw [hclass]
    rfl
  | @shortHelp letters text hne hequals hleaves =>
    refine ⟨.surplusArgument helpName text, rfl, ?_⟩
    have hclass : Word.ofText ("-h" ++ letters) = .surplus helpName text :=
      (Word.ofText_shortHelp hne hequals).trans (Word.ofHelpLetters_of_leavesSurplus hleaves)
    rw [hclass]
    rfl
  | @attachedHelp letters text hleaves =>
    refine ⟨.surplusArgument helpName text, rfl, ?_⟩
    have hclass : Word.ofText ("-h=" ++ letters) = .surplus helpName text :=
      (Word.ofText_attached .shortHelp letters).trans
        (Word.ofHelpLetters_of_leavesSurplus hleaves)
    rw [hclass]
    rfl

theorem MistakeOf.unique {mistake other : String} (h : MistakeOf word mistake)
    (hother : MistakeOf word other) : mistake = other := by
  obtain ⟨e, rfl, hstop⟩ := stop?_of_mistakeOf h
  obtain ⟨e', rfl, hstop'⟩ := stop?_of_mistakeOf hother
  cases hstop.symm.trans hstop'
  rfl

/-- An offending word asks for help or is reported for its mistake. -/
theorem stop?_of_offendingAt (h : OffendingAt words k) (hword : words[k]? = some word) :
    (AsksForHelp word ∧ (Word.ofText word).stop? = some .help) ∨
      ¬ AsksForHelp word ∧ ∃ e : UsageError, MistakeOf word e.message ∧
        (Word.ofText word).stop? = some (.mistake e) := by
  have hnothelp : Word.ofText word ≠ .help → ¬ AsksForHelp word :=
    fun hne hasks => hne (Word.ofText_of_asksForHelp hasks)
  obtain ⟨_, other, hother, hoffends⟩ := h
  cases hword.symm.trans hother
  rcases or_assoc.2 hoffends with htext | ⟨⟨o, rfl⟩, _⟩
  · rcases Word.helpLike_or_loadedFlag_cases htext with ⟨hasks, hhelp⟩ |
      ⟨option, text, hmistake, hsurplus⟩
    · exact Or.inl ⟨hasks, by rw [hhelp]; rfl⟩
    · refine Or.inr ⟨hnothelp (by rw [hsurplus]; exact nofun), .surplusArgument option text,
        hmistake, ?_⟩
      rw [hsurplus]
      rfl
  · have hclass : Word.ofText o.name = .valued o none := Word.ofText_eq_separate_iff.2 rfl
    refine Or.inr ⟨hnothelp (by rw [hclass]; exact nofun), .expectedArgument o, .lacking o, ?_⟩
    rw [hclass]
    rfl

/-- The reading ends at the first offence with what that word ends it with. -/
theorem read_of_firstOffence {stop : Stop} (hk : FirstOffence words k)
    (hword : words[k]? = some word) (hstop : (Word.ofText word).stop? = some stop) :
    read words = .error stop := by
  have hends := endsAtFirst_items words
  generalize hitems : (items words).findSome? Item.stop? = stop? at hends
  cases hends with
  | offence hj hother =>
    cases hj.unique hk
    cases hword.symm.trans hother
    have hfold := (foldlM_eq_error_iff step_eq_error_iff (s := {})).2 (hitems.trans hstop)
    unfold read
    rw [hfold]
    rfl
  | clean hclean => exact absurd hk.offending (hclean k)

/-- Without an offence only the output can be missing. -/
theorem read_of_no_offence (hclean : ∀ k, ¬ OffendingAt words k)
    (hunread : ∀ i, read words ≠ .ok i) : read words = .error (.mistake .missingOutput) := by
  have hends := endsAtFirst_items words
  generalize hitems : (items words).findSome? Item.stop? = stop? at hends
  cases hends with
  | offence hk _ => exact absurd hk.offending (hclean _)
  | clean =>
    unfold read at hunread ⊢
    cases hfold : (items words).foldlM Progress.step {} with
    | error stop =>
      rw [foldlM_eq_error_iff step_eq_error_iff, hitems] at hfold
      cases hfold
    | ok p =>
      rw [hfold] at hunread
      show p.finish = _
      have hfinish : ∀ i, p.finish ≠ .ok i := hunread
      unfold Progress.finish at hfinish ⊢
      cases hout : p.output with
      | none => rfl
      | some output =>
        rw [hout] at hfinish
        exact absurd rfl (hfinish _)

theorem exists_firstOffence (h : ¬ ∀ k, ¬ OffendingAt words k) :
    ∃ k word, FirstOffence words k ∧ words[k]? = some word := by
  have hends := endsAtFirst_items words
  generalize (items words).findSome? Item.stop? = stop? at hends
  cases hends with
  | offence hk hword => exact ⟨_, _, hk, hword⟩
  | clean hclean => exact absurd hclean h

/-! ## The words that decide -/

theorem lt_optionEnd_iff : k < optionEnd words ↔
    k < words.length ∧ ∀ j, j ≤ k → words[j]? ≠ some separator := by
  constructor
  · intro hk
    refine ⟨Nat.lt_of_lt_of_le hk (optionEnd_le_length words), fun j hj hword => ?_⟩
    exact ne_separator (Nat.lt_of_le_of_lt hj hk) hword rfl
  · rintro ⟨hlength, hbefore⟩
    refine List.lt_findIdx_of_not hlength fun j hj heq => hbefore j hj ?_
    rw [List.getElem?_eq_getElem (by omega), eq_of_beq heq]

theorem getElem?_eq_of_take_eq {n j : Nat} (h : words'.take n = words.take n) (hj : j < n) :
    words'[j]? = words[j]? := by
  rw [← List.getElem?_take_of_lt hj, h, List.getElem?_take_of_lt hj]

/-- Whether a word offends is seen in the words up to the next one. -/
theorem OffendingAt.of_take_eq (h : OffendingAt words k)
    (hsame : words'.take (k + 2) = words.take (k + 2)) : OffendingAt words' k := by
  have hget : ∀ j, j < k + 2 → words'[j]? = words[j]? := fun j hj => getElem?_eq_of_take_eq hsame hj
  obtain ⟨hk, word, hword, hoffends⟩ := h
  obtain ⟨hlength, hbefore⟩ := lt_optionEnd_iff.1 hk
  have hword' : words'[k]? = some word := (hget k (by omega)).trans hword
  refine ⟨lt_optionEnd_iff.2 ⟨(List.getElem?_eq_some_iff.1 hword').1, fun j hj => ?_⟩,
    word, hword', ?_⟩
  · rw [hget j (by omega)]
    exact hbefore j hj
  · rw [hget (k + 1) (by omega)]
    exact hoffends

theorem FirstOffence.of_take_eq (h : FirstOffence words k)
    (hsame : words'.take (k + 2) = words.take (k + 2)) : FirstOffence words' k := by
  refine ⟨h.offending.of_take_eq hsame, fun j hj hoffends => h.first j hj ?_⟩
  refine hoffends.of_take_eq ?_
  have htaken := congrArg (List.take (j + 2)) hsame
  rw [List.take_take, List.take_take, Nat.min_eq_left (by omega)] at htaken
  exact htaken.symm

end Reading

end WavePlot.CommandLine
