import WavePlot.Proofs.CommandLine.Agreement

/-!
# Parameters on the command line

A word that assigns a parameter is an unknown option to the reading and so is left over, unless
there is a space in it: then it is an operand. A command line of such words and an output is
therefore read as meant when no word has a space, and else takes the first word with one for the
output and leaves the real output over.
-/

namespace WavePlot.CommandLine

namespace Word

theorem looksNegative_dashes (rest : Wide) :
    looksNegative (.char '-' :: .char '-' :: rest) = false := by
  have hdash : isDecimalDigit (.char '-') = false := by decide
  cases rest with
  | nil => simp [looksNegative, dropFinalNewline, hdash]
  | cons c rest => simp [looksNegative, dropFinalNewline, hdash]

theorem ofText?_dashed (p : Parameter) : OptionName.ofText? ("--" ++ p.name) = none := by
  cases p <;> decide

/-- A parameter's word is no option: its spaces alone decide what it is. -/
theorem ofText_word (p : Parameter) (raw : Wide) :
    ofText (p.word raw) = if .char ' ' ∈ p.word raw then .operand else .unknown := by
  obtain ⟨rest, hword⟩ : ∃ rest, p.word raw = .char '-' :: .char '-' :: rest :=
    ⟨p.name ++ .char '=' :: raw, p.word_eq raw⟩
  have hsplit : Assignment.splitWord (p.word raw) = (("--" ++ p.name : Wide), some raw) := by
    rw [Parameter.word_eq]
    exact Assignment.splitWord_append (Assignment.equals_not_mem_dashed p)
  unfold ofText
  rw [if_neg (not_isPlain hword), OptionName.ofText?_of_equals (p.equals_mem_word raw), hsplit]
  dsimp only
  rw [ofText?_dashed, hword]
  unfold ofDashed
  simp [looksNegative_dashes]

end Word

/-! ## The items -/

/-- The item that a parameter's word forms. -/
def parameterItem (word : Wide) : Item :=
  if .char ' ' ∈ word then .operand word else .unknown word

theorem items_word (p : Parameter) (raw : Wide) (rest : List Wide) :
    items (p.word raw :: rest) = parameterItem (p.word raw) :: items rest := by
  have hne : p.word raw ≠ separator := by
    intro h
    have hequals := p.equals_mem_word raw
    rw [h] at hequals
    exact absurd hequals (by decide)
  rw [items, if_neg hne, Word.ofText_word, parameterItem]
  by_cases hspace : .char ' ' ∈ p.word raw
  · rw [if_pos hspace, if_pos hspace]
  · rw [if_neg hspace, if_neg hspace]

theorem items_parameters {words : List Wide}
    (h : ∀ word ∈ words, ∃ p raw, word = Parameter.word p raw) (rest : List Wide) :
    items (words ++ rest) = words.map parameterItem ++ items rest := by
  induction words with
  | nil => rfl
  | cons word others ih =>
    obtain ⟨p, raw, rfl⟩ := h word List.mem_cons_self
    rw [List.cons_append, items_word, ih fun word hword => h word (List.mem_cons_of_mem _ hword)]
    rfl

theorem items_output {output : Wide} (h : output.head? ≠ some (.char '-')) :
    items [output] = [.operand output] := by
  have hne : output ≠ separator := by
    intro heq
    rw [heq] at h
    exact h rfl
  have hoperand : Word.ofText output = .operand := by
    unfold Word.ofText
    rw [if_pos (by simp [h])]
  rw [items, if_neg hne, hoperand]
  rfl

/-! ## The reading -/

theorem step_parameterItem {p : Progress} {word : Wide}
    (h : p.output.isSome = true ∨ .char ' ' ∉ word) :
    p.step (parameterItem word) = .ok (p.leave word) := by
  unfold parameterItem
  by_cases hspace : .char ' ' ∈ word
  · have hsome : p.output.isSome = true := h.resolve_right fun hnone => hnone hspace
    rw [if_pos hspace, Progress.step, if_neg (by simpa using Option.isSome_iff_ne_none.1 hsome)]
  · rw [if_neg hspace, Progress.step]

/-- Words are left over while none has a space, and all are once there is an output. -/
theorem foldlM_parameterItems {words : List Wide} {p : Progress}
    (h : p.output.isSome = true ∨ ∀ word ∈ words, .char ' ' ∉ word) :
    (words.map parameterItem).foldlM Progress.step p = .ok (words.foldl Progress.leave p) := by
  induction words generalizing p with
  | nil => rfl
  | cons word rest ih =>
    have hword : p.output.isSome = true ∨ .char ' ' ∉ word :=
      h.imp_right fun hall => hall word List.mem_cons_self
    have hrest : (p.leave word).output.isSome = true ∨ ∀ word ∈ rest, .char ' ' ∉ word :=
      h.imp_right fun hall other hmem => hall other (List.mem_cons_of_mem _ hmem)
    rw [List.map_cons, List.foldlM_cons, step_parameterItem hword]
    exact ih hrest

theorem foldl_leave (words : List Wide) (p : Progress) : words.foldl Progress.leave p =
    { p with
      outputLast := p.outputLast && words.isEmpty
      leftovers := p.leftovers ++ words } := by
  induction words generalizing p with
  | nil => simp
  | cons word rest ih =>
    rw [List.foldl_cons, ih (p.leave word)]
    simp [Progress.leave]

section Read

variable {words before after : List Wide} {word output : Wide}

theorem read_parameters (houtput : output.head? ≠ some (.char '-'))
    (hwords : ∀ word ∈ words, ∃ p raw, word = Parameter.word p raw)
    (hspace : ∀ word ∈ words, .char ' ' ∉ word) :
    read (words ++ [output]) = .ok ⟨output, none, some "gnuplot", false, false, words⟩ := by
  unfold read
  rw [items_parameters hwords, items_output houtput, List.foldlM_append,
    foldlM_parameterItems (Or.inr hspace), foldl_leave]
  rfl

/-- The first word with a space is taken for the output. -/
theorem read_parameters_of_space (houtput : output.head? ≠ some (.char '-'))
    (hwords : ∀ w ∈ before ++ word :: after, ∃ p raw, w = Parameter.word p raw)
    (hbefore : ∀ w ∈ before, .char ' ' ∉ w) (hspace : .char ' ' ∈ word) :
    read (before ++ word :: after ++ [output]) =
      .ok ⟨word, none, some "gnuplot", false, false, before ++ after ++ [output]⟩ := by
  have hitem : parameterItem word = .operand word := if_pos hspace
  unfold read
  -- Behind that word there is an output, so the rest is left over whether it has spaces or not.
  rw [items_parameters hwords, items_output houtput, List.map_append, List.map_cons, hitem,
    List.append_assoc, List.foldlM_append, foldlM_parameterItems (Or.inr hbefore), foldl_leave]
  show ((after.map parameterItem ++ [Item.operand output]).foldlM Progress.step
    { output := some word, outputLast := true, leftovers := before } >>= Progress.finish) = _
  rw [List.foldlM_append, foldlM_parameterItems (Or.inl rfl), foldl_leave]
  rfl

end Read

end WavePlot.CommandLine
