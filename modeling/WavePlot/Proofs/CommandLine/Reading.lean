import WavePlot.Proofs.CommandLine.Positions

/-!
# The reading along the positions

Reading takes the words item by item; its meaning is said by their positions. A command line is
read exactly when no word before the separator asks for help or has a value that its option does
not take, every option finds the value that it needs, and some operand is free. Then the first
free operand is the output, the last value of an option counts, and what is left over keeps its
order.
-/

namespace WavePlot.CommandLine

variable {words : List Wide} {n : Nat}

/-! ## Classes along a suffix -/

theorem optionEnd_le_length (words : List Wide) : optionEnd words ≤ words.length :=
  List.idxOf_le_length

theorem ne_separator {word : Wide} (hn : n < optionEnd words) (hword : words[n]? = some word) :
    word ≠ separator := by
  obtain ⟨hlt, rfl⟩ := List.getElem?_eq_some_iff.1 hword
  intro heq
  have hnot := List.not_of_lt_findIdx hn
  simp [heq] at hnot

theorem getElem?_optionEnd {word : Wide} (hword : words[optionEnd words]? = some word) :
    word = separator := by
  obtain ⟨hlt, heq⟩ := List.getElem?_eq_some_iff.1 hword
  rw [← heq]
  exact List.getElem_idxOf hlt

theorem getElem?_of_drop {word : Wide} {rest : List Wide} (h : words.drop n = word :: rest) :
    words[n]? = some word ∧ words.drop (n + 1) = rest := by
  constructor
  · have hhead := congrArg (fun l => l[0]?) h
    simpa using hhead
  · rw [← List.tail_drop, h, List.tail_cons]

theorem lt_optionEnd {word : Wide} (hn : n ≤ optionEnd words) (hword : words[n]? = some word)
    (hne : word ≠ separator) : n < optionEnd words := by
  refine Nat.lt_of_le_of_ne hn ?_
  rintro rfl
  exact hne (getElem?_optionEnd hword)

theorem classAt?_before {word : Wide} (hn : n < optionEnd words)
    (hword : words[n]? = some word) : classAt? words n = some (Word.ofText word) := by
  simp [classAt?, hn, hword]

theorem class_of_drop {word : Wide} {rest : List Wide} (hdrop : words.drop n = word :: rest)
    (hn : n ≤ optionEnd words) (hne : word ≠ separator) :
    n < optionEnd words ∧ classAt? words n = some (Word.ofText word) := by
  have hword := (getElem?_of_drop hdrop).1
  have hlt := lt_optionEnd hn hword hne
  exact ⟨hlt, classAt?_before hlt hword⟩

theorem eq_optionEnd_of_drop {rest : List Wide} (hdrop : words.drop n = separator :: rest)
    (hn : n ≤ optionEnd words) : n = optionEnd words := by
  by_contra hne
  exact ne_separator (Nat.lt_of_le_of_ne hn hne) (getElem?_of_drop hdrop).1 rfl

/-- Whether the first word of a suffix is an operand is said by its text. -/
theorem operandAt_of_drop {word : Wide} {rest : List Wide}
    (hdrop : words.drop n = word :: rest) (hn : n ≤ optionEnd words) :
    operandAt words n = isOperand word := by
  by_cases hne : word = separator
  · subst hne
    simp [operandAt, classAt?, isOperand, eq_optionEnd_of_drop hdrop hn]
  · have hbne : (word != separator) = true := bne_iff_ne.2 hne
    rw [operandAt, isOperand, (class_of_drop hdrop hn hne).2, hbne, Bool.true_and]
    simp only [Option.some.injEq]
    rfl

theorem classAt?_behind {word : Wide} (hn : optionEnd words < n)
    (hword : words[n]? = some word) : classAt? words n = some .operand := by
  simp [classAt?, Nat.not_lt_of_gt hn, Nat.ne_of_gt hn, hword]

theorem classAt?_of_length_le (hn : words.length ≤ n) : classAt? words n = none := by
  unfold classAt?
  rw [List.getElem?_eq_none hn]
  simp

theorem classAt?_of_optionEnd_le {c : Word} (hn : optionEnd words ≤ n)
    (hc : classAt? words n = some c) : c = .operand := by
  unfold classAt? at hc
  rw [if_neg (Nat.not_lt.2 hn)] at hc
  split_ifs at hc
  cases hword : words[n]? with
  | none => simp [hword] at hc
  | some word => simpa [hword] using hc.symm

/-! ## Runs of the reading -/

/-- Nothing is wrong at the position: the word does not end the reading, and an option that needs
the next word for its value finds an operand there. -/
def FineAt (words : List Wide) (i : Nat) : Prop :=
  (∀ c, classAt? words i = some c → ¬ c.Stops) ∧
    ∀ o, classAt? words i = some (.valued o none) → operandAt words (i + 1) = true

theorem fineAt_of_optionEnd_le (hn : optionEnd words ≤ n) : FineAt words n := by
  constructor
  · intro c hc
    rw [classAt?_of_optionEnd_le hn hc]
    exact id
  · intro o hc
    cases classAt?_of_optionEnd_le hn hc

theorem claimedAt_succ {c : Word} (hc : classAt? words n = some c) :
    claimedAt words (n + 1) = c.isSeparate := by
  simp [claimedAt, hc]

/-- Behind the separator every word is a free operand. -/
theorem foldlM_behind {rest : List Wide} (hdrop : words.drop n = rest)
    (hn : optionEnd words < n) (hlength : n ≤ words.length) :
    (rest.map .operand).foldlM Progress.step (progressAt words n) =
      .ok (progressAt words words.length) := by
  induction rest generalizing n with
  | nil =>
    have heq : n = words.length := Nat.le_antisymm hlength (List.drop_eq_nil_iff.1 hdrop)
    rw [heq]
    rfl
  | cons word rest ih =>
    obtain ⟨hword, hrest⟩ := getElem?_of_drop hdrop
    obtain ⟨m, rfl⟩ : ∃ m, n = m + 1 := ⟨n - 1, by omega⟩
    have hclaimed : claimedAt words (m + 1) = false := by
      cases hc : classAt? words m with
      | none => simp [claimedAt, hc]
      | some c =>
        rw [classAt?_of_optionEnd_le (by omega) hc] at hc
        exact claimedAt_succ hc
    have hfree : freeAt words (m + 1) = true := by
      simp [freeAt, operandAt, classAt?_behind hn hword, hclaimed]
    have hlt : m + 1 < words.length := (List.getElem?_eq_some_iff.1 hword).1
    rw [List.map_cons, List.foldlM_cons, step_free hword hfree]
    exact ih hrest (by omega) hlt

theorem fineAt_of_class {c : Word} (hc : classAt? words n = some c) (hstops : ¬ c.Stops)
    (hseparate : c.isSeparate = true → operandAt words (n + 1) = true) : FineAt words n := by
  constructor
  · intro c' hc'
    rw [hc] at hc'
    cases hc'
    exact hstops
  · intro o ho
    rw [hc] at ho
    cases ho
    exact hseparate rfl

/-- An item that carries the reading on over words where nothing is wrong. -/
theorem foldlM_cons_of_step {m : Nat} {item : Item} {rest : List Item} {q : Progress}
    (hstep : (progressAt words n).step item = .ok (progressAt words m))
    (hnm : n ≤ m) (hfine : ∀ i, n ≤ i → i < m → FineAt words i)
    (ih : rest.foldlM Progress.step (progressAt words m) = .ok q ↔
      (∀ i, m ≤ i → FineAt words i) ∧ q = progressAt words words.length) :
    (item :: rest).foldlM Progress.step (progressAt words n) = .ok q ↔
      (∀ i, n ≤ i → FineAt words i) ∧ q = progressAt words words.length := by
  rw [List.foldlM_cons, hstep]
  refine ih.trans (and_congr_left' ⟨fun h i hi => ?_, fun h i hi => h i (Nat.le_trans hnm hi)⟩)
  rcases Nat.lt_or_ge i m with hlt | hge
  · exact hfine i hi hlt
  · exact h i hge

theorem foldlM_cons_of_class {c : Word} {item : Item} {rest : List Item} {q : Progress}
    (hc : classAt? words n = some c) (hstops : ¬ c.Stops) (hseparate : c.isSeparate = false)
    (hstep : (progressAt words n).step item = .ok (progressAt words (n + 1)))
    (ih : rest.foldlM Progress.step (progressAt words (n + 1)) = .ok q ↔
      (∀ i, n + 1 ≤ i → FineAt words i) ∧ q = progressAt words words.length) :
    (item :: rest).foldlM Progress.step (progressAt words n) = .ok q ↔
      (∀ i, n ≤ i → FineAt words i) ∧ q = progressAt words words.length := by
  refine foldlM_cons_of_step hstep (Nat.le_succ n) ?_ ih
  intro i hi hlt
  obtain rfl : i = n := by omega
  refine fineAt_of_class hc hstops fun h => ?_
  rw [hseparate] at h
  cases h

/-- An item at which the reading ends stands where something is wrong. -/
theorem foldlM_cons_of_error {item : Item} {rest : List Item} {stop : Stop} {q : Progress}
    (hstep : (progressAt words n).step item = .error stop) (hwrong : ¬ FineAt words n) :
    (item :: rest).foldlM Progress.step (progressAt words n) = .ok q ↔
      (∀ i, n ≤ i → FineAt words i) ∧ q = progressAt words words.length := by
  rw [List.foldlM_cons, hstep]
  constructor
  · intro h
    cases h
  · intro h
    exact absurd (h.1 n (Nat.le_refl n)) hwrong

/-- The items that the words from a position on form are read exactly when nothing is wrong from
there on, and reading them leads to the end. -/
theorem foldlM_items {suffix : List Wide} {q : Progress} (hdrop : words.drop n = suffix)
    (hn : n ≤ optionEnd words) (hclaimed : claimedAt words n = false) :
    (items suffix).foldlM Progress.step (progressAt words n) = .ok q ↔
      (∀ i, n ≤ i → FineAt words i) ∧ q = progressAt words words.length := by
  have hend := optionEnd_le_length words
  fun_induction items suffix generalizing n with
  | case1 =>
    have hlength : words.length ≤ n := List.drop_eq_nil_iff.1 hdrop
    have hfine : ∀ i, n ≤ i → FineAt words i :=
      fun i hi => fineAt_of_optionEnd_le (Nat.le_trans hend (Nat.le_trans hlength hi))
    rw [Nat.le_antisymm (Nat.le_trans hn hend) hlength] at hfine ⊢
    exact ⟨fun h => ⟨hfine, (Except.ok.inj h).symm⟩, fun h => congrArg Except.ok h.2.symm⟩
  | case2 rest =>
    obtain ⟨hword, hrest⟩ := getElem?_of_drop hdrop
    have heq := eq_optionEnd_of_drop hdrop hn
    have hlt : n < words.length := (List.getElem?_eq_some_iff.1 hword).1
    have hfine : ∀ i, n ≤ i → FineAt words i :=
      fun i hi => fineAt_of_optionEnd_le (heq ▸ hi)
    rw [List.foldlM_cons, step_separator heq hword]
    show (rest.map Item.operand).foldlM Progress.step (progressAt words (n + 1)) = _ ↔ _
    rw [foldlM_behind hrest (by omega) hlt]
    exact ⟨fun h => ⟨hfine, (Except.ok.inj h).symm⟩, fun h => congrArg Except.ok h.2.symm⟩
  | case3 word rest hne hword ih =>
    obtain ⟨hlt, hc⟩ := class_of_drop hdrop hn hne
    rw [hword] at hc
    have hfree : freeAt words n = true := by simp [freeAt, operandAt, hc, hclaimed]
    exact foldlM_cons_of_class hc id rfl (step_free (getElem?_of_drop hdrop).1 hfree)
      (ih (getElem?_of_drop hdrop).2 hlt (claimedAt_succ hc))
  | case4 word rest hne hword ih =>
    obtain ⟨hlt, hc⟩ := class_of_drop hdrop hn hne
    rw [hword] at hc
    exact foldlM_cons_of_class hc id rfl (step_unknown (getElem?_of_drop hdrop).1 hc)
      (ih (getElem?_of_drop hdrop).2 hlt (claimedAt_succ hc))
  | case5 word rest hne hword ih =>
    obtain ⟨_, hc⟩ := class_of_drop hdrop hn hne
    rw [hword] at hc
    exact foldlM_cons_of_error rfl fun h => h.1 _ hc trivial
  | case6 word rest hne f hword ih =>
    obtain ⟨hlt, hc⟩ := class_of_drop hdrop hn hne
    rw [hword] at hc
    exact foldlM_cons_of_class hc id rfl (step_flag hc)
      (ih (getElem?_of_drop hdrop).2 hlt (claimedAt_succ hc))
  | case7 word rest hne option text hword ih =>
    obtain ⟨_, hc⟩ := class_of_drop hdrop hn hne
    rw [hword] at hc
    exact foldlM_cons_of_error rfl fun h => h.1 _ hc trivial
  | case8 word rest hne o text hword ih =>
    obtain ⟨hlt, hc⟩ := class_of_drop hdrop hn hne
    rw [hword] at hc
    exact foldlM_cons_of_class hc id rfl (step_attached hc)
      (ih (getElem?_of_drop hdrop).2 hlt (claimedAt_succ hc))
  | case9 word hne o hword =>
    obtain ⟨_, hc⟩ := class_of_drop hdrop hn hne
    rw [hword] at hc
    have hlast : words.length ≤ n + 1 := List.drop_eq_nil_iff.1 (getElem?_of_drop hdrop).2
    refine foldlM_cons_of_error rfl fun h => ?_
    have hoperand := h.2 o hc
    simp [operandAt, classAt?_of_length_le hlast] at hoperand
  | case10 word hne o hword next others hoperand ih =>
    obtain ⟨hlt, hc⟩ := class_of_drop hdrop hn hne
    rw [hword] at hc
    have hdropnext := (getElem?_of_drop hdrop).2
    obtain ⟨hnext, hrest⟩ := getElem?_of_drop hdropnext
    have hnextoperand := operandAt_of_drop hdropnext hlt
    rw [hoperand] at hnextoperand
    have hnextc : classAt? words (n + 1) = some .operand := of_decide_eq_true hnextoperand
    have hnextlt : n + 1 ≠ optionEnd words := ne_optionEnd_of_classAt? hnextc
    refine foldlM_cons_of_step (step_separate hc hnextc hnext) (by omega) ?_
      (ih hrest (by omega) (claimedAt_succ hnextc))
    intro i hi hi2
    obtain rfl | rfl : i = n ∨ i = n + 1 := by omega
    · exact fineAt_of_class hc id fun _ => hnextoperand
    · exact fineAt_of_class hnextc id fun h => absurd h Bool.false_ne_true
  | case11 word hne o hword next others hoperand ih =>
    obtain ⟨hlt, hc⟩ := class_of_drop hdrop hn hne
    rw [hword] at hc
    refine foldlM_cons_of_error rfl fun h => hoperand ?_
    rw [← operandAt_of_drop (getElem?_of_drop hdrop).2 hlt]
    exact h.2 o hc

end WavePlot.CommandLine
