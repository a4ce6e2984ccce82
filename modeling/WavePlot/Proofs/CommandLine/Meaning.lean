import Mathlib.Data.Nat.Find
import WavePlot.Proofs.CommandLine.Classes
import WavePlot.Proofs.CommandLine.Reading

/-!
# What a command line means

The words of a command line are described by their texts and positions alone. A command line is
read exactly when nothing before the separator asks for help or gives a flag a value, every option
on its own is followed by an operand, and some operand is free. Then the first free operand is the
output, the last value given to an option counts, and what is left over keeps its order.
-/

namespace WavePlot.CommandLine

/-! ## The description -/

/-- An operand stands at the position: by its text before the separator, whatever its text is
behind it. -/
def IsOperandAt (words : List Wide) (k : Nat) : Prop :=
  (k < optionEnd words ∧ ∃ word, words[k]? = some word ∧ Word.IsOperandText word) ∨
    (optionEnd words < k ∧ k < words.length)

def IsUnknownAt (words : List Wide) (k : Nat) : Prop :=
  k < optionEnd words ∧ ∃ word, words[k]? = some word ∧ Word.IsUnknownText word

/-- An option on its own that takes a value stands right before the position. -/
def IsClaimedAt (words : List Wide) (k : Nat) : Prop :=
  ∃ j, k = j + 1 ∧ j < optionEnd words ∧ ∃ o : Valued, words[j]? = some (o.name : Wide)

/-- Whether an operand stands at the position that no option claims. -/
def IsFreeAt (words : List Wide) (k : Nat) : Prop := IsOperandAt words k ∧ ¬ IsClaimedAt words k

/-- The command lines that are read. -/
structure Readable (words : List Wide) : Prop where
  quiet : ∀ k word, k < optionEnd words → words[k]? = some word →
    ¬ Word.IsHelpLike word ∧ ¬ Word.IsLoadedFlag word
  supplied : ∀ k (o : Valued), k < optionEnd words → words[k]? = some (o.name : Wide) →
    IsOperandAt words (k + 1)
  free : ∃ k, IsFreeAt words k

/-- The first free operand stands at the position. -/
structure OutputAt (words : List Wide) (k : Nat) : Prop where
  free : IsFreeAt words k
  first : ∀ j, j < k → ¬ IsFreeAt words j

/-- The option stands at the position and has the value: the next word, or the text behind an
equals sign, which is no value at all when it is two dashes. -/
def GivenAt (words : List Wide) (o : Valued) (k : Nat) (value : Option Wide) : Prop :=
  k < optionEnd words ∧
    (words[k]? = some (o.name : Wide) ∧ value = words[k + 1]? ∨
      ∃ text, words[k]? = some (o.name ++ "=" ++ text : Wide) ∧
        value = if text = "--" then none else some text)

/-- The value given to the option at its last position; `none` if it has no position. -/
def LastGiven (words : List Wide) (o : Valued) : Option (Option Wide) → Prop
  | some value => ∃ k, GivenAt words o k value ∧ ∀ j other, k < j → ¬ GivenAt words o j other
  | none => ∀ k value, ¬ GivenAt words o k value

/-- The word at the position is left over when the output stands at `output`: an unknown option,
another free operand, or the separator unless the output is right beside it. -/
def IsLeftover (words : List Wide) (output k : Nat) : Prop :=
  IsUnknownAt words k ∨ (IsFreeAt words k ∧ k ≠ output) ∨
    (words[k]? = some ("--" : Wide) ∧ k = optionEnd words ∧ k + 1 ≠ output ∧ output + 1 ≠ k)

/-- The texts are the words at the positions with the property, in their order. -/
def AreWordsAt (words : List Wide) (P : Nat → Prop) (texts : List Wide) : Prop :=
  ∃ positions : List Nat, positions.Pairwise (· < ·) ∧ (∀ k, k ∈ positions ↔ P k) ∧
    positions.map (words[·]?) = texts.map some

/-- What a command line that is read says. -/
structure Means (words : List Wide) (i : Invocation) : Prop where
  template : LastGiven words .template i.template
  gnuplot : ∃ value, LastGiven words .gnuplot value ∧ i.gnuplot = value.getD (some "gnuplot")
  scriptOnly : i.scriptOnly = true ↔
    ∃ k, k < optionEnd words ∧ words[k]? = some ("--script-only" : Wide)
  showConfig : i.showConfig = true ↔
    ∃ k, k < optionEnd words ∧ words[k]? = some ("--show-config" : Wide)
  operands : ∃ k, OutputAt words k ∧ words[k]? = some i.output ∧
    AreWordsAt words (IsLeftover words k) i.leftovers

/-! ## Texts and classes -/

section Class

variable {words : List Wide} {k : Nat}

theorem classAt?_eq_some_iff {c : Word} (hoperand : c ≠ .operand) : classAt? words k = some c ↔
    k < optionEnd words ∧ ∃ word, words[k]? = some word ∧ Word.ofText word = c := by
  constructor
  · intro hc
    by_cases hk : k < optionEnd words
    · unfold classAt? at hc
      rw [if_pos hk] at hc
      exact ⟨hk, Option.map_eq_some_iff.1 hc⟩
    · exact absurd (classAt?_of_optionEnd_le (Nat.not_lt.1 hk) hc) hoperand
  · rintro ⟨hk, word, hword, rfl⟩
    exact classAt?_before hk hword

theorem classAt?_eq_separate_iff {o : Valued} : classAt? words k = some (.valued o none) ↔
    k < optionEnd words ∧ words[k]? = some (o.name : Wide) := by
  refine (classAt?_eq_some_iff (c := .valued o none) nofun).trans ?_
  simp only [Word.ofText_eq_separate_iff, exists_eq_right]

theorem classAt?_eq_attached_iff {o : Valued} {text : Wide} :
    classAt? words k = some (.valued o (some text)) ↔
      k < optionEnd words ∧ words[k]? = some (o.name ++ "=" ++ text : Wide) := by
  refine (classAt?_eq_some_iff (c := .valued o (some text)) nofun).trans ?_
  simp only [Word.ofText_eq_attached_iff, exists_eq_right]

theorem classAt?_eq_flag_iff {f : Flag} : classAt? words k = some (.flag f) ↔
    k < optionEnd words ∧ words[k]? = some (f.name : Wide) := by
  refine (classAt?_eq_some_iff (c := .flag f) nofun).trans ?_
  simp only [Word.ofText_eq_flag_iff, exists_eq_right]

theorem operandAt_iff : operandAt words k = true ↔ IsOperandAt words k := by
  unfold operandAt IsOperandAt
  rw [decide_eq_true_iff]
  rcases Nat.lt_trichotomy k (optionEnd words) with hlt | heq | hgt
  · constructor
    · intro hc
      unfold classAt? at hc
      rw [if_pos hlt] at hc
      obtain ⟨word, hword, hclass⟩ := Option.map_eq_some_iff.1 hc
      exact Or.inl ⟨hlt, word, hword, (Word.ofText_eq_operand_iff word).1 hclass⟩
    · rintro (⟨_, word, hword, htext⟩ | ⟨hgt, _⟩)
      · rw [classAt?_before hlt hword, (Word.ofText_eq_operand_iff word).2 htext]
      · omega
  · have hnone : classAt? words k = none := by simp [classAt?, heq]
    rw [hnone]
    exact iff_of_false (Option.some_ne_none _).symm (by omega)
  · constructor
    · intro hc
      refine Or.inr ⟨hgt, Nat.lt_of_not_le fun hle => ?_⟩
      rw [classAt?_of_length_le hle] at hc
      cases hc
    · rintro (⟨hlt, _⟩ | ⟨_, hlength⟩)
      · omega
      · exact classAt?_behind hgt (List.getElem?_eq_getElem hlength)

theorem unknownAt_iff : unknownAt words k = true ↔ IsUnknownAt words k := by
  unfold unknownAt
  rw [decide_eq_true_iff, classAt?_eq_some_iff (c := .unknown) nofun]
  simp only [Word.ofText_eq_unknown_iff]
  rfl

theorem claimedAt_iff : claimedAt words k = true ↔ IsClaimedAt words k := by
  cases k with
  | zero => exact iff_of_false nofun fun ⟨_, hj, _⟩ => absurd hj (Nat.succ_ne_zero _).symm
  | succ j =>
    rw [claimedAt]
    constructor
    · intro hclaimed
      obtain ⟨c, hc, hseparate⟩ := (Option.any_eq_true _ _).1 hclaimed
      unfold Word.isSeparate at hseparate
      split at hseparate
      · obtain ⟨hj, hname⟩ := classAt?_eq_separate_iff.1 hc
        exact ⟨j, rfl, hj, _, hname⟩
      · cases hseparate
    · rintro ⟨_, hj, hlt, o, hname⟩
      cases hj
      rw [classAt?_eq_separate_iff.2 ⟨hlt, hname⟩]
      rfl

theorem freeAt_iff : freeAt words k = true ↔ IsFreeAt words k := by
  rw [freeAt, Bool.and_eq_true, operandAt_iff, Bool.not_eq_true', ← Bool.not_eq_true, claimedAt_iff]
  rfl

theorem freeAt_eq_false_iff : freeAt words k = false ↔ ¬ IsFreeAt words k := by
  rw [← freeAt_iff, Bool.not_eq_true]

theorem givenAt_iff {o : Valued} {value : Option Wide} :
    GivenAt words o k value ↔ valueAt? words o k = some value := by
  unfold valueAt?
  constructor
  · rintro ⟨hk, ⟨hname, rfl⟩ | ⟨text, htext, rfl⟩⟩
    · rw [classAt?_eq_separate_iff.2 ⟨hk, hname⟩]
      simp
    · rw [classAt?_eq_attached_iff.2 ⟨hk, htext⟩]
      exact if_pos rfl
  · intro h
    split at h
    · rename_i other hc
      split_ifs at h with hother
      subst hother
      obtain ⟨hk, hname⟩ := classAt?_eq_separate_iff.1 hc
      exact ⟨hk, Or.inl ⟨hname, (Option.some.inj h).symm⟩⟩
    · rename_i other text hc
      split_ifs at h with hother
      subst hother
      obtain ⟨hk, htext⟩ := classAt?_eq_attached_iff.1 hc
      exact ⟨hk, Or.inr ⟨text, htext, (Option.some.inj h).symm⟩⟩
    · cases h

/-- Nothing is wrong anywhere exactly when no word ends the reading and no option lacks its
value. -/
theorem forall_fineAt_iff : (∀ i, FineAt words i) ↔
    (∀ k word, k < optionEnd words → words[k]? = some word →
      ¬ Word.IsHelpLike word ∧ ¬ Word.IsLoadedFlag word) ∧
    ∀ k (o : Valued), k < optionEnd words → words[k]? = some (o.name : Wide) →
      IsOperandAt words (k + 1) := by
  simp only [← operandAt_iff]
  constructor
  · intro h
    constructor
    · intro k word hk hword
      rw [← not_or, ← Word.stops_iff]
      exact (h k).1 _ (classAt?_before hk hword)
    · intro k o hk hname
      exact (h k).2 o (classAt?_eq_separate_iff.2 ⟨hk, hname⟩)
  · rintro ⟨hquiet, hsupplied⟩ k
    constructor
    · intro c hc hstops
      have hoperand : c ≠ .operand := by
        rintro rfl
        exact hstops
      obtain ⟨hk, word, hword, rfl⟩ := (classAt?_eq_some_iff hoperand).1 hc
      exact not_or.2 (hquiet k word hk hword) ((Word.stops_iff word).1 hstops)
    · intro o hc
      obtain ⟨hk, hname⟩ := classAt?_eq_separate_iff.1 hc
      exact hsupplied k o hk hname

end Class

/-! ## What has been read at the end -/

section Finish

variable {words : List Wide} {k n : Nat}

theorem outputAt_iff : OutputAt words k ↔ outputBefore? words words.length = some k := by
  unfold outputBefore?
  rw [List.find?_range_eq_some]
  constructor
  · intro h
    have hfree := freeAt_iff.2 h.free
    have hlt : k < words.length := by
      by_contra hge
      have hc := classAt?_of_length_le (Nat.not_lt.1 hge)
      simp [freeAt, operandAt, hc] at hfree
    exact ⟨hfree, List.mem_range.2 hlt, fun j hj => by simp [freeAt_eq_false_iff.2 (h.first j hj)]⟩
  · rintro ⟨hfree, _, hfirst⟩
    exact ⟨freeAt_iff.1 hfree, fun j hj => freeAt_eq_false_iff.1 (by simpa using hfirst j hj)⟩

theorem outputBefore?_of_outputAt (hk : OutputAt words k) :
    outputBefore? words n = if k < n then some k else none := by
  have hbefore : ∀ j, j < k → freeAt words j = false :=
    fun j hj => freeAt_eq_false_iff.2 (hk.first j hj)
  unfold outputBefore?
  split_ifs with hlt
  · exact List.find?_range_eq_some.2
      ⟨freeAt_iff.2 hk.free, List.mem_range.2 hlt, fun j hj => by simp [hbefore j hj]⟩
  · rw [List.find?_eq_none]
    intro j hj
    have hjn := List.mem_range.1 hj
    simp [hbefore j (by omega)]

theorem exists_outputAt_iff : (∃ k, OutputAt words k) ↔ ∃ k, IsFreeAt words k := by
  classical
  constructor
  · rintro ⟨k, hk⟩
    exact ⟨k, hk.free⟩
  · intro h
    exact ⟨Nat.find h, Nat.find_spec h, fun j hj => Nat.find_min h hj⟩

theorem not_isFreeAt_optionEnd (words : List Wide) : ¬ IsFreeAt words (optionEnd words) := by
  rintro ⟨⟨hlt, _⟩ | ⟨hlt, _⟩, _⟩ <;> exact absurd hlt (Nat.lt_irrefl _)

/-- Behind the separator the first operand is free. -/
theorem outputAt_le_succ_optionEnd (hk : OutputAt words k) : k ≤ optionEnd words + 1 := by
  by_contra hgt
  have hlength : k < words.length := (List.mem_range.1
    (List.mem_of_find?_eq_some (outputAt_iff.1 hk)))
  refine hk.first (optionEnd words + 1) (by omega) ⟨Or.inr ⟨Nat.lt_succ_self _, by omega⟩, ?_⟩
  rintro ⟨j, hj, hlt, _⟩
  omega

/-! ## What is left over -/

/-- Whether a word is left over is said by the whole command line. -/
theorem leftAt_iff (hk : OutputAt words k) {j : Nat} (hj : j < words.length) :
    leftAt words j = true ↔ IsLeftover words k j := by
  have hoperand : (freeAt words j && (if k < j then some k else none).isSome) = true ↔
      IsFreeAt words j ∧ j ≠ k := by
    rw [Bool.and_eq_true, freeAt_iff]
    refine and_congr_right fun hfree => ?_
    have hle : k ≤ j := Nat.not_lt.1 fun hlt => hk.first j hlt hfree
    split_ifs with hlt
    · exact iff_of_true rfl (Nat.ne_of_gt hlt)
    · exact iff_of_false nofun (not_not.2 (by omega))
  have hseparator : (decide (j = optionEnd words) &&
      (if k < j then some k else none).any fun o => decide (o + 1 < j)) = true ↔
      words[j]? = some ("--" : Wide) ∧ j = optionEnd words ∧ j + 1 ≠ k ∧ k + 1 ≠ j := by
    rw [Bool.and_eq_true, decide_eq_true_iff, and_left_comm]
    refine and_congr_right fun hend => ?_
    have hword : words[j]? = some ("--" : Wide) := by
      obtain ⟨word, hword⟩ : ∃ word, words[j]? = some word := ⟨_, List.getElem?_eq_getElem hj⟩
      have hseparator : word = separator := by
        rw [hend] at hword
        exact getElem?_optionEnd hword
      rw [hword, hseparator]
      rfl
    have hne : k ≠ j := by
      rintro rfl
      exact not_isFreeAt_optionEnd words (hend ▸ hk.free)
    have hle := outputAt_le_succ_optionEnd hk
    rw [← hend] at hle
    rw [and_iff_right hword]
    split_ifs with hlt
    · rw [Option.any_some, decide_eq_true_iff]
      omega
    · exact iff_of_false nofun (by omega)
  unfold leftAt IsLeftover
  rw [outputBefore?_of_outputAt hk, Bool.or_eq_true, Bool.or_eq_true, hoperand, hseparator,
    unknownAt_iff, or_assoc]

theorem lt_length_of_isLeftover {j : Nat} (h : IsLeftover words k j) : j < words.length := by
  rcases h with ⟨_, word, hword, _⟩ | ⟨⟨⟨_, word, hword, _⟩ | ⟨_, hlt⟩, _⟩, _⟩ | ⟨hword, _⟩
  · exact (List.getElem?_eq_some_iff.1 hword).1
  · exact (List.getElem?_eq_some_iff.1 hword).1
  · exact hlt
  · exact (List.getElem?_eq_some_iff.1 hword).1

theorem map_filter_getElem? (p : Nat → Bool) {positions : List Nat}
    (h : ∀ k ∈ positions, k < words.length) :
    (positions.filter p).map (words[·]?) =
      (positions.filterMap fun k => if p k then words[k]? else none).map some := by
  induction positions with
  | nil => rfl
  | cons k rest ih =>
    have hk := List.getElem?_eq_getElem (h k List.mem_cons_self)
    have hrest := ih fun j hj => h j (List.mem_cons_of_mem k hj)
    cases hp : p k with
    | false => simpa [hp] using hrest
    | true => simpa [hp, hk] using hrest

theorem areWordsAt_select {P : Nat → Prop} {p : Nat → Bool} (hP : ∀ k, P k → k < words.length)
    (hp : ∀ k, k < words.length → (p k = true ↔ P k)) :
    AreWordsAt words P (select words p words.length) := by
  refine ⟨(List.range words.length).filter p, List.pairwise_lt_range.filter p, fun k => ?_,
    map_filter_getElem? p fun k hk => List.mem_range.1 hk⟩
  rw [List.mem_filter, List.mem_range]
  exact ⟨fun h => (hp k h.1).1 h.2, fun h => ⟨hP k h, (hp k (hP k h)).2 h⟩⟩

/-- The last value among some positions stands at one of them, and no later one gives another. -/
theorem lastValue?_cases (words : List Wide) (o : Valued) (n : Nat) :
    match lastValue? words o n with
    | some value => ∃ k, valueAt? words o k = some value ∧
        ∀ j, k < j → j < n → valueAt? words o j = none
    | none => ∀ k, k < n → valueAt? words o k = none := by
  induction n with
  | zero => exact fun k hk => absurd hk (Nat.not_lt_zero k)
  | succ n ih =>
    rw [lastValue?_succ]
    cases hvalue : valueAt? words o n with
    | some value => exact ⟨n, hvalue, fun j hj hjn => by omega⟩
    | none =>
      rw [Option.none_or]
      cases hlast : lastValue? words o n with
      | none =>
        rw [hlast] at ih
        intro k hk
        rcases Nat.lt_succ_iff_lt_or_eq.1 hk with hlt | rfl
        · exact ih k hlt
        · exact hvalue
      | some value =>
        rw [hlast] at ih
        obtain ⟨k, hk, hafter⟩ := ih
        refine ⟨k, hk, fun j hj hjn => ?_⟩
        rcases Nat.lt_succ_iff_lt_or_eq.1 hjn with hlt | rfl
        · exact hafter j hj hlt
        · exact hvalue

theorem valueAt?_of_length_le {o : Valued} (hk : words.length ≤ k) : valueAt? words o k = none := by
  simp [valueAt?, classAt?_of_length_le hk]

theorem lastGiven_lastValue? (words : List Wide) (o : Valued) :
    LastGiven words o (lastValue? words o words.length) := by
  have hcases := lastValue?_cases words o words.length
  cases hlast : lastValue? words o words.length with
  | none =>
    rw [hlast] at hcases
    intro k value hgiven
    rw [givenAt_iff] at hgiven
    rcases Nat.lt_or_ge k words.length with hlt | hge
    · rw [hcases k hlt] at hgiven
      cases hgiven
    · rw [valueAt?_of_length_le hge] at hgiven
      cases hgiven
  | some value =>
    rw [hlast] at hcases
    obtain ⟨k, hk, hafter⟩ := hcases
    refine ⟨k, givenAt_iff.2 hk, fun j other hj hgiven => ?_⟩
    rw [givenAt_iff] at hgiven
    rcases Nat.lt_or_ge j words.length with hlt | hge
    · rw [hafter j hj hlt] at hgiven
      cases hgiven
    · rw [valueAt?_of_length_le hge] at hgiven
      cases hgiven

theorem flagBefore_eq_true_iff {f : Flag} : flagBefore words f words.length = true ↔
    ∃ k, k < optionEnd words ∧ words[k]? = some (f.name : Wide) := by
  unfold flagBefore
  simp only [List.any_eq_true, List.mem_range, decide_eq_true_eq, classAt?_eq_flag_iff]
  constructor
  · rintro ⟨k, _, hflag⟩
    exact ⟨k, hflag⟩
  · rintro ⟨k, hk, hname⟩
    exact ⟨k, (List.getElem?_eq_some_iff.1 hname).1, hk, hname⟩

end Finish

/-- The reading succeeds when nothing is wrong anywhere and the progress at the end finishes. -/
theorem read_eq_ok_iff {words : List Wide} {i : Invocation} : read words = .ok i ↔
    (∀ k, FineAt words k) ∧ (progressAt words words.length).finish = .ok i := by
  have hrun : ∀ q, (items words).foldlM Progress.step {} = .ok q ↔
      (∀ k, FineAt words k) ∧ q = progressAt words words.length := by
    intro q
    have h := foldlM_items (q := q) (List.drop_zero (l := words)) (Nat.zero_le _) rfl
    simpa [progressAt_zero] using h
  unfold read
  cases hfold : (items words).foldlM Progress.step {} with
  | error stop =>
    constructor
    · intro h
      cases h
    · rintro ⟨hfine, _⟩
      have h := (hrun _).2 ⟨hfine, rfl⟩
      rw [hfold] at h
      cases h
  | ok q =>
    obtain ⟨hfine, rfl⟩ := (hrun q).1 hfold
    exact ⟨fun h => ⟨hfine, h⟩, fun h => h.2⟩

theorem finish_progressAt_eq_ok_iff {words : List Wide} {i : Invocation} :
    (progressAt words words.length).finish = .ok i ↔
      ∃ k word, OutputAt words k ∧ words[k]? = some word ∧
        i = { progressAt words words.length with output := word } := by
  unfold Progress.finish
  cases hout : outputBefore? words words.length with
  | none =>
    have houtput : (progressAt words words.length).output = none := by simp [progressAt, hout]
    rw [houtput]
    constructor
    · intro h
      cases h
    · rintro ⟨k, _, hk, _⟩
      rw [outputAt_iff, hout] at hk
      cases hk
  | some k =>
    obtain ⟨_, word, hword⟩ := of_outputBefore? hout
    have houtput : (progressAt words words.length).output = some word := by
      simp [progressAt, hout, hword]
    rw [houtput]
    constructor
    · intro h
      exact ⟨k, word, outputAt_iff.2 hout, hword, (Except.ok.inj h).symm⟩
    · rintro ⟨other, text, hother, htext, rfl⟩
      rw [outputAt_iff, hout] at hother
      cases hother
      rw [hword] at htext
      cases htext
      rfl

/-- A command line is read exactly when it is readable, and then as its description says. -/
theorem read_means (words : List Wide) :
    ((∃ i, read words = .ok i) ↔ Readable words) ∧
      ∀ i, read words = .ok i → Means words i := by
  simp only [read_eq_ok_iff, finish_progressAt_eq_ok_iff]
  constructor
  · constructor
    · rintro ⟨i, hfine, k, word, hk, _⟩
      obtain ⟨hquiet, hsupplied⟩ := forall_fineAt_iff.1 hfine
      exact ⟨hquiet, hsupplied, k, hk.free⟩
    · rintro ⟨hquiet, hsupplied, hfree⟩
      obtain ⟨k, hk⟩ := exists_outputAt_iff.2 hfree
      obtain ⟨_, word, hword⟩ := of_outputBefore? (outputAt_iff.1 hk)
      exact ⟨_, forall_fineAt_iff.2 ⟨hquiet, hsupplied⟩, k, word, hk, hword, rfl⟩
  · rintro i ⟨_, k, word, hk, hword, rfl⟩
    refine ⟨lastGiven_lastValue? words .template, ⟨_, lastGiven_lastValue? words .gnuplot, rfl⟩,
      flagBefore_eq_true_iff, flagBefore_eq_true_iff, k, hk, hword, ?_⟩
    exact areWordsAt_select (fun j => lt_length_of_isLeftover) fun j hj => leftAt_iff hk hj

/-- Two dashes attached to an option, a negative number claimed for a path, a parameter left over, and
two separators of which the first is right behind the output. -/
theorem read_two_separators :
    Readable ["--gnuplot=--", "--template", "-1", "--period=2", "a", "--", "--"] ∧
      Means ["--gnuplot=--", "--template", "-1", "--period=2", "a", "--", "--"]
        { output := "a", template := some (some "-1"), gnuplot := none
          scriptOnly := false, showConfig := false, leftovers := ["--period=2", "--"] } := by
  obtain ⟨hreadable, hmeans⟩ :=
    read_means ["--gnuplot=--", "--template", "-1", "--period=2", "a", "--", "--"]
  exact ⟨hreadable.1 ⟨_, rfl⟩, hmeans _ rfl⟩

end WavePlot.CommandLine
