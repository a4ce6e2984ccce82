import Mathlib.Data.List.Basic
import WavePlot.CommandLine.Invocation
import WavePlot.Proofs.CommandLine.Words

/-!
# Words by their positions

What a word of a command line amounts to is said by its position alone: its class, whether the
option before it claims it for a value, whether it is left over. `progressAt` is the reading after
a number of words in these terms, and each item carries it on over the words that the item stands
for.
-/

namespace WavePlot.CommandLine

/-! ## Positions -/

/-- The position of the separator; the number of words where there is none. -/
def optionEnd (words : List Wide) : Nat := words.idxOf separator

/-- The class of the word at a position: by its own text before the separator, an operand behind
it. The separator has no class. -/
def classAt? (words : List Wide) (i : Nat) : Option Word :=
  if i < optionEnd words then (words[i]?).map Word.ofText
  else if i = optionEnd words then none
  else (words[i]?).map fun _ => .operand

def operandAt (words : List Wide) (i : Nat) : Bool := decide (classAt? words i = some .operand)

def unknownAt (words : List Wide) (i : Nat) : Bool := decide (classAt? words i = some .unknown)

/-- Whether the word is an option that needs the next word for its value. -/
def Word.isSeparate : Word → Bool
  | .valued _ none => true
  | _ => false

/-- Whether an option that needs the next word stands right before the position. -/
def claimedAt (words : List Wide) : Nat → Bool
  | 0 => false
  | i + 1 => (classAt? words i).any Word.isSeparate

/-- Whether an operand stands at the position that no option claims. -/
def freeAt (words : List Wide) (i : Nat) : Bool := operandAt words i && !claimedAt words i

/-- The first free position among the first `n`. -/
def outputBefore? (words : List Wide) (n : Nat) : Option Nat :=
  (List.range n).find? (freeAt words)

def valueAt? (words : List Wide) (o : Valued) (i : Nat) : Option (Option Wide) :=
  match classAt? words i with
  | some (.valued other none) => if other = o then some words[i + 1]? else none
  | some (.valued other (some text)) => if other = o then some (attachedValue text) else none
  | _ => none

/-- The value given to an option last among the first `n` positions. -/
def lastValue? (words : List Wide) (o : Valued) (n : Nat) : Option (Option Wide) :=
  (List.range n).reverse.findSome? (valueAt? words o)

def flagBefore (words : List Wide) (f : Flag) (n : Nat) : Bool :=
  (List.range n).any fun i => decide (classAt? words i = some (.flag f))

/-- Whether the word at the position is left over, as far as the words before it tell: an unknown
option, a free operand with another before it, or the separator with the output before it and
something between them. -/
def leftAt (words : List Wide) (i : Nat) : Bool :=
  unknownAt words i || (freeAt words i && (outputBefore? words i).isSome) ||
    (decide (i = optionEnd words) && (outputBefore? words i).any fun o => decide (o + 1 < i))

/-- The words at the positions among the first `n` that satisfy the predicate. -/
def select (words : List Wide) (p : Nat → Bool) (n : Nat) : List Wide :=
  (List.range n).filterMap fun i => if p i then words[i]? else none

/-- What has been read after the first `n` words. -/
def progressAt (words : List Wide) (n : Nat) : Progress where
  output := (outputBefore? words n).bind fun o => words[o]?
  outputLast := (outputBefore? words n).any fun o => decide (o + 1 = n)
  template := lastValue? words .template n
  gnuplot := (lastValue? words .gnuplot n).getD (some "gnuplot")
  scriptOnly := flagBefore words .scriptOnly n
  showConfig := flagBefore words .showConfig n
  leftovers := select words (leftAt words) n

theorem progressAt_zero (words : List Wide) : progressAt words 0 = {} := rfl

/-! ## One more position -/

section Succ

variable {words : List Wide} {n : Nat}

theorem outputBefore?_succ : outputBefore? words (n + 1) =
    (outputBefore? words n).or (if freeAt words n then some n else none) := by
  unfold outputBefore?
  rw [List.range_succ, List.find?_append, List.find?_singleton]

theorem lastValue?_succ (o : Valued) :
    lastValue? words o (n + 1) = (valueAt? words o n).or (lastValue? words o n) := by
  unfold lastValue?
  rw [List.range_succ, List.reverse_append]
  cases h : valueAt? words o n <;> simp [h]

theorem flagBefore_succ (f : Flag) : flagBefore words f (n + 1) =
    (flagBefore words f n || decide (classAt? words n = some (.flag f))) := by
  unfold flagBefore
  rw [List.range_succ, List.any_append]
  simp

theorem select_succ (p : Nat → Bool) : select words p (n + 1) =
    select words p n ++ (if p n then words[n]? else none).toList := by
  unfold select
  rw [List.range_succ, List.filterMap_append]
  cases h : (if p n then words[n]? else none) <;> simp [h]

theorem select_sublist_take (p : Nat → Bool) (n : Nat) :
    List.Sublist (select words p n) (words.take n) := by
  induction n with
  | zero => exact List.Sublist.refl []
  | succ n ih =>
    rw [select_succ, List.take_add_one]
    refine ih.append ?_
    split_ifs
    · exact List.Sublist.refl _
    · exact List.nil_sublist _

theorem of_outputBefore? {o : Nat} (h : outputBefore? words n = some o) :
    o < n ∧ ∃ word, words[o]? = some word := by
  have hlt : o < n := List.mem_range.1 (List.mem_of_find?_eq_some h)
  have hfree := List.find?_some h
  refine ⟨hlt, ?_⟩
  unfold freeAt operandAt classAt? at hfree
  cases hword : words[o]? with
  | none => simp [hword] at hfree
  | some word => exact ⟨word, rfl⟩

theorem isNone_output : (progressAt words n).output.isNone = (outputBefore? words n).isNone := by
  unfold progressAt
  cases h : outputBefore? words n with
  | none => rfl
  | some o =>
    obtain ⟨_, word, hword⟩ := of_outputBefore? h
    simp [hword]

/-- A word that is no free operand leaves the output as it was. -/
theorem progressAt_succ_of_not_free (hfree : freeAt words n = false) :
    progressAt words (n + 1) =
      { output := (progressAt words n).output
        outputLast := false
        template := (valueAt? words .template n).or (progressAt words n).template
        gnuplot := (valueAt? words .gnuplot n).getD (progressAt words n).gnuplot
        scriptOnly := (progressAt words n).scriptOnly ||
          decide (classAt? words n = some (.flag .scriptOnly))
        showConfig := (progressAt words n).showConfig ||
          decide (classAt? words n = some (.flag .showConfig))
        leftovers := (progressAt words n).leftovers ++
          (if leftAt words n then words[n]? else none).toList } := by
  have houtput : outputBefore? words (n + 1) = outputBefore? words n := by
    rw [outputBefore?_succ, hfree]
    simp
  have hlast : ((outputBefore? words n).any fun o => decide (o + 1 = n + 1)) = false := by
    cases h : outputBefore? words n with
    | none => rfl
    | some o =>
      have hlt := (of_outputBefore? h).1
      simp [Nat.ne_of_lt hlt]
  unfold progressAt
  rw [houtput, hlast, lastValue?_succ, lastValue?_succ, flagBefore_succ, flagBefore_succ,
    select_succ]
  cases valueAt? words .gnuplot n <;> rfl

end Succ

/-! ## Items and the positions they stand for -/

section Step

variable {words : List Wide} {n : Nat} {word : Wide}

theorem ne_optionEnd_of_classAt? {c : Word} (hc : classAt? words n = some c) :
    n ≠ optionEnd words := by
  rintro rfl
  simp [classAt?] at hc

theorem leftAt_eq_false {c : Word} (hc : classAt? words n = some c) (hunknown : c ≠ .unknown)
    (hfree : freeAt words n = false) : leftAt words n = false := by
  simp [leftAt, unknownAt, hc, hunknown, hfree, ne_optionEnd_of_classAt? hc]

theorem step_free (hword : words[n]? = some word) (hfree : freeAt words n = true) :
    (progressAt words n).step (.operand word) = .ok (progressAt words (n + 1)) := by
  have hc : classAt? words n = some .operand := by
    simp only [freeAt, operandAt, Bool.and_eq_true, decide_eq_true_eq] at hfree
    exact hfree.1
  have hvalue : ∀ o, valueAt? words o n = none := fun o => by simp [valueAt?, hc]
  unfold Progress.step
  dsimp only
  rw [isNone_output]
  unfold progressAt
  rw [outputBefore?_succ, lastValue?_succ, lastValue?_succ, flagBefore_succ, flagBefore_succ,
    select_succ, hvalue, hvalue, hc]
  cases hout : outputBefore? words n with
  | none =>
    have hleft : leftAt words n = false := by
      simp [leftAt, unknownAt, hc, hout]
    simp [hfree, hleft, hword]
  | some o =>
    have hlt := (of_outputBefore? hout).1
    have hleft : leftAt words n = true := by
      simp [leftAt, hfree, hout]
    simp [Progress.leave, hleft, hword, Nat.ne_of_lt hlt]

theorem step_unknown (hword : words[n]? = some word) (hc : classAt? words n = some .unknown) :
    (progressAt words n).step (.unknown word) = .ok (progressAt words (n + 1)) := by
  have hfree : freeAt words n = false := by simp [freeAt, operandAt, hc]
  have hleft : leftAt words n = true := by simp [leftAt, unknownAt, hc]
  rw [progressAt_succ_of_not_free hfree]
  simp [Progress.step, Progress.leave, valueAt?, hc, hleft, hword]

theorem step_flag {f : Flag} (hc : classAt? words n = some (.flag f)) :
    (progressAt words n).step (.flag f) = .ok (progressAt words (n + 1)) := by
  have hfree : freeAt words n = false := by simp [freeAt, operandAt, hc]
  have hleft := leftAt_eq_false hc nofun hfree
  rw [progressAt_succ_of_not_free hfree]
  cases f <;> simp [Progress.step, Progress.setFlag, valueAt?, hc, hleft]

theorem step_attached {o : Valued} {text : Wide}
    (hc : classAt? words n = some (.valued o (some text))) :
    (progressAt words n).step (.value o (attachedValue text)) =
      .ok (progressAt words (n + 1)) := by
  have hfree : freeAt words n = false := by simp [freeAt, operandAt, hc]
  have hleft := leftAt_eq_false hc nofun hfree
  rw [progressAt_succ_of_not_free hfree]
  cases o <;> simp [Progress.step, Progress.setValue, valueAt?, hc, hleft]

theorem step_separate {o : Valued} (hc : classAt? words n = some (.valued o none))
    (hnext : classAt? words (n + 1) = some .operand) (hword : words[n + 1]? = some word) :
    (progressAt words n).step (.value o (some word)) = .ok (progressAt words (n + 2)) := by
  have hfree : freeAt words n = false := by simp [freeAt, operandAt, hc]
  have hleft := leftAt_eq_false hc nofun hfree
  have hnextfree : freeAt words (n + 1) = false := by simp [freeAt, claimedAt, Word.isSeparate, hc]
  have hnextleft := leftAt_eq_false hnext nofun hnextfree
  rw [progressAt_succ_of_not_free hnextfree, progressAt_succ_of_not_free hfree]
  cases o <;>
    simp [Progress.step, Progress.setValue, valueAt?, hc, hnext, hleft, hnextleft, hword]

theorem step_separator (hend : n = optionEnd words) (hword : words[n]? = some separator) :
    (progressAt words n).step .separator = .ok (progressAt words (n + 1)) := by
  have hc : classAt? words n = none := by simp [classAt?, hend]
  have hfree : freeAt words n = false := by simp [freeAt, operandAt, hc]
  have hvalue : ∀ o, valueAt? words o n = none := fun o => by simp [valueAt?, hc]
  rw [progressAt_succ_of_not_free hfree, hvalue, hvalue, hc, hword]
  unfold Progress.step
  dsimp only
  rw [isNone_output]
  cases hout : outputBefore? words n with
  | none =>
    have hleft : leftAt words n = false := by
      simp [leftAt, unknownAt, hc, hfree, hout]
    simp [hleft]
  | some o =>
    have hlt := (of_outputBefore? hout).1
    have hlast : (progressAt words n).outputLast = decide (o + 1 = n) := by
      simp [progressAt, hout]
    have hleft : leftAt words n = decide (o + 1 < n) := by
      unfold leftAt unknownAt
      rw [hc, hfree, hout, decide_eq_true hend]
      simp
    rw [hlast, hleft]
    by_cases hadjacent : o + 1 = n
    · simp [hadjacent]
    · have hbefore : o + 1 < n := by omega
      simp [Progress.leave, hadjacent, hbefore]

end Step

end WavePlot.CommandLine
