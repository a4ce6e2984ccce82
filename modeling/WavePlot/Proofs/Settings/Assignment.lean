import WavePlot.Settings.Assignment

/-!
# Names, keys and words

A parameter is found by its own name and by its own key, and no other has that key. A word is
split at its first equals sign, and since no name holds one, the word `--name=raw` assigns the raw
text whatever stands in it.
-/

namespace WavePlot

namespace Kind

theorem read?_real (s : String) : Kind.real.read? s = (Decimal.real? s).map .real := by
  rw [read?, Wide.string?_ofString, Option.bind_some]

theorem read?_integer (s : String) : Kind.integer.read? s = (Decimal.integer? s).map .integer := by
  rw [read?, Wide.string?_ofString, Option.bind_some]

end Kind

namespace Parameter

theorem ofName?_name (p : Parameter) : ofName? p.name = some p := by cases p <;> decide

theorem ofName?_eq_some_iff {name : Wide} {p : Parameter} :
    ofName? name = some p ↔ name = p.name := by
  constructor
  · intro h
    have hname := List.find?_some h
    exact (of_decide_eq_true hname).symm
  · rintro rfl
    exact p.ofName?_name

theorem ofKey?_key (p : Parameter) : ofKey? p.key = some p := by cases p <;> decide

theorem key_injective {p q : Parameter} (h : (p.key : Wide) = q.key) : p = q := by
  have hfound := congrArg ofKey? h
  rw [ofKey?_key, ofKey?_key] at hfound
  exact Option.some.inj hfound

theorem key_ne_ownKeyword (p : Parameter) : p.key ≠ Settings.ownKeyword := by
  cases p <;> decide

theorem keywordError?_key (p : Parameter) : Settings.keywordError? p.key = none := by
  unfold Settings.keywordError?
  rw [if_neg p.key_ne_ownKeyword, ofKey?_key]
  rfl

theorem equals_not_mem_name (p : Parameter) : '=' ∉ p.name.toList := by cases p <;> decide

def word (p : Parameter) (raw : Wide) : Wide := "--" ++ p.name ++ "=" ++ raw

theorem word_eq (p : Parameter) (raw : Wide) :
    p.word raw = "--" ++ p.name ++ .char '=' :: raw :=
  List.append_assoc _ _ _

theorem equals_mem_word (p : Parameter) (raw : Wide) : .char '=' ∈ p.word raw := by
  rw [word_eq]
  exact List.mem_append_right _ List.mem_cons_self

/-- The word names the parameter: it is the name behind two dashes, alone or with a text behind an
equals sign. -/
def NamedBy (p : Parameter) (word : Wide) : Prop :=
  word = "--" ++ p.name ∨ ∃ raw, word = p.word raw

end Parameter

namespace Assignment

/-- A word is split at the first equals sign, whatever stands behind it. -/
theorem splitWord_append {front raw : Wide} (h : .char '=' ∉ front) :
    splitWord (front ++ .char '=' :: raw) = (front, some raw) := by
  have hfront : ∀ c ∈ front, (c != .char '=') = true := by
    intro c hc
    rw [bne_iff_ne]
    rintro rfl
    exact h hc
  unfold splitWord
  rw [List.dropWhile_append_of_pos hfront, List.takeWhile_append_of_pos hfront]
  simp

theorem eq_of_splitWord {word front raw : Wide} (h : splitWord word = (front, some raw)) :
    word = front ++ .char '=' :: raw := by
  unfold splitWord at h
  have hsame := List.takeWhile_append_dropWhile (p := fun c => c != .char '=') (l := word)
  cases hdrop : word.dropWhile (· != .char '=') with
  | nil =>
    rw [hdrop] at h
    cases h
  | cons c rest =>
    have hc : c = .char '=' := by
      have hhead := List.head?_dropWhile_not (fun c => c != .char '=') word
      rw [hdrop] at hhead
      simpa using hhead
    rw [hdrop] at h hsame
    cases h
    rw [hc] at hsame
    exact hsame.symm

/-- The part before the first equals sign is the whole word or is followed by it. -/
theorem splitWord_cases (word : Wide) : splitWord word = (word, none) ∨
    ∃ front raw, splitWord word = (front, some raw) ∧ word = front ++ .char '=' :: raw := by
  cases hsplit : splitWord word with
  | mk front rest =>
    cases rest with
    | some raw => exact Or.inr ⟨front, raw, rfl, eq_of_splitWord hsplit⟩
    | none =>
      left
      unfold splitWord at hsplit
      split at hsplit
      · rw [← hsplit]
      · cases hsplit

theorem splitWord_of_not_mem {word : Wide} (h : .char '=' ∉ word) :
    splitWord word = (word, none) := by
  rcases splitWord_cases word with hsplit | ⟨front, raw, _, heq⟩
  · exact hsplit
  · rw [heq] at h
    exact absurd (List.mem_append_right _ List.mem_cons_self) h

theorem splitWord_fst (word : Wide) : (splitWord word).1 = word.takeWhile (· != .char '=') := by
  unfold splitWord
  have hsame := List.takeWhile_append_dropWhile (p := fun c => c != .char '=') (l := word)
  split
  · rename_i hdrop
    rw [hdrop, List.append_nil] at hsame
    exact hsame.symm
  · rfl

theorem equals_not_mem_dashed (p : Parameter) : .char '=' ∉ ("--" ++ p.name : Wide) := by
  rw [← Wide.ofString_append, Wide.char_mem_ofString, String.toList_append]
  simpa using p.equals_not_mem_name

theorem parameter?_eq_some_iff {front : Wide} {p : Parameter} :
    parameter? front = some p ↔ front = "--" ++ p.name := by
  constructor
  · intro h
    unfold parameter? at h
    split at h
    · rw [Parameter.ofName?_eq_some_iff.1 h]
      rfl
    · cases h
  · rintro rfl
    exact p.ofName?_name

/-- A word names the parameter that its part before the first equals sign is found to be. -/
theorem parameter?_front_iff {word : Wide} {p : Parameter} :
    parameter? (splitWord word).1 = some p ↔ p.NamedBy word := by
  rw [parameter?_eq_some_iff]
  constructor
  · intro h
    rcases splitWord_cases word with hsplit | ⟨front, raw, hsplit, heq⟩
    · rw [hsplit] at h
      exact Or.inl h
    · rw [hsplit] at h
      refine Or.inr ⟨raw, ?_⟩
      rw [Parameter.word_eq, heq]
      exact congrArg (· ++ .char '=' :: raw) h
  · rintro (rfl | ⟨raw, rfl⟩)
    · rw [splitWord_of_not_mem (equals_not_mem_dashed p)]
    · rw [Parameter.word_eq, splitWord_append (equals_not_mem_dashed p)]

instance (p : Parameter) (word : Wide) : Decidable (p.NamedBy word) :=
  decidable_of_iff _ parameter?_front_iff

theorem eq_of_namedBy {p q : Parameter} {word : Wide} (hp : p.NamedBy word)
    (hq : q.NamedBy word) : p = q :=
  Option.some.inj ((parameter?_front_iff.2 hp).symm.trans (parameter?_front_iff.2 hq))

/-- A parameter's word is read by the parameter's kind. -/
theorem ofWord_word {p : Parameter} {raw : Wide} {v : Value} (h : p.kind.read? raw = some v) :
    ofWord (p.word raw) = .ok ⟨p, v⟩ := by
  have hname : parameter? ("--" ++ p.name) = some p := parameter?_eq_some_iff.2 rfl
  unfold ofWord
  rw [Parameter.word_eq, splitWord_append (equals_not_mem_dashed p)]
  simp only [hname, h]

/-- The words that spell an assignment: a parameter's name, an equals sign and a text that its kind
reads. -/
theorem ofWord_eq_ok_iff {word : Wide} {a : Assignment} : ofWord word = .ok a ↔
    ∃ raw, word = a.parameter.word raw ∧ a.parameter.kind.read? raw = some a.value := by
  constructor
  · intro h
    unfold ofWord at h
    dsimp only at h
    split at h
    · cases h
    · cases h
    · rename_i p raw hparameter hraw
      split at h
      · rename_i v hread
        cases h
        refine ⟨raw, ?_, hread⟩
        rw [Parameter.word_eq, ← parameter?_eq_some_iff.1 hparameter]
        exact eq_of_splitWord (Prod.ext rfl hraw)
      · cases h
  · rintro ⟨raw, rfl, hread⟩
    exact ofWord_word hread

end Assignment

end WavePlot
