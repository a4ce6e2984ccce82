import Mathlib.Data.List.Forall2
import WavePlot.CommandLine.Invocation
import WavePlot.Proofs.CommandLine.Words

/-!
# Command lines that are read alike

Two readings agree when both stop alike or both go on with what is alike. Two changes to a command
line are such: a flag put in front of it, which is seen in the flag alone, and other values attached
to its options, which are seen in these values alone. So neither can change where the reading stops,
what the output is or what is left over.
-/

namespace WavePlot.CommandLine

/-- Both results stop alike, or both go on with related values. -/
inductive Agree {α β : Type} (V : α → β → Prop) : Except Stop α → Except Stop β → Prop
  | stop (s : Stop) : Agree V (.error s) (.error s)
  | go {a : α} {b : β} (h : V a b) : Agree V (.ok a) (.ok b)

namespace Agree

variable {α β σ τ : Type} {V : σ → τ → Prop}

theorem bind {W : α → β → Prop} {x : Except Stop σ} {y : Except Stop τ}
    {f : σ → Except Stop α} {g : τ → Except Stop β} (h : Agree V x y)
    (hfg : ∀ s t, V s t → Agree W (f s) (g t)) : Agree W (x >>= f) (y >>= g) := by
  cases h with
  | stop s => exact .stop s
  | go h => exact hfg _ _ h

/-- Runs over related lists agree when single steps do. -/
theorem foldlM {R : α → β → Prop} {f : σ → α → Except Stop σ} {g : τ → β → Except Stop τ}
    (hstep : ∀ s t a b, V s t → R a b → Agree V (f s a) (g t b)) {as : List α} {bs : List β}
    (h : List.Forall₂ R as bs) {s : σ} {t : τ} (hst : V s t) :
    Agree V (as.foldlM f s) (bs.foldlM g t) := by
  induction h generalizing s t with
  | nil => exact .go hst
  | cons hab _ ih =>
    rw [List.foldlM_cons, List.foldlM_cons]
    exact (hstep _ _ _ _ hst hab).bind fun _ _ h => ih h

end Agree

/-! ## A flag in front -/

theorem step_scriptOnly (p : Progress) (item : Item) :
    Agree (fun p q => q = { p with scriptOnly := true }) (p.step item)
      (Progress.step { p with scriptOnly := true } item) := by
  cases item with
  | operand word | separator =>
    unfold Progress.step
    dsimp only
    split_ifs <;> exact .go rfl
  | unknown word => exact .go rfl
  | flag f => cases f <;> exact .go rfl
  | value o value => cases o <;> exact .go rfl
  | help | lacking o | surplus option text => exact .stop _

/-- The flag in front is seen in the flag alone. -/
theorem read_scriptOnly (words : List Wide) :
    Agree (fun i j => j = { i with scriptOnly := true }) (read words)
      (read ("--script-only" :: words)) := by
  have hitems : items ("--script-only" :: words) = .flag .scriptOnly :: items words := by
    have hword : Word.ofText "--script-only" = .flag .scriptOnly :=
      Word.ofText_eq_flag_iff.2 rfl
    rw [items, if_neg (by decide), hword]
  have hfold : Agree (fun p q => q = { p with scriptOnly := true })
      ((items words).foldlM Progress.step {})
      ((items words).foldlM Progress.step { scriptOnly := true }) := by
    refine Agree.foldlM (R := Eq) ?_ (List.forall₂_refl _) rfl
    rintro p _ item _ rfl rfl
    exact step_scriptOnly p item
  unfold read
  rw [hitems, List.foldlM_cons]
  refine hfold.bind ?_
  rintro p _ rfl
  unfold Progress.finish
  dsimp only
  cases p.output with
  | none => exact .stop _
  | some output => exact .go rfl

theorem read_scriptOnly_of_ok {words : List Wide} {i : Invocation} (h : read words = .ok i) :
    read ("--script-only" :: words) = .ok { i with scriptOnly := true } := by
  have hagree := read_scriptOnly words
  rw [h] at hagree
  generalize read ("--script-only" :: words) = reading at hagree
  cases hagree with
  | go hsame => rw [hsame]

/-! ## Other attached values -/

/-- The command lines differ at most in the values attached to options before the separator. -/
inductive DifferInValues : List Wide → List Wide → Prop
  | refl (words : List Wide) : DifferInValues words words
  | word {word : Wide} {rest rest' : List Wide} (hword : word ≠ separator)
      (h : DifferInValues rest rest') : DifferInValues (word :: rest) (word :: rest')
  | value (o : Valued) (text text' : Wide) {rest rest' : List Wide}
      (h : DifferInValues rest rest') :
      DifferInValues ((o.name ++ "=" ++ text) :: rest) ((o.name ++ "=" ++ text') :: rest')

/-- The items are the same, or one option with two values. -/
inductive Item.Alike : Item → Item → Prop
  | refl (item : Item) : Item.Alike item item
  | value (o : Valued) (v v' : Option Wide) : Item.Alike (.value o v) (.value o v')

theorem items_attached (o : Valued) (text : Wide) (rest : List Wide) :
    items ((o.name ++ "=" ++ text) :: rest) = .value o (attachedValue text) :: items rest := by
  have hclass : Word.ofText (o.name ++ "=" ++ text) = .valued o (some text) :=
    Word.ofText_eq_attached_iff.2 rfl
  have hne : o.name ++ "=" ++ text ≠ separator := by
    have hseparator : Word.ofText separator = .unknown := by decide
    intro h
    rw [h, hseparator] at hclass
    cases hclass
  rw [items, if_neg hne, hclass]

/-- The items of an option on its own in front of others: it takes an operand from them. -/
def claim (o : Valued) : List Item → List Item
  | .operand word :: rest => .value o (some word) :: rest
  | rest => .lacking o :: rest

theorem claim_items (o : Valued) (next : Wide) (rest : List Wide) :
    claim o (items (next :: rest)) =
      if isOperand next then .value o (some next) :: items rest
      else .lacking o :: items (next :: rest) := by
  by_cases hne : next = separator
  · subst hne
    rfl
  · have hoperand : isOperand next = (Word.ofText next == .operand) := by
      unfold isOperand
      rw [bne_iff_ne.2 hne, Bool.true_and]
    rw [hoperand, items, if_neg hne]
    cases hclass : Word.ofText next with
    | valued o' text =>
      cases text with
      | some text => rfl
      | none =>
        cases rest with
        | nil => rfl
        | cons word others =>
          have hnot : ¬ (Word.valued o' none == Word.operand) = true := by simp
          rw [if_neg hnot]
          dsimp only
          split_ifs <;> rfl
    | _ => rfl

/-- A word before the separator is an item on its own or an option that takes an operand. -/
theorem items_cons {word : Wide} (hne : word ≠ separator) :
    (∃ item, ∀ rest, items (word :: rest) = item :: items rest) ∨
      ∃ o, ∀ rest, items (word :: rest) = claim o (items rest) := by
  match hclass : Word.ofText word with
  | .operand => exact Or.inl ⟨.operand word, fun rest => by rw [items, if_neg hne, hclass]⟩
  | .unknown => exact Or.inl ⟨.unknown word, fun rest => by rw [items, if_neg hne, hclass]⟩
  | .help => exact Or.inl ⟨.help, fun rest => by rw [items, if_neg hne, hclass]⟩
  | .flag f => exact Or.inl ⟨.flag f, fun rest => by rw [items, if_neg hne, hclass]⟩
  | .surplus option text =>
    exact Or.inl ⟨.surplus option text, fun rest => by rw [items, if_neg hne, hclass]⟩
  | .valued o (some text) =>
    exact Or.inl ⟨.value o (attachedValue text), fun rest => by rw [items, if_neg hne, hclass]⟩
  | .valued o none =>
    refine Or.inr ⟨o, fun rest => ?_⟩
    rw [items, if_neg hne, hclass]
    cases rest with
    | nil => rfl
    | cons next others => exact (claim_items o next others).symm

theorem claim_alike {o : Valued} {as bs : List Item} (h : List.Forall₂ Item.Alike as bs) :
    List.Forall₂ Item.Alike (claim o as) (claim o bs) := by
  cases h with
  | nil => exact .cons (.refl _) .nil
  | @cons a _ _ _ hitem hrest =>
    cases hitem with
    | value o' v v' => exact .cons (.refl _) (.cons (.value o' v v') hrest)
    | refl =>
      cases a with
      | operand word => exact .cons (.refl _) hrest
      | _ => exact .cons (.refl _) (.cons (.refl _) hrest)

theorem items_alike {words words' : List Wide} (h : DifferInValues words words') :
    List.Forall₂ Item.Alike (items words) (items words') := by
  induction h with
  | refl words => exact List.forall₂_same.2 fun item _ => .refl item
  | value o text text' _ ih =>
    rw [items_attached, items_attached]
    exact .cons (.value o _ _) ih
  | word hne _ ih =>
    rcases items_cons hne with ⟨item, hitem⟩ | ⟨o, hclaim⟩
    · rw [hitem, hitem]
      exact .cons (.refl item) ih
    · rw [hclaim, hclaim]
      exact claim_alike ih

theorem step_alike (p : Progress) (t : Option (Option Wide)) (g : Option Wide)
    {item item' : Item} (h : item.Alike item') :
    Agree (fun p q => ∃ t g, q = { p with template := t, gnuplot := g }) (p.step item)
      (Progress.step { p with template := t, gnuplot := g } item') := by
  cases h with
  | value o v v' => cases o <;> exact .go ⟨_, _, rfl⟩
  | refl =>
    cases item with
    | operand word | separator =>
      unfold Progress.step
      dsimp only
      split_ifs <;> exact .go ⟨t, g, rfl⟩
    | unknown word => exact .go ⟨t, g, rfl⟩
    | flag f => cases f <;> exact .go ⟨t, g, rfl⟩
    | value o value => cases o <;> exact .go ⟨_, _, rfl⟩
    | help | lacking o | surplus option text => exact .stop _

/-- Other attached values are seen in the values alone. -/
theorem read_differInValues {words words' : List Wide} (h : DifferInValues words words') :
    Agree (fun i j => ∃ t g, j = { i with template := t, gnuplot := g }) (read words)
      (read words') := by
  have hfold : Agree (fun p q => ∃ t g, q = { p with template := t, gnuplot := g })
      ((items words).foldlM Progress.step {}) ((items words').foldlM Progress.step {}) := by
    refine Agree.foldlM ?_ (items_alike h) ⟨none, some "gnuplot", rfl⟩
    rintro p _ item item' ⟨t, g, rfl⟩ halike
    exact step_alike p t g halike
  refine hfold.bind ?_
  rintro p _ ⟨t, g, rfl⟩
  unfold Progress.finish
  dsimp only
  cases p.output with
  | none => exact .stop _
  | some output => exact .go ⟨t, g, rfl⟩

end WavePlot.CommandLine
