import WavePlot.Proofs.Parameter.Acceptance
import WavePlot.Session

/-!
# What a session leaves behind

Whatever was done to settings before, a parameter holds the last value it was offered and accepted.
Keywords and the words of a command line are sessions too, from the default settings, and so have
the same history.
-/

namespace WavePlot

/-! ## Offers -/

/-- What the parameter makes of an assignment, if it is the assigned one and accepts the value. -/
def Assignment.stored? (p : Parameter) (a : Assignment) : Option p.Carrier :=
  if a.parameter = p then (p.accept a.value).toOption else none

namespace Step

/-- The assignment that a step tries. -/
def assignment? : Step → Option Assignment
  | .set p v => some ⟨p, v⟩
  | .apply word => (Assignment.ofWord word).toOption
  | .get _ | .render _ _ | .texts _ => none

/-- The value that a step stores for a parameter. -/
def stored? (p : Parameter) (step : Step) : Option p.Carrier :=
  step.assignment?.bind (Assignment.stored? p)

end Step

namespace Settings

theorem get_change_assign (s : Settings) (a : Assignment) (p : Parameter) :
    (s.change (s.assign a.parameter a.value)).2.get p = (a.stored? p).getD (s.get p) := by
  obtain ⟨q, v⟩ := a
  unfold Assignment.stored? assign
  dsimp only
  by_cases hq : q = p
  · subst hq
    rw [if_pos rfl]
    cases q.accept v with
    | error e => rfl
    | ok x => exact get_put_self s q x
  · rw [if_neg hq]
    cases q.accept v with
    | error e => rfl
    | ok x => exact get_put_of_ne s x fun h => hq h.symm

/-- After a step a parameter holds what the step stored for it, or what it held before. -/
theorem get_perform (s : Settings) (step : Step) (p : Parameter) :
    (s.perform step).2.get p = (step.stored? p).getD (s.get p) := by
  cases step with
  | get q | render template output | texts output => rfl
  | set q v => exact get_change_assign s ⟨q, v⟩ p
  | apply word =>
    show (s.change (s.apply word)).2.get p =
      ((Assignment.ofWord word).toOption.bind (Assignment.stored? p)).getD (s.get p)
    unfold apply
    cases Assignment.ofWord word with
    | error e => rfl
    | ok a => exact get_change_assign s a p

/-! ## Sessions -/

/-- The settings after the last step of a session. -/
def after (s : Settings) (steps : List Step) : Settings :=
  ((s.performAll steps).map Prod.snd).getLastD s

theorem after_cons (s : Settings) (step : Step) (rest : List Step) :
    s.after (step :: rest) = (s.perform step).2.after rest := by
  show (((s.perform step) :: (s.perform step).2.performAll rest).map Prod.snd).getLastD s = _
  rw [List.map_cons, List.getLastD_cons]
  rfl

theorem after_append (s : Settings) (steps rest : List Step) :
    s.after (steps ++ rest) = (s.after steps).after rest := by
  induction steps generalizing s with
  | nil => rfl
  | cons step others ih => rw [List.cons_append, after_cons, after_cons, ih]

/-- A parameter holds the last value that a step stored for it. -/
theorem get_after (s : Settings) (steps : List Step) (p : Parameter) :
    (s.after steps).get p = (steps.filterMap (Step.stored? p)).getLastD (s.get p) := by
  induction steps generalizing s with
  | nil => rfl
  | cons step rest ih =>
    rw [after_cons, ih, get_perform]
    cases hstored : step.stored? p with
    | none => rw [List.filterMap_cons_none hstored, Option.getD_none]
    | some x => rw [List.filterMap_cons_some hstored, List.getLastD_cons, Option.getD_some]

/-! ## Keywords and words as sessions -/

theorem change_of_ok {s t : Settings} {r : Except SettingError Settings} (h : r = .ok t) :
    (s.change r).2 = t := by
  rw [h]
  rfl

/-- Changes that all succeed are a session. -/
theorem after_map_of_foldlM {α : Type} {f : Settings → α → Except SettingError Settings}
    {step : α → Step} (hstep : ∀ s a t, f s a = .ok t → (s.perform (step a)).2 = t)
    {as : List α} {s t : Settings} (h : as.foldlM f s = .ok t) : s.after (as.map step) = t := by
  induction as generalizing s with
  | nil =>
    cases h
    rfl
  | cons a rest ih =>
    rw [List.foldlM_cons] at h
    cases hfa : f s a with
    | error e => rw [hfa] at h; cases h
    | ok u =>
      rw [hfa] at h
      rw [List.map_cons, after_cons, hstep s a u hfa]
      exact ih h

/-- The step that keywords amount to for one parameter. -/
def keywordStep (keywords : List (Wide × Value)) (p : Parameter) : Step :=
  match keywords.lookup ↑p.key with
  | some v => .set p v
  | none => .get p

theorem after_of_ofKeywords {keywords : List (Wide × Value)} {s : Settings}
    (h : ofKeywords keywords = .ok s) :
    default.after (Parameter.all.map (keywordStep keywords)) = s := by
  unfold ofKeywords at h
  split at h
  · cases h
  · refine after_map_of_foldlM ?_ h
    intro s p t ht
    unfold keywordStep
    cases hkeyword : keywords.lookup ↑p.key with
    | some v =>
      rw [hkeyword] at ht
      exact change_of_ok ht
    | none =>
      rw [hkeyword] at ht
      cases ht
      rfl

theorem after_of_ofWords {words : List Wide} {s : Settings} (h : ofWords words = .ok s) :
    default.after (words.map .apply) = s := by
  refine after_map_of_foldlM ?_ h
  intro s word t ht
  exact change_of_ok ht

theorem filterMap_single {α : Type} (p : Parameter) (x : Option α) :
    (Parameter.all.filterMap fun q => if q = p then x else none) = x.toList := by
  cases p <;> cases x <;> rfl

theorem stored?_keywordStep (keywords : List (Wide × Value)) (p q : Parameter) :
    (keywordStep keywords q).stored? p =
      if q = p then (keywords.lookup ↑p.key).bind fun v => (p.accept v).toOption else none := by
  unfold keywordStep
  by_cases hq : q = p
  · subst hq
    rw [if_pos rfl]
    cases keywords.lookup ↑q.key with
    | none => rfl
    | some v => exact if_pos rfl
  · rw [if_neg hq]
    cases keywords.lookup ↑q.key with
    | none => rfl
    | some v => exact if_neg hq

/-- After keywords and then a session a parameter holds what was last accepted for it. -/
theorem get_after_of_ofKeywords {keywords : List (Wide × Value)} {s : Settings}
    (h : ofKeywords keywords = .ok s) (steps : List Step) (p : Parameter) :
    (s.after steps).get p =
      (((keywords.lookup ↑p.key).bind fun v => (p.accept v).toOption).toList ++
        steps.filterMap (Step.stored? p)).getLastD (default.get p) := by
  rw [← after_of_ofKeywords h, ← after_append, get_after, List.filterMap_append,
    List.filterMap_map]
  simp only [Function.comp_def, stored?_keywordStep, filterMap_single]

end Settings

end WavePlot
