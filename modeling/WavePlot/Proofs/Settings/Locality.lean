import WavePlot.Proofs.Settings.Assignment
import WavePlot.Proofs.Settings.History

/-!
# What a step can change

A step that assigns either stores one value for the parameter it names or is refused, and which of
the two, the value and the cause are fixed by the step alone. So a refused step leaves everything as
it was, and two sessions of the same steps give their assignments the same answers, wherever they
started.
-/

namespace WavePlot

/-- A value that a parameter has accepted. -/
abbrev Accepted := (p : Parameter) × p.Carrier

def Assignment.accepted (a : Assignment) : Except SettingError Accepted :=
  (a.parameter.accept a.value).map (Sigma.mk a.parameter)

/-- What a word assigns, if it spells an assignment that its parameter accepts. -/
def Accepted.ofWord (word : Wide) : Except SettingError Accepted := do
  let a ← Assignment.ofWord word
  a.accepted

theorem Assignment.parameter_of_accepted {a : Assignment} {x : Accepted} (h : a.accepted = .ok x) :
    x.1 = a.parameter := by
  obtain ⟨y, _, rfl⟩ := Parameter.map_eq_ok h
  rfl

/-- A word that is accepted stores a value for the one parameter that it names. -/
theorem Accepted.namedBy_iff {word : Wide} {x : Accepted} (h : Accepted.ofWord word = .ok x)
    (q : Parameter) : q.NamedBy word ↔ q = x.1 := by
  rw [ofWord] at h
  cases ha : Assignment.ofWord word with
  | error e => rw [ha] at h; cases h
  | ok a =>
    rw [ha] at h
    have hp : x.1 = a.parameter := Assignment.parameter_of_accepted h
    obtain ⟨raw, hword, _⟩ := Assignment.ofWord_eq_ok_iff.1 ha
    have hnamed : a.parameter.NamedBy word := Or.inr ⟨raw, hword⟩
    rw [hp]
    constructor
    · intro hq
      exact Assignment.eq_of_namedBy hq hnamed
    · intro hq
      rw [hq]
      exact hnamed

namespace Step

/-- The step is an assignment, of a typed value or by a word. -/
def IsWrite : Step → Prop
  | .set _ _ | .apply _ => True
  | .get _ | .render _ _ | .texts _ => False

/-- The step is an assignment to the parameter, whether it succeeds or not. -/
def Names : Step → Parameter → Prop
  | .set q _, p => p = q
  | .apply word, p => p.NamedBy word
  | .get _, _ | .render _ _, _ | .texts _, _ => False

/-- What a step that assigns comes to, for any settings. -/
def write? : Step → Option (Except SettingError Accepted)
  | .set p v => some (Assignment.accepted ⟨p, v⟩)
  | .apply word => some (Accepted.ofWord word)
  | .get _ | .render _ _ | .texts _ => none

theorem exists_write?_of_isWrite {step : Step} (h : step.IsWrite) : ∃ w, step.write? = some w := by
  cases step with
  | set p v => exact ⟨_, rfl⟩
  | apply word => exact ⟨_, rfl⟩
  | get p | render template output | texts output => exact h.elim

/-- What is stored is stored for the one parameter that the step names. -/
theorem names_iff_of_write? {step : Step} {x : Accepted} (h : step.write? = some (.ok x))
    (q : Parameter) : step.Names q ↔ q = x.1 := by
  cases step with
  | get p | render template output | texts output => cases h
  | set p v =>
    have hp : x.1 = p := Assignment.parameter_of_accepted (Option.some.inj h)
    rw [hp]
    rfl
  | apply word => exact Accepted.namedBy_iff (Option.some.inj h) q

end Step

namespace Settings

/-! ## One step -/

theorem assign_eq_map_accepted (s : Settings) (a : Assignment) :
    s.assign a.parameter a.value = a.accepted.map fun x => s.put x.1 x.2 := by
  unfold assign Assignment.accepted
  cases a.parameter.accept a.value <;> rfl

theorem apply_eq_map_accepted (s : Settings) (word : Wide) :
    s.apply word = (Accepted.ofWord word).map fun x => s.put x.1 x.2 := by
  rw [apply, Accepted.ofWord]
  cases Assignment.ofWord word with
  | error e => rfl
  | ok a => exact assign_eq_map_accepted s a

/-- A step that assigns puts the accepted value into its place, or is refused. -/
theorem perform_of_write? {step : Step} {w : Except SettingError Accepted}
    (h : step.write? = some w) (s : Settings) :
    s.perform step = s.change (w.map fun x => s.put x.1 x.2) := by
  cases step with
  | get p | render template output | texts output => cases h
  | set p v =>
    cases h
    exact congrArg s.change (assign_eq_map_accepted s ⟨p, v⟩)
  | apply word =>
    cases h
    exact congrArg s.change (apply_eq_map_accepted s word)

/-- The answer to a step that assigns is the same for all settings. -/
theorem perform_fst_of_write? {step : Step} {w : Except SettingError Accepted}
    (h : step.write? = some w) (s : Settings) : (s.perform step).1 = w.map fun _ => .done := by
  rw [perform_of_write? h]
  cases w <;> rfl

theorem perform_snd_of_not_isWrite {step : Step} (h : ¬ step.IsWrite) (s : Settings) :
    (s.perform step).2 = s := by
  cases step with
  | get p | render template output | texts output => rfl
  | set p v | apply word => exact absurd trivial h

theorem perform_snd_of_error {s : Settings} {step : Step} {e : SettingError}
    (h : (s.perform step).1 = .error e) : (s.perform step).2 = s := by
  by_cases hwrite : step.IsWrite
  · obtain ⟨w, hw⟩ := Step.exists_write?_of_isWrite hwrite
    rw [perform_fst_of_write? hw] at h
    rw [perform_of_write? hw]
    cases w with
    | error cause => rfl
    | ok x => cases h
  · exact perform_snd_of_not_isWrite hwrite s

/-- Putting a value into its place replaces one entry. -/
theorem entries_put (s : Settings) (p : Parameter) (x : p.Carrier) :
    (s.put p x).entries =
      s.entries.map fun entry => if entry.1 = p then (p, p.kind.toValue x) else entry := by
  unfold entries
  rw [List.map_map]
  refine List.map_congr_left fun q _ => ?_
  show (q, (s.put p x).value q) = if q = p then (p, p.kind.toValue x) else (q, s.value q)
  by_cases hq : q = p
  · subst hq
    rw [if_pos rfl, value, get_put_self]
  · rw [if_neg hq, value, get_put_of_ne s x hq, value]

/-! ## Sessions -/

/-- Each step of a session meets the settings that the steps before it have left. -/
theorem getElem?_performAll (s : Settings) (steps : List Step) (k : Nat) :
    (s.performAll steps)[k]? = steps[k]?.map fun step => (s.after (steps.take k)).perform step := by
  induction steps generalizing s k with
  | nil => rfl
  | cons step rest ih =>
    cases k with
    | zero => rfl
    | succ k =>
      rw [List.take_succ_cons, after_cons]
      exact ih (s.perform step).2 k

/-- The answer to an assignment in a session is the step's own, wherever the session started. -/
theorem getElem?_answers {steps : List Step} {k : Nat} {step : Step}
    {w : Except SettingError Accepted} (hk : steps[k]? = some step) (hw : step.write? = some w)
    (s : Settings) :
    ((s.performAll steps).map Prod.fst)[k]? = some (w.map fun _ => .done) := by
  rw [List.getElem?_map, getElem?_performAll, hk, Option.map_some, Option.map_some,
    perform_fst_of_write? hw]

/-- A step that is refused or that only reads leaves every entry. An assignment is refused by all
settings for one cause, or replaces in all settings the entry of the parameter it names by one
value. In two sessions of the same steps each assignment has the same answer. -/
theorem steps_atomic_and_local :
    (∀ (s : Settings) (step : Step) (e : SettingError),
      (s.perform step).1 = .error e → (s.perform step).2.entries = s.entries) ∧
    (∀ (s : Settings) (step : Step), ¬ step.IsWrite →
      (s.perform step).2.entries = s.entries) ∧
    (∀ step : Step, step.IsWrite →
      (∃ e, ∀ s : Settings, (s.perform step).1 = .error e) ∨
      ∃ p v, (∀ q, step.Names q ↔ q = p) ∧ ∀ s : Settings, (s.perform step).1 = .ok .done ∧
        (s.perform step).2.entries =
          s.entries.map fun entry => if entry.1 = p then (p, v) else entry) ∧
    ∀ (s t : Settings) (steps : List Step) (k : Nat) (step : Step),
      steps[k]? = some step → step.IsWrite →
      ∃ answer, ((s.performAll steps).map Prod.fst)[k]? = some answer ∧
        ((t.performAll steps).map Prod.fst)[k]? = some answer := by
  refine ⟨?failed, ?read, ?write, ?sessions⟩
  case failed =>
    intro s step e h
    rw [perform_snd_of_error h]
  case read =>
    intro s step h
    rw [perform_snd_of_not_isWrite h]
  case write =>
    intro step hwrite
    obtain ⟨w, hw⟩ := Step.exists_write?_of_isWrite hwrite
    cases w with
    | error e => exact Or.inl ⟨e, fun s => perform_fst_of_write? hw s⟩
    | ok x =>
      refine Or.inr ⟨x.1, x.1.kind.toValue x.2, Step.names_iff_of_write? hw, fun s => ?_⟩
      refine ⟨perform_fst_of_write? hw s, ?_⟩
      rw [perform_of_write? hw]
      exact entries_put s x.1 x.2
  case sessions =>
    intro s t steps k step hk hwrite
    obtain ⟨w, hw⟩ := Step.exists_write?_of_isWrite hwrite
    exact ⟨_, getElem?_answers hk hw s, getElem?_answers hk hw t⟩

/-- A refused line width, a reading and a colour; then the line width and the colour in turn, from
two starts. -/
theorem steps_from_two_starts :
    (default.perform (.set .lineWidth (.text "3"))).1 = .error (.notInteger (.text "3")) ∧
    (default.perform (.set .lineWidth (.text "3"))).2.entries = default.entries ∧
    ¬ (Step.get .shift).IsWrite ∧
    (default.perform (.get .shift)).2.entries = default.entries ∧
    (Step.apply "--color=#1bc").IsWrite ∧
    (∃ p v, (Step.apply "--color=#1bc").Names p ∧
      (default.perform (.apply "--color=#1bc")).2.entries =
        default.entries.map fun entry => if entry.1 = p then (p, v) else entry) ∧
    ∃ answer,
      ((default.performAll [.set .lineWidth (.text "3"), .apply "--color=#1bc"]).map
        Prod.fst)[1]? = some answer ∧
      (((default.put .lineWidth (3 : Int)).performAll
        [.set .lineWidth (.text "3"), .apply "--color=#1bc"]).map Prod.fst)[1]? =
          some answer := by
  obtain ⟨hfailed, hread, hwrite, hsessions⟩ := steps_atomic_and_local
  have hnoInteger : (Step.set .lineWidth (.text "3")).write? =
      some (.error (.notInteger (.text "3"))) := by
    simp [Step.write?, Assignment.accepted, Parameter.accept, Value.thickness, Value.hasNumerals,
      Except.map]
  have hrefused := perform_fst_of_write? hnoInteger default
  have hword : Assignment.ofWord "--color=#1bc" = .ok ⟨.color, .text "#1bc"⟩ := rfl
  have hdone : (default.perform (.apply "--color=#1bc")).1 = .ok .done := by
    show (default.change (default.apply "--color=#1bc")).1 = .ok .done
    rw [apply, hword]
    rfl
  refine ⟨hrefused, hfailed _ _ _ hrefused, id, hread _ _ id, trivial, ?_,
    hsessions _ _ _ _ (.apply "--color=#1bc") rfl trivial⟩
  rcases hwrite (.apply "--color=#1bc") trivial with ⟨e, herror⟩ | ⟨p, v, hnames, hstored⟩
  · rw [herror default] at hdone
    cases hdone
  · exact ⟨p, v, (hnames p).2 rfl, (hstored default).2⟩

end Settings

end WavePlot
