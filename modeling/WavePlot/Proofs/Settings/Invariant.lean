import WavePlot.Proofs.Folds
import WavePlot.Proofs.Parameter.Acceptance
import WavePlot.Session

/-!
# What every reachable state keeps

Settings are reached by keywords and then any steps, failed ones included. Every stored value is
settled from the start and stays so, since a step stores nothing that its parameter has not
accepted. The bounds on single values are read off that; the bound on the line width is what lets
every template be filled.
-/

namespace WavePlot.Settings

/-- Settings that keywords and then steps of a session can lead to. -/
inductive Reachable : Settings → Prop
  | start {keywords : List (Wide × Value)} {s : Settings} (h : ofKeywords keywords = .ok s) :
      Reachable s
  | perform {s : Settings} (h : Reachable s) (step : Step) : Reachable (s.perform step).2

def Normal (s : Settings) : Prop := ∀ p : Parameter, p.Normal (s.get p)

theorem normal_of_fields {s : Settings} (hperiod : s.period.IsFinitePositive)
    (hamplitude : s.amplitude.IsFinitePositive) (hshift : Phase.reduce s.shift = s.shift)
    (hcolor : ¬ Color.IsShort s.color)
    (hwidth : 1 ≤ s.lineWidth ∧ s.lineWidth < 10 ^ Decimal.digitLimit)
    (hxs : s.xRangeStart.IsFinite) (hxe : s.xRangeEnd.IsFinite)
    (hys : s.yRangeStart.IsFinite) (hye : s.yRangeEnd.IsFinite) : s.Normal := by
  intro p
  cases p with
  | plotWidth | plotHeight => trivial
  | _ => assumption

theorem normal_default : default.Normal := by
  refine normal_of_fields ((Binary64.isFinitePositive_iff _).2 ?_)
    ((Binary64.isFinitePositive_iff _).2 ?_) (by decide +kernel) ?_ (by decide +kernel)
    ((Binary64.isFinite_iff _).2 ?_) ((Binary64.isFinite_iff _).2 ?_)
    ((Binary64.isFinite_iff _).2 ?_) ((Binary64.isFinite_iff _).2 ?_)
  case refine_3 =>
    rintro ⟨r, g, b, _, _, _, h⟩
    have hlen := congrArg List.length h
    cases hlen
  all_goals decide +kernel

theorem normal_assign {s t : Settings} {p : Parameter} {v : Value} (hs : s.Normal)
    (h : s.assign p v = .ok t) : t.Normal := by
  obtain ⟨x, hx, rfl⟩ := Parameter.map_eq_ok h
  intro q
  by_cases hq : q = p
  · subst hq
    rw [get_put_self]
    exact Parameter.normal_of_accept hx
  · rw [get_put_of_ne s x hq]
    exact hs q

theorem normal_apply {s t : Settings} {word : Wide} (hs : s.Normal)
    (h : s.apply word = .ok t) : t.Normal := by
  unfold apply at h
  cases ha : Assignment.ofWord word with
  | error e => rw [ha] at h; cases h
  | ok a => rw [ha] at h; exact normal_assign hs h

theorem normal_change {s : Settings} {r : Except SettingError Settings} (hs : s.Normal)
    (h : ∀ t, r = .ok t → t.Normal) : (s.change r).2.Normal := by
  cases r with
  | error e => exact hs
  | ok t => exact h t rfl

/-- No step unsettles a stored value, whether it succeeds or fails. -/
theorem normal_perform {s : Settings} (hs : s.Normal) (step : Step) :
    (s.perform step).2.Normal := by
  cases step with
  | set p v => exact normal_change hs fun t h => normal_assign hs h
  | apply word => exact normal_change hs fun t h => normal_apply hs h
  | get p | render template output | texts output => exact hs

theorem normal_ofKeywords {keywords : List (Wide × Value)} {s : Settings}
    (h : ofKeywords keywords = .ok s) : s.Normal := by
  unfold ofKeywords at h
  split at h
  · cases h
  · refine foldlM_invariant ?_ normal_default h
    intro s p _ t hs ht
    split at ht
    · exact normal_assign hs ht
    · cases ht
      exact hs

theorem normal_of_reachable {s : Settings} (hs : Reachable s) : s.Normal := by
  induction hs with
  | start h => exact normal_ofKeywords h
  | perform _ step ih => exact normal_perform ih step

/-! ## Filling templates -/

theorem hasNumeral_lineWidth {s : Settings} (hs : s.Normal) :
    Decimal.hasNumeral s.lineWidth = true :=
  (Value.hasNumeral_iff (hs .lineWidth).1).2 (hs .lineWidth).2

/-- No stored value is past the digit limit, so all of them can be listed. -/
theorem hasNumerals_of_normal {s : Settings} (hs : s.Normal) :
    ∀ entry ∈ s.entries, entry.2.hasNumerals = true := by
  intro entry hmem
  obtain ⟨p, _, rfl⟩ := List.mem_map.1 hmem
  cases p with
  | lineWidth => exact hasNumeral_lineWidth hs
  | _ => rfl

/-- What each placeholder stands for: a stored value as it is shown, or the output's name. -/
def placeholderText (s : Settings) (output : Wide) : Placeholder → Wide
  | .setting p => (s.value p).shown
  | .outputName => output

/-- A normal line width has a numeral, so every placeholder has its text. -/
theorem placeholderTexts_of_normal {s : Settings} (hs : s.Normal) (output : Wide) :
    s.placeholderTexts output = .ok (s.placeholderText output) := by
  unfold placeholderTexts
  rw [if_pos (hasNumeral_lineWidth hs)]
  refine congrArg Except.ok (funext fun h => ?_)
  cases h <;> rfl

theorem render_of_normal {s : Settings} (hs : s.Normal) (template output : Wide) :
    s.render template output = .ok (Template.fill (s.placeholderText output) template) := by
  unfold render
  rw [placeholderTexts_of_normal hs]
  rfl

/-- Reachable settings are normal, and so fill every template. -/
theorem normal_and_fills {s : Settings} (hs : Reachable s) :
    s.Normal ∧ ∀ template output : Wide,
      (∃ texts, s.placeholderTexts output = .ok texts) ∧
      ∃ script, s.render template output = .ok script := by
  have hn := normal_of_reachable hs
  exact ⟨hn, fun template output => ⟨⟨_, placeholderTexts_of_normal hn output⟩,
    ⟨_, render_of_normal hn template output⟩⟩⟩

/-- A refused line width, then a short colour. -/
theorem normal_after_refusal :
    Reachable ((default.perform (.set .lineWidth (.integer 0))).2.perform
      (.apply "--color=#1bc")).2 ∧
    Normal ((default.perform (.set .lineWidth (.integer 0))).2.perform
      (.apply "--color=#1bc")).2 := by
  have hreach := ((@Reachable.start [] default rfl).perform (.set .lineWidth (.integer 0))).perform
    (.apply "--color=#1bc")
  exact ⟨hreach, (normal_and_fills hreach).1⟩

end WavePlot.Settings
