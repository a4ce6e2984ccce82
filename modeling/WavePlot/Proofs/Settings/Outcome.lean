import WavePlot.Proofs.Settings.Assignment
import WavePlot.Session

/-!
# Outcomes of an assignment

A step that assigns stores one value and keeps all others, or is refused and keeps everything. Which
of the two is decided by what the parameter makes of the value. A word whose text its parameter can
read is the assignment of the value that has been read.
-/

namespace WavePlot.Settings

/-- The step succeeds, puts the value into the parameter's place and keeps all others. -/
structure Stores (s : Settings) (step : Step) (p : Parameter) (v : Value) : Prop where
  done : (s.perform step).1 = .ok .done
  stored : (s.perform step).2.value p = v
  kept : ∀ q, q ≠ p → (s.perform step).2.value q = s.value q

/-- The step fails for the cause and keeps everything. -/
def Refuses (s : Settings) (step : Step) (e : SettingError) : Prop :=
  s.perform step = (.error e, s)

variable {s : Settings} {p : Parameter} {v w : Value} {e : SettingError} {raw : Wide}

theorem not_refuses_of_stores {step : Step} (h : s.Stores step p v) : ¬ s.Refuses step e := by
  intro hrefuses
  have hdone := h.done
  rw [hrefuses] at hdone
  cases hdone

theorem refuses_set_iff : s.Refuses (.set p v) e ↔ p.accept v = .error e := by
  show s.change (s.assign p v) = (.error e, s) ↔ _
  unfold assign
  cases p.accept v with
  | error cause =>
    constructor
    · intro h
      exact congrArg Except.error (Except.error.inj (Prod.ext_iff.1 h).1)
    · intro h
      rw [Except.error.inj h]
      rfl
  | ok x =>
    constructor
    · intro h
      cases (Prod.ext_iff.1 h).1
    · intro h
      cases h

theorem stores_set_iff :
    s.Stores (.set p v) p w ↔ ∃ x, p.accept v = .ok x ∧ p.kind.toValue x = w := by
  cases haccept : p.accept v with
  | error cause =>
    have hrefuses : s.Refuses (.set p v) cause := refuses_set_iff.2 haccept
    constructor
    · intro h
      exact absurd hrefuses (not_refuses_of_stores h)
    · intro h
      obtain ⟨x, hx, _⟩ := h
      cases hx
  | ok x =>
    have hperform : s.perform (.set p v) = (.ok .done, s.put p x) := by
      show s.change (s.assign p v) = _
      rw [assign, haccept]
      rfl
    have hvalue : (s.put p x).value p = p.kind.toValue x := by rw [value, get_put_self]
    constructor
    · intro h
      have hstored := h.stored
      rw [hperform] at hstored
      exact ⟨x, rfl, hvalue.symm.trans hstored⟩
    · intro h
      obtain ⟨y, hy, hw⟩ := h
      cases hy
      refine ⟨?_, ?_, fun q hq => ?_⟩
      · rw [hperform]
      · rw [hperform, ← hw]
        exact hvalue
      · rw [hperform]
        show (s.put p x).value q = s.value q
        rw [value, get_put_of_ne s x hq, value]

/-- A word that can be read does what assigning its value does. -/
theorem perform_apply_word (hread : p.kind.read? raw = some v) :
    s.perform (.apply (p.word raw)) = s.perform (.set p v) := by
  show s.change (s.apply (p.word raw)) = s.change (s.assign p v)
  rw [apply, Assignment.ofWord_word hread]
  rfl

theorem Stores.of_perform_eq {step other : Step} (hsame : s.perform step = s.perform other)
    (h : s.Stores step p v) : s.Stores other p v :=
  ⟨hsame ▸ h.done, hsame ▸ h.stored, hsame ▸ h.kept⟩

theorem stores_apply_word_iff (hread : p.kind.read? raw = some v) :
    s.Stores (.apply (p.word raw)) p w ↔ s.Stores (.set p v) p w :=
  ⟨Stores.of_perform_eq (perform_apply_word hread),
    Stores.of_perform_eq (perform_apply_word hread).symm⟩

theorem refuses_apply_word_iff (hread : p.kind.read? raw = some v) :
    s.Refuses (.apply (p.word raw)) e ↔ s.Refuses (.set p v) e := by
  rw [Refuses, perform_apply_word hread, Refuses]

/-- A word that cannot be read is refused with its text. -/
theorem refuses_apply_word_of_unread (hread : p.kind.read? raw = none) :
    s.Refuses (.apply (p.word raw)) (.badValue ("--" ++ p.name) raw) := by
  have hname : Assignment.parameter? ("--" ++ p.name) = some p :=
    Assignment.parameter?_eq_some_iff.2 rfl
  have hword : Assignment.ofWord (p.word raw) = .error (.badValue ("--" ++ p.name) raw) := by
    unfold Assignment.ofWord
    rw [Parameter.word_eq, Assignment.splitWord_append (Assignment.equals_not_mem_dashed p)]
    simp only [hname, hread]
  show s.change (s.apply (p.word raw)) = _
  rw [apply, hword]
  rfl

end WavePlot.Settings
