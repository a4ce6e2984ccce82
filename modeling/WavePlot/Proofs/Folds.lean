import Mathlib.Logic.Basic

/-!
# Steps in turn

Steps that may fail are taken in turn and the first failure ends them. What each step keeps is kept
by all, steps that all succeed are a plain fold, and where a failure does not depend on the state,
the first step that fails settles the outcome.
-/

namespace WavePlot

variable {σ α ε : Type} {step : σ → α → Except ε σ}

/-- What holds at the start and after every step that succeeds holds at the end. -/
theorem foldlM_invariant {P : σ → Prop} {as : List α}
    (hstep : ∀ s, ∀ a ∈ as, ∀ t, P s → step s a = .ok t → P t) {s t : σ} (hs : P s)
    (h : as.foldlM step s = .ok t) : P t := by
  induction as generalizing s with
  | nil =>
    cases h
    exact hs
  | cons a rest ih =>
    rw [List.foldlM_cons] at h
    cases ha : step s a with
    | error e => rw [ha] at h; cases h
    | ok u =>
      rw [ha] at h
      exact ih (fun s b hb => hstep s b (List.mem_cons_of_mem a hb))
        (hstep s a List.mem_cons_self u hs ha) h

theorem foldlM_eq_foldl {g : σ → α → σ} {as : List α}
    (h : ∀ s, ∀ a ∈ as, step s a = .ok (g s a)) (s : σ) :
    as.foldlM step s = .ok (as.foldl g s) := by
  induction as generalizing s with
  | nil => rfl
  | cons a rest ih =>
    rw [List.foldlM_cons, h s a List.mem_cons_self]
    exact ih (fun s b hb => h s b (List.mem_cons_of_mem a hb)) (g s a)

section Refusal

variable {refusal? : α → Option ε}

/-- Steps that are refused whatever the state fail in turn as the first refused one does. -/
theorem foldlM_eq_error_iff (hstep : ∀ s a e, step s a = .error e ↔ refusal? a = some e)
    {as : List α} {s : σ} {e : ε} :
    as.foldlM step s = .error e ↔ as.findSome? refusal? = some e := by
  induction as generalizing s with
  | nil => exact iff_of_false nofun nofun
  | cons a rest ih =>
    rw [List.foldlM_cons, List.findSome?_cons]
    cases ha : step s a with
    | error cause =>
      rw [(hstep s a cause).1 ha]
      show Except.error cause = _ ↔ some cause = some e
      rw [Except.error.injEq, Option.some.injEq]
    | ok t =>
      have hnone : refusal? a = none := by
        rw [Option.eq_none_iff_forall_ne_some]
        intro cause hcause
        cases ha.symm.trans ((hstep s a cause).2 hcause)
      rw [hnone]
      exact ih

theorem exists_foldlM_eq_ok_iff (hstep : ∀ s a e, step s a = .error e ↔ refusal? a = some e)
    {as : List α} {s : σ} :
    (∃ t, as.foldlM step s = .ok t) ↔ ∀ a ∈ as, refusal? a = none := by
  rw [← List.findSome?_eq_none_iff, Option.eq_none_iff_forall_ne_some]
  simp only [Ne, ← foldlM_eq_error_iff hstep (s := s)]
  cases as.foldlM step s <;> simp

end Refusal

end WavePlot
