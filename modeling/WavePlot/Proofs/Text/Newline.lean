import WavePlot.Text.Newline

/-!
# Unified line ends

What unifying the line ends of a text gives, as a relation that reads it from the left. The result
has no carriage return, a text without one is left alone, and line ends written as carriage return
and line feed in some places of such a text are unified to what they were.
-/

namespace WavePlot.Text

/-- The result is the text with each pair of a carriage return and a line feed, and each other
carriage return, made a line feed. -/
inductive Unified : List Char → List Char → Prop where
  | nil : Unified [] []
  | pair {rest result : List Char} (hrest : Unified rest result) :
      Unified ('\r' :: '\n' :: rest) ('\n' :: result)
  | alone {rest result : List Char} (hnext : rest.head? ≠ some '\n') (hrest : Unified rest result) :
      Unified ('\r' :: rest) ('\n' :: result)
  | other {c : Char} {rest result : List Char} (hc : c ≠ '\r') (hrest : Unified rest result) :
      Unified (c :: rest) (c :: result)

theorem unify_pair (rest : List Char) :
    unifyNewlines ('\r' :: '\n' :: rest) = '\n' :: unifyNewlines rest := by
  rw [unifyNewlines]

theorem unify_alone {rest : List Char} (hnext : rest.head? ≠ some '\n') :
    unifyNewlines ('\r' :: rest) = '\n' :: unifyNewlines rest := by
  rw [unifyNewlines]
  rintro behind rfl
  exact hnext rfl

theorem unify_other {c : Char} (hc : c ≠ '\r') (rest : List Char) :
    unifyNewlines (c :: rest) = c :: unifyNewlines rest := by
  rw [unifyNewlines]
  · rintro behind rfl
    exact absurd rfl hc
  · rintro rfl
    exact hc rfl

theorem unified_unify (text : List Char) : Unified text (unifyNewlines text) := by
  fun_induction unifyNewlines text with
  | case1 => exact .nil
  | case2 rest ih => exact .pair ih
  | case3 rest hpair ih =>
    refine .alone (fun hnext => ?_) ih
    obtain ⟨behind, hrest⟩ := List.head?_eq_some_iff.1 hnext
    exact hpair behind hrest
  | case4 c rest hpair hreturn ih => exact .other hreturn ih

/-- Unifying gives the only result. -/
theorem unified_iff {text result : List Char} :
    Unified text result ↔ unifyNewlines text = result := by
  constructor
  · intro h
    induction h with
    | nil => rw [unifyNewlines]
    | pair _ ih => rw [unify_pair, ih]
    | alone hnext _ ih => rw [unify_alone hnext, ih]
    | other hc _ ih => rw [unify_other hc, ih]
  · rintro rfl
    exact unified_unify text

theorem Unified.not_mem_return {text result : List Char} (h : Unified text result) :
    '\r' ∉ result := by
  induction h with
  | nil => exact List.not_mem_nil
  | pair _ ih => exact List.not_mem_cons_of_ne_of_not_mem (by decide) ih
  | alone _ _ ih => exact List.not_mem_cons_of_ne_of_not_mem (by decide) ih
  | other hc _ ih => exact List.not_mem_cons_of_ne_of_not_mem hc.symm ih

/-- A character that is part of no line end stands first in the result if it does in the text. -/
theorem Unified.head?_eq_some_iff {text result : List Char} (h : Unified text result) {c : Char}
    (hreturn : c ≠ '\r') (hfeed : c ≠ '\n') : result.head? = some c ↔ text.head? = some c := by
  cases h with
  | nil => exact Iff.rfl
  | pair =>
    rw [List.head?_cons, List.head?_cons, Option.some.injEq, Option.some.injEq]
    exact iff_of_false hfeed.symm hreturn.symm
  | alone =>
    rw [List.head?_cons, List.head?_cons, Option.some.injEq, Option.some.injEq]
    exact iff_of_false hfeed.symm hreturn.symm
  | other => rw [List.head?_cons, List.head?_cons]

/-- The second text is the first one with some of its line feeds written as a carriage return and
a line feed. -/
inductive SpreadEnds : List Char → List Char → Prop where
  | nil : SpreadEnds [] []
  | same (c : Char) {text spread : List Char} (h : SpreadEnds text spread) :
      SpreadEnds (c :: text) (c :: spread)
  | spread {text spread : List Char} (h : SpreadEnds text spread) :
      SpreadEnds ('\n' :: text) ('\r' :: '\n' :: spread)

theorem spreadEnds_refl (text : List Char) : SpreadEnds text text := by
  induction text with
  | nil => exact .nil
  | cons c text ih => exact .same c ih

/-- Line ends written in either way are unified to the text that has none but line feeds. -/
theorem SpreadEnds.unified {text spread : List Char} (h : SpreadEnds text spread)
    (hreturn : '\r' ∉ text) : Unified spread text := by
  induction h with
  | nil => exact .nil
  | same c _ ih =>
    rw [List.mem_cons, not_or] at hreturn
    exact .other (Ne.symm hreturn.1) (ih hreturn.2)
  | spread _ ih =>
    rw [List.mem_cons, not_or] at hreturn
    exact .pair (ih hreturn.2)

end WavePlot.Text
