import WavePlot.Proofs.CommandLine.Agreement
import WavePlot.Proofs.CommandLine.Classes
import WavePlot.Run

/-!
# The two spellings of a value

An operand can be the value of the option before it, and is the same value when it is attached to
the option. A command line therefore says the same in both spellings, whatever stands around the
option, mistakes included.
-/

namespace WavePlot

namespace CommandLine

theorem isOperand_iff (word : Wide) : isOperand word = true ↔ Word.IsOperandText word := by
  unfold isOperand
  rw [Bool.and_eq_true, bne_iff_ne, beq_iff_eq, Word.ofText_eq_operand_iff]
  refine and_iff_right_of_imp ?_
  rw [← Word.ofText_eq_operand_iff]
  rintro h rfl
  exact absurd h (by decide)

/-! ## The two spellings -/

/-- What words form behind others depends on the items behind them alone, before the separator. -/
theorem items_append_congr {before after after' : List Wide} (hbefore : separator ∉ before)
    (h : items after = items after') : items (before ++ after) = items (before ++ after') := by
  induction before with
  | nil => exact h
  | cons word rest ih =>
    have hrest := ih fun hmem => hbefore (List.mem_cons_of_mem word hmem)
    have hne : word ≠ separator := fun heq => hbefore (heq ▸ List.mem_cons_self)
    rcases items_cons hne with ⟨item, hitem⟩ | ⟨o, hclaim⟩
    · rw [List.cons_append, List.cons_append, hitem, hitem, hrest]
    · rw [List.cons_append, List.cons_append, hclaim, hclaim, hrest]

/-- An option with an operand behind it forms the item that it forms with the operand attached. -/
theorem items_separate (o : Valued) {value : Wide} (hvalue : isOperand value = true)
    (after : List Wide) :
    items (o.name :: value :: after) = items ((o.name ++ "=" ++ value) :: after) := by
  have hname : (o.name : Wide) ≠ separator := by cases o <;> decide
  have hne : value ≠ separator := by
    rintro rfl
    cases hvalue
  rw [items_attached, attachedValue, if_neg hne, items, if_neg hname,
    Word.ofText_eq_separate_iff.2 rfl]
  dsimp only
  rw [if_pos hvalue]

end CommandLine

open CommandLine

/-- A run reports the same whether an option's value is the next word or attached, whatever stands
before, as long as the separator does not, and whatever stands behind. -/
theorem run_separate_eq_attached (o : Valued) {value : Wide} (hvalue : Word.IsOperandText value)
    {before : List Wide} (hbefore : ("--" : Wide) ∉ before) (after : List Wide) (host : Host) :
    run (before ++ [(o.name : Wide), value] ++ after) host =
      run (before ++ [o.name ++ "=" ++ value] ++ after) host := by
  have hitems : items (before ++ [(o.name : Wide), value] ++ after) =
      items (before ++ [o.name ++ "=" ++ value] ++ after) := by
    rw [List.append_assoc, List.append_assoc]
    exact items_append_congr hbefore (items_separate o ((isOperand_iff value).2 hvalue) after)
  unfold run CommandLine.read
  rw [hitems]

/-- A negative number as the path, behind an option that lacks its value and before a request for
help. -/
theorem run_separate_eq_attached_of_lacking :
    Word.IsOperandText "-1" ∧ ("--" : Wide) ∉ [("--gnuplot" : Wide)] ∧
      run ["--gnuplot", "--template", "-1", "-h", "--"]
          ⟨fun path => .error (.noSuchFile path), .ample "0", fun _ _ => .ok 0⟩ =
        run ["--gnuplot", "--template=-1", "-h", "--"]
          ⟨fun path => .error (.noSuchFile path), .ample "0", fun _ _ => .ok 0⟩ := by
  have hvalue : Word.IsOperandText "-1" := (Word.ofText_eq_operand_iff "-1").1 (by decide)
  have hbefore : ("--" : Wide) ∉ [("--gnuplot" : Wide)] := by decide
  exact ⟨hvalue, hbefore, run_separate_eq_attached .template hvalue hbefore ["-h", "--"] _⟩

end WavePlot
