import WavePlot.Proofs.CommandLine.Offences
import WavePlot.Proofs.Run.Course

/-!
# Runs that end at the command line

A command line that is not read is answered before any file is read and any program started. The
first offending word settles the answer, together with the word behind it: the help text, or the
usage text and that word's mistake. Where no word offends, the output is missing.
-/

namespace WavePlot

open CommandLine

section Usage

variable {words words' : List Wide} {k : Nat} {word : Wide}

theorem run_of_mistake {e : UsageError} (hread : read words = .error (.mistake e)) (host : Host) :
    run words host =
      { ending := .usage 2
        output := ""
        errors := usageText ++ programName ++ ": error: " ++ e.message ++ "\n"
        launches := [] } :=
  run_of_stop hread host

theorem run_of_help (hread : read words = .error .help) (host : Host) :
    run words host = { ending := .usage 0, output := helpText, errors := "", launches := [] } :=
  run_of_stop hread host

/-- Command lines that agree up to the word behind the first offence are answered alike. -/
theorem run_of_take_eq (hk : FirstOffence words k) (hword : words[k]? = some word)
    (hsame : words'.take (k + 2) = words.take (k + 2)) (host host' : Host) :
    run words' host' = run words host := by
  have hk' : FirstOffence words' k := hk.of_take_eq hsame
  have hword' : words'[k]? = some word := by
    rw [getElem?_eq_of_take_eq hsame (by omega)]
    exact hword
  have hread : ∀ {stop}, (Word.ofText word).stop? = some stop →
      run words' host' = run words host := by
    intro stop hstop
    rw [run_of_stop (read_of_firstOffence hk' hword' hstop),
      run_of_stop (read_of_firstOffence hk hword hstop)]
  rcases stop?_of_offendingAt hk.offending hword with ⟨_, hstop⟩ | ⟨_, e, _, hstop⟩
  · exact hread hstop
  · exact hread hstop

end Usage

/-- A command line that is not read is answered for its first offending word, whatever the files
and programs are and whatever stands behind the next word, or for the missing output if no word
offends. -/
theorem run_unread {words : List Wide} (hunread : ∀ i, read words ≠ .ok i) :
    (∃ k word, FirstOffence words k ∧ words[k]? = some word ∧
      (∀ words' host host', words'.take (k + 2) = words.take (k + 2) →
        run words' host' = run words host) ∧
      (AsksForHelp word → ∀ host, run words host =
        { ending := .usage 0, output := helpText, errors := "", launches := [] }) ∧
      (¬ AsksForHelp word → ∃ mistake, (∀ m, MistakeOf word m ↔ m = mistake) ∧
        ∀ host, run words host =
        { ending := .usage 2
          output := ""
          errors := usageText ++ "trianglewave_plotter.py" ++ ": error: " ++ mistake ++ "\n"
          launches := [] })) ∨
    (∀ k, ¬ OffendingAt words k) ∧ ∀ host, run words host =
      { ending := .usage 2
        output := ""
        errors := usageText ++ "trianglewave_plotter.py" ++ ": error: " ++
          "the following arguments are required: output" ++ "\n"
        launches := [] } := by
  have hmessage : "the following arguments are required: output" =
      UsageError.missingOutput.message := rfl
  rw [hmessage]
  by_cases hclean : ∀ k, ¬ OffendingAt words k
  · exact Or.inr ⟨hclean, run_of_mistake (read_of_no_offence hclean hunread)⟩
  · obtain ⟨k, word, hk, hword⟩ := exists_firstOffence hclean
    refine Or.inl ⟨k, word, hk, hword, fun words' host host' hsame =>
      run_of_take_eq hk hword hsame host host', ?_⟩
    rcases stop?_of_offendingAt hk.offending hword with ⟨hasks, hstop⟩ | ⟨hnot, e, hmistake, hstop⟩
    · exact ⟨fun _ => run_of_help (read_of_firstOffence hk hword hstop),
        fun hnot => absurd hasks hnot⟩
    · exact ⟨fun hasks => absurd hasks hnot,
        fun _ => ⟨e.message, fun m => ⟨fun h => h.unique hmistake, fun h => h ▸ hmistake⟩,
          run_of_mistake (read_of_firstOffence hk hword hstop)⟩⟩

/-- The separator keeps a path from the option before it; what stands behind the separator, a
request for help among it, changes nothing. -/
theorem run_unread_of_lacking :
    (∀ i, read ["o.png", "--template", "--", "t.plt"] ≠ .ok i) ∧
      FirstOffence ["o.png", "--template", "--", "t.plt"] 1 ∧ ¬ AsksForHelp "--template" ∧
      run ["o.png", "--template", "--", "t.plt"]
          ⟨fun path => .error (.noSuchFile path), .ample "0", fun _ _ => .ok 0⟩ =
        { ending := .usage 2
          output := ""
          errors := usageText ++ "trianglewave_plotter.py" ++ ": error: " ++
            "argument --template: expected one argument" ++ "\n"
          launches := [] } ∧
      run ["o.png", "--template", "--", "-h", "--gnuplot"]
          ⟨fun path => .error (.isDirectory path), .ample "1", fun _ _ => .ok 1⟩ =
        run ["o.png", "--template", "--", "t.plt"]
          ⟨fun path => .error (.noSuchFile path), .ample "0", fun _ _ => .ok 0⟩ := by
  have hread : read ["o.png", "--template", "--", "t.plt"] =
      .error (.mistake (.expectedArgument .template)) := rfl
  have hunread : ∀ i, read ["o.png", "--template", "--", "t.plt"] ≠ .ok i := by
    intro i hi
    cases hread.symm.trans hi
  have hnot : ¬ AsksForHelp "--template" := by
    intro hasks
    exact absurd (Word.ofText_of_asksForHelp hasks) (by decide)
  have hfirst : FirstOffence ["o.png", "--template", "--", "t.plt"] 1 := by
    refine ⟨⟨by decide, "--template", rfl, Or.inr (Or.inr ⟨⟨.template, rfl⟩, ?_⟩)⟩, ?_⟩
    · intro next hnext
      cases hnext
      rw [← isOperand_iff]
      decide
    · intro j hj
      obtain rfl : j = 0 := by omega
      have hclass : Word.ofText "o.png" = .operand := by decide
      rw [offendingAt_zero_iff (by decide), hclass]
      rintro (hstops | ⟨⟨o, ho⟩, _⟩)
      · exact hstops
      · cases ho
  rcases run_unread hunread with ⟨k, word, hk, hword, hsame, _, hmistake⟩ | ⟨hclean, _⟩
  · obtain rfl : k = 1 := hk.unique hfirst
    obtain rfl : word = "--template" := (Option.some.inj hword).symm
    obtain ⟨mistake, hunique, hrun⟩ := hmistake hnot
    have htext : MistakeOf "--template" "argument --template: expected one argument" :=
      .lacking .template
    rw [← (hunique _).1 htext] at hrun
    exact ⟨hunread, hfirst, hnot, hrun _, hsame _ _ _ rfl⟩
  · exact absurd hfirst.offending (hclean 1)

end WavePlot
