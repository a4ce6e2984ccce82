import Mathlib.Data.List.Basic
import WavePlot.Proofs.CommandLine.Parameters
import WavePlot.Proofs.Run.Course

/-!
# Runs on parameters and an output

Accepted words with an output behind them print the script of these parameters, as long as no word
has a space. A word with a space is accepted as a parameter all the same, but the command line takes
the first such word for the output, and the run is refused for the real output.
-/

namespace WavePlot

open CommandLine (Invocation read)

/-- What stands before the first equals sign of a word. -/
def Assignment.nameOf (word : Wide) : Wide := word.takeWhile (· != .char '=')

namespace Settings

theorem exists_word_of_acceptable {word : Wide} (h : Acceptable word) :
    ∃ p raw, word = Parameter.word p raw := by
  obtain ⟨t, ht⟩ := h
  cases hword : Assignment.ofWord word with
  | error e =>
    rw [apply, hword] at ht
    cases ht
  | ok a =>
    obtain ⟨raw, heq, _⟩ := Assignment.ofWord_eq_ok_iff.1 hword
    exact ⟨a.parameter, raw, heq⟩

/-- A word without a dash in front names no parameter. -/
theorem apply_undashed {word : Wide} (h : word.head? ≠ some (.char '-')) (s : Settings) :
    s.apply word = .error (.unknownName (Assignment.nameOf word)) := by
  have hnone : Assignment.parameter? (Assignment.splitWord word).1 = none := by
    rw [Option.eq_none_iff_forall_ne_some]
    intro p hp
    rcases Assignment.parameter?_front_iff.1 hp with rfl | ⟨raw, rfl⟩
    · exact h rfl
    · exact h rfl
  have hword : Assignment.ofWord word = .error (.unknownName (Assignment.nameOf word)) := by
    unfold Assignment.ofWord Assignment.nameOf
    dsimp only
    rw [hnone, Assignment.splitWord_fst]
  rw [apply, hword]
  rfl

end Settings

section Parameters

variable {words : List Wide} {output : Wide}

/-- Accepted parameters without spaces print their script with the built-in template. -/
theorem run_spaceless (houtput : output.head? ≠ some (.char '-'))
    (hwords : ∀ word ∈ words, Settings.Acceptable word)
    (hspace : ∀ word ∈ words, .char ' ' ∉ word) (host : Host) :
    ∃ s script, Settings.ofWords words = .ok s ∧
      s.render Template.builtin output = .ok script ∧
      run ("--script-only" :: (words ++ [output])) host =
        { ending := .status 0, output := script, errors := "", launches := [] } := by
  have hread := CommandLine.read_scriptOnly_of_ok (CommandLine.read_parameters houtput
    (fun word hword => Settings.exists_word_of_acceptable (hwords word hword)) hspace)
  obtain ⟨s, hs⟩ := Settings.exists_ofWords_iff.2 hwords
  have hrender := Settings.render_of_normal (Settings.normal_ofWords hs) Template.builtin output
  have hscript : Invocation.Scripted ⟨output, none, some "gnuplot", true, false, words⟩ host s
      (Template.fill (s.placeholderText output) Template.builtin) :=
    { words := hs, script := ⟨Template.builtin, rfl, hrender⟩ }
  refine ⟨s, _, hs, hrender, ?_⟩
  rw [run_of_read hread, Invocation.run_scripted hscript]
  rfl

/-- With a space in some word the run is refused for the output's name. -/
theorem run_of_space (houtput : output.head? ≠ some (.char '-'))
    (hwords : ∀ word ∈ words, Settings.Acceptable word)
    (hspace : ∃ word ∈ words, .char ' ' ∈ word) (host : Host) :
    run ("--script-only" :: (words ++ [output])) host =
      { ending := .status 2
        output := ""
        errors := "Config error: " ++
          ("Unknown parameter '" ++ Assignment.nameOf output ++ "'") ++ "\n"
        launches := [] } := by
  obtain ⟨before, word, after, rfl, hbefore, hword⟩ : ∃ before word after,
      words = before ++ word :: after ∧ (∀ earlier ∈ before, .char ' ' ∉ earlier) ∧
        .char ' ' ∈ word := by
    obtain ⟨member, hmem, hmember⟩ := hspace
    have hfound : (words.find? fun word => decide (.char ' ' ∈ word)).isSome = true :=
      List.find?_isSome.2 ⟨member, hmem, decide_eq_true hmember⟩
    obtain ⟨word, hword⟩ := Option.isSome_iff_exists.1 hfound
    obtain ⟨hspace, before, after, heq, hbefore⟩ := List.find?_eq_some_iff_append.1 hword
    exact ⟨before, word, after, heq, by simpa using hbefore, of_decide_eq_true hspace⟩
  have hread := CommandLine.read_scriptOnly_of_ok (CommandLine.read_parameters_of_space houtput
    (fun word hword => Settings.exists_word_of_acceptable (hwords word hword)) hbefore hword)
  have hrefused : Settings.ofWords (before ++ after ++ [output]) =
      .error (.unknownName (Assignment.nameOf output)) := by
    refine Settings.ofWords_eq_error_iff.2 ⟨before ++ after, output, [], rfl, ?_,
      Settings.apply_undashed houtput⟩
    intro earlier hearlier
    refine hwords earlier ?_
    rcases List.mem_append.1 hearlier with h | h
    · exact List.mem_append_left _ h
    · exact List.mem_append_right _ (List.mem_cons_of_mem _ h)
  rw [run_of_read hread, Invocation.run_refused hrefused]
  rfl

/-- Accepted parameters with an output behind them print their script if no word has a space, and
are refused for the output's name if some word has one. -/
theorem run_parameters (houtput : output.head? ≠ some (.char '-'))
    (hwords : ∀ word ∈ words, Settings.Acceptable word) (host : Host) :
    ((∀ word ∈ words, .char ' ' ∉ word) →
      ∃ s script, Settings.ofWords words = .ok s ∧
        s.render Template.builtin output = .ok script ∧
        run ("--script-only" :: (words ++ [output])) host =
          { ending := .status 0, output := script, errors := "", launches := [] }) ∧
    ((∃ word ∈ words, .char ' ' ∈ word) →
      run ("--script-only" :: (words ++ [output])) host =
        { ending := .status 2
          output := ""
          errors := "Config error: " ++
            ("Unknown parameter '" ++ Assignment.nameOf output ++ "'") ++ "\n"
          launches := [] }) :=
  ⟨fun hspace => run_spaceless houtput hwords hspace host,
    fun hspace => run_of_space houtput hwords hspace host⟩

end Parameters

/-- One colour without and one with a space. -/
theorem run_parameters_of_colors :
    ("o.png" : Wide).head? ≠ some (.char '-') ∧
    (∀ word ∈ (["--shift=1", "--color=#1bc"] : List Wide), Settings.Acceptable word) ∧
    (∀ word ∈ (["--shift=1", "--color=#1bc"] : List Wide), .char ' ' ∉ word) ∧
    (∃ s script, Settings.ofWords ["--shift=1", "--color=#1bc"] = .ok s ∧
      s.render Template.builtin "o.png" = .ok script ∧
      run ["--script-only", "--shift=1", "--color=#1bc", "o.png"]
          ⟨fun path => .error (.noSuchFile path), .ample "0", fun _ _ => .ok 0⟩ =
        { ending := .status 0, output := script, errors := "", launches := [] }) ∧
    (∀ word ∈ (["--color=dark red"] : List Wide), Settings.Acceptable word) ∧
    (∃ word ∈ (["--color=dark red"] : List Wide), .char ' ' ∈ word) ∧
    run ["--script-only", "--color=dark red", "o.png"]
        ⟨fun path => .error (.noSuchFile path), .ample "0", fun _ _ => .ok 0⟩ =
      { ending := .status 2
        output := ""
        errors := "Config error: " ++
          ("Unknown parameter '" ++ "o.png" ++ "'") ++ "\n"
        launches := [] } := by
  have houtput : ("o.png" : Wide).head? ≠ some (.char '-') := by decide
  have hplain : ∀ word ∈ (["--shift=1", "--color=#1bc"] : List Wide), Settings.Acceptable word := by
    decide +kernel
  have hspaceless : ∀ word ∈ (["--shift=1", "--color=#1bc"] : List Wide), .char ' ' ∉ word := by
    decide
  have hspaced : ∀ word ∈ (["--color=dark red"] : List Wide), Settings.Acceptable word := by
    decide +kernel
  have hspace : ∃ word ∈ (["--color=dark red"] : List Wide), .char ' ' ∈ word := by decide
  have hname : Assignment.nameOf "o.png" = "o.png" := by decide
  have hrefused := (run_parameters houtput hspaced
    ⟨fun path => .error (.noSuchFile path), .ample "0", fun _ _ => .ok 0⟩).2 hspace
  rw [hname] at hrefused
  exact ⟨houtput, hplain, hspaceless, (run_parameters houtput hplain _).1 hspaceless, hspaced,
    hspace, hrefused⟩

/-- Not every accepted parameter in front of an output is taken as one. -/
theorem not_forall_run_parameters :
    ¬ ∀ (words : List Wide) (output : Wide) (host : Host),
      (∀ word ∈ words, Settings.Acceptable word) → output ≠ "" →
      output.head? ≠ some (.char '-') →
      ∃ s script, Settings.ofWords words = .ok s ∧
        s.render Template.builtin output = .ok script ∧
        (run ("--script-only" :: (words ++ [output])) host).ending = .status 0 ∧
        (run ("--script-only" :: (words ++ [output])) host).output = script := by
  intro hall
  have houtput : ("o.png" : Wide).head? ≠ some (.char '-') := by decide
  have hspaced : ∀ word ∈ (["--color=dark red"] : List Wide), Settings.Acceptable word := by
    decide +kernel
  obtain ⟨s, script, _, _, hending, _⟩ := hall ["--color=dark red"] "o.png"
    ⟨fun path => .error (.noSuchFile path), .ample "0", fun _ _ => .ok 0⟩ hspaced (by decide)
    houtput
  rw [run_of_space houtput hspaced (by decide)] at hending
  cases hending

end WavePlot
