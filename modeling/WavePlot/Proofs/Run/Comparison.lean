import WavePlot.Proofs.CommandLine.Agreement
import WavePlot.Proofs.CommandLine.Meaning
import WavePlot.Proofs.Run.Outcome

/-!
# Runs compared

Two runs are set side by side. With the script only asked for in front, the script that would have
been handed to a program is printed, and nothing else changes. With a refused word among the
parameters, the answer is the same whatever the files are, however programs behave and whatever
values are attached to the options.
-/

namespace WavePlot

open CommandLine

/-! ## The script alone -/

namespace CommandLine.Invocation

variable {i : Invocation} {host host' : Host}

theorem Scripted.of_read {s : Settings} {script : Wide} (h : i.Scripted host s script)
    (hfiles : host'.read = host.read) :
    Scripted { i with scriptOnly := true } host' s script := by
  obtain ⟨hwords, template, htemplate, hrender⟩ := h
  refine ⟨hwords, template, ?_, hrender⟩
  rw [hfiles]
  exact htemplate

theorem run_scriptOnly_of_launches (hfiles : host'.read = host.read)
    (hstarted : (i.run host).launches ≠ []) :
    ∃ s launch, Settings.ofWords i.leftovers = .ok s ∧ (i.run host).launches = [launch] ∧
      run { i with scriptOnly := true } host' =
        { ending := .status 0, output := launch.script, errors := i.listed s } := by
  have hcourse := i.course_run host
  generalize i.run host = r at hcourse hstarted ⊢
  cases hcourse with
  | refused | printed | unstored | unencodable | programless => exact absurd rfl hstarted
  | unreadable | fault => exact absurd (launches_begin i _) hstarted
  | unlaunched hscript | warned hscript | plotted hscript =>
    refine ⟨_, _, hscript.words, rfl, ?_⟩
    rw [run_scripted (hscript.of_read hfiles), if_pos rfl]
    rfl

theorem ending_run_scriptOnly (hfiles : host'.read = host.read) (hprogram : i.gnuplot ≠ none)
    (hstarted : (i.run host).launches = []) (hscratch : ∀ f, ¬ i.StopsAtScratch host f) :
    (run { i with scriptOnly := true } host').ending = (i.run host).ending := by
  have hcourse := i.course_run host
  have hload : loadTemplate { i with scriptOnly := true } host'.read =
      i.loadTemplate host.read := by
    rw [hfiles]
    rfl
  generalize i.run host = r at hcourse hstarted ⊢
  cases hcourse with
  | refused hwords => rw [run_refused (i := { i with scriptOnly := true }) hwords]
  | unreadable hwords htemplate hmissing =>
    rw [run_unloaded (i := { i with scriptOnly := true }) hwords (hload.trans htemplate),
      Report.fail_expected (Failure.heading?_template hmissing)]
  | fault hwords htemplate hunexpected =>
    rw [run_unloaded (i := { i with scriptOnly := true }) hwords (hload.trans htemplate),
      Report.fail_unexpected hunexpected]
  | printed hscript => rw [run_scripted (hscript.of_read hfiles), if_pos rfl]
  | unstored hscript honly hstore | unencodable hscript honly hstore =>
    exact absurd ⟨honly, _, _, hscript, hstore⟩ (hscratch _)
  | programless _ _ _ hnone => exact absurd hnone hprogram
  | unlaunched | warned | plotted => cases hstarted

theorem run_scriptOnly_of_stopsAtScratch {f : Gnuplot.Failure} (hfiles : host'.read = host.read)
    (hstops : i.StopsAtScratch host f) :
    ∃ s script, i.Scripted host s script ∧ run { i with scriptOnly := true } host' =
      { ending := .status 0, output := script, errors := i.listed s } := by
  obtain ⟨_, s, script, hscript, _⟩ := hstops
  refine ⟨s, script, hscript, ?_⟩
  rw [run_scripted (hscript.of_read hfiles), if_pos rfl]
  rfl

end CommandLine.Invocation

theorem launches_ofStop (stop : Stop) : (Report.ofStop stop).launches = [] := by
  cases stop <;> rfl

/-- The script printed with the flag in front is the script that the program is started on. A run
that starts no program ends as it does with the flag in front, unless the script does not get into a
scratch file: then it is printed with the flag in front all the same. -/
theorem run_script_only {words : List Wide} {host host' : Host}
    (hfiles : host'.read = host.read) (hprogram : ∀ i, read words = .ok i → i.gnuplot ≠ none) :
    ((run words host).launches ≠ [] →
      ∃ i s launch, read words = .ok i ∧ Settings.ofWords i.leftovers = .ok s ∧
        (run words host).launches = [launch] ∧
        run ("--script-only" :: words) host' =
          { ending := .status 0
            output := launch.script
            errors :=
              if i.showConfig then
                Parameter.all.flatMap fun p => p.name ++ ": " ++ (s.value p).shown ++ "\n"
              else ""
            launches := [] }) ∧
    ((run words host).launches = [] →
      (∀ i f, read words = .ok i → ¬ i.StopsAtScratch host f) →
      (run ("--script-only" :: words) host').ending = (run words host).ending) ∧
    ∀ i f, read words = .ok i → i.StopsAtScratch host f →
      ∃ s script, i.Scripted host s script ∧
        run ("--script-only" :: words) host' =
          { ending := .status 0
            output := script
            errors :=
              if i.showConfig then
                Parameter.all.flatMap fun p => p.name ++ ": " ++ (s.value p).shown ++ "\n"
              else ""
            launches := [] } := by
  have hagree := read_scriptOnly words
  cases hread : read words with
  | error stop =>
    rw [hread] at hagree
    generalize hflag : read ("--script-only" :: words) = reading at hagree
    cases hagree
    rw [run_of_stop hread, run_of_stop hflag]
    exact ⟨fun h => absurd (launches_ofStop stop) h, fun _ _ => by cases stop <;> rfl, nofun⟩
  | ok i =>
    rw [hread] at hagree
    generalize hflag : read ("--script-only" :: words) = reading at hagree
    cases hagree with
    | go h =>
      subst h
      rw [run_of_read hread, run_of_read hflag]
      refine ⟨fun hstarted => ?_, fun hstarted hscratch => ?_, fun j f hj hstops => ?_⟩
      · obtain ⟨s, launch, hwords, hlaunch, hrun⟩ :=
          i.run_scriptOnly_of_launches hfiles hstarted
        exact ⟨i, s, launch, rfl, hwords, hlaunch, hrun⟩
      · exact i.ending_run_scriptOnly hfiles (hprogram i hread) hstarted fun f => hscratch i f rfl
      · cases hj
        exact i.run_scriptOnly_of_stopsAtScratch hfiles hstops

/-- The program fails in one run and cannot be started in the other. -/
theorem run_script_only_of_failing :
    (∀ i, read ["--show-config", "--color=#1bc", "o.png"] = .ok i → i.gnuplot ≠ none) ∧
      (run ["--show-config", "--color=#1bc", "o.png"]
        ⟨fun path => .error (.noSuchFile path), .ample "0", fun _ _ => .ok 3⟩).launches ≠ [] ∧
      ∃ s launch, Settings.ofWords ["--color=#1bc"] = .ok s ∧
        (run ["--show-config", "--color=#1bc", "o.png"]
          ⟨fun path => .error (.noSuchFile path), .ample "0",
            fun _ _ => .ok 3⟩).launches = [launch] ∧
        run ["--script-only", "--show-config", "--color=#1bc", "o.png"]
            ⟨fun path => .error (.noSuchFile path),
              .ample "1", fun program _ => .error (.noSuchFile program)⟩ =
          { ending := .status 0
            output := launch.script
            errors :=
              Parameter.all.flatMap fun p => p.name ++ ": " ++ (s.value p).shown ++ "\n"
            launches := [] } := by
  have hread : read ["--show-config", "--color=#1bc", "o.png"] =
      .ok ⟨"o.png", none, some "gnuplot", false, true, ["--color=#1bc"]⟩ := rfl
  have hprogram : ∀ i, read ["--show-config", "--color=#1bc", "o.png"] = .ok i →
      i.gnuplot ≠ none := by
    intro i hi
    cases hread.symm.trans hi
    exact nofun
  have hprepared : Invocation.Prepared
      ⟨"o.png", none, some "gnuplot", false, true, ["--color=#1bc"]⟩
      ⟨fun path => .error (.noSuchFile path), .ample "0", fun _ _ => .ok 3⟩ := by
    refine ⟨fun word hmem => ?_, Template.builtin, rfl⟩
    cases List.mem_singleton.1 hmem
    decide +kernel
  have hstarted : (run ["--show-config", "--color=#1bc", "o.png"]
      ⟨fun path => .error (.noSuchFile path), .ample "0", fun _ _ => .ok 3⟩).launches ≠ [] := by
    rw [run_of_read hread]
    exact ((Invocation.course_run _ _).launches_ne_nil_iff rfl).2
      ⟨hprepared, rfl, fun s script hscript =>
        hscript.exists_stored rfl ⟨_, rfl⟩ fun _ hmem => ⟨_, List.mem_singleton.1 hmem⟩⟩
  obtain ⟨i, s, launch, hi, hwords, hlaunch, hrun⟩ :=
    (@run_script_only _ ⟨fun path => .error (.noSuchFile path), .ample "0", fun _ _ => .ok 3⟩
      ⟨fun path => .error (.noSuchFile path), .ample "1",
        fun program _ => .error (.noSuchFile program)⟩ rfl hprogram).1 hstarted
  cases hread.symm.trans hi
  rw [if_pos rfl] at hrun
  exact ⟨hprogram, hstarted, s, launch, hwords, hlaunch, hrun⟩

/-- Where scratch files can always be created and written, a run that starts no program can still
end otherwise than with the flag in front: an output whose name is no string stops it, and its
script is printed. -/
theorem not_forall_ending_script_only :
    ¬ ∀ (words : List Wide) (files : Template.Reader) (launch launch' : Gnuplot.Launcher)
        (stem : String), (∀ i, read words = .ok i → i.gnuplot ≠ none) →
      (run words ⟨files, .ample stem, launch⟩).launches = [] →
      (run ("--script-only" :: words) ⟨files, .ample stem, launch'⟩).ending =
        (run words ⟨files, .ample stem, launch⟩).ending := by
  intro hall
  have hread : read [.surrogate 0x4FF :: ".png"] =
      .ok ⟨.surrogate 0x4FF :: ".png", none, some "gnuplot", false, false, []⟩ := rfl
  have hflag : read ["--script-only", .surrogate 0x4FF :: ".png"] =
      .ok ⟨.surrogate 0x4FF :: ".png", none, some "gnuplot", true, false, []⟩ := rfl
  have hprogram : ∀ i, read [.surrogate 0x4FF :: ".png"] = .ok i → i.gnuplot ≠ none := by
    intro i hi
    cases hread.symm.trans hi
    exact nofun
  have hprepared : Invocation.Prepared
      ⟨.surrogate 0x4FF :: ".png", none, some "gnuplot", false, false, []⟩
      ⟨fun path => .error (.noSuchFile path), .ample "0", fun _ _ => .ok 0⟩ :=
    ⟨nofun, Template.builtin, rfl⟩
  obtain ⟨e, hstops⟩ := Invocation.exists_stopsAtScratch_of_output hprepared rfl rfl
    (fun houtput => Wide.exists_eq_ofString_iff.1 houtput _ List.mem_cons_self) rfl
  obtain ⟨s, _, hrun⟩ := Invocation.run_unencodable hstops
  obtain ⟨_, script, _, hprinted⟩ := Invocation.run_scriptOnly_of_stopsAtScratch rfl hstops
  have hending := hall _ (fun path => .error (.noSuchFile path)) (fun _ _ => .ok 0)
    (fun _ _ => .ok 0) "0" hprogram (by rw [run_of_read hread, hrun])
  rw [run_of_read hread, hrun, run_of_read hflag, hprinted] at hending
  cases hending

/-! ## A refused word -/

theorem leftovers_sublist {words : List Wide} {i : Invocation} (hread : read words = .ok i) :
    i.leftovers.Sublist words := by
  obtain ⟨_, hfinish⟩ := read_eq_ok_iff.1 hread
  obtain ⟨_, _, _, _, rfl⟩ := finish_progressAt_eq_ok_iff.1 hfinish
  have h := @select_sublist_take words (leftAt words) words.length
  rwa [List.take_length] at h

/-- A refused word among the parameters settles the whole report, whatever the files and programs
are and whatever values are attached to the options. -/
theorem run_refused_word {words words' : List Wide} {i : Invocation} {host host' : Host}
    (hread : read words = .ok i) (hrefused : ∃ word ∈ i.leftovers, ¬ Settings.Acceptable word)
    (hvalues : DifferInValues words words') :
    ∃ e, Settings.FirstRefusal i.leftovers e ∧ i.leftovers.Sublist words ∧
      run words host =
        { ending := .status 2
          output := ""
          errors := "Config error: " ++ e.message ++ "\n"
          launches := [] } ∧
      run words' host' = run words host := by
  obtain ⟨e, he⟩ := Settings.exists_not_acceptable_iff.1 hrefused
  have hagree := read_differInValues hvalues
  rw [hread] at hagree
  generalize hread' : read words' = reading at hagree
  cases hagree with
  | go h =>
    obtain ⟨t, g, rfl⟩ := h
    have hsame : run words' host' = run words host := by
      rw [run_of_read hread, run_of_read hread', Invocation.run_refused he]
      exact Invocation.run_refused he
    exact ⟨e, Settings.ofWords_eq_error_iff.1 he, leftovers_sublist hread,
      (run_of_read hread host).trans (Invocation.run_refused he), hsame⟩

/-- A dropped template path and an unknown word behind a refused width change nothing. -/
theorem run_refused_width :
    read ["--template=--", "--show-config", "--lineWidth=0", "o.png", "--bogus"] =
        .ok ⟨"o.png", some none, some "gnuplot", false, true, ["--lineWidth=0", "--bogus"]⟩ ∧
      ¬ Settings.Acceptable "--lineWidth=0" ∧
      DifferInValues ["--template=--", "--show-config", "--lineWidth=0", "o.png", "--bogus"]
        ["--template=t.plt", "--show-config", "--lineWidth=0", "o.png", "--bogus"] ∧
      ∃ e, Settings.FirstRefusal ["--lineWidth=0", "--bogus"] e ∧
        run ["--template=--", "--show-config", "--lineWidth=0", "o.png", "--bogus"]
            ⟨fun path => .error (.noSuchFile path), .ample "0", fun _ _ => .ok 0⟩ =
          { ending := .status 2
            output := ""
            errors := "Config error: " ++ e.message ++ "\n"
            launches := [] } ∧
        run ["--template=t.plt", "--show-config", "--lineWidth=0", "o.png", "--bogus"]
            ⟨fun path => .error (.isDirectory path), .ample "1", fun _ _ => .ok 1⟩ =
          run ["--template=--", "--show-config", "--lineWidth=0", "o.png", "--bogus"]
            ⟨fun path => .error (.noSuchFile path), .ample "0", fun _ _ => .ok 0⟩ := by
  have hread : read ["--template=--", "--show-config", "--lineWidth=0", "o.png", "--bogus"] =
      .ok ⟨"o.png", some none, some "gnuplot", false, true, ["--lineWidth=0", "--bogus"]⟩ := rfl
  have hrefused : ¬ Settings.Acceptable "--lineWidth=0" := by decide +kernel
  have hvalues : DifferInValues
      ["--template=--", "--show-config", "--lineWidth=0", "o.png", "--bogus"]
      ["--template=t.plt", "--show-config", "--lineWidth=0", "o.png", "--bogus"] := by
    have hdropped : "--template=--" = Valued.template.name ++ "=" ++ "--" := by decide
    have hnamed : "--template=t.plt" = Valued.template.name ++ "=" ++ "t.plt" := by decide
    rw [hdropped, hnamed]
    exact .value .template _ _ (.refl _)
  obtain ⟨e, hfirst, _, hrun, hsame⟩ :=
    @run_refused_word _ _ _ ⟨fun path => .error (.noSuchFile path), .ample "0", fun _ _ => .ok 0⟩
      ⟨fun path => .error (.isDirectory path), .ample "1", fun _ _ => .ok 1⟩ hread
      ⟨_, List.mem_cons_self, hrefused⟩ hvalues
  exact ⟨hread, hrefused, hvalues, e, hfirst, hrun, hsame⟩

end WavePlot
