import WavePlot.Proofs.Settings.Refusal
import WavePlot.Proofs.Text.Encodable
import WavePlot.Run

/-!
# The courses of a run

An invocation takes one of nine courses: a word is refused, the template is unreadable or no path
at all, the script is printed, it does not get into a scratch file, there is no program to start, or
a program is started and its launch fails, it ends with another status than zero, or it ends with
zero. A course names what led to it and gives the whole report; what is said of runs is read off
the courses.
-/

namespace WavePlot

/-! ## The scratch file -/

namespace Gnuplot

theorem Scratch.contents_write (files : Scratch) (path : String) (text : Wide) :
    (files.write path text).contents path = text := by
  simp [Scratch.write, Scratch.contents]

theorem Scratch.erase_write (files : Scratch) (path : String) (text : Wide) :
    (files.write path text).erase path = files.erase path := by
  simp [Scratch.write, Scratch.erase, List.filter_filter]

/-- The script gets into a scratch file: one can be created, with the given stem in its name, the
script is a string, and it can be written. -/
structure Stored (storage : Storage) (stem : String) (script : Wide) : Prop where
  created : storage.create = .ok stem
  encodable : ∃ s : String, script = s
  written : storage.write script = .ok ()

/-- Why the script does not get into a scratch file. -/
inductive Unstored (storage : Storage) (script : Wide) : Failure → Prop
  | uncreated {e : SystemError} (hcreate : storage.create = .error e) :
      Unstored storage script (.system e)
  | unencodable {stem : String} {e : Text.EncodeFailure} (hcreate : storage.create = .ok stem)
      (hnames : e.Names (fun _ => false) script) : Unstored storage script (.unencodable e)
  | unwritten {stem : String} {e : SystemError} (hcreate : storage.create = .ok stem)
      (hencodable : ∃ s : String, script = s) (hwrite : storage.write script = .error e) :
      Unstored storage script (.system e)

theorem stored_ample (stem script : String) : Stored (.ample stem) stem script :=
  ⟨rfl, ⟨script, rfl⟩, rfl⟩

variable {storage : Storage} {stem : String} {script : Wide} {f : Failure}

theorem stored_or_unstored (storage : Storage) (script : Wide) :
    (∃ stem, Stored storage stem script) ∨ ∃ f, Unstored storage script f := by
  cases hcreate : storage.create with
  | error e => exact Or.inr ⟨_, .uncreated hcreate⟩
  | ok stem =>
    cases hencode : Text.encodeFailure? script with
    | some e =>
      exact Or.inr ⟨_, .unencodable hcreate (Text.encodeFailure?_eq_some_iff.1 hencode)⟩
    | none =>
      have hencodable := Text.encodeFailure?_eq_none_iff.1 hencode
      cases hwrite : storage.write script with
      | error e => exact Or.inr ⟨_, .unwritten hcreate hencodable hwrite⟩
      | ok _ => exact Or.inl ⟨stem, hcreate, hencodable, hwrite⟩

theorem Stored.not_unstored (h : Stored storage stem script) : ¬ Unstored storage script f := by
  intro hf
  cases hf with
  | uncreated hcreate => cases h.created.symm.trans hcreate
  | unencodable _ hnames =>
    cases (Text.encodeFailure?_eq_none_iff.2 h.encodable).symm.trans
      (Text.encodeFailure?_eq_some_iff.2 hnames)
  | unwritten _ _ hwrite => cases h.written.symm.trans hwrite

/-- A script that does not get into a scratch file starts no program and leaves no file. -/
theorem run_of_unstored (h : Unstored storage script f) (launch : Launcher)
    (program? : Option Wide) :
    run storage launch program? script = { launches := [], left := [], result := .error f } := by
  unfold run store
  cases h with
  | uncreated hcreate => rw [hcreate]
  | unencodable hcreate hnames =>
    rw [hcreate, Text.encodeFailure?_eq_some_iff.2 hnames]
    dsimp only
    rw [Scratch.erase_write]
    rfl
  | unwritten hcreate hencodable hwrite =>
    rw [hcreate, Text.encodeFailure?_eq_none_iff.2 hencodable, hwrite]
    dsimp only
    rw [Scratch.erase_write]
    rfl

theorem Unstored.unique {f' : Failure} (h : Unstored storage script f)
    (h' : Unstored storage script f') : f = f' := by
  have hrun := run_of_unstored h (fun _ _ => .ok 0) none
  rw [run_of_unstored h'] at hrun
  cases hrun
  rfl

/-- A script in a scratch file is what the program is started on, and the file is gone
afterwards. -/
theorem run_of_stored (h : Stored storage stem script) (launch : Launcher) (program : Wide) :
    run storage launch (some program) script =
      { launches := [{ program, path := scratchPath stem, script }]
        left := []
        result := (launch program script).mapError .system } := by
  unfold run store
  rw [h.created, Text.encodeFailure?_eq_none_iff.2 h.encodable, h.written]
  dsimp only
  rw [Scratch.contents_write, Scratch.erase_write, Scratch.erase_write]
  rfl

theorem run_of_no_program (h : Stored storage stem script) (launch : Launcher) :
    run storage launch none script =
      { launches := [], left := [], result := .error .noProgram } := by
  unfold run store
  rw [h.created, Text.encodeFailure?_eq_none_iff.2 h.encodable, h.written]
  dsimp only
  rw [Scratch.erase_write, Scratch.erase_write]
  rfl

end Gnuplot

theorem Failure.heading?_setting {words : List Wide} {e : SettingError}
    (h : Settings.ofWords words = .error e) :
    (Failure.setting e).heading? = some "Config error: " := by
  simp [heading?, Settings.isParameterMistake_of_ofWords h]

theorem Failure.heading?_template {e : Template.LoadError} (h : e.isMissingResource = true) :
    (Failure.template e).heading? = some "Template error: " := by
  simp [heading?, h]

namespace Report

theorem fail_expected {f : Failure} {heading : String} (h : f.heading? = some heading)
    (r : Report) : r.fail f =
      { r with ending := .status 2, errors := r.errors ++ heading ++ f.message ++ "\n" } := by
  unfold fail
  rw [h]

theorem fail_unexpected {f : Failure} (h : f.heading? = none) (r : Report) :
    r.fail f = { r with ending := .fault f } := by
  unfold fail
  rw [h]

end Report

namespace CommandLine.Invocation

/-! ## Courses -/

/-- A line for each parameter with its name and its value, if the listing was asked for. -/
def listed (i : Invocation) (s : Settings) : Wide :=
  if i.showConfig then
    Parameter.all.flatMap fun p => p.name ++ ": " ++ (s.value p).shown ++ "\n"
  else ""

theorem listed_eq_listing (i : Invocation) (s : Settings) :
    i.listed s = if i.showConfig then s.listing else "" := by
  simp only [listed, Settings.listing, Settings.entries, List.flatMap_map]

/-- The words are accepted, the template is loaded, and together they make the script. -/
structure Scripted (i : Invocation) (host : Host) (s : Settings) (script : Wide) : Prop where
  words : Settings.ofWords i.leftovers = .ok s
  script : ∃ template, i.loadTemplate host.read = .ok template ∧
    s.render template i.output = .ok script

inductive Course (i : Invocation) (host : Host) : Report → Prop
  | refused {e : SettingError} (hwords : Settings.ofWords i.leftovers = .error e) :
      Course i host { ending := .status 2, errors := "Config error: " ++ e.message ++ "\n" }
  | unreadable {s : Settings} {e : Template.LoadError}
      (hwords : Settings.ofWords i.leftovers = .ok s)
      (htemplate : i.loadTemplate host.read = .error (.template e))
      (hmissing : e.isMissingResource = true) :
      Course i host { i.begin s with
        ending := .status 2
        errors := (i.begin s).errors ++ "Template error: " ++ e.message ++ "\n" }
  | fault {s : Settings} {f : Failure} (hwords : Settings.ofWords i.leftovers = .ok s)
      (htemplate : i.loadTemplate host.read = .error f) (hunexpected : f.heading? = none) :
      Course i host { i.begin s with ending := .fault f }
  | printed {s : Settings} {script : Wide} (hscript : i.Scripted host s script)
      (honly : i.scriptOnly = true) :
      Course i host { ending := .status 0, output := script, errors := i.listed s }
  | unstored {s : Settings} {script : Wide} {e : SystemError}
      (hscript : i.Scripted host s script) (honly : i.scriptOnly = false)
      (hstore : Gnuplot.Unstored host.storage script (.system e)) :
      Course i host
        { ending := .status 2
          output := i.listed s
          errors := "File error: " ++ e.message ++ "\n" }
  | unencodable {s : Settings} {script : Wide} {e : Text.EncodeFailure}
      (hscript : i.Scripted host s script) (honly : i.scriptOnly = false)
      (hstore : Gnuplot.Unstored host.storage script (.unencodable e)) :
      Course i host { ending := .fault (.plot (.unencodable e)), output := i.listed s }
  | programless {s : Settings} {script : Wide} {stem : String}
      (hscript : i.Scripted host s script) (honly : i.scriptOnly = false)
      (hstore : Gnuplot.Stored host.storage stem script) (hprogram : i.gnuplot = none) :
      Course i host { ending := .fault (.plot .noProgram), output := i.listed s }
  | unlaunched {s : Settings} {script program : Wide} {stem : String} {e : SystemError}
      (hscript : i.Scripted host s script) (honly : i.scriptOnly = false)
      (hstore : Gnuplot.Stored host.storage stem script) (hprogram : i.gnuplot = some program)
      (hresult : host.launch program script = .error e) :
      Course i host
        { ending := .status 2
          output := i.listed s
          errors := "File error: " ++ e.message ++ "\n"
          launches := [{ program, path := Gnuplot.scratchPath stem, script }] }
  | warned {s : Settings} {script program : Wide} {stem : String} {code : Int}
      (hscript : i.Scripted host s script) (honly : i.scriptOnly = false)
      (hstore : Gnuplot.Stored host.storage stem script) (hprogram : i.gnuplot = some program)
      (hresult : host.launch program script = .ok code) (hcode : code ≠ 0) :
      Course i host
        { ending := .status 1
          output := i.listed s
          errors := "warning: gnuplot seems to fail, return status: " ++ toString code ++ "\n"
          launches := [{ program, path := Gnuplot.scratchPath stem, script }] }
  | plotted {s : Settings} {script program : Wide} {stem : String}
      (hscript : i.Scripted host s script) (honly : i.scriptOnly = false)
      (hstore : Gnuplot.Stored host.storage stem script) (hprogram : i.gnuplot = some program)
      (hresult : host.launch program script = .ok 0) :
      Course i host
        { ending := .status 0
          output := i.listed s ++ "Generated the plot in " ++ i.output ++ "\n"
          launches := [{ program, path := Gnuplot.scratchPath stem, script }] }

section Run

variable {i : Invocation} {host : Host} {s : Settings}

theorem begin_scriptOnly (honly : i.scriptOnly = true) :
    i.begin s = { ending := .status 0, errors := i.listed s } := by
  simp [begin, listed_eq_listing, honly]

theorem begin_of_not_scriptOnly (honly : i.scriptOnly = false) :
    i.begin s = { ending := .status 0, output := i.listed s } := by
  simp [begin, listed_eq_listing, honly]

@[simp] theorem launches_begin (i : Invocation) (s : Settings) : (i.begin s).launches = [] := by
  unfold begin
  dsimp only
  split_ifs <;> rfl

theorem run_refused {e : SettingError} (hwords : Settings.ofWords i.leftovers = .error e) :
    i.run host = { ending := .status 2, errors := "Config error: " ++ e.message ++ "\n" } := by
  unfold run
  rw [hwords]
  dsimp only
  rw [Report.fail_expected (Failure.heading?_setting hwords), Wide.ofString_empty, List.nil_append]
  rfl

theorem run_unloaded {f : Failure} (hwords : Settings.ofWords i.leftovers = .ok s)
    (htemplate : i.loadTemplate host.read = .error f) : i.run host = (i.begin s).fail f := by
  have hscript : i.script s host.read = .error f := by
    unfold script
    rw [htemplate]
    rfl
  unfold run
  rw [hwords]
  dsimp only
  rw [hscript]

theorem run_scripted {text : Wide} (hscript : i.Scripted host s text) :
    i.run host = if i.scriptOnly then { ending := .status 0, output := text, errors := i.listed s }
      else i.plot host { ending := .status 0, output := i.listed s } text := by
  have htext : i.script s host.read = .ok text := by
    obtain ⟨template, htemplate, hrender⟩ := hscript.script
    unfold script
    simp only [htemplate, hrender, bind, Except.bind, Except.mapError]
  unfold run
  rw [hscript.words]
  dsimp only
  rw [htext]
  cases honly : i.scriptOnly with
  | true => simp [begin_scriptOnly honly]
  | false => simp [begin_of_not_scriptOnly honly]

/-- A template that does not load is unreadable, or a failure that nobody expects. -/
theorem loadTemplate_error {read : Template.Reader} {f : Failure}
    (h : i.loadTemplate read = .error f) :
    (∃ e, f = .template e ∧ e.isMissingResource = true) ∨ f.heading? = none := by
  have hloaded : ∀ path, (Template.load read path).mapError Failure.template = .error f →
      (∃ e, f = .template e ∧ e.isMissingResource = true) ∨ f.heading? = none := by
    intro path hpath
    cases hload : Template.load read path with
    | ok text =>
      rw [hload] at hpath
      cases hpath
    | error e =>
      rw [hload] at hpath
      cases hpath
      by_cases hmissing : e.isMissingResource = true
      · exact Or.inl ⟨e, rfl, hmissing⟩
      · exact Or.inr (by simp [Failure.heading?, hmissing])
  unfold loadTemplate at h
  split at h
  · cases h
    exact Or.inr rfl
  · exact hloaded _ h
  · exact hloaded _ h

theorem exists_scripted {template : String} (hwords : Settings.ofWords i.leftovers = .ok s)
    (htemplate : i.loadTemplate host.read = .ok template) : ∃ text, i.Scripted host s text :=
  ⟨_, hwords, template, htemplate, Settings.render_of_normal (Settings.normal_ofWords hwords) _ _⟩

/-- Handing the script to the program is one of the last six courses. -/
theorem course_plot {text : Wide} (hscript : i.Scripted host s text)
    (honly : i.scriptOnly = false) :
    i.Course host (i.plot host { ending := .status 0, output := i.listed s } text) := by
  unfold plot
  rcases Gnuplot.stored_or_unstored host.storage text with ⟨stem, hstore⟩ | ⟨f, hstore⟩
  · cases hprogram : i.gnuplot with
    | none =>
      rw [Gnuplot.run_of_no_program hstore]
      exact .programless hscript honly hstore hprogram
    | some program =>
      rw [Gnuplot.run_of_stored hstore]
      dsimp only
      cases hresult : host.launch program text with
      | error e => exact .unlaunched hscript honly hstore hprogram hresult
      | ok code =>
        dsimp only [Except.mapError]
        split
        · rename_i heq
          cases heq
        · rename_i heq
          cases heq
          exact .plotted hscript honly hstore hprogram hresult
        · rename_i hcode heq
          cases heq
          exact .warned hscript honly hstore hprogram hresult hcode
  · rw [Gnuplot.run_of_unstored hstore]
    cases f with
    | system e => exact .unstored hscript honly hstore
    | unencodable e => exact .unencodable hscript honly hstore
    | noProgram => cases hstore

/-- Every run takes one of the courses. -/
theorem course_run (i : Invocation) (host : Host) : i.Course host (i.run host) := by
  cases hwords : Settings.ofWords i.leftovers with
  | error e =>
    rw [run_refused hwords]
    exact .refused hwords
  | ok s =>
    cases htemplate : i.loadTemplate host.read with
    | error f =>
      rw [run_unloaded hwords htemplate]
      rcases loadTemplate_error htemplate with ⟨e, rfl, hmissing⟩ | hunexpected
      · rw [Report.fail_expected (Failure.heading?_template hmissing)]
        exact .unreadable hwords htemplate hmissing
      · rw [Report.fail_unexpected hunexpected]
        exact .fault hwords htemplate hunexpected
    | ok template =>
      obtain ⟨text, hscript⟩ := exists_scripted hwords htemplate
      rw [run_scripted hscript]
      cases honly : i.scriptOnly with
      | true => exact .printed hscript honly
      | false => exact course_plot hscript honly

end Run

end CommandLine.Invocation

theorem run_of_read {words : List Wide} {i : CommandLine.Invocation}
    (hread : CommandLine.read words = .ok i) (host : Host) : run words host = i.run host := by
  unfold run
  rw [hread]

theorem run_of_stop {words : List Wide} {stop : CommandLine.Stop}
    (hread : CommandLine.read words = .error stop) (host : Host) :
    run words host = .ofStop stop := by
  unfold run
  rw [hread]

end WavePlot
