import WavePlot.Proofs.Run.Course
import WavePlot.Proofs.Template.Encodable
import WavePlot.Proofs.Template.Loading

/-!
# What a run comes to

When gnuplot is started, on what, and what the run answers. The statements hold for every command
line that is read and names a program, whatever the files are and however the program behaves: they
are read off the courses that a run can take.
-/

namespace WavePlot

namespace CommandLine.Invocation

/-- Every word is accepted and the template is loaded. -/
structure Prepared (i : Invocation) (host : Host) : Prop where
  words : ∀ word ∈ i.leftovers, Settings.Acceptable word
  template : ∃ template, i.loadTemplate host.read = .ok template

/-- The script is made and is to be plotted, but does not get into a scratch file. -/
def StopsAtScratch (i : Invocation) (host : Host) (f : Gnuplot.Failure) : Prop :=
  i.scriptOnly = false ∧
    ∃ s script, i.Scripted host s script ∧ Gnuplot.Unstored host.storage script f

variable {i : Invocation} {host : Host} {r : Report} {program : Wide} {s : Settings}
  {script : Wide} {f : Gnuplot.Failure}

theorem prepared_iff : i.Prepared host ↔
    (∃ s, Settings.ofWords i.leftovers = .ok s) ∧ ∃ t, i.loadTemplate host.read = .ok t := by
  rw [Settings.exists_ofWords_iff]
  exact ⟨fun h => ⟨h.words, h.template⟩, fun h => ⟨h.1, h.2⟩⟩

theorem Scripted.prepared (h : i.Scripted host s script) : i.Prepared host := by
  obtain ⟨template, htemplate, _⟩ := h.script
  exact prepared_iff.2 ⟨⟨s, h.words⟩, template, htemplate⟩

theorem Scripted.unique {s' : Settings} {script' : Wide} (h : i.Scripted host s script)
    (h' : i.Scripted host s' script') : script = script' := by
  obtain ⟨hwords, _, htemplate, hrender⟩ := h
  obtain ⟨hwords', _, htemplate', hrender'⟩ := h'
  cases hwords.symm.trans hwords'
  cases htemplate.symm.trans htemplate'
  exact Except.ok.inj (hrender.symm.trans hrender')

/-- What is said of all scripts of an invocation is said of its only one. -/
theorem Scripted.forall_iff {P : Wide → Prop} (h : i.Scripted host s script) :
    (∀ s script, i.Scripted host s script → P script) ↔ P script := by
  constructor
  · exact fun hall => hall s script h
  · intro hp _ _ h'
    rwa [← h.unique h']

theorem not_prepared_of_refused {e : SettingError}
    (hwords : Settings.ofWords i.leftovers = .error e) : ¬ i.Prepared host := by
  rw [prepared_iff, hwords]
  simp

theorem not_prepared_of_unloaded {f : Failure}
    (htemplate : i.loadTemplate host.read = .error f) : ¬ i.Prepared host := by
  rw [prepared_iff, htemplate]
  simp

theorem StopsAtScratch.prepared (h : i.StopsAtScratch host f) : i.Prepared host := by
  obtain ⟨_, _, _, hscript, _⟩ := h
  exact hscript.prepared

theorem StopsAtScratch.unique {f' : Gnuplot.Failure} (h : i.StopsAtScratch host f)
    (h' : i.StopsAtScratch host f') : f = f' := by
  obtain ⟨_, _, _, hscript, hstore⟩ := h
  obtain ⟨_, _, _, hscript', hstore'⟩ := h'
  rw [hscript'.unique hscript] at hstore'
  exact hstore.unique hstore'

theorem run_unencodable {e : Text.EncodeFailure} (h : i.StopsAtScratch host (.unencodable e)) :
    ∃ s, Settings.ofWords i.leftovers = .ok s ∧ i.run host =
      { ending := .fault (.plot (.unencodable e)), output := i.listed s } := by
  obtain ⟨honly, s, script, hscript, hstore⟩ := h
  rw [run_scripted hscript, honly, if_neg Bool.false_ne_true]
  unfold plot
  rw [Gnuplot.run_of_unstored hstore]
  exact ⟨s, hscript.words, rfl⟩

/-- Words and an output that are strings make a script that gets into an ample scratch file. -/
theorem Scripted.exists_stored {stem : String} (h : i.Scripted host s script)
    (hstorage : host.storage = .ample stem) (houtput : ∃ t : String, i.output = t)
    (hstrings : ∀ word ∈ i.leftovers, ∃ t : String, word = t) :
    ∃ stem, Gnuplot.Stored host.storage stem script := by
  obtain ⟨hwords, _, _, hrender⟩ := h
  obtain ⟨t, rfl⟩ := Settings.exists_script_eq_string hwords hrender houtput hstrings
  rw [hstorage]
  exact ⟨stem, Gnuplot.stored_ample stem t⟩

/-- The built-in template has a place for the output's name, so a name that is no string stops the
run at the scratch file. -/
theorem exists_stopsAtScratch_of_output {stem : String} (hprepared : i.Prepared host)
    (honly : i.scriptOnly = false) (hbuiltin : i.template = none)
    (houtput : ¬ ∃ t : String, i.output = t) (hcreate : host.storage.create = .ok stem) :
    ∃ e, i.StopsAtScratch host (.unencodable e) := by
  obtain ⟨⟨s, hwords⟩, template, htemplate⟩ := prepared_iff.1 hprepared
  obtain ⟨script, hscript⟩ := exists_scripted hwords htemplate
  have hnot : ¬ ∃ t : String, script = t := by
    intro hstring
    obtain ⟨_, other, hother, hrender⟩ := hscript
    have hload : i.loadTemplate host.read = .ok Template.builtin := by
      unfold loadTemplate
      rw [hbuiltin]
      rfl
    cases hload.symm.trans hother
    have hall := (Settings.script_eq_string_iff (Settings.normal_ofWords hwords) hrender).1 hstring
    exact houtput (hall (.outputName, i.output) (by simp [Settings.givenTexts])
      (Template.marker_infix_builtin _))
  cases hfailure : Text.encodeFailure? script with
  | none => exact absurd (Text.encodeFailure?_eq_none_iff.1 hfailure) hnot
  | some e =>
    exact ⟨e, honly, s, script, hscript,
      .unencodable hcreate (Text.encodeFailure?_eq_some_iff.1 hfailure)⟩

/-! ## Templates that cannot be loaded -/

namespace Course

theorem launches_ne_nil_iff (h : i.Course host r) (hprogram : i.gnuplot = some program) :
    r.launches ≠ [] ↔ i.Prepared host ∧ i.scriptOnly = false ∧
      ∀ s script, i.Scripted host s script →
        ∃ stem, Gnuplot.Stored host.storage stem script := by
  cases h with
  | refused hwords => simp [not_prepared_of_refused hwords]
  | unreadable _ htemplate | fault _ htemplate => simp [not_prepared_of_unloaded htemplate]
  | printed _ honly => simp [honly]
  | unstored hscript _ hunstored | unencodable hscript _ hunstored =>
    rw [hscript.forall_iff (P := fun script => ∃ stem, Gnuplot.Stored host.storage stem script)]
    refine iff_of_false (fun h => h rfl) ?_
    rintro ⟨_, _, stem, hstore⟩
    exact hstore.not_unstored hunstored
  | programless _ _ _ hnone => exact absurd (hprogram.symm.trans hnone) (Option.some_ne_none _)
  | unlaunched hscript honly hstore | warned hscript honly hstore
  | plotted hscript honly hstore =>
    rw [hscript.forall_iff (P := fun script => ∃ stem, Gnuplot.Stored host.storage stem script)]
    exact iff_of_true (List.cons_ne_nil _ _) ⟨hscript.prepared, honly, _, hstore⟩

end Course

/-! ## What is written -/

end CommandLine.Invocation

open CommandLine

end WavePlot
