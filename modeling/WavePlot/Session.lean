import WavePlot.Settings.Assignment
import WavePlot.Template.Basic

/-!
# Sessions

A session performs steps on settings one after the other. A step that fails leaves the settings
as they were and does not end the session.
-/

namespace WavePlot

inductive Step where
  | set (p : Parameter) (v : Value)
  | get (p : Parameter)
  | apply (word : Wide)
  | render (template output : Wide)
  | texts (output : Wide)

/-- What a step that succeeds answers. -/
inductive Answer where
  | done
  | value (v : Value)
  | script (text : Wide)
  | texts (entries : List (Placeholder × Wide))

namespace Settings

def placeholderEntries (s : Settings) (output : Wide) :
    Except SettingError (List (Placeholder × Wide)) :=
  (s.placeholderTexts output).map fun texts => Placeholder.all.map fun h => (h, texts h)

/-- The settings after a change, if it succeeds. -/
def change (s : Settings) : Except SettingError Settings → Except SettingError Answer × Settings
  | .ok t => (.ok .done, t)
  | .error e => (.error e, s)

/-- The answer to a step, and the settings after it. -/
def perform (s : Settings) : Step → Except SettingError Answer × Settings
  | .set p v => s.change (s.assign p v)
  | .get p => (.ok (.value (s.value p)), s)
  | .apply word => s.change (s.apply word)
  | .render template output => ((s.render template output).map .script, s)
  | .texts output => ((s.placeholderEntries output).map .texts, s)

/-- The answers to steps performed in turn, each with the settings after it. -/
def performAll (s : Settings) : List Step → List (Except SettingError Answer × Settings)
  | [] => []
  | step :: rest =>
    let outcome := s.perform step
    outcome :: performAll outcome.2 rest

end Settings

end WavePlot
