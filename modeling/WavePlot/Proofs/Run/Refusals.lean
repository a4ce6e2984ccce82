import WavePlot.Proofs.Run.Course
import WavePlot.Proofs.Settings.Messages

/-!
# Refused texts as they are reported

Where the first refused word of a run offers a text to a parameter, the run writes one line that
announces the mistake. The text that could not be read can be read off that line: it is quoted, and
no other text gives the same line.
-/

namespace WavePlot

open CommandLine
open Text (AllPrintable IsOneLine)

/-- What is said when the word that offers the text to the parameter is refused. -/
structure RefusalNotice (p : Parameter) (raw : String) (e : SettingError) : Prop where
  invalid : e.IsInvalidValue
  printable : ∀ c ∈ e.message, c.isCharWith Text.isPrintable = true
  unbroken : ∀ c ∈ Text.lineEnds, .char c ∉ e.message
  /-- In a run whose first refused word it is. -/
  reported : ∀ words i host before after, read words = .ok i →
    i.leftovers = before ++ p.word raw :: after →
    (∀ word ∈ before, Settings.Acceptable word) →
    ∃ errors, IsOneLine ("Config error: " ++ e.message) errors ∧
      run words host = { ending := .status 2, output := "", errors, launches := [] }
  quoted : ∀ text : Wide, e.message = "Bad value for --" ++ p.name ++ ": " ++ text →
    ∃ literal : String, text = literal ∧
      ∀ names, Text.StringLiteral.evaluate? names literal = some raw
  distinct : (∃ text : Wide, e.message = "Bad value for --" ++ p.name ++ ": " ++ text) →
    ∀ (t : Settings) (other : String) cause, t.Refuses (.apply (p.word other)) cause →
      other ≠ raw → cause.message ≠ e.message

variable {s : Settings} {p : Parameter} {raw : String} {e : SettingError}

theorem run_of_first_refused {words before after : List Wide} {i : Invocation}
    (hread : read words = .ok i) (hrefuses : s.Refuses (.apply (p.word raw)) e)
    (hleftovers : i.leftovers = before ++ p.word raw :: after)
    (hbefore : ∀ word ∈ before, Settings.Acceptable word) (host : Host) :
    run words host =
      { ending := .status 2
        output := ""
        errors := "Config error: " ++ e.message ++ "\n"
        launches := [] } := by
  have hfirst : Settings.FirstRefusal i.leftovers e :=
    ⟨before, p.word raw, after, hleftovers, hbefore,
      fun t => (Settings.apply_eq_error_congr s t).1 (Settings.apply_of_refuses hrefuses)⟩
  exact (run_of_read hread host).trans
    (Invocation.run_refused (Settings.ofWords_eq_error_iff.2 hfirst))

/-- A refused text is reported on one line of printable characters, and if it could not be read the
line quotes it as a literal that stands for it. -/
theorem refused_text_on_one_line (h : s.Refuses (.apply (p.word raw)) e) :
    RefusalNotice p raw e := by
  have hrefusal := Settings.textRefusal_of_refuses h
  have hprintable := hrefusal.allPrintable_message
  constructor
  case invalid => exact hrefusal.isInvalidValue
  case printable => exact hprintable
  case unbroken => exact hprintable.isOneLine.2
  case reported =>
    intro words i host before after hread hleftovers hbefore
    have hheading : AllPrintable "Config error: " := by decide
    exact ⟨_, (hheading.append hprintable).isOneLine,
      run_of_first_refused hread h hleftovers hbefore host⟩
  case quoted =>
    intro text hmessage
    exact ⟨_, hrefusal.eq_quote hmessage, fun names => Text.StringLiteral.evaluate?_quote names raw⟩
  case distinct =>
    intro hbad t other cause hother hne hsame
    obtain ⟨text, hmessage⟩ := hbad
    have hraw := hrefusal.eq_quote hmessage
    have hquote := (Settings.textRefusal_of_refuses hother).eq_quote (hsame.trans hmessage)
    exact hne (Text.quote_injective (Wide.ofString_inj.1 (hquote.symm.trans hraw)))

/-- A text with both quotation marks, a line end and a character that turns the writing direction,
against the text that is spelled like its escapes. -/
theorem refused_text_on_one_line_of_marks :
    Settings.default.Refuses (.apply "--period=it's\"\n\u202e")
        (.badValue "--period" "it's\"\n\u202e") ∧
      (∀ names, Text.StringLiteral.evaluate? names "'it\\'s\"\\n\\u202e'" =
        some "it's\"\n\u202e") ∧
      (∃ errors,
        IsOneLine "Config error: Bad value for --period: 'it\\'s\"\\n\\u202e'" errors ∧
        run ["--lineWidth=3", "--period=it's\"\n\u202e", "o.png", "--bogus"]
            ⟨fun path => .error (.noSuchFile path), .ample "0", fun _ _ => .ok 0⟩ =
          { ending := .status 2, output := "", errors, launches := [] }) ∧
      ∀ cause, Settings.default.Refuses (.apply "--period=it's\"\\n\\u202e") cause →
        cause.message ≠ "Bad value for --period: 'it\\'s\"\\n\\u202e'" := by
  have hword : "--period=it's\"\n\u202e" = Parameter.period.word "it's\"\n\u202e" := by decide
  have hspelled : "--period=it's\"\\n\\u202e" = Parameter.period.word "it's\"\\n\\u202e" := by
    decide
  have hunread : Parameter.period.kind.read? "it's\"\n\u202e" = none := rfl
  have hrefuses : Settings.default.Refuses (.apply (Parameter.period.word "it's\"\n\u202e"))
      (.badValue "--period" "it's\"\n\u202e") := Settings.refuses_apply_word_of_unread hunread
  have hmessage : (SettingError.badValue "--period" "it's\"\n\u202e").message =
      "Bad value for --" ++ Parameter.period.name ++ ": " ++ "'it\\'s\"\\n\\u202e'" := by
    decide +kernel
  have hshown : "Bad value for --period: 'it\\'s\"\\n\\u202e'" =
      (SettingError.badValue "--period" "it's\"\n\u202e").message := by
    rw [hmessage]
    decide +kernel
  have hline : "Config error: Bad value for --period: 'it\\'s\"\\n\\u202e'" =
      "Config error: " ++ (SettingError.badValue "--period" "it's\"\n\u202e").message := by
    rw [← hshown]
    decide +kernel
  have hread : read ["--lineWidth=3", "--period=it's\"\n\u202e", "o.png", "--bogus"] =
      .ok ⟨"o.png", none, some "gnuplot", false, false,
        ["--lineWidth=3", "--period=it's\"\n\u202e", "--bogus"]⟩ := rfl
  have hwidth : ∀ word ∈ (["--lineWidth=3"] : List Wide), Settings.Acceptable word := by
    intro word hmem
    rw [List.mem_singleton.1 hmem]
    decide +kernel
  have hnotice := refused_text_on_one_line hrefuses
  obtain ⟨_, hliteral, hvalue⟩ := hnotice.quoted _ hmessage
  obtain rfl := Wide.ofString_inj.1 hliteral
  refine ⟨?_, hvalue, ?_, ?_⟩
  · rw [hword]
    exact hrefuses
  · rw [hline]
    refine hnotice.reported _ _ _ ["--lineWidth=3"] ["--bogus"] hread ?_ hwidth
    rw [← hword]
    rfl
  · intro cause hcause
    rw [hspelled] at hcause
    rw [hshown]
    exact hnotice.distinct ⟨_, hmessage⟩ _ _ cause hcause (by decide)

end WavePlot
