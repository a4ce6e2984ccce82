import WavePlot.Proofs.Decimal.Characters
import WavePlot.Proofs.Settings.WidthWords
import WavePlot.Proofs.Text.Quoted

/-!
# Messages about refused texts

A word that offers a text to a parameter is refused for one of five causes: the text cannot be read,
or what has been read is NaN, not positive, infinite or a line width below one. Whatever the text
holds, the message has printable characters only. The message for a text that cannot be read quotes
the text, and no other message begins like it.
-/

namespace WavePlot

open Text (AllPrintable isPrintable)

theorem Decimal.isPrintable_of_isNumeric {c : Char} (h : IsNumeric c) : isPrintable c = true := by
  rcases h with hdigit | hmem
  · have hrange : 48 ≤ c.toNat ∧ c.toNat ≤ 57 := by
      simpa [Char.isDigit, UInt32.le_iff_toNat_le] using hdigit
    exact Text.isPrintable_of_ascii (by omega) (by omega)
  · have hall : ['+', '-', '.', 'e', 'i', 'n', 'f', 'a'].all isPrintable = true := by decide
    exact List.all_eq_true.1 hall c hmem

theorem Parameter.allPrintable_name (p : Parameter) : AllPrintable p.name := by
  cases p <;> decide

/-- No name begins with a capital letter. -/
theorem Parameter.name_append_ne {p : Parameter} {rest other : Wide}
    (hother : other.head? = some (.char 'B')) : p.name ++ rest ≠ other := by
  have hname : ∃ c cs, (p.name : Wide) = c :: cs ∧ c ≠ .char 'B' := by
    cases p <;> exact ⟨_, _, rfl, by decide⟩
  obtain ⟨c, cs, hchars, hne⟩ := hname
  rintro rfl
  rw [hchars] at hother
  exact hne (Option.some.inj hother)

namespace Settings

/-- Why the word that offers the text to the parameter is refused. -/
inductive TextRefusal (p : Parameter) (raw : Wide) : SettingError → Prop where
  | unread (hread : p.kind.read? raw = none) : TextRefusal p raw (.badValue ("--" ++ p.name) raw)
  | isNaN {x : Binary64} (hread : p.kind.read? raw = some (.real x)) (hx : x.isNaN = true) :
      TextRefusal p raw (.isNaN p.name)
  | notPositive {x : Binary64} (hread : p.kind.read? raw = some (.real x))
      (hx : x.isPositive = false) : TextRefusal p raw (.notPositive p.name x)
  | isInfinite {x : Binary64} (hread : p.kind.read? raw = some (.real x))
      (hx : x.isInfinite = true) : TextRefusal p raw (.isInfinite p.name)
  | tooThin {n : Int} (hread : p.kind.read? raw = some (.integer n)) (hn : ¬ 1 ≤ n) :
      TextRefusal p raw (.tooThin n)

variable {s : Settings} {p : Parameter} {raw text : Wide} {v : Value} {e : SettingError}

theorem apply_of_refuses {word : Wide} (h : s.Refuses (.apply word) e) :
    s.apply word = .error e := by
  have hchange : s.change (s.apply word) = (.error e, s) := h
  cases happly : s.apply word with
  | ok t =>
    rw [happly] at hchange
    cases (Prod.ext_iff.1 hchange).1
  | error cause =>
    rw [happly] at hchange
    exact congrArg Except.error (Except.error.inj (Prod.ext_iff.1 hchange).1)

theorem textRefusal_of_accept (hread : p.kind.read? raw = some v) (h : p.accept v = .error e) :
    TextRefusal p raw e := by
  cases p with
  | period | amplitude =>
    obtain ⟨x, _, rfl⟩ := Option.map_eq_some_iff.1 hread
    change (if x.isNaN then Except.error _ else if !x.isPositive then Except.error _
      else if x.isInfinite then Except.error _ else .ok x) = .error e at h
    split_ifs at h with hnan hpositive hinfinite <;> cases h
    · exact .isNaN hread hnan
    · exact .notPositive hread (by simpa using hpositive)
    · exact .isInfinite hread hinfinite
  | xRangeStart | xRangeEnd | yRangeStart | yRangeEnd =>
    obtain ⟨x, _, rfl⟩ := Option.map_eq_some_iff.1 hread
    change (if x.isNaN then Except.error _ else if x.isInfinite then Except.error _ else .ok x) =
      .error e at h
    split_ifs at h with hnan hinfinite <;> cases h
    · exact .isNaN hread hnan
    · exact .isInfinite hread hinfinite
  | shift =>
    obtain ⟨x, _, rfl⟩ := Option.map_eq_some_iff.1 hread
    cases h
  | color | plotWidth | plotHeight =>
    cases hread
    cases h
  | lineWidth =>
    obtain ⟨n, _, rfl⟩ := Option.map_eq_some_iff.1 hread
    rw [accept_lineWidth_of_read? hread] at h
    split_ifs at h with hn
    cases h
    exact .tooThin hread hn

/-- A word that offers a text is refused for one of the causes. -/
theorem textRefusal_of_refuses (h : s.Refuses (.apply (p.word raw)) e) : TextRefusal p raw e := by
  cases hread : p.kind.read? raw with
  | none =>
    have hbad : s.Refuses (.apply (p.word raw)) (.badValue ("--" ++ p.name) raw) :=
      refuses_apply_word_of_unread hread
    cases h.symm.trans hbad
    exact .unread hread
  | some v =>
    exact textRefusal_of_accept hread (refuses_set_iff.1 ((refuses_apply_word_iff hread).1 h))

theorem TextRefusal.isInvalidValue (h : TextRefusal p raw e) : e.IsInvalidValue := by
  cases h <;> exact ⟨rfl, nofun⟩

theorem TextRefusal.allPrintable_message (h : TextRefusal p raw e) : AllPrintable e.message := by
  have hname := p.allPrintable_name
  cases h with
  | unread =>
    have hstart : AllPrintable "Bad value for --" := by decide
    have hcolon : AllPrintable ": " := by decide
    rw [message_badValue]
    exact ((hstart.append hname).append hcolon).append (Text.allPrintable_quote raw)
  | isNaN => exact hname.append (by decide)
  | @notPositive x =>
    have hnumber : AllPrintable x.text := Text.allPrintable_ofString fun c hc =>
      Decimal.isPrintable_of_isNumeric (Decimal.isNumeric_of_mem_text hc)
    exact (hname.append (by decide)).append hnumber
  | isInfinite => exact hname.append (by decide)
  | @tooThin n =>
    have hstart : AllPrintable "Line width is too small: " := by decide
    have hnumber : AllPrintable (toString n) := Text.allPrintable_ofString fun c hc =>
      Decimal.isPrintable_of_isNumeric (Decimal.isNumeric_of_mem_toString hc)
    exact (hstart.append hnumber).append (by decide)

/-- A message that begins like that for an unreadable text is one, and quotes the text. -/
theorem TextRefusal.eq_quote (h : TextRefusal p raw e)
    (hmessage : e.message = "Bad value for --" ++ p.name ++ ": " ++ text) :
    text = Text.quote raw := by
  have hhead : ("Bad value for --" ++ p.name ++ ": " ++ text).head? = some (.char 'B') := rfl
  cases h with
  | unread =>
    rw [message_badValue] at hmessage
    exact (List.append_cancel_left hmessage).symm
  | isNaN => exact absurd hmessage (Parameter.name_append_ne hhead)
  | @notPositive x =>
    have hshape : (SettingError.notPositive p.name x).message =
        p.name ++ (" must be positive, got " ++ x.text : Wide) := List.append_assoc _ _ _
    exact absurd (hshape.symm.trans hmessage) (Parameter.name_append_ne hhead)
  | isInfinite => exact absurd hmessage (Parameter.name_append_ne hhead)
  | @tooThin n =>
    have hfirst : (SettingError.tooThin n).message.head? = some (.char 'L') := rfl
    rw [hmessage, hhead] at hfirst
    exact absurd (Option.some.inj hfirst) (by decide)

end Settings

end WavePlot
