import Mathlib.Data.List.Basic
import WavePlot.Proofs.Settings.RoundTrip
import WavePlot.Proofs.Template.Leftover

/-!
# The built-in script gives the settings away

In the built-in script every text that was put in ends at the delimiter behind its marker, so the
texts are found again one after the other from the left. A number is read back from its text, so
the script determines the output's name and all settings.
-/

namespace WavePlot

theorem Kind.toValue_injective {k : Kind} {x y : k.Carrier} (h : k.toValue x = k.toValue y) :
    x = y := by
  cases k with
  | real => exact Value.real.inj h
  | integer => exact Value.integer.inj h
  | text => exact Value.text.inj h

namespace Template

/-- A character that is in neither front part cuts equal texts at one place. -/
theorem append_cons_inj {c : CodePoint} {u u' v v' : Wide} (hu : c ∉ u) (hu' : c ∉ u')
    (h : u ++ c :: v = u' ++ c :: v') : u = u' ∧ v = v' := by
  have hlength := congrArg (List.idxOf c) h
  rw [List.idxOf_append_of_notMem hu, List.idxOf_append_of_notMem hu', List.idxOf_cons_self,
    List.idxOf_cons_self, Nat.add_zero, Nat.add_zero] at hlength
  obtain ⟨hfront, hback⟩ := List.append_inj h hlength
  exact ⟨hfront, (List.cons.inj hback).2⟩

/-- Texts that do not have some character of the literal text behind them are determined by what
they spell. -/
theorem Pieces.eq_of_spell_eq {texts texts' : Placeholder → Wide} {first : Wide}
    {rest : List (Placeholder × Wide)}
    (hends : ∀ piece ∈ rest, ∃ c ∈ piece.2, c ∉ texts piece.1 ∧ c ∉ texts' piece.1)
    (hspell : spell texts ⟨first, rest⟩ = spell texts' ⟨first, rest⟩) :
    ∀ piece ∈ rest, texts piece.1 = texts' piece.1 := by
  induction rest generalizing first with
  | nil => simp
  | cons piece rest ih =>
    rw [List.forall_mem_cons] at hends ⊢
    obtain ⟨⟨c, hc, hnot, hnot'⟩, hends⟩ := hends
    obtain ⟨before, after, hliteral, hbefore⟩ := List.eq_append_cons_of_mem hc
    have hsplit : ∀ texts : Placeholder → Wide, spell texts ⟨first, piece :: rest⟩ =
        first ++ ((texts piece.1 ++ before) ++ c :: spell texts ⟨after, rest⟩) := by
      intro texts
      rw [spell_cons, hliteral]
      simp [spell]
    rw [hsplit, hsplit, List.append_cancel_left_eq] at hspell
    obtain ⟨htext, hbehind⟩ := append_cons_inj (by simp [hnot, hbefore])
      (by simp [hnot', hbefore]) hspell
    exact ⟨List.append_cancel_right htext, ih hends hbehind⟩

theorem not_isNumeric_delimiter (h : Placeholder) : ¬ Decimal.IsNumeric (delimiter h) := by
  have hall : ∀ h ∈ Placeholder.all, ¬ Decimal.IsNumeric (delimiter h) := by decide
  exact hall h h.mem_all

/-- The built-in template is filled alike only with texts that are alike, if none of them has its
delimiter. -/
theorem fill_builtin_injective {texts texts' : Placeholder → Wide}
    (h : ∀ h, .char (delimiter h) ∉ texts h) (h' : ∀ h, .char (delimiter h) ∉ texts' h)
    (hfill : fill texts builtin = fill texts' builtin) : texts = texts' := by
  rw [fill_eq_fillAmong_all, fill_eq_fillAmong_all,
    fillAmong_spell Placeholder.mem_all _ apart_builtinPieces.plain spell_builtinPieces,
    fillAmong_spell Placeholder.mem_all _ apart_builtinPieces.plain spell_builtinPieces]
    at hfill
  funext k
  obtain ⟨literal, hmem⟩ := mem_builtinPieces k
  have hends : ∀ piece ∈ builtinPieces.rest, ∃ c ∈ piece.2,
      c ∉ texts piece.1 ∧ c ∉ texts' piece.1 :=
    fun piece hpiece => ⟨_, delimiter_mem piece hpiece, h piece.1, h' piece.1⟩
  exact Pieces.eq_of_spell_eq hends hfill _ hmem

end Template

open Template

namespace Settings

/-- No text of the user's has a line feed, and the width of the plot has no comma. -/
structure Delimited (s : Settings) (output : Wide) : Prop where
  lines : ∀ given ∈ s.givenTexts output, .char '\n' ∉ given.2
  width : .char ',' ∉ s.plotWidth

variable {s t : Settings} {output output' : Wide}

/-- No text that is put into the built-in template has its delimiter. -/
theorem Delimited.delimiter_not_mem (hd : s.Delimited output) (h : Placeholder) :
    .char (delimiter h) ∉ s.placeholderText output h := by
  cases h with
  | outputName => exact hd.lines (.outputName, output) (by simp [givenTexts])
  | setting p =>
    by_cases hp : p.kind = .text
    · cases p with
      | color => exact hd.lines (.setting .color, s.color) (by simp [givenTexts])
      | plotWidth => exact hd.width
      | plotHeight => exact hd.lines (.setting .plotHeight, s.plotHeight) (by simp [givenTexts])
      | _ => cases hp
    · obtain ⟨numeral, heq, hnumeric⟩ := s.exists_numeral_of_shown hp
      intro hmem
      rw [placeholderText, heq, Wide.char_mem_ofString] at hmem
      exact not_isNumeric_delimiter _ (hnumeric _ hmem)

/-- Normal values that are shown alike are the same. -/
theorem eq_of_shown_eq (hs : s.Normal) (ht : t.Normal)
    (h : ∀ p, (s.value p).shown = (t.value p).shown) : s = t := by
  refine ext_get fun p => Kind.toValue_injective (Option.some.inj ?_)
  rw [← Parameter.read?_shown (hs p), ← Parameter.read?_shown (ht p)]
  exact congrArg p.kind.read? (h p)

/-- Reachable settings with the same built-in script are the same, and so is the output's name, if
no text of the user's has a line feed and no width of the plot a comma. -/
theorem render_builtin_injective (hs : s.Reachable) (ht : t.Reachable)
    (hds : s.Delimited output) (hdt : t.Delimited output')
    (hscript : s.render builtin output = t.render builtin output') :
    output = output' ∧ s = t := by
  have hns := normal_of_reachable hs
  have hnt := normal_of_reachable ht
  rw [render_of_normal hns, render_of_normal hnt, Except.ok.injEq] at hscript
  have htexts : s.placeholderText output = t.placeholderText output' :=
    fill_builtin_injective hds.delimiter_not_mem hdt.delimiter_not_mem hscript
  exact ⟨congrFun htexts .outputName, eq_of_shown_eq hns hnt fun p => congrFun htexts (.setting p)⟩

/-- A short colour and the long form that it stands for; the output's name has an apostrophe, a
comma and a marker. -/
theorem render_builtin_injective_of_colors :
    Reachable (default.perform (.set .color (.text "#1bc"))).2 ∧
      Reachable (default.perform (.set .color (.text "#11bbcc"))).2 ∧
      (default.perform (.set .color (.text "#1bc"))).2.Delimited "it's, \x7bCOLOR\x7d" ∧
      (default.perform (.set .color (.text "#1bc"))).2 =
        (default.perform (.set .color (.text "#11bbcc"))).2 := by
  have hshort : (default.perform (.set .color (.text "#1bc"))).2 =
      default.put .color "#11bbcc" := by
    have hexpand : Color.expand "#1bc" = "#11bbcc" := by decide +kernel
    exact congrArg (default.put .color) hexpand
  have hlong : (default.perform (.set .color (.text "#11bbcc"))).2 =
      default.put .color "#11bbcc" := by
    have hexpand : Color.expand "#11bbcc" = "#11bbcc" := by decide +kernel
    exact congrArg (default.put .color) hexpand
  have hdelimited : (default.put .color "#11bbcc").Delimited "it's, \x7bCOLOR\x7d" :=
    ⟨by decide +kernel, by decide +kernel⟩
  have hdefault : default.Reachable := @Reachable.start [] default rfl
  have hs := hdefault.perform (.set .color (.text "#1bc"))
  have ht := hdefault.perform (.set .color (.text "#11bbcc"))
  have hds := hshort.symm ▸ hdelimited
  have hdt := hlong.symm ▸ hdelimited
  have hscript : (default.perform (.set .color (.text "#1bc"))).2.render builtin
      "it's, \x7bCOLOR\x7d" = (default.perform (.set .color (.text "#11bbcc"))).2.render builtin
      "it's, \x7bCOLOR\x7d" := by rw [hshort, hlong]
  exact ⟨hs, ht, hds, (render_builtin_injective hs ht hds hdt hscript).2⟩

end Settings

end WavePlot
