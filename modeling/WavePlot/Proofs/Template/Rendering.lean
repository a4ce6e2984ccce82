import WavePlot.Proofs.Settings.Invariant
import WavePlot.Proofs.Template.Pieces

/-!
# Rendering is simultaneous substitution

A template has exactly one cut into literal texts and markers. Rendering keeps the literal texts
and puts each placeholder's text in its marker's place, so what was put in is never looked at
again. The order in which the scan tries the placeholders does not matter.
-/

namespace WavePlot

namespace Template

/-- The filled template when the placeholders are tried in the given order. -/
def fillAmong (among : List Placeholder) (texts : Placeholder → Wide) (template : Wide) : Wide :=
  (segmentsAmong among template).flatMap (Segment.fill texts)

theorem fill_eq_fillAmong_all (texts : Placeholder → Wide) (template : Wide) :
    fill texts template = fillAmong Placeholder.all texts template :=
  fill_eq texts template

/-- Filling spells the cut with the placeholders' texts. -/
theorem fillAmong_spell {among : List Placeholder} (hall : ∀ h, h ∈ among)
    (texts : Placeholder → Wide) {template : Wide} {p : Pieces} (hp : p.Plain)
    (hspell : p.spell Placeholder.marker = template) :
    fillAmong among texts template = p.spell texts := by
  rw [fillAmong, ← hspell, segmentsAmong_spell hall hp, Pieces.flatMap_fill]

/-- An occurrence of a marker is replaced, and the texts around it are filled on their own. -/
theorem fill_append_marker (texts : Placeholder → Wide) (before after : Wide) (h : Placeholder) :
    fill texts (before ++ (h.marker ++ after)) =
      fill texts before ++ (texts h ++ fill texts after) := by
  obtain ⟨p, hp, hpspell⟩ := exists_plain_pieces before
  obtain ⟨q, hq, hqspell⟩ := exists_plain_pieces after
  have hjoin : (p.join h q).spell Placeholder.marker = before ++ (h.marker ++ after) := by
    rw [Pieces.spell_join, hpspell, hqspell]
  have hall := Placeholder.mem_all
  simp only [fill_eq_fillAmong_all]
  rw [fillAmong_spell hall texts (Pieces.plain_join hp hq h) hjoin,
    fillAmong_spell hall texts hp hpspell, fillAmong_spell hall texts hq hqspell,
    Pieces.spell_join]

end Template

open Template

namespace Settings

/-- In every reachable state, rendering replaces the markers of the template's only cut, all at
once and whatever order the placeholders are tried in. -/
theorem render_substitutes {s : Settings} (hs : s.Reachable) (template output : Wide) :
    ∃ texts, s.placeholderTexts output = .ok texts ∧
      (∃! p : Pieces, p.Plain ∧ p.spell Placeholder.marker = template) ∧
      (∀ p : Pieces, p.Plain → p.spell Placeholder.marker = template →
        s.render template output = .ok (p.spell texts) ∧
        ∀ order : List Placeholder, order.Perm Placeholder.all →
          s.render template output = .ok (fillAmong order texts template)) ∧
      ∀ (before after : Wide) (h : Placeholder), template = before ++ (h.marker ++ after) →
        ∃ left right, s.render before output = .ok left ∧ s.render after output = .ok right ∧
          s.render template output = .ok (left ++ (texts h ++ right)) := by
  have hn := normal_of_reachable hs
  refine ⟨s.placeholderText output, placeholderTexts_of_normal hn output,
    existsUnique_plain_pieces template, ?_, ?_⟩
  · intro p hp hspell
    simp only [render_of_normal hn, Except.ok.injEq, fill_eq_fillAmong_all]
    refine ⟨fillAmong_spell Placeholder.mem_all _ hp hspell, ?_⟩
    intro order horder
    have hall : ∀ h, h ∈ order := fun h => horder.mem_iff.2 h.mem_all
    rw [fillAmong_spell Placeholder.mem_all _ hp hspell, fillAmong_spell hall _ hp hspell]
  · rintro before after h rfl
    refine ⟨_, _, render_of_normal hn before output, render_of_normal hn after output, ?_⟩
    rw [render_of_normal hn, fill_append_marker]

/-- A marker between two more braces is replaced between them, also by a scan that tries the
placeholders from last to first. -/
theorem render_nested_marker :
    default.Reachable ∧
      ∃ texts, default.placeholderTexts "out.png" = .ok texts ∧
        default.render "\x7b\x7bCOLOR\x7d\x7d" "out.png" =
          .ok (.char '\x7b' :: (texts (.setting .color) ++ [.char '\x7d'])) ∧
        default.render "\x7b\x7bCOLOR\x7d\x7d" "out.png" =
          .ok (fillAmong Placeholder.all.reverse texts "\x7b\x7bCOLOR\x7d\x7d") := by
  have hreach : default.Reachable := @Reachable.start [] default rfl
  have hplain : Pieces.Plain
      ⟨[.char '\x7b'], [(.setting .color, [.char '\x7d'])]⟩ := by
    intro literal hmem h hinfix
    have hlen : literal.length = 1 := by
      rcases List.mem_pair.1 hmem with rfl | rfl <;> rfl
    have hle := hinfix.length_le
    simp [Placeholder.marker, hlen] at hle
  obtain ⟨texts, htexts, _, hcut, _⟩ :=
    render_substitutes hreach "\x7b\x7bCOLOR\x7d\x7d" "out.png"
  obtain ⟨hrender, horder⟩ := hcut _ hplain rfl
  refine ⟨hreach, texts, htexts, ?_, horder _ (List.reverse_perm _)⟩
  simpa [Pieces.spell] using hrender

end Settings

end WavePlot
